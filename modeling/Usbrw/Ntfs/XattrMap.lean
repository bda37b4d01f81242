import Mathlib.Data.List.Nodup
import Usbrw.Ntfs.XattrReference

/-!
# Ntfs.XattrMap

The extended attributes as a finite map from names to values.

* `xattrs`, `XattrCall.apply` — the map that the streams stand for, and what a call does to it.
* `Presents` — `nfsk_getxattr` and `nfsk_listxattr` answer as the map says.
* `call_refines`  — a successful call does to the streams what it does to the map.
* `xattrs_refine` — so after any run the answers are those of the map.
-/

namespace Usbrw
namespace Ntfs

open Call

variable {σ : Type} {lib : Libxattr σ} {V : XattrView σ} {S : Streams}
  {K : UInt64 → Option UInt32}

/-! ## One call -/

section Flags

theorem xattrFlags_eq_zero (f : UInt32) :
    f &&& xattrFlags = 0 ↔ f &&& FILE_ATTR_REPARSE_POINT = 0 ∧ f &&& FILE_ATTR_SYSTEM = 0 := by
  have hpart : ∀ bit, xattrFlags &&& bit = bit → f &&& xattrFlags = 0 → f &&& bit = 0 := by
    intro bit hbit h
    rw [← hbit, ← UInt32.and_assoc, h, UInt32.zero_and]
  constructor
  · intro h
    exact ⟨hpart _ (by decide) h, hpart _ (by decide) h⟩
  · intro h
    have hsplit : f &&& xattrFlags =
        (f &&& FILE_ATTR_REPARSE_POINT) ||| (f &&& FILE_ATTR_SYSTEM) :=
      UInt32.toBitVec_inj.mp BitVec.and_or_distrib_left
    rw [hsplit, h.1, h.2]
    rfl

theorem archive_xattrFlags (f : UInt32) :
    (f ||| FILE_ATTR_ARCHIVE) &&& xattrFlags = f &&& xattrFlags := by
  have hnone : FILE_ATTR_ARCHIVE &&& xattrFlags = 0 := by decide
  rw [or_and_distrib, hnone, UInt32.or_zero]

theorem nfskXattrOk_iff (hL : LawfulXattr lib V) {ni : NtfsInode} {s : σ} {k : UInt32}
    (hs : V.Is S K s) (hk : K ni.mftNo = some k) : nfskXattrOk lib ni s = true ↔ k = 0 := by
  rw [← hL.flags S K ni s k hs hk, xattrFlags_eq_zero]
  unfold nfskXattrOk
  by_cases h1 : lib.flags ni s &&& FILE_ATTR_REPARSE_POINT = 0
  · by_cases h2 : lib.flags ni s &&& FILE_ATTR_SYSTEM = 0
    · simp [h1, h2]
    · simp [h1, h2]
  · simp [h1]

theorem setArchive_is (hL : LawfulXattr lib V) (ni : NtfsInode) {s : σ} (hs : V.Is S K s) :
    V.Is S K (NFSK_SET_ARCHIVE lib ni s) :=
  hL.setFlags S K ni _ s (archive_xattrFlags _) hs

theorem markArchive_is (hL : LawfulXattr lib V) (ni : NtfsInode) {s : σ} (hs : V.Is S K s) :
    V.Is S K (markArchive lib ni s) := by
  unfold markArchive
  split
  · exact setArchive_is hL ni hs
  · exact hs

end Flags

theorem checkXattr_spec (ni : NtfsInode) (res : Int) (hres : res < 0) :
    Spec (V.Is S K) (checkXattr lib ni res) (fun _ => V.Is S K) fun e _ => e < 0 := by
  intro s hs
  unfold checkXattr
  cases nfskXattrOk lib ni s with
  | true => exact hs
  | false => exact hres

/-- A stream is added under its name cut short, unless it exists. -/
theorem attrAdd_spec (hL : LawfulXattr lib V) (ni : NtfsInode) (u : List UInt16) :
    Spec (V.Is S K) (lib.attrAdd ni (u8Name u))
      (fun _ => V.Is (Function.update S (ni.mftNo, u8Name u) (some [])) K) fun _ _ => True := by
  cases hold : S (ni.mftNo, u8Name u) with
  | none => exact hL.attrAdd S K ni (u8Name u) (u8Name_lt u) hold
  | some v =>
    exact (hL.addExisting S K ni (u8Name u) v hold).conseq (fun _ _ h => h.elim)
      fun _ _ _ => trivial

theorem update_u8Name {u : List UInt16} (hlong : ¬ u.length < 256) (S : Streams) (r : UInt64)
    (value : Option (List UInt8)) : Function.update S (r, u8Name u) value (r, u) = S (r, u) :=
  Function.update_of_ne (fun h => u8Name_ne hlong (Prod.mk.inj h).2.symm) _ _

theorem emptyAttr_spec (hL : LawfulXattr lib V) (ni : NtfsInode) (u : List UInt16) :
    Spec (V.Is S K) (emptyAttr lib ni u)
      (fun na s => (na.inode = ni ∧ na.name = u) ∧
        V.Is (Function.update S (ni.mftNo, u) (some [])) K s)
      fun e _ => e < 0 := by
  unfold emptyAttr
  refine Spec.bind_attempt (hL.attrOpen S K ni u) ?_ ?_
  · intro na
    refine Spec.assume fun hna => ?_
    obtain ⟨v, hv, rfl⟩ := hna
    refine Spec.bind (Spec.onFail (E := fun e _ => e < 0)
      (Spec.orFail (hL.attrTruncate S K ⟨ni, u, v.length⟩ v hv) fun e _ _ => negErrno_neg e)
      fun _ _ he => he) fun _ => ?_
    exact Spec.pure fun s hs => ⟨⟨rfl, rfl⟩, hs⟩
  · intro _
    refine Spec.assume fun hnone => ?_
    refine Spec.bind_orFail (attrAdd_spec hL ni u) (fun e _ _ => negErrno_neg e) fun _ => ?_
    refine Spec.bind (Q := fun _ => V.Is (Function.update S (ni.mftNo, u8Name u) (some [])) K)
      (Spec.modify fun s hs => markArchive_is hL ni hs) fun _ => ?_
    refine Spec.orFail (Spec.conseq_ok (hL.attrOpen _ K ni u) ?_) fun e _ _ => negErrno_neg e
    rintro na s ⟨⟨v, hv, rfl⟩, hs⟩
    -- A stream with this name is there only if it is the one that was added.
    by_cases hshort : u.length < 256
    · rw [u8Name_of_lt hshort] at hs
      exact ⟨⟨rfl, rfl⟩, hs⟩
    · rw [update_u8Name hshort, hnone] at hv
      cases hv

theorem overwrite_end (value bytes : List UInt8) :
    overwrite value value.length bytes = value ++ bytes := by
  have hdrop : value.drop (value.length + bytes.length) = [] :=
    List.drop_eq_nil_of_le (by omega)
  rw [overwrite, List.take_length, hdrop, List.append_nil]

/-- A library whose writes to the stream `na` do what the laws say and fail into `D`. -/
def Writes (lib : Libxattr σ) (V : XattrView σ) (S : Streams) (K : UInt64 → Option UInt32)
    (na : StreamAttr) (buf : List UInt8) (D : Int → σ → Prop) : Prop :=
  ∀ total, total < buf.length →
    Spec (V.Is (Function.update S (na.inode.mftNo, na.name) (some (buf.take total))) K)
      (lib.attrPwrite na total (buf.drop total))
      (fun part s => (0 < part ∧ part ≤ (buf.drop total).length) ∧
        V.Is (Function.update (Function.update S (na.inode.mftNo, na.name) (some (buf.take total)))
          (na.inode.mftNo, na.name)
          (some (overwrite (buf.take total) total ((buf.drop total).take part)))) K s)
      fun e s => D (negErrno e) s

/-- The value is written however the library divides it up. What is written before each pass is a
first part of the value. -/
theorem writeValue_loop {na : StreamAttr} {buf : List UInt8} {D : Int → σ → Prop}
    (hwrite : Writes lib V S K na buf D) : ∀ left total, total + left = buf.length →
      Spec (V.Is (Function.update S (na.inode.mftNo, na.name) (some (buf.take total))) K)
        (writeValue lib na buf total)
        (fun _ => V.Is (Function.update S (na.inode.mftNo, na.name) (some buf)) K) D := by
  intro left
  induction left using Nat.strongRecOn with
  | ind left ih =>
    intro total htotal
    rw [writeValue]
    by_cases hleft : total < buf.length
    · rw [dif_pos hleft]
      refine Spec.bind_orFail (hwrite total hleft) (fun _ _ h => h) fun part => ?_
      refine Spec.assume fun hpart => ?_
      obtain ⟨hpos, hle⟩ := hpart
      rw [List.length_drop] at hle
      have hlen : (buf.take total).length = total := by
        rw [List.length_take]
        omega
      have hwritten : overwrite (buf.take total) total ((buf.drop total).take part) =
          buf.take (total + part) := by
        have hend := overwrite_end (buf.take total) ((buf.drop total).take part)
        rwa [hlen, ← List.take_add] at hend
      rw [Function.update_idem, hwritten, dif_neg (Nat.ne_of_gt hpos)]
      exact ih (left - part) (by omega) (total + part) (by omega)
    · rw [dif_neg hleft, List.take_of_length_le (by omega)]
      exact Spec.pure fun _ hs => hs

theorem length_take_of_lt {buf : List UInt8} {total : Nat} (h : total < buf.length) :
    total ≤ (buf.take total).length := by
  rw [List.length_take]
  omega

theorem drop_ne_nil {buf : List UInt8} {total : Nat} (h : total < buf.length) :
    buf.drop total ≠ [] := by
  rw [ne_eq, List.drop_eq_nil_iff]
  omega

theorem LawfulXattr.writes (hL : LawfulXattr lib V) (na : StreamAttr) (buf : List UInt8) :
    Writes lib V S K na buf fun e _ => e < 0 := fun total hlt =>
  (hL.attrPwrite _ K na (buf.take total) total (buf.drop total) (Function.update_self _ _ _)
    (length_take_of_lt hlt) (drop_ne_nil hlt)).conseq_error fun e _ _ => negErrno_neg e

theorem setxattrBody_spec (hL : LawfulXattr lib V) {name : List UInt8} {u : List UInt16}
    (hu : lib.mbstoucs name = .ok u) (buf : List UInt8) (ni : NtfsInode) :
    Spec (V.Is S K) (setxattrBody lib name buf ni)
      (fun _ => V.Is (Function.update S (ni.mftNo, u) (some buf)) K) fun e _ => e < 0 := by
  unfold setxattrBody
  refine Spec.bind (checkXattr_spec ni _ (by decide)) fun _ => ?_
  rw [orFail_bind_convert hu]
  refine Spec.bind (emptyAttr_spec hL ni u) fun na => ?_
  refine Spec.assume fun hna => ?_
  obtain ⟨rfl, rfl⟩ := hna
  refine Spec.afterwards (Q := fun _ =>
      V.Is (Function.update S (na.inode.mftNo, na.name) (some buf)) K) (E := fun e _ => e < 0)
    ?_ (fun _ s hs => hL.attrClose _ K na s hs) fun _ _ he => he
  have hwrite := writeValue_loop (hL.writes (S := S) (K := K) na buf) buf.length 0 (Nat.zero_add _)
  refine Spec.bind hwrite fun _ => ?_
  refine Spec.bind_orFail (hL.attrPclose _ K na) (fun e _ _ => negErrno_neg e) fun _ => ?_
  refine Spec.bind (Q := fun _ =>
      V.Is (Function.update S (na.inode.mftNo, na.name) (some buf)) K)
    (Spec.modify fun s hs => hL.inodeUpdateTimes _ K na.inode .ctime s hs) fun _ => ?_
  exact Spec.modify fun s hs => markArchive_is hL na.inode hs

theorem removexattrBody_spec (hL : LawfulXattr lib V) {name : List UInt8} {u : List UInt16}
    (hu : lib.mbstoucs name = .ok u) (ni : NtfsInode) :
    Spec (V.Is S K) (removexattrBody lib name ni)
      (fun _ => V.Is (Function.update S (ni.mftNo, u) none) K) fun e _ => e < 0 := by
  unfold removexattrBody
  refine Spec.bind (checkXattr_spec ni _ (by decide)) fun _ => ?_
  rw [orFail_bind_convert hu]
  refine Spec.bind_orFail (hL.attrOpen S K ni u) (fun _ _ _ => by decide) fun na => ?_
  refine Spec.assume fun hna => ?_
  obtain ⟨v, _, rfl⟩ := hna
  refine Spec.afterwards (Q := fun _ => V.Is (Function.update S (ni.mftNo, u) none) K)
    (E := fun e _ => e < 0) ?_ (fun _ s hs => hL.attrClose _ K _ s hs) fun _ _ he => he
  refine Spec.bind_orFail (hL.attrRm S K ⟨ni, u, v.length⟩) (fun e _ _ => negErrno_neg e)
    fun _ => ?_
  refine Spec.bind (Q := fun _ => V.Is (Function.update S (ni.mftNo, u) none) K)
    (Spec.modify fun s hs => hL.inodeUpdateTimes _ K ni .ctime s hs) fun _ => ?_
  exact Spec.modify fun s hs => setArchive_is hL ni hs

theorem outNi_zero (hL : LawfulXattr lib V) (ni : NtfsInode) (res : Int) {s : σ}
    (hs : V.Is S K s) : ∃ s', outNi lib ni res s = (res, s') ∧ V.Is S K s' := by
  have hclose := hL.inodeClose S K ni s hs
  unfold outNi
  cases hc : lib.inodeClose ni s with
  | ok _ s' =>
    rw [hc] at hclose
    exact ⟨s', rfl, hclose⟩
  | error e s' =>
    rw [hc] at hclose
    exact hclose.elim

theorem outNi_ne_zero (ni : NtfsInode) {res : Int} (hres : res < 0) (s : σ) :
    (outNi lib ni res s).1 ≠ 0 := by
  unfold outNi
  cases lib.inodeClose ni s with
  | ok _ _ => show res ≠ 0; omega
  | error e _ =>
    show (if res = 0 then negErrno e else res) ≠ 0
    rw [if_neg (by omega)]
    omega

/-- A call returns 0 only if what it does with the inode has succeeded. -/
theorem withInode_spec (hL : LawfulXattr lib V) {body : NtfsInode → EStateM Int σ Unit} {r : UInt64}
    {S' : Streams}
    (hbody : ∀ ni, ni.mftNo = r →
      Spec (V.Is S K) (body ni) (fun _ => V.Is S' K) fun e _ => e < 0)
    {s s' : σ} (hs : V.Is S K s) (h : withInode lib body r s = (0, s')) : V.Is S' K s' := by
  unfold withInode at h
  have hopen := hL.inodeOpen S K r s hs
  cases ho : lib.inodeOpen r s with
  | error e s₁ =>
    rw [ho] at h
    have hneg := negErrno_neg e
    have hzero : negErrno e = 0 := congrArg Prod.fst h
    omega
  | ok ni s₁ =>
    rw [ho] at h hopen
    obtain ⟨⟨hno, _⟩, hs₁⟩ := hopen
    have hrun := hbody ni hno s₁ hs₁
    simp only at h
    cases hb : body ni s₁ with
    | error res s₂ =>
      rw [hb] at h hrun
      exact absurd (congrArg Prod.fst h) (outNi_ne_zero ni hrun s₂)
    | ok _ s₂ =>
      rw [hb] at h hrun
      obtain ⟨s₃, hout, hs₃⟩ := outNi_zero hL ni 0 hrun
      have hsame : s₃ = s' := congrArg Prod.snd (hout.symm.trans h)
      rwa [← hsame]

/-! ## Reading -/

/-- What `nfsk_getxattr` answers of a value, with what it stores in the buffer. -/
def getAnswer (value : Option (List UInt8)) (buflen : Nat) : Int × List UInt8 :=
  match value with
  | none => (-ENOATTR, [])
  | some v =>
    if buflen = 0 then ((v.length : Int), [])
    else if buflen < v.length then (-ERANGE, [])
    else ((v.length : Int), v)

/-- The record is there and neither flag is set, which `nfsk_xattr_ok` wants. -/
def Accepted (K : UInt64 → Option UInt32) (r : UInt64) : Prop := K r = some 0

theorem inodeOpen_accepted (hL : LawfulXattr lib V) {r : UInt64} (hr : Accepted K r) {s : σ}
    (hs : V.Is S K s) : ∃ ni s', lib.inodeOpen r s = .ok ni s' ∧ ni.mftNo = r ∧
      nfskXattrOk lib ni s' = true ∧ V.Is S K s' := by
  have hopen := hL.inodeOpen S K r s hs
  cases ho : lib.inodeOpen r s with
  | error e s' =>
    rw [ho] at hopen
    rw [Accepted, hopen.1] at hr
    cases hr
  | ok ni s' =>
    rw [ho] at hopen
    obtain ⟨⟨rfl, _⟩, hs'⟩ := hopen
    exact ⟨ni, s', rfl, rfl, (nfskXattrOk_iff hL hs' hr).mpr rfl, hs'⟩

theorem checkXattr_passes (ni : NtfsInode) (res : Int) :
    Spec (fun s => nfskXattrOk lib ni s = true ∧ V.Is S K s) (checkXattr lib ni res)
      (fun _ => V.Is S K) fun _ _ => False := by
  intro s hs
  unfold checkXattr
  rw [hs.1]
  exact hs.2

theorem getxattrBody_spec (hL : LawfulXattr lib V) {name : List UInt8} {u : List UInt16}
    (hu : lib.mbstoucs name = .ok u) (buflen : Nat) (ni : NtfsInode) :
    Spec (fun s => nfskXattrOk lib ni s = true ∧ V.Is S K s) (getxattrBody lib name buflen ni)
      (fun ans s => ans = getAnswer (S (ni.mftNo, u)) buflen ∧ V.Is S K s)
      fun res s => (res, []) = getAnswer (S (ni.mftNo, u)) buflen ∧ V.Is S K s := by
  unfold getxattrBody
  refine Spec.bind (Spec.conseq_error (checkXattr_passes ni _) fun _ _ hf => hf.elim) fun _ => ?_
  rw [orFail_bind_convert hu]
  refine Spec.bind_orFail (hL.attrOpen S K ni u) ?_ fun na => ?_
  · rintro _ s' ⟨hnone, hs'⟩
    rw [hnone]
    exact ⟨rfl, hs'⟩
  refine Spec.assume fun hna => ?_
  obtain ⟨v, hv, rfl⟩ := hna
  rw [hv]
  refine Spec.afterwards (Q := fun ans s' => ans = getAnswer (some v) buflen ∧ V.Is S K s')
    (E := fun res s' => (res, []) = getAnswer (some v) buflen ∧ V.Is S K s') ?_
    (fun _ s' h => ⟨h.1, hL.attrClose S K _ s' h.2⟩) fun _ s' h => ⟨h.1, hL.attrClose S K _ s' h.2⟩
  by_cases hzero : buflen = 0
  · rw [if_pos hzero]
    exact Spec.pure fun s' hs' => ⟨by simp [getAnswer, hzero], hs'⟩
  · rw [if_neg hzero]
    refine Spec.guard (fun hlt s' hs' => ⟨?_, hs'⟩) fun hlt => ?_
    · have hlt' : buflen < v.length := hlt
      simp [getAnswer, hzero, hlt']
    · have hread := hL.attrPread S K ⟨ni, u, v.length⟩ v 0 v.length hv
      refine Spec.bind_orFail hread (fun _ _ hf => hf.elim) fun bytes => ?_
      refine Spec.assume ?_
      rintro rfl
      have hwhole : (v.drop 0).take v.length = v := by rw [List.drop_zero, List.take_length]
      have hle : ¬ buflen < v.length := hlt
      rw [hwhole, if_neg fun hne => hne rfl]
      exact Spec.pure fun s' hs' => ⟨by simp [getAnswer, hzero, hle], hs'⟩

theorem nfskGetxattr_answers (hL : LawfulXattr lib V) {name : List UInt8} {u : List UInt16}
    (hu : lib.mbstoucs name = .ok u) (buflen : Nat) {r : UInt64} (hr : Accepted K r) {s : σ}
    (hs : V.Is S K s) :
    (nfskGetxattrImpl lib r name buflen s).1 = getAnswer (S (r, u)) buflen := by
  obtain ⟨ni, s₁, hopen, rfl, hok, hs₁⟩ := inodeOpen_accepted hL hr hs
  have hbody := getxattrBody_spec hL hu buflen ni s₁ ⟨hok, hs₁⟩
  simp only [nfskGetxattrImpl, hopen]
  cases hb : getxattrBody lib name buflen ni s₁ with
  | error res s₂ =>
    rw [hb] at hbody
    exact hbody.1
  | ok ans s₂ =>
    rw [hb] at hbody
    obtain ⟨hans, hs₂⟩ := hbody
    have hclose := hL.inodeClose S K ni s₂ hs₂
    simp only
    cases hc : lib.inodeClose ni s₂ with
    | ok _ s₃ => exact hans
    | error e s₃ =>
      rw [hc] at hclose
      exact hclose.elim

/-- The names of the streams that are reported. -/
def listed (lib : Libxattr σ) (names : List (List UInt16)) : List (List UInt8) :=
  names.filterMap fun u => if u = [] then none else lib.ucstombs u

theorem listLoop_continues {κ : Type} {cb : NfskXattrCb κ} (hcb : ∀ k name, (cb k name).1 = 0)
    {last : Errno} (hlast : last.val = ENOENT) (names : List (List UInt16)) (k : κ) :
    listLoop lib cb last names k =
      (0, (listed lib names).foldl (fun k name => (cb k name).2) k) := by
  induction names generalizing k with
  | nil => simp [listLoop, listed, hlast]
  | cons u rest ih =>
    unfold listLoop listed
    by_cases hu : u = []
    · rw [if_pos hu, ih, List.filterMap_cons_none (by rw [if_pos hu])]
      rfl
    · rw [if_neg hu]
      cases hn : lib.ucstombs u with
      | none =>
        rw [List.filterMap_cons_none (by rw [if_neg hu, hn])]
        exact ih k
      | some name =>
        rw [List.filterMap_cons_some (by rw [if_neg hu, hn])]
        simp only [hcb, if_true]
        exact ih _

theorem nfskListxattr_lists (hL : LawfulXattr lib V) {r : UInt64} (hr : Accepted K r) {s : σ}
    (hs : V.Is S K s) : ∃ names : List (List UInt16),
      names.Nodup ∧ (∀ u, u ∈ names ↔ (S (r, u)).isSome) ∧
      ∀ {κ : Type} (cb : NfskXattrCb κ) (k : κ), (∀ k name, (cb k name).1 = 0) →
        (nfskListxattrImpl lib r cb k s).1 =
          (0, (listed lib names).foldl (fun k name => (cb k name).2) k) := by
  obtain ⟨ni, s₁, hopen, rfl, hok, hs₁⟩ := inodeOpen_accepted hL hr hs
  have hctx := hL.attrGetSearchCtx S K ni s₁ hs₁
  cases hc : lib.attrGetSearchCtx ni s₁ with
  | error e s₂ =>
    rw [hc] at hctx
    exact hctx.elim
  | ok actx s₂ =>
    rw [hc] at hctx
    obtain ⟨⟨hnodup, hnames, hlast⟩, hs₂⟩ := hctx
    refine ⟨actx.names, hnodup, hnames, fun cb k hcb => ?_⟩
    obtain ⟨s₃, hout, _⟩ := outNi_zero hL ni 0 hs₂
    simp only [nfskListxattrImpl, hopen, hok, if_true, hc, listLoop_continues hcb hlast, hout]

/-! ## The map -/

/-- A record and the name of an attribute. -/
abbrev XattrMap : Type := UInt64 × List UInt8 → Option (List UInt8)

/-- The stream name of an attribute, if its name converts to one that is not empty, and back. -/
def streamName (lib : Libxattr σ) (name : List UInt8) : Option (List UInt16) :=
  match lib.mbstoucs name with
  | .error _ => none
  | .ok u => if u ≠ [] ∧ lib.ucstombs u = some name then some u else none

def Convertible (lib : Libxattr σ) (name : List UInt8) : Prop := (streamName lib name).isSome

/-- The attributes that the streams stand for. -/
def xattrs (lib : Libxattr σ) (S : Streams) : XattrMap := fun (r, name) =>
  (streamName lib name).bind fun u => S (r, u)

/-- The name of a named stream that converts to UTF-8 converts back. -/
def NamesReturn (lib : Libxattr σ) (S : Streams) : Prop :=
  ∀ r u, (S (r, u)).isSome → u ≠ [] → ∀ name, lib.ucstombs u = some name →
    lib.mbstoucs name = .ok u

inductive XattrCall where
  | set (mft : UInt64) (name value : List UInt8)
  | remove (mft : UInt64) (name : List UInt8)

namespace XattrCall

def name : XattrCall → List UInt8
  | set _ name _ => name
  | remove _ name => name

def run (lib : Libxattr σ) : XattrCall → σ → Int × σ
  | set mft name value => nfskSetxattrImpl lib mft name value
  | remove mft name => nfskRemovexattrImpl lib mft name

def apply (m : XattrMap) : XattrCall → XattrMap
  | set mft name value => Function.update m (mft, name) (some value)
  | remove mft name => Function.update m (mft, name) none

end XattrCall

/-- The state after a run, if every call returns 0. -/
def runXattr (lib : Libxattr σ) : List XattrCall → σ → Option σ
  | [], s => some s
  | c :: cs, s =>
    match c.run lib s with
    | (res, s) => if res = 0 then runXattr lib cs s else none

/-- The attributes of a record are read and listed as a map says: each name once, to every callback
that always continues. -/
structure Presents (lib : Libxattr σ) (r : UInt64) (m : XattrMap) (s : σ) : Prop where
  get : ∀ name buflen, Convertible lib name →
    (nfskGetxattrImpl lib r name buflen s).1 = getAnswer (m (r, name)) buflen
  list : ∃ names : List (List UInt8), names.Nodup ∧ (∀ name, name ∈ names ↔ (m (r, name)).isSome) ∧
    ∀ {κ : Type} (cb : NfskXattrCb κ) (k : κ), (∀ k name, (cb k name).1 = 0) →
      (nfskListxattrImpl lib r cb k s).1 = (0, names.foldl (fun k name => (cb k name).2) k)

theorem streamName_iff {name : List UInt8} {u : List UInt16} : streamName lib name = some u ↔
    lib.mbstoucs name = .ok u ∧ u ≠ [] ∧ lib.ucstombs u = some name := by
  unfold streamName
  cases hm : lib.mbstoucs name with
  | error e => simp
  | ok u' =>
    by_cases h : u' ≠ [] ∧ lib.ucstombs u' = some name
    · simp only [if_pos h, Option.some.injEq, Except.ok.injEq]
      constructor
      · rintro rfl
        exact ⟨rfl, h⟩
      · exact fun hu => hu.1
    · simp only [if_neg h, reduceCtorEq, false_iff, Except.ok.injEq]
      rintro ⟨rfl, hu⟩
      exact h hu

/-- Writing a stream is writing its attribute, since no other name has that stream. -/
theorem xattrs_update {name : List UInt8} {u : List UInt16} (hu : streamName lib name = some u)
    (S : Streams) (r : UInt64) (value : Option (List UInt8)) :
    xattrs lib (Function.update S (r, u) value) =
      Function.update (xattrs lib S) (r, name) value := by
  funext ⟨r', name'⟩
  by_cases hsame : (r', name') = (r, name)
  · obtain ⟨rfl, rfl⟩ := Prod.mk.inj hsame
    simp [xattrs, hu]
  · have hvalue : ∀ S, xattrs lib S (r', name') = (streamName lib name').bind fun u => S (r', u) :=
      fun _ => rfl
    rw [Function.update_of_ne hsame, hvalue, hvalue]
    cases hu' : streamName lib name' with
    | none => rfl
    | some u' =>
      refine Function.update_of_ne (fun heq => hsame ?_) _ _
      obtain ⟨rfl, rfl⟩ := Prod.mk.inj heq
      have h1 := (streamName_iff.mp hu).2.2
      have h2 := (streamName_iff.mp hu').2.2
      rw [h1] at h2
      rw [Option.some.inj h2]

theorem NamesReturn.update {name : List UInt8} {u : List UInt16}
    (hu : streamName lib name = some u) (h : NamesReturn lib S) (r : UInt64)
    (value : Option (List UInt8)) : NamesReturn lib (Function.update S (r, u) value) := by
  intro r' u' hsome hne name' hname'
  by_cases hsame : u' = u
  · obtain ⟨hback, _, hname⟩ := streamName_iff.mp hu
    rw [hsame, hname] at hname'
    rw [hsame, ← Option.some.inj hname']
    exact hback
  · have hother : (r', u') ≠ (r, u) := fun heq => hsame (Prod.mk.inj heq).2
    rw [Function.update_of_ne hother] at hsome
    exact h r' u' hsome hne name' hname'

/-- What a successful call does to the streams. -/
theorem call_writes (hL : LawfulXattr lib V) {c : XattrCall} {u : List UInt16}
    (hu : streamName lib c.name = some u) {s s' : σ} (hs : V.Is S K s)
    (h : c.run lib s = (0, s')) : ∃ r value, V.Is (Function.update S (r, u) value) K s' ∧
      ∀ m, c.apply m = Function.update m (r, c.name) value := by
  have hback := (streamName_iff.mp hu).1
  cases c with
  | set mft name value =>
    refine ⟨mft, some value, ?_, fun _ => rfl⟩
    refine withInode_spec hL (fun ni hno => ?_) hs h
    rw [← hno]
    exact setxattrBody_spec hL hback value ni
  | remove mft name =>
    refine ⟨mft, none, ?_, fun _ => rfl⟩
    refine withInode_spec hL (fun ni hno => ?_) hs h
    rw [← hno]
    exact removexattrBody_spec hL hback ni

theorem call_refines (hL : LawfulXattr lib V) {c : XattrCall} (hc : Convertible lib c.name)
    {s s' : σ} (hs : V.Is S K s) (hn : NamesReturn lib S) (h : c.run lib s = (0, s')) :
    ∃ S', V.Is S' K s' ∧ NamesReturn lib S' ∧ xattrs lib S' = c.apply (xattrs lib S) := by
  obtain ⟨u, hu⟩ := Option.isSome_iff_exists.mp hc
  obtain ⟨r, value, hs', happly⟩ := call_writes hL hu hs h
  refine ⟨_, hs', hn.update hu r value, ?_⟩
  rw [happly, xattrs_update hu]

theorem run_refines (hL : LawfulXattr lib V) {calls : List XattrCall} :
    ∀ {S : Streams} {s s' : σ}, (∀ c ∈ calls, Convertible lib c.name) → V.Is S K s →
      NamesReturn lib S → runXattr lib calls s = some s' →
      ∃ S', V.Is S' K s' ∧ NamesReturn lib S' ∧
        xattrs lib S' = calls.foldl XattrCall.apply (xattrs lib S) := by
  induction calls with
  | nil =>
    intro S s s' _ hs hn hrun
    cases hrun
    exact ⟨S, hs, hn, rfl⟩
  | cons c cs ih =>
    intro S s s' hcalls hs hn hrun
    rw [runXattr] at hrun
    cases hc : c.run lib s with
    | mk res s₁ =>
      rw [hc] at hrun
      by_cases hres : res = 0
      · simp only [hres, if_true] at hrun
        rw [hres] at hc
        obtain ⟨S₁, hs₁, hn₁, hmap⟩ :=
          call_refines hL (hcalls c List.mem_cons_self) hs hn hc
        rw [List.foldl_cons, ← hmap]
        exact ih (fun c' hc' => hcalls c' (List.mem_cons_of_mem c hc')) hs₁ hn₁ hrun
      · simp [hres] at hrun

/-- In any state the answers are those of the map that the streams stand for. -/
theorem presents_xattrs (hL : LawfulXattr lib V) {r : UInt64} (hr : Accepted K r) {s : σ}
    (hs : V.Is S K s) (hn : NamesReturn lib S) : Presents lib r (xattrs lib S) s where
  get := by
    intro name buflen hc
    obtain ⟨u, hu⟩ := Option.isSome_iff_exists.mp hc
    have hmap : xattrs lib S (r, name) = S (r, u) := by simp [xattrs, hu]
    rw [hmap]
    exact nfskGetxattr_answers hL (streamName_iff.mp hu).1 buflen hr hs
  list := by
    obtain ⟨names, hnodup, hnames, hlist⟩ := nfskListxattr_lists hL hr hs
    have hmem : ∀ u name, (u ∈ names ∧ (if u = [] then none else lib.ucstombs u) = some name) →
        streamName lib name = some u := by
      rintro u name ⟨hu, hname⟩
      by_cases hne : u = []
      · simp [hne] at hname
      · rw [if_neg hne] at hname
        exact streamName_iff.mpr ⟨hn r u ((hnames u).mp hu) hne name hname, hne, hname⟩
    refine ⟨listed lib names, ?_, fun name => ?_, hlist⟩
    · rw [List.Nodup, listed, List.pairwise_filterMap]
      refine hnodup.imp_of_mem fun {u u'} hu hu' hne name hname name' hname' heq => hne ?_
      have h1 := hmem u name ⟨hu, hname⟩
      have h2 := hmem u' name' ⟨hu', hname'⟩
      rw [heq, h2] at h1
      exact (Option.some.inj h1).symm
    · rw [listed, List.mem_filterMap]
      constructor
      · rintro ⟨u, hu, hname⟩
        have hmap : xattrs lib S (r, name) = S (r, u) := by simp [xattrs, hmem u name ⟨hu, hname⟩]
        rw [hmap]
        exact (hnames u).mp hu
      · intro hsome
        cases hu : streamName lib name with
        | none => simp [xattrs, hu] at hsome
        | some u =>
          obtain ⟨_, hne, hname⟩ := streamName_iff.mp hu
          refine ⟨u, (hnames u).mpr ?_, by rw [if_neg hne, hname]⟩
          simpa [xattrs, hu] using hsome

/-- After any run of successful calls, of whatever values on whatever files, the attributes of a file
are those of the map to which the calls were applied. -/
theorem xattrs_refine (hL : LawfulXattr lib V) {calls : List XattrCall}
    (hcalls : ∀ c ∈ calls, Convertible lib c.name) {s s' : σ} (hs : V.Is S K s)
    (hn : NamesReturn lib S) (hrun : runXattr lib calls s = some s') {r : UInt64}
    (hr : Accepted K r) :
    Presents lib r (calls.foldl XattrCall.apply (xattrs lib S)) s' := by
  obtain ⟨S', hs', hn', hmap⟩ := run_refines hL hcalls hs hn hrun
  rw [← hmap]
  exact presents_xattrs hL hr hs' hn'

theorem refLibxattr_returns (S : Streams) : NamesReturn refLibxattr S :=
  fun _ u _ _ name hname => (utf8_inverse u name).mp hname

theorem refLibxattr_convertible {u : List UInt16} {name : List UInt8} (hne : u ≠ [])
    (h : utf8Ucstombs u = some name) : Convertible refLibxattr name :=
  Option.isSome_iff_exists.mpr ⟨u, streamName_iff.mpr ⟨(utf8_inverse u name).mp h, hne, h⟩⟩

def noXattrs : RefXattrs where
  streams := ∅
  flags _ := FILE_ATTR_ARCHIVE
  short k hk := absurd hk (AList.notMem_empty k)

/-- An attribute is made, overwritten by a shorter value, removed and made again with a longer one,
which takes three writes. Another one is empty. -/
def rewrites : List XattrCall :=
  [.set 20 [0x61] [1, 2, 3], .set 20 [0x61] [9], .set 20 [0x62] [], .remove 20 [0x61],
    .set 20 [0x61] [4, 5, 6, 7, 8]]

theorem xattrs_refine_rewrites : ∃ s', runXattr refLibxattr rewrites noXattrs = some s' ∧
    Presents refLibxattr 20 (rewrites.foldl XattrCall.apply fun _ => none) s' := by
  have hrun : (runXattr refLibxattr rewrites noXattrs).isSome = true := by decide +kernel
  obtain ⟨s', hs'⟩ := Option.isSome_iff_exists.mp hrun
  have hempty : xattrs refLibxattr (fun _ => none) = fun _ => none := by
    funext ⟨r, name⟩
    simp [xattrs]
  have hcalls : ∀ c ∈ rewrites, Convertible refLibxattr c.name := by
    have ha : Convertible refLibxattr [0x61] := refLibxattr_convertible (by simp) ascii_converts.1
    have hb : Convertible refLibxattr [0x62] := refLibxattr_convertible (by simp) ascii_converts.2
    simp [rewrites, XattrCall.name, ha, hb]
  have archived : FILE_ATTR_ARCHIVE &&& xattrFlags = 0 := by decide
  have hstart : RefXattrs.view.Is (fun _ => none) (fun _ => some 0) noXattrs :=
    ⟨rfl, by simp [RefXattrs.view, noXattrs, archived]⟩
  have hpresents := xattrs_refine refLibxattr_lawful hcalls hstart (refLibxattr_returns _) hs'
    (r := 20) rfl
  rw [hempty] at hpresents
  exact ⟨s', hs', hpresents⟩

end Ntfs
end Usbrw
