import Usbrw.Ntfs.XattrFailure

/-!
# Ntfs.XattrData

Extended attributes and the data of the file, which is a stream of the same kind without a name.

* `FramedXattr`   — a call changes no other stream than the one it is for, also where it fails.
* `DataKept`      — the operations leave the data alone and report nothing of it.
* `Apart`         — the attribute's name is neither the data's nor cut short to it.
* `dataKept_iff`  — for such names they do.
-/

namespace Usbrw
namespace Ntfs

open Call

variable {σ : Type}

/-- The stream `k` holds `o`. -/
def XattrView.Has (V : XattrView σ) (k : Stream) (o : Option (List UInt8)) (s : σ) : Prop :=
  V.streams s k = o

/-- A stream that exists is not added. -/
structure FramedXattr (lib : Libxattr σ) (V : XattrView σ) : Prop where
  inodeOpen : ∀ k o r, Spec (V.Has k o) (lib.inodeOpen r)
    (fun ni s => ni.mftNo = r ∧ V.Has k o s) fun _ => V.Has k o
  inodeClose : ∀ k o ni, Keeps (V.Has k o) (lib.inodeClose ni)
  inodeUpdateTimes : ∀ k o ni w s, V.Has k o s → V.Has k o (lib.inodeUpdateTimes ni w s)
  setFlags : ∀ k o ni f s, V.Has k o s → V.Has k o (lib.setFlags ni f s)
  attrOpen : ∀ k o ni u, Spec (V.Has k o) (lib.attrOpen ni u)
    (fun na s => (na.inode = ni ∧ na.name = u) ∧ V.Has k o s) fun _ => V.Has k o
  attrClose : ∀ k o na s, V.Has k o s → V.Has k o (lib.attrClose na s)
  attrAdd : ∀ k o ni u, k ≠ (ni.mftNo, u) ∨ o ≠ none → Keeps (V.Has k o) (lib.attrAdd ni u)
  attrRm : ∀ k o na, k ≠ (na.inode.mftNo, na.name) → Keeps (V.Has k o) (lib.attrRm na)
  attrTruncate : ∀ k o na n, k ≠ (na.inode.mftNo, na.name) →
    Keeps (V.Has k o) (lib.attrTruncate na n)
  attrPread : ∀ k o na pos n, Keeps (V.Has k o) (lib.attrPread na pos n)
  attrPwrite : ∀ k o na pos bytes, k ≠ (na.inode.mftNo, na.name) →
    Keeps (V.Has k o) (lib.attrPwrite na pos bytes)
  attrPclose : ∀ k o na, Keeps (V.Has k o) (lib.attrPclose na)

/-- The data of every file is as before, and what is reported is the value of a named stream. -/
structure DataKept (lib : Libxattr σ) (V : XattrView σ) (r : UInt64) (name : List UInt8) (s : σ) :
    Prop where
  set : ∀ value r', V.streams (nfskSetxattrImpl lib r name value s).2 (r', []) =
    V.streams s (r', [])
  get : ∀ buflen r', V.streams (nfskGetxattrImpl lib r name buflen s).2 (r', []) =
    V.streams s (r', [])
  remove : ∀ r', V.streams (nfskRemovexattrImpl lib r name s).2 (r', []) = V.streams s (r', [])
  answer : ∀ buflen, (nfskGetxattrImpl lib r name buflen s).1.2 = [] ∨
    ∃ u, u ≠ [] ∧ V.streams s (r, u) = some (nfskGetxattrImpl lib r name buflen s).1.2

/-- The name is not the empty one, which is the data's. A name that is cut short to that adds no data
only where there are some. -/
def Apart (lib : Libxattr σ) (S : Streams) (r : UInt64) (name : List UInt8) : Prop :=
  ∀ u, lib.mbstoucs name = .ok u → u ≠ [] ∧ (u8Name u = [] → S (r, []) ≠ none)

section Frame

variable {lib : Libxattr σ} {V : XattrView σ} {k : Stream} {o : Option (List UInt8)}
  {name : List UInt8} {ni : NtfsInode}

theorem NFSK_SET_ARCHIVE_has (hF : FramedXattr lib V) {s : σ} (hs : V.Has k o s) :
    V.Has k o (NFSK_SET_ARCHIVE lib ni s) :=
  hF.setFlags k o ni _ s hs

theorem markArchive_has (hF : FramedXattr lib V) {s : σ} (hs : V.Has k o s) :
    V.Has k o (markArchive lib ni s) := by
  unfold markArchive
  split
  · exact NFSK_SET_ARCHIVE_has hF hs
  · exact hs

theorem checkXattr_keeps (res : Int) : Keeps (V.Has k o) (checkXattr lib ni res) := by
  intro s hs
  unfold checkXattr
  cases nfskXattrOk lib ni s with
  | true => exact hs
  | false => exact hs

theorem convert_has (lib : Libxattr σ) (V : XattrView σ) (k : Stream) (o : Option (List UInt8))
    (name : List UInt8) :
    Spec (V.Has k o) (orFail negErrno (convert lib.toLibntfs name))
      (fun u s => lib.mbstoucs name = .ok u ∧ V.Has k o s) fun _ => V.Has k o := by
  refine Spec.orFail (E := fun _ => V.Has k o) (fun s hs => ?_) fun _ _ hs => hs
  unfold convert
  cases hm : lib.mbstoucs name with
  | error e => exact hs
  | ok u => exact ⟨rfl, hs⟩

/-- No stream with a name is the data. -/
theorem data_ne {r r' : UInt64} {u : List UInt16} (hu : u ≠ []) : ((r', []) : Stream) ≠ (r, u) :=
  fun h => hu (Prod.mk.inj h).2.symm

variable {r' : UInt64}

theorem emptyAttr_keeps (hF : FramedXattr lib V) {u : List UInt16} (hu : u ≠ [])
    (hadd : u8Name u = [] → r' = ni.mftNo → o ≠ none) :
    Spec (V.Has (r', []) o) (emptyAttr lib ni u)
      (fun na s => na.name = u ∧ V.Has (r', []) o s) fun _ => V.Has (r', []) o := by
  unfold emptyAttr
  refine Spec.bind_attempt (hF.attrOpen _ o ni u) (fun na => Spec.assume ?_) fun _ => ?_
  · rintro ⟨_, rfl⟩
    refine Spec.bind (Q := fun _ => V.Has (r', []) o) (Keeps.onFail ?_ ?_) fun _ => ?_
    · exact (hF.attrTruncate _ o na 0 (data_ne hu)).orFail _
    · exact Keeps.modify (hF.attrClose _ o na)
    · exact Spec.pure fun s hs => ⟨rfl, hs⟩
  · have hkept : ((r', []) : Stream) ≠ (ni.mftNo, u8Name u) ∨ o ≠ none := by
      by_cases hsame : ((r', []) : Stream) = (ni.mftNo, u8Name u)
      · obtain ⟨hr, hnil⟩ := Prod.mk.inj hsame
        exact Or.inr (hadd hnil.symm hr)
      · exact Or.inl hsame
    refine Spec.bind_orFail (hF.attrAdd _ o ni _ hkept) (fun _ _ hs => hs) fun _ => ?_
    refine Spec.bind (Q := fun _ => V.Has (r', []) o)
      (Spec.modify fun s hs => markArchive_has hF hs) fun _ => ?_
    exact ((hF.attrOpen _ o ni u).conseq_ok fun _ _ hs => ⟨hs.1.2, hs.2⟩).orFail fun _ _ hs => hs

theorem writeValue_keeps (hF : FramedXattr lib V) {na : StreamAttr} (hna : na.name ≠ [])
    (buf : List UInt8) : ∀ left total, total + left = buf.length →
      Keeps (V.Has (r', []) o) (writeValue lib na buf total) := by
  intro left
  induction left using Nat.strongRecOn with
  | ind left ih =>
    intro total htotal
    rw [writeValue]
    by_cases hleft : total < buf.length
    · rw [dif_pos hleft]
      refine Spec.bind ((hF.attrPwrite _ o na _ _ (data_ne hna)).orFail _) fun part => ?_
      by_cases hpart : part = 0
      · rw [dif_pos hpart]
        exact fun _ hs => hs
      · rw [dif_neg hpart]
        by_cases hle : part ≤ left
        · exact ih (left - part) (by omega) (total + part) (by omega)
        · -- More than was left to write: the loop ends.
          rw [writeValue, dif_neg (by omega)]
          exact Spec.pure fun _ hs => hs
    · rw [dif_neg hleft]
      exact Spec.pure fun _ hs => hs

theorem setxattrBody_keeps (hF : FramedXattr lib V)
    (hname : ∀ u, lib.mbstoucs name = .ok u →
      u ≠ [] ∧ (u8Name u = [] → r' = ni.mftNo → o ≠ none)) (buf : List UInt8) :
    Keeps (V.Has (r', []) o) (setxattrBody lib name buf ni) := by
  unfold setxattrBody
  refine Spec.bind (checkXattr_keeps _) fun _ => Spec.bind (convert_has lib V _ o name) fun u =>
    Spec.assume fun hm => ?_
  obtain ⟨hu, hadd⟩ := hname u hm
  refine Spec.bind (emptyAttr_keeps hF hu hadd) fun na => Spec.assume ?_
  rintro rfl
  refine Keeps.afterwards ?_ (Keeps.modify (hF.attrClose _ o na))
  refine Spec.bind (writeValue_keeps hF hu buf buf.length 0 (Nat.zero_add _)) fun _ => ?_
  refine Spec.bind_orFail (hF.attrPclose _ o na) (fun _ _ hs => hs) fun _ => ?_
  refine Spec.bind (Keeps.modify (hF.inodeUpdateTimes _ o ni .ctime)) fun _ => ?_
  exact Keeps.modify fun s hs => markArchive_has hF hs

theorem removexattrBody_keeps (hF : FramedXattr lib V)
    (hname : ∀ u, lib.mbstoucs name = .ok u → u ≠ []) (ni : NtfsInode) :
    Keeps (V.Has (r', []) o) (removexattrBody lib name ni) := by
  unfold removexattrBody
  refine Spec.bind (checkXattr_keeps _) fun _ => Spec.bind (convert_has lib V _ o name) fun u =>
    Spec.assume fun hm => ?_
  have hu := hname u hm
  refine Spec.bind_orFail (hF.attrOpen _ o ni u) (fun _ _ hs => hs) fun na => Spec.assume ?_
  rintro ⟨_, rfl⟩
  refine Keeps.afterwards ?_ (Keeps.modify (hF.attrClose _ o na))
  refine Spec.bind_orFail (hF.attrRm _ o na (data_ne hu)) (fun _ _ hs => hs) fun _ => ?_
  refine Spec.bind (Keeps.modify (hF.inodeUpdateTimes _ o ni .ctime)) fun _ => ?_
  exact Keeps.modify fun s hs => NFSK_SET_ARCHIVE_has hF hs

/-- Reading changes no stream at all. -/
theorem getxattrBody_keeps (hF : FramedXattr lib V) (name : List UInt8) (buflen : Nat)
    (ni : NtfsInode) : Keeps (V.Has k o) (getxattrBody lib name buflen ni) := by
  unfold getxattrBody
  refine Spec.bind (checkXattr_keeps _) fun _ => ?_
  refine Spec.bind (convert_has lib V k o name) fun u => Spec.assume fun _ => ?_
  refine Spec.bind_orFail (hF.attrOpen k o ni u) (fun _ _ hs => hs) fun na => Spec.assume fun _ => ?_
  refine Keeps.afterwards ?_ (Keeps.modify (hF.attrClose k o na))
  by_cases hzero : buflen = 0
  · rw [if_pos hzero]
    exact Spec.pure fun _ hs => hs
  · rw [if_neg hzero]
    refine Spec.guard (fun _ _ hs => hs) fun _ => ?_
    refine Spec.bind_orFail (hF.attrPread k o na 0 _) (fun _ _ hs => hs) fun bytes => ?_
    exact Spec.guard (fun _ _ hs => hs) fun _ => Spec.pure fun _ hs => hs

theorem outNi_keeps (hF : FramedXattr lib V) (ni : NtfsInode) (res : Int) {s : σ}
    (hs : V.Has k o s) : V.Has k o (outNi lib ni res s).2 := by
  have hclose := hF.inodeClose k o ni s hs
  unfold outNi
  cases hc : lib.inodeClose ni s with
  | ok _ s' =>
    rw [hc] at hclose
    exact hclose
  | error e s' =>
    rw [hc] at hclose
    exact hclose

theorem withInode_keeps (hF : FramedXattr lib V) {body : NtfsInode → EStateM Int σ Unit}
    {r : UInt64} (hbody : ∀ ni, ni.mftNo = r → Keeps (V.Has k o) (body ni)) {s : σ}
    (hs : V.Has k o s) : V.Has k o (withInode lib body r s).2 := by
  have hopen := hF.inodeOpen k o r s hs
  unfold withInode
  cases ho : lib.inodeOpen r s with
  | error e s₁ =>
    rw [ho] at hopen
    exact hopen
  | ok ni s₁ =>
    rw [ho] at hopen
    have hrun := hbody ni hopen.1 s₁ hopen.2
    simp only
    cases hb : body ni s₁ with
    | ok _ s₂ =>
      rw [hb] at hrun
      exact outNi_keeps hF ni 0 hrun
    | error res s₂ =>
      rw [hb] at hrun
      exact outNi_keeps hF ni res hrun

theorem nfskGetxattr_keeps (hF : FramedXattr lib V) (r : UInt64) (name : List UInt8) (buflen : Nat)
    {s : σ} (hs : V.Has k o s) : V.Has k o (nfskGetxattrImpl lib r name buflen s).2 := by
  have hopen := hF.inodeOpen k o r s hs
  unfold nfskGetxattrImpl
  cases ho : lib.inodeOpen r s with
  | error e s₁ =>
    rw [ho] at hopen
    exact hopen
  | ok ni s₁ =>
    rw [ho] at hopen
    have hrun := getxattrBody_keeps hF name buflen ni s₁ hopen.2
    simp only
    cases hb : getxattrBody lib name buflen ni s₁ with
    | ok ans s₂ =>
      rw [hb] at hrun
      have hclose := hF.inodeClose k o ni s₂ hrun
      simp only
      cases hc : lib.inodeClose ni s₂ with
      | ok _ s₃ =>
        rw [hc] at hclose
        exact hclose
      | error e s₃ =>
        rw [hc] at hclose
        exact hclose
    | error res s₂ =>
      rw [hb] at hrun
      exact Spec.final (hF.inodeClose k o ni) hrun

end Frame

section Results

variable {lib : Libxattr σ} {V : XattrView σ} {S : Streams} {K : UInt64 → Option UInt32}
  {name : List UInt8} {r : UInt64}

/-- A name that does not convert reports nothing. -/
theorem getxattrBody_unconverted {e : Errno} (hname : lib.mbstoucs name = .error e) (buflen : Nat)
    (ni : NtfsInode) :
    Spec (fun _ => True) (getxattrBody lib name buflen ni) (fun _ _ => False) fun _ _ => True := by
  unfold getxattrBody
  refine Spec.bind (Q := fun _ _ => True) ?_ fun _ => ?_
  · intro s _
    unfold checkXattr
    cases nfskXattrOk lib ni s with
    | true => trivial
    | false => trivial
  · refine Spec.bind (Q := fun _ _ => False) ?_ fun _ _ hf => hf.elim
    intro s _
    rw [convert, hname]
    trivial

theorem nfskGetxattr_unconverted {e : Errno} (hname : lib.mbstoucs name = .error e) (buflen : Nat)
    (s : σ) : (nfskGetxattrImpl lib r name buflen s).1.2 = [] := by
  unfold nfskGetxattrImpl
  cases lib.inodeOpen r s with
  | error err s₁ => rfl
  | ok ni s₁ =>
    have hbody := getxattrBody_unconverted hname buflen ni s₁ trivial
    simp only
    cases hb : getxattrBody lib name buflen ni s₁ with
    | ok ans s₂ =>
      rw [hb] at hbody
      exact hbody.elim
    | error res s₂ => rfl

/-- Only what the stream holds is reported. -/
theorem getAnswer_bytes (value : Option (List UInt8)) (buflen : Nat) :
    (getAnswer value buflen).2 = [] ∨ value = some (getAnswer value buflen).2 := by
  cases value with
  | none => exact Or.inl rfl
  | some v =>
    unfold getAnswer
    simp only
    split
    · exact Or.inl rfl
    · split
      · exact Or.inl rfl
      · exact Or.inr rfl

theorem dataKept_of_apart (hL : LawfulXattr lib V) (hF : FramedXattr lib V) (hacc : Accepted K r)
    {s : σ} (hs : V.Is S K s) (hname : Apart lib S r name) : DataKept lib V r name s where
  set value r' := by
    refine withInode_keeps hF (fun ni hno => ?_) rfl
    refine setxattrBody_keeps hF (fun u hm => ⟨(hname u hm).1, fun hnil hr => ?_⟩) value
    rw [hs.streams, hr, hno]
    exact (hname u hm).2 hnil
  get buflen _ := nfskGetxattr_keeps hF r name buflen rfl
  remove _ := by
    refine withInode_keeps hF (fun ni _ => ?_) rfl
    exact removexattrBody_keeps hF (fun u hm => (hname u hm).1) ni
  answer buflen := by
    cases hm : lib.mbstoucs name with
    | error e => exact Or.inl (nfskGetxattr_unconverted hm buflen s)
    | ok u =>
      rw [nfskGetxattr_answers hL hm buflen hacc hs, hs.streams]
      rcases getAnswer_bytes (S (r, u)) buflen with hnone | hsome
      · exact Or.inl hnone
      · exact Or.inr ⟨u, (hname u hm).1, hsome⟩

/-- With the empty name the data are overwritten. -/
theorem DataKept.ne_nil (hR : ReliableXattr lib V) (hacc : Accepted K r) {s : σ} (hs : V.Is S K s)
    (hkept : DataKept lib V r name s) : lib.mbstoucs name ≠ .ok [] := by
  intro hname
  obtain ⟨value, hvalue⟩ : ∃ value, S (r, []) ≠ some value := by
    by_cases hempty : S (r, []) = some []
    · exact ⟨[0], by rw [hempty]; simp⟩
    · exact ⟨[], hempty⟩
  obtain ⟨s', hset, hs'⟩ := setxattr_returns hR hacc hname (by decide) value hs
  have hsame := hkept.set value r
  rw [hset, hs'.streams, hs.streams, Function.update_self] at hsame
  exact hvalue hsame.symm

/-- With a name that is cut short to the empty one data are added. -/
theorem DataKept.exists (hR : ReliableXattr lib V) (hacc : Accepted K r) {s : σ} (hs : V.Is S K s)
    (hkept : DataKept lib V r name s) {u : List UInt16} (hm : lib.mbstoucs name = .ok u)
    (hu : u ≠ []) (hnil : u8Name u = []) : S (r, []) ≠ none := by
  intro hnone
  have hlong : ¬ u.length < 256 := fun hlt => hu ((u8Name_of_lt hlt).symm.trans hnil)
  have hcall : nfskSetxattrImpl (lib.failing none ⟨ EIO, EIO_pos⟩) r name [] s =
      ((nfskSetxattrImpl lib r name [] s).1, (nfskSetxattrImpl lib r name [] s).2) := rfl
  obtain ⟨T, hT, hs'⟩ := setxattr_long hR hacc hm hlong hs hcall
  have hsame := hkept.set [] r
  rw [hs.streams, hnone] at hsame
  have hkeeps : T (r, []) = none := hs'.streams ▸ hsame
  rw [hnil] at hT
  rcases hT with ⟨hf | hf | hsome, _⟩ | rfl
  · cases hf
  · cases hf
  · rw [hnone] at hsome
    cases hsome
  · rw [Function.update_self] at hkeeps
    cases hkeeps

/-- Extended attributes and data are apart exactly where the name does not convert to the empty one,
nor to one that is cut short to it where there are no data: for any library if it does not, and only
then if nothing but the file and the name makes a call fail. -/
theorem dataKept_iff (hL : LawfulXattr lib V) (hF : FramedXattr lib V) (hacc : Accepted K r) {s : σ}
    (hs : V.Is S K s) :
    (Apart lib S r name → DataKept lib V r name s) ∧
    (ReliableXattr lib V → (DataKept lib V r name s ↔ Apart lib S r name)) := by
  refine ⟨dataKept_of_apart hL hF hacc hs, fun hR => ⟨fun hkept u hm => ?_,
    dataKept_of_apart hL hF hacc hs⟩⟩
  have hu : u ≠ [] := fun hnil => hkept.ne_nil hR hacc hs (hnil ▸ hm)
  exact ⟨hu, hkept.exists hR hacc hs hm hu⟩

end Results

/-! ## The empty name -/

theorem put_has {k k' : Stream} {o : Option (List UInt8)} {s : RefXattrs} (hne : k ≠ k')
    (value : List UInt8) (hs : RefXattrs.view.Has k o s) :
    RefXattrs.view.Has k o (s.put k' value) := by
  by_cases hshort : k'.2.length < 256
  · unfold XattrView.Has
    simp only [RefXattrs.view, (RefXattrs.put_short hshort value).1]
    exact (AList.lookup_insert_ne hne).trans hs
  · unfold RefXattrs.put
    rw [dif_neg hshort]
    exact hs

/-- A change of another stream. -/
theorem onOther_keeps {α : Type} {k k' : Stream} {o : Option (List UInt8)} (hne : k ≠ k')
    (answer : List UInt8 → α) (value : List UInt8 → List UInt8) (e : Errno) :
    Keeps (RefXattrs.view.Has k o) fun s : RefXattrs =>
      match s.streams.lookup k' with
      | some v => (.ok (answer v) (s.put k' (value v)) : EStateM.Result Errno RefXattrs α)
      | none => .error e s := by
  intro s hs
  simp only
  cases hv : s.streams.lookup k' with
  | some v => exact put_has hne _ hs
  | none => exact hs

theorem refLibxattr_framed : FramedXattr refLibxattr RefXattrs.view where
  inodeOpen := fun _ _ _ _ hs => ⟨rfl, hs⟩
  inodeClose := fun _ _ _ _ hs => hs
  inodeUpdateTimes := fun _ _ _ _ _ hs => hs
  setFlags := fun _ _ _ _ _ hs => hs
  attrOpen := by
    intro k o ni u s hs
    simp only [refLibxattr]
    cases hv : s.streams.lookup (ni.mftNo, u) with
    | some v => exact ⟨⟨rfl, rfl⟩, hs⟩
    | none => exact hs
  attrClose := fun _ _ _ _ hs => hs
  attrAdd := by
    intro k o ni u hkept s hs
    simp only [refLibxattr]
    cases hv : s.streams.lookup (ni.mftNo, u) with
    | some v => exact hs
    | none =>
      refine put_has (fun heq => ?_) [] hs
      subst heq
      exact hkept.elim (fun hne => hne rfl) fun ho => ho (hs.symm.trans hv)
  attrRm := fun _ _ _ hne _ hs => (AList.lookup_erase_ne hne).trans hs
  attrTruncate := fun _ _ _ n hne => onOther_keeps hne (fun _ => ()) (fun v => v.take n) _
  attrPread := by
    intro k o na pos n s hs
    simp only [refLibxattr]
    cases hv : s.streams.lookup (na.inode.mftNo, na.name) with
    | some v => exact hs
    | none => exact hs
  attrPwrite := fun _ _ _ pos bytes hne =>
    onOther_keeps hne (fun _ => min 2 bytes.length)
      (fun v => overwrite v pos (bytes.take (min 2 bytes.length))) _
  attrPclose := fun _ _ _ _ hs => hs

/-- A file of three bytes. -/
def threeBytes : RefXattrs := noXattrs.put (20, []) [1, 2, 3]

theorem threeBytes_accepted : Accepted (RefXattrs.view.kinds threeBytes) 20 := by
  unfold Accepted
  decide +kernel

theorem dataKept_named : DataKept refLibxattr RefXattrs.view 20 [0x61] threeBytes :=
  ((dataKept_iff refLibxattr_lawful refLibxattr_framed threeBytes_accepted ⟨rfl, rfl⟩).2
    refLibxattr_reliable).mpr <| by
      intro u hu
      have ha : refLibxattr.mbstoucs [0x61] = .ok [0x61] := by decide +kernel
      cases ha.symm.trans hu
      exact ⟨by decide, fun hnil => absurd hnil (by decide)⟩

/-- With the empty name the data are written, reported and removed. -/
theorem empty_name_is_data :
    RefXattrs.view.streams threeBytes (20, []) = some [1, 2, 3] ∧
    (nfskGetxattrImpl refLibxattr 20 [] 64 threeBytes).1 = (3, [1, 2, 3]) ∧
    (nfskSetxattrImpl refLibxattr 20 [] [9] threeBytes).1 = 0 ∧
    RefXattrs.view.streams (nfskSetxattrImpl refLibxattr 20 [] [9] threeBytes).2 (20, []) =
      some [9] ∧
    (nfskRemovexattrImpl refLibxattr 20 [] threeBytes).1 = 0 ∧
    RefXattrs.view.streams (nfskRemovexattrImpl refLibxattr 20 [] threeBytes).2 (20, []) =
      none := by
  decide +kernel

/-- A name of 256 units on a directory, which has no data: the stream that is added is the data. -/
example :
    RefXattrs.view.streams noXattrs (20, []) = none ∧
    (nfskSetxattrImpl refLibxattr 20 (List.replicate 256 0x61) [9] noXattrs).1 = -ENOENT ∧
    RefXattrs.view.streams
      (nfskSetxattrImpl refLibxattr 20 (List.replicate 256 0x61) [9] noXattrs).2 (20, []) =
      some [] := by
  decide +kernel

end Ntfs
end Usbrw
