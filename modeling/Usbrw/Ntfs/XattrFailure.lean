import Usbrw.Ntfs.XattrMap

/-!
# Ntfs.XattrFailure

`nfsk_setxattr` where one call of the library fails. The old value is gone, or an empty stream is
there, before the first byte of the new value is written, and nothing is put back.

* `ReliableXattr` — a library whose calls fail only where they have to.
* `XattrFault`, `failing` — one call of it that fails and changes nothing.
* `leftBy`   — what is then left in the stream.
* `setxattr_kept_iff` — when that is what was there.
-/

namespace Usbrw
namespace Ntfs

open Call

variable {σ : Type}

/-- No stream has a name of which the length does not fit a `u8`, as the disk keeps it. -/
structure ReliableXattr (lib : Libxattr σ) (V : XattrView σ) : Prop extends
    LawfulXattr lib V where
  shortNames : ∀ S K s r u, V.Is S K s → ¬ u.length < 256 → S (r, u) = none
  addReturns : ∀ S K ni u, u.length < 256 → S (ni.mftNo, u) = none →
    Spec (V.Is S K) (lib.attrAdd ni u) (fun _ _ => True) fun _ _ => False
  rmReturns : ∀ S K na, Spec (V.Is S K) (lib.attrRm na) (fun _ _ => True) fun _ _ => False
  truncateReturns : ∀ S K na v, S (na.inode.mftNo, na.name) = some v →
    Spec (V.Is S K) (lib.attrTruncate na 0) (fun _ _ => True) fun _ _ => False
  pwriteReturns : ∀ S K na v pos bytes, S (na.inode.mftNo, na.name) = some v → pos ≤ v.length →
    bytes ≠ [] → Spec (V.Is S K) (lib.attrPwrite na pos bytes) (fun _ _ => True) fun _ _ => False
  pcloseReturns : ∀ S K na, Spec (V.Is S K) (lib.attrPclose na) (fun _ _ => True) fun _ _ => False

/-- A call that fails: `attrOpen` where there is a stream to open, whether it was there before or was
just added, and `pwrite` as the one that begins at a position. -/
inductive XattrFault where
  | inodeOpen
  | attrOpen
  | truncate
  | add
  | pwrite (pos : Nat)
  | pclose
  | inodeClose
  deriving DecidableEq

def Libxattr.failing (lib : Libxattr σ) (fault : Option XattrFault) (e : Errno) : Libxattr σ :=
  { lib with
    inodeOpen := fun r => if fault = some .inodeOpen then throw e else lib.inodeOpen r
    inodeClose := fun ni => if fault = some .inodeClose then throw e else lib.inodeClose ni
    attrOpen := fun ni u => if fault = some .attrOpen then throw e else lib.attrOpen ni u
    attrAdd := fun ni u => if fault = some .add then throw e else lib.attrAdd ni u
    attrTruncate := fun na n => if fault = some .truncate then throw e else lib.attrTruncate na n
    attrPwrite := fun na pos bytes =>
      if fault = some (.pwrite pos) then throw e else lib.attrPwrite na pos bytes
    attrPclose := fun na => if fault = some .pclose then throw e else lib.attrPclose na }

theorem failing_none (lib : Libxattr σ) (e : Errno) : lib.failing none e = lib := rfl

/-- What a failed call leaves in a stream that held `old`, if it was to hold `buf`. -/
def leftBy (buf : List UInt8) (old : Option (List UInt8)) : XattrFault → Option (List UInt8)
  | .inodeOpen => old
  | .attrOpen => some (old.getD [])
  | .truncate => old
  | .add => old
  | .pwrite pos => some (buf.take pos)
  | .pclose => some buf
  | .inodeClose => some buf

section Calls

variable {lib : Libxattr σ} {V : XattrView σ} {S : Streams} {K : UInt64 → Option UInt32}
  {fault : Option XattrFault} {e : Errno} {ni : NtfsInode} {u : List UInt16}

theorem failing_inodeOpen (hR : ReliableXattr lib V) (r : UInt64) :
    Spec (V.Is S K) ((lib.failing fault e).inodeOpen r)
      (fun ni s => (ni.mftNo = r ∧ (K r).isSome) ∧ V.Is S K s)
      fun _ s => (fault = some .inodeOpen ∨ K r = none) ∧ V.Is S K s :=
  Spec.guard (fun hf _ hs => ⟨Or.inl hf, hs⟩) fun _ =>
    (hR.inodeOpen S K r).conseq_error fun _ _ h => ⟨Or.inr h.1, h.2⟩

theorem failing_inodeClose (hR : ReliableXattr lib V) (ni : NtfsInode) :
    Spec (V.Is S K) ((lib.failing fault e).inodeClose ni) (fun _ => V.Is S K)
      fun _ s => fault = some .inodeClose ∧ V.Is S K s :=
  Spec.guard (fun hf _ hs => ⟨hf, hs⟩) fun _ =>
    (hR.inodeClose S K ni).conseq_error fun _ _ h => h.elim

theorem failing_attrOpen (hR : ReliableXattr lib V) (ni : NtfsInode) (u : List UInt16) :
    Spec (V.Is S K) ((lib.failing fault e).attrOpen ni u)
      (fun na s => (∃ v, S (ni.mftNo, u) = some v ∧ na = ⟨ni, u, v.length⟩) ∧ V.Is S K s)
      fun _ s => (fault = some .attrOpen ∨ S (ni.mftNo, u) = none) ∧ V.Is S K s :=
  Spec.guard (fun hf _ hs => ⟨Or.inl hf, hs⟩) fun _ =>
    (hR.attrOpen S K ni u).conseq_error fun _ _ h => ⟨Or.inr h.1, h.2⟩

theorem failing_attrAdd (hR : ReliableXattr lib V) (ni : NtfsInode) (hu : u.length < 256) :
    Spec (V.Is S K) ((lib.failing fault e).attrAdd ni u)
      (fun _ s => S (ni.mftNo, u) = none ∧ V.Is (Function.update S (ni.mftNo, u) (some [])) K s)
      fun _ s => (fault = some .add ∨ (S (ni.mftNo, u)).isSome) ∧ V.Is S K s := by
  refine Spec.guard (fun hf _ hs => ⟨Or.inl hf, hs⟩) fun _ => ?_
  cases hold : S (ni.mftNo, u) with
  | none =>
    exact ((hR.attrAdd S K ni u hu hold).returns (hR.addReturns S K ni u hu hold)).conseq_ok
      fun _ _ hs => ⟨rfl, hs⟩
  | some v =>
    exact (hR.addExisting S K ni u v hold).conseq (fun _ _ h => h.elim)
      fun _ _ hs => ⟨Or.inr rfl, hs⟩

theorem failing_attrTruncate (hR : ReliableXattr lib V) {na : StreamAttr} {v : List UInt8}
    (hv : S (na.inode.mftNo, na.name) = some v) :
    Spec (V.Is S K) ((lib.failing fault e).attrTruncate na 0)
      (fun _ => V.Is (Function.update S (na.inode.mftNo, na.name) (some [])) K)
      fun _ s => fault = some .truncate ∧ V.Is S K s :=
  Spec.guard (fun hf _ hs => ⟨hf, hs⟩) fun _ =>
    (hR.attrTruncate S K na v hv).returns (hR.truncateReturns S K na v hv)

theorem failing_attrPwrite (hR : ReliableXattr lib V) {na : StreamAttr} {v bytes : List UInt8}
    {pos : Nat} (hv : S (na.inode.mftNo, na.name) = some v) (hpos : pos ≤ v.length)
    (hne : bytes ≠ []) :
    Spec (V.Is S K) ((lib.failing fault e).attrPwrite na pos bytes)
      (fun part s => (0 < part ∧ part ≤ bytes.length) ∧
        V.Is (Function.update S (na.inode.mftNo, na.name)
          (some (overwrite v pos (bytes.take part)))) K s)
      fun _ s => fault = some (.pwrite pos) ∧ V.Is S K s :=
  Spec.guard (fun hf _ hs => ⟨hf, hs⟩) fun _ =>
    (hR.attrPwrite S K na v pos bytes hv hpos hne).returns
      (hR.pwriteReturns S K na v pos bytes hv hpos hne)

theorem failing_attrPclose (hR : ReliableXattr lib V) (na : StreamAttr) :
    Spec (V.Is S K) ((lib.failing fault e).attrPclose na) (fun _ => V.Is S K)
      fun _ s => fault = some .pclose ∧ V.Is S K s :=
  Spec.guard (fun hf _ hs => ⟨hf, hs⟩) fun _ =>
    (hR.attrPclose S K na).returns (hR.pcloseReturns S K na)

end Calls

/-! ## The run that fails -/

section Run

variable {lib : Libxattr σ} {V : XattrView σ} {S : Streams} {K : UInt64 → Option UInt32}
  {fault : Option XattrFault} {e : Errno} {ni : NtfsInode} {u : List UInt16} {name buf : List UInt8}

/-- The stream `k` holds what the fault leaves there, and every other one what it held. Without a
fault no call fails. -/
def LeftBy (V : XattrView σ) (S : Streams) (K : UInt64 → Option UInt32) (k : Stream)
    (buf : List UInt8) : Option XattrFault → σ → Prop
  | none => fun _ => False
  | some fault => V.Is (Function.update S k (leftBy buf (S k) fault)) K

theorem LeftBy.close {k : Stream} (hL : LawfulXattr lib V) (na : StreamAttr) {s : σ}
    (h : LeftBy V S K k buf fault s) : LeftBy V S K k buf fault (lib.attrClose na s) := by
  cases fault with
  | none => exact h
  | some fault => exact hL.attrClose _ K na s h

/-- A fault that leaves the stream as it was. -/
theorem leftBy_same {k : Stream} {fault : XattrFault} (hf : leftBy buf (S k) fault = S k) {s : σ}
    (hs : V.Is S K s) : LeftBy V S K k buf (some fault) s := by
  rw [LeftBy, hf, Function.update_eq_self]
  exact hs

theorem emptyAttr_failing (hR : ReliableXattr lib V) (ni : NtfsInode) (hu : u.length < 256)
    (buf : List UInt8) :
    Spec (V.Is S K) (emptyAttr (lib.failing fault e) ni u)
      (fun na s => (na.inode = ni ∧ na.name = u) ∧
        V.Is (Function.update S (ni.mftNo, u) (some [])) K s)
      fun res s => res < 0 ∧ LeftBy V S K (ni.mftNo, u) buf fault s := by
  unfold emptyAttr
  refine Spec.bind_attempt (failing_attrOpen hR ni u) ?_ ?_
  · intro na
    refine Spec.assume fun hna => ?_
    obtain ⟨v, hv, rfl⟩ := hna
    have htruncate : Spec (V.Is S K)
        ((lib.failing fault e).attrTruncate ⟨ni, u, v.length⟩ 0)
        (fun _ => V.Is (Function.update S (ni.mftNo, u) (some [])) K)
        fun _ s => fault = some .truncate ∧ V.Is S K s := failing_attrTruncate hR hv
    refine Spec.bind (Spec.onFail (Q := fun _ => V.Is (Function.update S (ni.mftNo, u) (some [])) K)
      (E := fun res s => res < 0 ∧ LeftBy V S K (ni.mftNo, u) buf fault s) ?_ ?_) fun _ => ?_
    · refine htruncate.orFail fun err s hs => ?_
      obtain ⟨rfl, hs⟩ := hs
      exact ⟨negErrno_neg err, leftBy_same rfl hs⟩
    · intro res s hs
      exact ⟨hs.1, hs.2.close hR.toLawfulXattr _⟩
    · exact Spec.pure fun s hs => ⟨⟨rfl, rfl⟩, hs⟩
  · intro _
    -- Either there is no stream, or the first open has met the fault and the stream is not added.
    refine Spec.assume fun hopen => ?_
    rw [u8Name_of_lt hu]
    refine Spec.bind_orFail (failing_attrAdd hR ni hu) ?_ fun _ => Spec.assume fun hnone => ?_
    · intro err s hs
      obtain ⟨hadd, hs⟩ := hs
      refine ⟨negErrno_neg err, ?_⟩
      rcases hadd with rfl | hsome
      · exact leftBy_same rfl hs
      · obtain ⟨v, hv⟩ := Option.isSome_iff_exists.mp hsome
        rcases hopen with rfl | hnone
        · exact leftBy_same (by rw [hv]; rfl) hs
        · rw [hnone] at hv
          cases hv
    refine Spec.bind (Q := fun _ => V.Is (Function.update S (ni.mftNo, u) (some [])) K)
      (Spec.modify fun s hs => markArchive_is hR.toLawfulXattr ni hs) fun _ => ?_
    refine Spec.orFail ((failing_attrOpen hR ni u).conseq_ok ?_) ?_
    · intro na s hs
      obtain ⟨⟨v, _, rfl⟩, hs⟩ := hs
      exact ⟨⟨rfl, rfl⟩, hs⟩
    · intro err s hs
      obtain ⟨hf, hs⟩ := hs
      refine ⟨negErrno_neg err, ?_⟩
      rcases hf with rfl | hnone'
      · rw [LeftBy, hnone]
        exact hs
      · rw [Function.update_self] at hnone'
        cases hnone'

/-- What is left where a name was too long: an empty stream whose name is the first part of it,
unless there is one already or the fault comes before. -/
def Narrowed (S : Streams) (fault : Option XattrFault) (k : Stream) (T : Streams) : Prop :=
  ((fault = some .inodeOpen ∨ fault = some .add ∨ (S k).isSome) ∧ T = S) ∨
    T = Function.update S k (some [])

theorem Narrowed.other {k k' : Stream} {T : Streams} (h : Narrowed S fault k T) (hne : k' ≠ k) :
    T k' = S k' := by
  rcases h with ⟨_, rfl⟩ | rfl
  · rfl
  · exact Function.update_of_ne hne _ _

/-- The name is not found, before the stream is added and afterwards. -/
theorem emptyAttr_long (hR : ReliableXattr lib V) (ni : NtfsInode) (hlong : ¬ u.length < 256) :
    Spec (V.Is S K) (emptyAttr (lib.failing fault e) ni u) (fun _ _ => False)
      fun res s => res < 0 ∧ ∃ T, Narrowed S fault (ni.mftNo, u8Name u) T ∧ V.Is T K s := by
  have hopen : ∀ T, Spec (V.Is T K) ((lib.failing fault e).attrOpen ni u) (fun _ _ => False)
      fun _ => V.Is T K := by
    intro T
    refine (failing_attrOpen hR ni u).conseq ?_ fun _ _ h => h.2
    rintro na s ⟨⟨v, hv, _⟩, hs⟩
    rw [hR.shortNames T K s _ u hs hlong] at hv
    cases hv
  unfold emptyAttr
  refine Spec.bind_attempt (hopen S) (fun _ _ hf => hf.elim) fun _ => ?_
  refine Spec.bind_orFail (failing_attrAdd hR ni (u8Name_lt u)) ?_ fun _ => ?_
  · rintro err s ⟨hadd, hs⟩
    exact ⟨negErrno_neg err, S, Or.inl ⟨Or.inr hadd, rfl⟩, hs⟩
  refine Spec.assume fun _ => ?_
  refine Spec.bind (Q := fun _ => V.Is (Function.update S (ni.mftNo, u8Name u) (some [])) K)
    (Spec.modify fun s hs => markArchive_is hR.toLawfulXattr ni hs) fun _ => ?_
  exact (hopen _).orFail fun err _ hs => ⟨negErrno_neg err, _, Or.inr rfl, hs⟩

/-- Before each pass the stream holds a first part of the value, so a write that fails leaves that. -/
theorem ReliableXattr.writes (hR : ReliableXattr lib V) (na : StreamAttr) (buf : List UInt8) :
    Writes (lib.failing fault e) V S K na buf
      fun res s => res < 0 ∧ LeftBy V S K (na.inode.mftNo, na.name) buf fault s := by
  intro total hlt
  have hself : Function.update S (na.inode.mftNo, na.name) (some (buf.take total))
      (na.inode.mftNo, na.name) = some (buf.take total) := Function.update_self ..
  refine (failing_attrPwrite hR hself (length_take_of_lt hlt) (drop_ne_nil hlt)).conseq_error ?_
  rintro err s ⟨rfl, hs⟩
  exact ⟨negErrno_neg err, hs⟩

theorem checkXattr_failing (hR : ReliableXattr lib V) (hacc : Accepted K ni.mftNo) (res : Int) :
    Spec (V.Is S K) (checkXattr (lib.failing fault e) ni res) (fun _ => V.Is S K)
      fun _ _ => False :=
  fun s hs => checkXattr_passes ni _ s ⟨(nfskXattrOk_iff hR.toLawfulXattr hs hacc).mpr rfl, hs⟩

theorem setxattrBody_long (hR : ReliableXattr lib V) (hacc : Accepted K ni.mftNo)
    (hu : lib.mbstoucs name = .ok u) (hlong : ¬ u.length < 256) (buf : List UInt8) :
    Spec (V.Is S K) (setxattrBody (lib.failing fault e) name buf ni) (fun _ _ => False)
      fun res s => res < 0 ∧ ∃ T, Narrowed S fault (ni.mftNo, u8Name u) T ∧ V.Is T K s := by
  have hu' : (lib.failing fault e).mbstoucs name = .ok u := hu
  unfold setxattrBody
  refine Spec.bind ((checkXattr_failing hR hacc _).conseq_error fun _ _ hf => hf.elim) fun _ => ?_
  rw [orFail_bind_convert hu']
  exact Spec.bind (emptyAttr_long hR ni hlong) fun _ _ hf => hf.elim

theorem setxattrBody_failing (hR : ReliableXattr lib V) (hacc : Accepted K ni.mftNo)
    (hu : lib.mbstoucs name = .ok u) (hshort : u.length < 256) (buf : List UInt8) :
    Spec (V.Is S K) (setxattrBody (lib.failing fault e) name buf ni)
      (fun _ => V.Is (Function.update S (ni.mftNo, u) (some buf)) K)
      fun res s => res < 0 ∧ LeftBy V S K (ni.mftNo, u) buf fault s := by
  have hL := hR.toLawfulXattr
  have hu' : (lib.failing fault e).mbstoucs name = .ok u := hu
  unfold setxattrBody
  refine Spec.bind ((checkXattr_failing hR hacc _).conseq_error fun _ _ hf => hf.elim) fun _ => ?_
  rw [orFail_bind_convert hu']
  refine Spec.bind (emptyAttr_failing hR ni hshort buf) fun na => ?_
  refine Spec.assume fun hna => ?_
  obtain ⟨rfl, rfl⟩ := hna
  refine Spec.afterwards (Q := fun _ =>
      V.Is (Function.update S (na.inode.mftNo, na.name) (some buf)) K)
    (E := fun res s => res < 0 ∧ LeftBy V S K (na.inode.mftNo, na.name) buf fault s)
    ?_ (fun _ s hs => hL.attrClose _ K na s hs) fun _ s hs => ⟨hs.1, hs.2.close hL na⟩
  refine Spec.bind (writeValue_loop (hR.writes na buf) buf.length 0 (Nat.zero_add _)) fun _ => ?_
  refine Spec.bind_orFail (failing_attrPclose hR na) ?_ fun _ => ?_
  · intro err s hs
    obtain ⟨rfl, hs⟩ := hs
    exact ⟨negErrno_neg err, hs⟩
  refine Spec.bind (Q := fun _ =>
      V.Is (Function.update S (na.inode.mftNo, na.name) (some buf)) K)
    (Spec.modify fun s hs => hL.inodeUpdateTimes _ K na.inode .ctime s hs) fun _ => ?_
  exact Spec.modify fun s hs => markArchive_is hL na.inode hs

/-- A file or a name that is refused: nothing is done. -/
theorem setxattrBody_refused (hR : ReliableXattr lib V) (hkind : (K ni.mftNo).isSome)
    (href : ¬ (Accepted K ni.mftNo ∧ ∃ u, lib.mbstoucs name = .ok u)) (buf : List UInt8) :
    Spec (V.Is S K) (setxattrBody (lib.failing fault e) name buf ni) (fun _ _ => False)
      fun res s => res < 0 ∧ V.Is S K s := by
  obtain ⟨k, hk⟩ := Option.isSome_iff_exists.mp hkind
  have hcheck : Spec (V.Is S K) (checkXattr (lib.failing fault e) ni (-EPERM))
      (fun _ s => k = 0 ∧ V.Is S K s) fun res s => res < 0 ∧ V.Is S K s := by
    intro s hs
    have hok := nfskXattrOk_iff hR.toLawfulXattr hs hk
    simp only [checkXattr]
    by_cases h : nfskXattrOk lib ni s = true
    · rw [show nfskXattrOk (lib.failing fault e) ni s = true from h]
      exact ⟨hok.mp h, hs⟩
    · rw [show nfskXattrOk (lib.failing fault e) ni s = false from Bool.not_eq_true _ ▸ h]
      exact ⟨by decide, hs⟩
  unfold setxattrBody
  refine Spec.bind hcheck fun _ => Spec.assume fun hzero => ?_
  rw [hzero] at hk
  cases hm : lib.mbstoucs name with
  | ok u => exact absurd ⟨hk, u, hm⟩ href
  | error err =>
    refine Spec.bind (Q := fun _ _ => False) (Spec.orFail (E := fun _ => V.Is S K) ?_
      fun err _ hs => ⟨negErrno_neg err, hs⟩) fun _ _ hf => hf.elim
    intro s hs
    rw [convert, show (lib.failing fault e).mbstoucs name = .error err from hm]
    exact hs

theorem outNi_failing (hR : ReliableXattr lib V) (ni : NtfsInode) {res rc : Int} {s s' : σ}
    (hs : V.Is S K s) (h : outNi (lib.failing fault e) ni res s = (rc, s')) :
    V.Is S K s' ∧ (rc = res ∨ fault = some .inodeClose) := by
  have hclose : Spec (V.Is S K) ((lib.failing fault e).inodeClose ni) (fun _ => V.Is S K)
      fun _ s => fault = some .inodeClose ∧ V.Is S K s := failing_inodeClose hR ni
  have hs' := hclose s hs
  unfold outNi at h
  cases hc : (lib.failing fault e).inodeClose ni s with
  | ok _ s₁ =>
    rw [hc] at h hs'
    cases h
    exact ⟨hs', Or.inl rfl⟩
  | error err s₁ =>
    rw [hc] at h hs'
    cases h
    exact ⟨hs'.2, Or.inr hs'.1⟩

/-- A call fails with the inode that it was to open, with what it did, or with the inode that it
was to close. -/
theorem withInode_failing (hR : ReliableXattr lib V) {body : NtfsInode → EStateM Int σ Unit}
    {r : UInt64} {T : Streams} {E : Streams → Prop} (hbody : ∀ ni, ni.mftNo = r → (K r).isSome →
      Spec (V.Is S K) (body ni) (fun _ => V.Is T K) fun _ s => ∃ T', E T' ∧ V.Is T' K s)
    {rc : Int} {s s' : σ} (hs : V.Is S K s)
    (h : withInode (lib.failing fault e) body r s = (rc, s')) :
    ((fault = some .inodeOpen ∨ K r = none) ∧ V.Is S K s') ∨ (∃ T', E T' ∧ V.Is T' K s') ∨
      ((rc = 0 ∨ fault = some .inodeClose) ∧ V.Is T K s') := by
  have hopen : Spec (V.Is S K) ((lib.failing fault e).inodeOpen r)
      (fun ni s => (ni.mftNo = r ∧ (K r).isSome) ∧ V.Is S K s)
      fun _ s => (fault = some .inodeOpen ∨ K r = none) ∧ V.Is S K s := failing_inodeOpen hR r
  have hs₁ := hopen s hs
  unfold withInode at h
  cases ho : (lib.failing fault e).inodeOpen r s with
  | error err s₁ =>
    rw [ho] at h hs₁
    cases h
    exact Or.inl hs₁
  | ok ni s₁ =>
    rw [ho] at h hs₁
    obtain ⟨⟨hno, hkind⟩, hs₁⟩ := hs₁
    have hs₂ := hbody ni hno hkind s₁ hs₁
    simp only at h
    cases hb : body ni s₁ with
    | error res s₂ =>
      rw [hb] at h hs₂
      obtain ⟨T', hE, hs₂⟩ := hs₂
      exact Or.inr (Or.inl ⟨T', hE, (outNi_failing hR ni hs₂ h).1⟩)
    | ok _ s₂ =>
      rw [hb] at h hs₂
      obtain ⟨hs₃, hclose⟩ := outNi_failing hR ni hs₂ h
      exact Or.inr (Or.inr ⟨hclose, hs₃⟩)

/-- What a call that fails leaves, if the file and the name are not refused. -/
theorem setxattr_leaves (hR : ReliableXattr lib V) {fault : XattrFault} {r : UInt64}
    (hacc : Accepted K r) (hu : lib.mbstoucs name = .ok u) (hshort : u.length < 256) {rc : Int}
    {s s' : σ} (hs : V.Is S K s)
    (h : nfskSetxattrImpl (lib.failing (some fault) e) r name buf s = (rc, s')) (hrc : rc ≠ 0) :
    V.Is (Function.update S (r, u) (leftBy buf (S (r, u)) fault)) K s' := by
  have hbody : ∀ ni : NtfsInode, ni.mftNo = r → (K r).isSome →
      Spec (V.Is S K) (setxattrBody (lib.failing (some fault) e) name buf ni)
        (fun _ => V.Is (Function.update S (r, u) (some buf)) K)
        fun _ s => ∃ T, T = Function.update S (r, u) (leftBy buf (S (r, u)) fault) ∧
          V.Is T K s := by
    rintro ni rfl _
    exact (setxattrBody_failing hR hacc hu hshort buf).conseq_error fun _ _ hs => ⟨_, rfl, hs.2⟩
  rcases withInode_failing hR hbody hs h with ⟨hf | hnone, hs'⟩ | ⟨_, rfl, hs'⟩ | ⟨hzero | hf, hs'⟩
  · cases hf
    exact leftBy_same rfl hs'
  · rw [Accepted, hnone] at hacc
    cases hacc
  · exact hs'
  · exact absurd hzero hrc
  · cases hf
    exact hs'

/-- What any call leaves of a name that is too long. -/
theorem setxattr_long (hR : ReliableXattr lib V) {r : UInt64} (hacc : Accepted K r)
    (hu : lib.mbstoucs name = .ok u) (hlong : ¬ u.length < 256) {rc : Int} {s s' : σ}
    (hs : V.Is S K s) (h : nfskSetxattrImpl (lib.failing fault e) r name buf s = (rc, s')) :
    ∃ T, Narrowed S fault (r, u8Name u) T ∧ V.Is T K s' := by
  have hbody : ∀ ni : NtfsInode, ni.mftNo = r → (K r).isSome →
      Spec (V.Is S K) (setxattrBody (lib.failing fault e) name buf ni)
        (fun _ => V.Is (Function.update S (r, u8Name u) (some [])) K)
        fun _ s => ∃ T, Narrowed S fault (r, u8Name u) T ∧ V.Is T K s := by
    rintro ni rfl _
    exact (setxattrBody_long hR hacc hu hlong buf).conseq (fun _ _ hf => hf.elim) fun _ _ hs => hs.2
  rcases withInode_failing hR hbody hs h with ⟨hf | hnone, hs'⟩ | hs' | ⟨_, hs'⟩
  · exact ⟨S, Or.inl ⟨Or.inl hf, rfl⟩, hs'⟩
  · rw [Accepted, hnone] at hacc
    cases hacc
  · exact hs'
  · exact ⟨_, Or.inr rfl, hs'⟩

theorem setxattr_refused (hR : ReliableXattr lib V) {r : UInt64}
    (href : ¬ (Accepted K r ∧ ∃ u, lib.mbstoucs name = .ok u)) {rc : Int} {s s' : σ}
    (hs : V.Is S K s) (h : nfskSetxattrImpl (lib.failing fault e) r name buf s = (rc, s')) :
    V.Is S K s' := by
  have hbody : ∀ ni : NtfsInode, ni.mftNo = r → (K r).isSome →
      Spec (V.Is S K) (setxattrBody (lib.failing fault e) name buf ni) (fun _ => V.Is S K)
        fun _ s => ∃ T, T = S ∧ V.Is T K s := by
    rintro ni rfl hkind
    exact (setxattrBody_refused hR hkind href buf).conseq (fun _ _ hf => hf.elim)
      fun _ _ hs => ⟨S, rfl, hs.2⟩
  rcases withInode_failing hR hbody hs h with ⟨_, hs'⟩ | ⟨_, rfl, hs'⟩ | ⟨_, hs'⟩
  · exact hs'
  · exact hs'
  · exact hs'

/-- Without a fault an attribute of a file that is not refused is set, if its name is short enough. -/
theorem setxattr_returns (hR : ReliableXattr lib V) {r : UInt64} (hacc : Accepted K r)
    (hu : lib.mbstoucs name = .ok u) (hshort : u.length < 256) (buf : List UInt8) {s : σ}
    (hs : V.Is S K s) :
    ∃ s', nfskSetxattrImpl lib r name buf s = (0, s') ∧
      V.Is (Function.update S (r, u) (some buf)) K s' := by
  obtain ⟨ni, s₁, hopen, rfl, _, hs₁⟩ := inodeOpen_accepted hR.toLawfulXattr hacc hs
  have hbody : Spec (V.Is S K) (setxattrBody lib name buf ni)
      (fun _ => V.Is (Function.update S (ni.mftNo, u) (some buf)) K)
      fun res s => res < 0 ∧ LeftBy V S K (ni.mftNo, u) buf none s := by
    rw [← failing_none lib ⟨ EIO, EIO_pos⟩]
    exact setxattrBody_failing hR hacc hu hshort buf
  have hs₂ := hbody s₁ hs₁
  simp only [nfskSetxattrImpl, withInode, hopen]
  cases hb : setxattrBody lib name buf ni s₁ with
  | error res s₂ =>
    rw [hb] at hs₂
    exact hs₂.2.elim
  | ok _ s₂ =>
    rw [hb] at hs₂
    exact outNi_zero hR.toLawfulXattr ni 0 hs₂

end Run

/-! ## When the old attribute is left -/

/-- The fault comes before anything is changed, or changes what is the same afterwards. -/
def Harmless (buf : List UInt8) (old : Option (List UInt8)) : XattrFault → Prop
  | .inodeOpen => True
  | .attrOpen => old ≠ none
  | .truncate => True
  | .add => True
  | .pwrite pos => old = some (buf.take pos)
  | .pclose => old = some buf
  | .inodeClose => old = some buf

theorem leftBy_eq_iff (buf : List UInt8) (old : Option (List UInt8)) (fault : XattrFault) :
    leftBy buf old fault = old ↔ Harmless buf old fault := by
  cases fault with
  | inodeOpen => exact iff_of_true rfl trivial
  | truncate => exact iff_of_true rfl trivial
  | add => exact iff_of_true rfl trivial
  | attrOpen => cases old <;> simp [leftBy, Harmless]
  | pwrite pos => exact eq_comm
  | pclose => exact eq_comm
  | inodeClose => exact eq_comm

/-- Where one call of the library fails and `nfsk_setxattr` with it, the attribute is as it was
exactly if the file is refused, the name is too long for a stream or the fault is harmless. If the
name stands for no stream, nothing changes. -/
theorem setxattr_kept_iff {lib : Libxattr σ} {V : XattrView σ} (hR : ReliableXattr lib V)
    {S : Streams} {K : UInt64 → Option UInt32} {fault : XattrFault} {e : Errno} {r : UInt64}
    {name buf : List UInt8} {rc : Int} {s s' : σ} (hs : V.Is S K s)
    (h : nfskSetxattrImpl (lib.failing (some fault) e) r name buf s = (rc, s')) (hrc : rc ≠ 0) :
    (∀ u, lib.mbstoucs name = .ok u →
      (V.streams s' (r, u) = V.streams s (r, u) ↔
        (Accepted K r → u.length < 256 → Harmless buf (V.streams s (r, u)) fault))) ∧
    ((∀ u, lib.mbstoucs name ≠ .ok u) → V.streams s' = V.streams s) := by
  rw [hs.streams]
  constructor
  · intro u hu
    by_cases hacc : Accepted K r
    · by_cases hshort : u.length < 256
      · have hs' : V.Is (Function.update S (r, u) (leftBy buf (S (r, u)) fault)) K s' :=
          setxattr_leaves hR hacc hu hshort hs h hrc
        rw [hs'.streams, Function.update_self, leftBy_eq_iff]
        exact ⟨fun hh _ _ => hh, fun hh => hh hacc hshort⟩
      · obtain ⟨T, hT, hs'⟩ := setxattr_long hR hacc hu hshort hs h
        rw [hs'.streams, hT.other fun heq => u8Name_ne hshort (Prod.mk.inj heq).2.symm]
        exact iff_of_true rfl fun _ hlt => absurd hlt hshort
    · have hs' := setxattr_refused hR (fun hr => hacc hr.1) hs h
      rw [hs'.streams]
      exact iff_of_true rfl fun ha => absurd ha hacc
  · intro hnone
    have hs' := setxattr_refused hR (fun hr => hr.2.elim hnone) hs h
    exact hs'.streams

/-! ## A library that obeys the laws -/

theorem ENOSPC_pos : 0 < ENOSPC := by decide

theorem refLibxattr_reliable : ReliableXattr refLibxattr RefXattrs.view where
  toLawfulXattr := refLibxattr_lawful
  shortNames := by
    intro S K s r u hs hlong
    rw [← hs.streams]
    cases hv : s.streams.lookup (r, u) with
    | none => exact hv
    | some v => exact absurd (RefXattrs.short_of_lookup hv) hlong
  addReturns := by
    intro S K ni u _ hnone s hs
    have hstream := congrFun hs.streams (ni.mftNo, u)
    simp only [RefXattrs.view, hnone] at hstream
    simp only [refLibxattr, hstream]
  rmReturns := fun _ _ _ _ _ => trivial
  truncateReturns := by
    intro S K na v hv s hs
    have hstream := congrFun hs.streams (na.inode.mftNo, na.name)
    simp only [RefXattrs.view, hv] at hstream
    simp only [refLibxattr, hstream]
  pwriteReturns := by
    intro S K na v pos bytes hv _ _ s hs
    have hstream := congrFun hs.streams (na.inode.mftNo, na.name)
    simp only [RefXattrs.view, hv] at hstream
    simp only [refLibxattr, hstream]
  pcloseReturns := fun _ _ _ _ _ => trivial

/-- Record 20 has an attribute `a`. -/
def oneXattr : RefXattrs := noXattrs.put (20, [0x61]) [1, 2, 3]

/-- `nfsk_setxattr` of `a` with a value of five bytes. -/
def setFailing (fault : XattrFault) : Int × RefXattrs :=
  nfskSetxattrImpl (refLibxattr.failing (some fault) ⟨ENOSPC, ENOSPC_pos⟩) 20 [0x61]
    [4, 5, 6, 7, 8] oneXattr

/-- The old value stays if `ntfs_attr_truncate` fails. -/
theorem setxattr_kept_truncate :
    RefXattrs.view.streams (setFailing .truncate).2 (20, [0x61]) =
      RefXattrs.view.streams oneXattr (20, [0x61]) := by
  have hfails : (setFailing .truncate).1 ≠ 0 := by decide +kernel
  have hkept := (setxattr_kept_iff refLibxattr_reliable (show RefXattrs.view.Is
    (RefXattrs.view.streams oneXattr) (RefXattrs.view.kinds oneXattr) oneXattr from ⟨rfl, rfl⟩)
    (show setFailing .truncate = ((setFailing .truncate).1, (setFailing .truncate).2) from rfl)
    hfails).1 [0x61] (by decide +kernel)
  exact hkept.mpr fun _ _ => trivial

/-- A full disk after two bytes: the old value is gone. -/
theorem old_value_lost :
    (setFailing (.pwrite 2)).1 = -ENOSPC ∧
      RefXattrs.view.streams oneXattr (20, [0x61]) = some [1, 2, 3] ∧
      RefXattrs.view.streams (setFailing (.pwrite 2)).2 (20, [0x61]) = some [4, 5] := by
  decide +kernel

end Ntfs
end Usbrw
