import Usbrw.Stat
import Usbrw.Shim.Window
import Usbrw.Ntfs.Data
import Usbrw.Ntfs.DataStream
import Usbrw.Ntfs.Xattr

/-!
# Ntfs.Setattr

`nfsk_setattr_impl` and `nfsk_truncate_impl`.

* `Libsetattr`      — the libntfs-3g calls for it.
* `nfskSetattrImpl`, `nfskTruncateImpl` — the code.
* `DataView`, `LawfulSetattr` — the data of every record, and what the calls do to it.
* `resizeAttr_spec` — which of its two calls a change of the size makes.
* `nfskTruncate_sets` — a successful call has set the size that it was given.
-/

namespace Usbrw
namespace Ntfs

open Call

variable {σ : Type}

/-! ## The code -/

/-- An open unnamed data attribute. -/
structure DataAttr extends NtfsAttr where
  dataFlags : UInt16
  initializedSize : Int64

inductive InodeTime where
  | lastDataChange
  | lastAccess
  | creation

/-- `errno` is what it holds in a state where no call has just failed. -/
structure Libsetattr (σ : Type) extends Libntfs σ where
  errno : σ → Int
  timespec2ntfs : Int64 → Int64
  flags : NtfsInode → σ → UInt32
  setFlags : NtfsInode → UInt32 → σ → σ
  setTime : NtfsInode → InodeTime → Int64 → σ → σ
  attrOpen : NtfsInode → EStateM Errno σ DataAttr
  attrClose : DataAttr → σ → σ
  attrTruncate : DataAttr → Int64 → EStateM Errno σ Unit
  attrPwrite : DataAttr → Int64 → List UInt8 → EStateM Errno σ Nat
  setNtfsAttrib : NtfsInode → UInt32 → EStateM Errno σ Unit

def NFSK_DOS_HIDDEN : UInt32 := 0x2
def UF_HIDDEN : UInt32 := 0x8000

section Code

variable (lib : Libsetattr σ)

/-- Make the attribute `newsize` bytes long: a compressed one is extended by writing its last byte. -/
def resizeAttr (na : DataAttr) (newsize : Int64) : EStateM Int σ Unit :=
  if na.dataFlags &&& ATTR_COMPRESSION_MASK ≠ 0 ∧ na.initializedSize < newsize then do
    let ret ← orFail negErrno (lib.attrPwrite na (newsize - 1) [0])
    if ret = 0 then fun s => .error (-lib.errno s) s else pure ()
  else orFail negErrno (lib.attrTruncate na newsize)

def setSize (mft : UInt64) (ni : NtfsInode) (newsize : Int64) : EStateM Int σ Unit :=
  if mft < FILE_first_user then throw (-EPERM)
  else if ni.reparsePoint then throw (-EOPNOTSUPP)
  else do
    let na ← orFail negErrno (lib.attrOpen ni)
    afterwards (resizeAttr lib na newsize) (modify (lib.attrClose na) : EStateM Int σ Unit)
    modify fun s =>
      if na.dataSize ≠ newsize then lib.setFlags ni (lib.flags ni s ||| FILE_ATTR_ARCHIVE) s else s
    modify (lib.inodeUpdateTimes ni .mctime)

def setTimes (ni : NtfsInode) (st : NfskStat) (which : UInt32) (s : σ) : σ :=
  if which &&& (16 ||| 64 ||| 128) ≠ 0 then
    let s := if which &&& 16 ≠ 0 then
      lib.setTime ni .lastDataChange (lib.timespec2ntfs st.mtime) s else s
    let s := if which &&& 64 ≠ 0 then
      lib.setTime ni .lastAccess (lib.timespec2ntfs st.atime) s else s
    let s := if which &&& 128 ≠ 0 then
      lib.setTime ni .creation (lib.timespec2ntfs st.btime) s else s
    lib.inodeUpdateTimes ni .ctime s
  else s

/-- The DOS attributes with the hidden bit as `flags` asks for. -/
def hiddenAs (flags a : UInt32) : UInt32 :=
  if flags &&& UF_HIDDEN ≠ 0 then a ||| NFSK_DOS_HIDDEN else a &&& ~~~NFSK_DOS_HIDDEN

def setHidden (ni : NtfsInode) (flags : UInt32) : EStateM Int σ Unit := fun s =>
  orFail negErrno (lib.setNtfsAttrib ni (hiddenAs flags (lib.flags ni s))) s

def setattrBody (mft : UInt64) (st : NfskStat) (which : UInt32) (ni : NtfsInode) :
    EStateM Int σ Unit := do
  if which &&& 8 ≠ 0 then setSize lib mft ni st.size.toInt64 else pure ()
  modify (setTimes lib ni st which)
  if which &&& 32 ≠ 0 then setHidden lib ni st.flags else pure ()

/-- The volume and `st` are never NULL. -/
def nfskSetattrImpl (mft : UInt64) (st : NfskStat) (which : UInt32) : EStateM Int σ Unit :=
  if mft ≤ 1 then throw (-ENOENT)
  else do
    let ni ← orFail negErrno (lib.inodeOpen mft)
    closing lib.toLibntfs ni (setattrBody lib mft st which ni)

def nfskTruncateImpl (mft newsize : UInt64) : EStateM Int σ Unit :=
  nfskSetattrImpl lib mft { NfskStat.zero with size := newsize } 8

end Code

/-! ## The data -/

/-- The unnamed data stream of every record that has one. -/
abbrev DataView (σ : Type) : Type := σ → UInt64 → Option DataStream

def DataView.Holds (V : DataView σ) (r : UInt64) (d : DataStream) (s : σ) : Prop := V s r = some d

/-- A call that fails leaves anything. Nothing but `ntfs_attr_truncate` and `ntfs_attr_pwrite`
changes data. A compressed attribute is not to be truncated to more than was written of it. -/
structure LawfulSetattr (lib : Libsetattr σ) (V : DataView σ) : Prop where
  inodeOpen : ∀ r d r', Spec (V.Holds r d) (lib.inodeOpen r')
    (fun ni s => ni.mftNo = r' ∧ V.Holds r d s) fun _ _ => True
  inodeClose : ∀ r d ni, Spec (V.Holds r d) (lib.inodeClose ni) (fun _ => V.Holds r d)
    fun _ _ => True
  inodeUpdateTimes : ∀ r d ni w s, V.Holds r d s → V.Holds r d (lib.inodeUpdateTimes ni w s)
  setFlags : ∀ r d ni f s, V.Holds r d s → V.Holds r d (lib.setFlags ni f s)
  setTime : ∀ r d ni w t s, V.Holds r d s → V.Holds r d (lib.setTime ni w t s)
  setNtfsAttrib : ∀ r d ni a, Spec (V.Holds r d) (lib.setNtfsAttrib ni a) (fun _ => V.Holds r d)
    fun _ _ => True
  attrOpen : ∀ d ni, Spec (V.Holds ni.mftNo d) (lib.attrOpen ni)
    (fun na s => (na.inode = ni ∧ na.dataFlags = d.flags ∧ na.dataSize.toInt = d.size ∧
      na.initializedSize.toInt = d.initialized) ∧ V.Holds ni.mftNo d s) fun _ _ => True
  attrClose : ∀ r d na s, V.Holds r d s → V.Holds r d (lib.attrClose na s)
  attrTruncate : ∀ d na n, 0 ≤ n → (d.Compressed → n.toInt.toNat ≤ d.initialized) →
    Spec (V.Holds na.inode.mftNo d) (lib.attrTruncate na n)
      (fun _ s => ∃ d', d.Truncated n.toInt.toNat d' ∧ V.Holds na.inode.mftNo d' s) fun _ _ => True
  attrPwrite : ∀ d na pos bytes, 0 ≤ pos → bytes ≠ [] →
    Spec (V.Holds na.inode.mftNo d) (lib.attrPwrite na pos bytes)
      (fun part s => (0 < part ∧ part ≤ bytes.length) ∧
        ∃ d', d.Attempted pos.toInt.toNat bytes part d' ∧ V.Holds na.inode.mftNo d' s)
      fun _ _ => True

/-- What the two ways to change the size make of the data. -/
def DataStream.ResizedBy (d : DataStream) (n : Nat) (d' : DataStream) : Prop :=
  if d.Compressed ∧ d.initialized < n then d.Written (n - 1) [0] d' else d.Truncated n d'

/-- Either way the size is set. -/
theorem DataStream.ResizedBy.resized {d d' : DataStream} {n : Nat} (h : d.ResizedBy n d') :
    d.Resized n d' := by
  unfold DataStream.ResizedBy at h
  by_cases hc : d.Compressed ∧ d.initialized < n
  · rw [if_pos hc] at h
    exact h.resized hc.1 hc.2
  · rw [if_neg hc] at h
    exact h.resized

section Results

variable {lib : Libsetattr σ} {V : DataView σ} {mft newsize : UInt64} {d : DataStream}
  {ni : NtfsInode} {st : NfskStat} {which : UInt32}

/-- The record holds what a change of the size to `n` makes of `d`. -/
def HoldsResized (V : DataView σ) (r : UInt64) (d : DataStream) (n : Nat) (s : σ) : Prop :=
  ∃ d', d.ResizedBy n d' ∧ V.Holds r d' s

/-- `Q` says what holds of a stream that either call has made. -/
theorem resizeAttr_rule {P : σ → Prop} {Q : DataStream → σ → Prop} {na : DataAttr} {n : Int64}
    (hflags : na.dataFlags = d.flags) (hinit : na.initializedSize.toInt = d.initialized)
    (htruncate : (d.Compressed → n.toInt.toNat ≤ d.initialized) → Spec P (lib.attrTruncate na n)
      (fun _ s => 0 ≤ n ∧ ∃ d', d.Truncated n.toInt.toNat d' ∧ Q d' s) fun _ _ => True)
    (hpwrite : 0 ≤ n - 1 → Spec P (lib.attrPwrite na (n - 1) [0])
      (fun part s => (0 < part ∧ part ≤ 1) ∧
        ∃ d', d.Attempted (n - 1).toInt.toNat [0] part d' ∧ Q d' s) fun _ _ => True) :
    Spec P (resizeAttr lib na n)
      (fun _ s => 0 ≤ n ∧ ∃ d', d.ResizedBy n.toInt.toNat d' ∧ Q d' s) fun _ _ => True := by
  have hlt : na.initializedSize < n ↔ d.initialized < n.toInt.toNat := by
    rw [Int64.lt_iff_toInt_lt, hinit]
    omega
  have hcond : (na.dataFlags &&& ATTR_COMPRESSION_MASK ≠ 0 ∧ na.initializedSize < n) ↔
      (d.Compressed ∧ d.initialized < n.toInt.toNat) := by
    rw [hflags, hlt]
    rfl
  unfold resizeAttr DataStream.ResizedBy
  simp only [hcond]
  by_cases hc : d.Compressed ∧ d.initialized < n.toInt.toNat
  · have hone : (1 : Int64).toInt = 1 := rfl
    have hlt := n.toInt_lt
    have hpos : (n - 1).toInt = n.toInt - 1 := by
      rw [Int64.toInt_sub, hone]
      exact Int.bmod_eq_of_le (by omega) (by omega)
    have hle : (0 : Int64) ≤ n - 1 := by
      rw [Int64.le_iff_toInt_le, hpos, Int64.toInt_zero]
      omega
    have hn : (0 : Int64) ≤ n := by
      rw [Int64.le_iff_toInt_le, Int64.toInt_zero]
      omega
    simp only [if_pos hc]
    refine Spec.bind ((hpwrite hle).orFail fun _ _ _ => trivial) fun part s hs => ?_
    obtain ⟨⟨hpart, hlen⟩, d', hd', hs⟩ := hs
    have heq : part = 1 := by omega
    subst heq
    rw [hpos, show (n.toInt - 1).toNat = n.toInt.toNat - 1 by omega] at hd'
    -- the only byte there is was stored
    have hstored := hd' fun _ => ⟨Nat.one_pos, by omega⟩
    exact ⟨hn, d', hstored.written (List.cons_ne_nil 0 []), hs⟩
  · simp only [if_neg hc]
    refine (htruncate fun hcomp => ?_).orFail fun _ _ _ => trivial
    exact Nat.not_lt.mp fun hlt => hc ⟨hcomp, hlt⟩

theorem resizeAttr_spec (hL : LawfulSetattr lib V) {na : DataAttr} {n : Int64} (hn : 0 ≤ n)
    (hflags : na.dataFlags = d.flags) (hinit : na.initializedSize.toInt = d.initialized) :
    Spec (V.Holds na.inode.mftNo d) (resizeAttr lib na n)
      (fun _ => HoldsResized V na.inode.mftNo d n.toInt.toNat) fun _ _ => True :=
  (resizeAttr_rule hflags hinit
    (fun hle => (hL.attrTruncate d na n hn hle).conseq_ok fun _ _ hs => ⟨hn, hs⟩)
    fun hle => hL.attrPwrite d na (n - 1) [0] hle (by simp)).conseq_ok fun _ _ hs => hs.2

theorem setSize_spec (hL : LawfulSetattr lib V) {n : Int64} (hn : 0 ≤ n) :
    Spec (V.Holds ni.mftNo d) (setSize lib mft ni n)
      (fun _ => HoldsResized V ni.mftNo d n.toInt.toNat) fun _ _ => True := by
  unfold setSize
  refine Spec.guard (fun _ _ _ => trivial) fun _ => Spec.guard (fun _ _ _ => trivial) fun _ => ?_
  refine Spec.bind_orFail (hL.attrOpen d ni) (fun _ _ _ => trivial) fun na => Spec.assume ?_
  rintro ⟨hinode, hflags, _, hinit⟩
  have hresize := resizeAttr_spec hL hn hflags hinit
  rw [hinode] at hresize
  refine Spec.bind (Q := fun _ => HoldsResized V ni.mftNo d n.toInt.toNat) ?_ fun _ => ?_
  · refine hresize.afterwards (fun _ s hs => ?_) fun _ _ _ => trivial
    obtain ⟨d', hd', hs⟩ := hs
    exact ⟨d', hd', hL.attrClose _ _ na s hs⟩
  · refine Spec.bind (Q := fun _ => HoldsResized V ni.mftNo d n.toInt.toNat) ?_ fun _ => ?_
    · refine Spec.modify fun s hs => ?_
      obtain ⟨d', hd', hs⟩ := hs
      refine ⟨d', hd', ?_⟩
      split
      · exact hL.setFlags _ _ ni _ s hs
      · exact hs
    · refine Spec.modify fun s hs => ?_
      obtain ⟨d', hd', hs⟩ := hs
      exact ⟨d', hd', hL.inodeUpdateTimes _ _ ni .mctime s hs⟩

theorem setTimes_holds (hL : LawfulSetattr lib V) {r : UInt64} {s : σ} (hs : V.Holds r d s) :
    V.Holds r d (setTimes lib ni st which s) := by
  have htime : ∀ (p : Prop) [Decidable p] (w : InodeTime) (t : Int64) (s : σ), V.Holds r d s →
      V.Holds r d (if p then lib.setTime ni w t s else s) := by
    intro p _ w t s hs
    split
    · exact hL.setTime r d ni w t s hs
    · exact hs
  unfold setTimes
  split
  · exact hL.inodeUpdateTimes r d ni .ctime _ (htime _ _ _ _ (htime _ _ _ _ (htime _ _ _ _ hs)))
  · exact hs

/-- Whatever else the request asks for is not about the data. -/
theorem setattrBody_spec (hL : LawfulSetattr lib V) (hwhich : which &&& 8 ≠ 0)
    (hn : 0 ≤ st.size.toInt64) :
    Spec (V.Holds ni.mftNo d) (setattrBody lib mft st which ni)
      (fun _ => HoldsResized V ni.mftNo d st.size.toInt64.toInt.toNat) fun _ _ => True := by
  unfold setattrBody
  rw [if_pos hwhich]
  refine Spec.bind (setSize_spec hL hn) fun _ => ?_
  refine Spec.bind (Q := fun _ => HoldsResized V ni.mftNo d st.size.toInt64.toInt.toNat) ?_
    fun _ => ?_
  · refine Spec.modify fun s hs => ?_
    obtain ⟨d', hd', hs⟩ := hs
    exact ⟨d', hd', setTimes_holds hL hs⟩
  · intro s hs
    obtain ⟨d', hd', hs⟩ := hs
    by_cases hhidden : which &&& 32 ≠ 0
    · rw [if_pos hhidden]
      have hset := (hL.setNtfsAttrib ni.mftNo d' ni (hiddenAs st.flags (lib.flags ni s))).orFail
        (D := fun _ _ => True) (f := negErrno) fun _ _ _ => trivial
      have hres := hset s hs
      simp only [setHidden]
      split at hres
      · exact ⟨d', hd', hres⟩
      · trivial
    · rw [if_neg hhidden]
      exact ⟨d', hd', hs⟩

theorem nfskSetattrImpl_spec (hL : LawfulSetattr lib V) (hwhich : which &&& 8 ≠ 0)
    (hn : 0 ≤ st.size.toInt64) :
    Spec (V.Holds mft d) (nfskSetattrImpl lib mft st which)
      (fun _ => HoldsResized V mft d st.size.toInt64.toInt.toNat) fun _ _ => True := by
  unfold nfskSetattrImpl
  refine Spec.guard (fun _ _ _ => trivial) fun _ => ?_
  refine Spec.bind_orFail (hL.inodeOpen mft d mft) (fun _ _ _ => trivial) fun ni => Spec.assume ?_
  rintro rfl
  unfold closing
  refine Spec.bind ((setattrBody_spec hL hwhich hn).onFail fun _ _ _ => trivial) fun _ s hs => ?_
  obtain ⟨d', hd', hs⟩ := hs
  refine Spec.bind_orFail (hL.inodeClose ni.mftNo d' ni) (D := fun _ _ => True)
    (R := fun _ => HoldsResized V ni.mftNo d st.size.toInt64.toInt.toNat)
    (fun _ _ _ => trivial) (fun _ => Spec.pure fun s hs => ?_) s hs
  exact ⟨d', hd', hs⟩

/-- The size of the record's data was set to `n`. -/
def SizeSet (V : DataView σ) (r : UInt64) (d : DataStream) (n : Nat) (s : σ) : Prop :=
  ∃ d', V s r = some d' ∧ d.Resized n d'

theorem HoldsResized.sizeSet {r : UInt64} {n : Nat} {s : σ} (h : HoldsResized V r d n s) :
    SizeSet V r d n s := by
  obtain ⟨d', hd', hs⟩ := h
  exact ⟨d', hs, hd'.resized⟩

theorem nfskSetattr_sizeSet (hL : LawfulSetattr lib V) {s s' : σ} (hd : V s mft = some d)
    (hn : st.size.toNat < 2 ^ 63) (hwhich : which &&& 8 ≠ 0)
    (hret : nfskSetattrImpl lib mft st which s = .ok () s') :
    SizeSet V mft d st.size.toNat s' := by
  have hint : st.size.toInt64.toInt = st.size.toNat := Shim.toInt_toInt64 hn
  have hpos : 0 ≤ st.size.toInt64 := by
    rw [Int64.le_iff_toInt_le, hint]
    simp
  have hs' := (nfskSetattrImpl_spec hL hwhich hpos).ok hd hret
  rw [hint] at hs'
  exact hs'.sizeSet

/-- A request to set the size that returns 0 has set it. -/
theorem nfskTruncate_sets (hL : LawfulSetattr lib V) {s : σ} (hd : V s mft = some d)
    (hn : newsize.toNat < 2 ^ 63) :
    (∀ s', nfskTruncateImpl lib mft newsize s = .ok () s' → SizeSet V mft d newsize.toNat s') ∧
    ∀ st which s', st.size = newsize → which &&& 8 ≠ 0 →
      nfskSetattrImpl lib mft st which s = .ok () s' → SizeSet V mft d newsize.toNat s' := by
  refine ⟨fun s' hret => ?_, ?_⟩
  · have height : (8 : UInt32) &&& 8 ≠ 0 := by decide
    exact nfskSetattr_sizeSet hL hd hn height hret
  · rintro st which s' rfl hwhich hret
    exact nfskSetattr_sizeSet hL hd hn hwhich hret

end Results

/-! ## A library that obeys the laws -/

abbrev RefData : Type := UInt64 → Option DataStream

def refAttr (ni : NtfsInode) (d : DataStream) : DataAttr where
  inode := ni
  dataFlags := d.flags
  dataSize := Int64.ofNat d.size
  initializedSize := Int64.ofNat d.initialized

/-- Change the data of a record that has some. -/
def RefData.change (r : UInt64) (f : DataStream → DataStream) : EStateM Errno RefData Unit := fun s =>
  match s r with
  | some d => .ok () (Function.update s r (some (f d)))
  | none => .error ⟨ EIO, EIO_pos⟩ s

/-- Writes are never partial. Names are not part of it. -/
def refLibsetattr : Libsetattr RefData where
  mbstoucs _ := .error ⟨EILSEQ, EILSEQ_pos⟩
  inodeOpen r := fun s => .ok ⟨r, false, false⟩ s
  inodeClose _ := fun s => .ok () s
  inodeLookupByName _ _ := fun s => .error ⟨ENOENT, ENOENT_pos⟩ s
  inodeUpdateTimes _ _ s := s
  checkEmptyDir _ := fun s => .ok () s
  link _ _ _ := fun s => .error ⟨EOPNOTSUPP, EOPNOTSUPP_pos⟩ s
  delete _ _ _ := fun s => .error ⟨EOPNOTSUPP, EOPNOTSUPP_pos⟩ s
  errno _ := 0
  timespec2ntfs t := t
  flags _ _ := 0
  setFlags _ _ s := s
  setTime _ _ _ s := s
  attrOpen ni := fun s =>
    match s ni.mftNo with
    | some d => if d.size < 2 ^ 63 then .ok (refAttr ni d) s else .error ⟨ EIO, EIO_pos⟩ s
    | none => .error ⟨ENOENT, ENOENT_pos⟩ s
  attrClose _ s := s
  attrTruncate na n := RefData.change na.inode.mftNo fun d => d.truncate n.toInt.toNat
  attrPwrite na pos bytes := do
    RefData.change na.inode.mftNo fun d => d.write pos.toInt.toNat bytes
    pure bytes.length
  setNtfsAttrib _ _ := fun s => .ok () s

def refDataView : DataView RefData := fun s => s

theorem change_spec {d : DataStream} {r : UInt64} {f : DataStream → DataStream} :
    Spec (refDataView.Holds r d) (RefData.change r f) (fun _ => refDataView.Holds r (f d))
      fun _ _ => True := by
  intro s hs
  have hr : s r = some d := hs
  simp only [RefData.change, hr]
  exact Function.update_self ..

theorem refLibsetattr_lawful : LawfulSetattr refLibsetattr refDataView where
  inodeOpen := fun _ _ _ _ hs => ⟨rfl, hs⟩
  inodeClose := fun _ _ _ _ hs => hs
  inodeUpdateTimes := fun _ _ _ _ _ hs => hs
  setFlags := fun _ _ _ _ _ hs => hs
  setTime := fun _ _ _ _ _ _ hs => hs
  setNtfsAttrib := fun _ _ _ _ _ hs => hs
  attrOpen := by
    intro d ni s hs
    have hr : s ni.mftNo = some d := hs
    have hle := d.initialized_le
    simp only [refLibsetattr, hr]
    by_cases hsize : d.size < 2 ^ 63
    · rw [if_pos hsize]
      exact ⟨⟨rfl, rfl, Int64.toInt_ofNat_of_lt hsize, Int64.toInt_ofNat_of_lt (by omega)⟩, hs⟩
    · rw [if_neg hsize]
      trivial
  attrClose := fun _ _ _ _ hs => hs
  attrTruncate := fun d _ n _ _ =>
    change_spec.conseq_ok fun _ _ hs => ⟨_, d.truncate_truncated n.toInt.toNat, hs⟩
  attrPwrite := by
    intro d na pos bytes _ hne
    have hlen := List.length_pos_of_ne_nil hne
    refine Spec.bind change_spec fun _ => Spec.pure fun s hs => ?_
    refine ⟨⟨hlen, Nat.le_refl _⟩, _, fun _ => ?_, hs⟩
    rw [List.take_length]
    exact d.write_stored pos.toInt.toNat hne

/-- A compressed stream of 100 bytes, of which the first 10 were written. -/
def sparseStream : DataStream where
  flags := 1
  size := 100
  initialized := 10
  byte p := if p < 10 then 1 else 0
  initialized_le := by decide
  zero p hp := if_neg (Nat.not_lt.mpr hp)

/-- Cutting it to 50 bytes sets its size, by a zero stored beyond what was written of it. -/
theorem nfskTruncate_cuts :
    SizeSet refDataView 20 sparseStream 50
      (final (nfskTruncateImpl refLibsetattr 20 50 fun _ => some sparseStream)) :=
  (nfskTruncate_sets refLibsetattr_lawful
    (show refDataView (fun _ => some sparseStream) 20 = some sparseStream from rfl)
    (show (50 : UInt64).toNat < 2 ^ 63 by decide)).1 _ rfl

end Ntfs
end Usbrw
