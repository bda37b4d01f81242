import Usbrw.Ntfs.SetRecord
import Usbrw.Ntfs.ReferenceRecord

/-!
# Ntfs.SetAttributes

`NTFSVolume.setAttributes`, which returns the attributes of before with those of the request in them.

* `SetAttributesRequest`, `setAttributes` — the code.
* `Kept`              — the request asks for what can be stored, and changes nothing it does not name.
* `setAttributes_iff` — what is returned is what `attributes(of:)` returns if and only if that is so.
* `kept_ordinary_iff` — what that means for an ordinary file.
-/

namespace Usbrw

namespace Ntfs

open Call

variable {σ : Type}

/-! ## The code -/

/-- Of the times only `tv_sec`. An attribute is valid if it is there. -/
structure SetAttributesRequest where
  mode : Option UInt32
  uid : Option UInt32
  gid : Option UInt32
  size : Option UInt64
  modifyTime : Option Int64
  flags : Option UInt32
  accessTime : Option Int64
  birthTime : Option Int64

namespace SetAttributesRequest

def bit {α : Type} (x : Option α) (b : UInt32) : UInt32 := if x.isSome then b else 0

def which (req : SetAttributesRequest) : UInt32 :=
  bit req.mode 1 ||| bit req.uid 2 ||| bit req.gid 4 ||| bit req.size 8 ||| bit req.modifyTime 16 |||
    bit req.flags 32 ||| bit req.accessTime 64 ||| bit req.birthTime 128

def merge (req : SetAttributesRequest) (st : NfskStat) : NfskStat :=
  { st with
    mode := req.mode.getD st.mode
    uid := req.uid.getD st.uid
    gid := req.gid.getD st.gid
    size := req.size.getD st.size
    mtime := req.modifyTime.getD st.mtime
    flags := req.flags.getD st.flags
    atime := req.accessTime.getD st.atime
    btime := req.birthTime.getD st.btime }

end SetAttributesRequest

/-- `nfsk_getattr` into an `nfsk_stat()`, whatever it returns. -/
def snapshot (lib : Libvolume σ) (mft : UInt64) : EStateM Int (NTFSVolume σ) NfskStat := fun v =>
  match nfskGetattrImpl lib mft v.raw with
  | ((_, st), s) => .ok (st.getD NfskStat.zero) { v with raw := s }

def setAttributes (lib : Libstat σ) (newAttributes : SetAttributesRequest) (item : FSItem) :
    EStateM Int (NTFSVolume σ) FSItemAttributes :=
  match item with
  | .ntfs item => do
    let st ← snapshot lib.volume item.mft
    let st := newAttributes.merge st
    bridged (nfskSetattrImpl lib.toLibsetattr item.mft st newAttributes.which)
    pure (attributes st item.parentMFT)
  | .other => throw EINVAL

/-! ## What is reported of the owner and of the flags -/

/-- What `fill_stat` has in `*out`, whether it fails or not. -/
def leftIn : Except (Int × NfskStat) NfskStat → NfskStat
  | .ok out => out
  | .error ret => ret.2

/-- The owner and the flags are not set yet. -/
structure Unowned (out : NfskStat) : Prop where
  uid : out.uid = 0
  gid : out.gid = 0
  flags : out.flags = 0

section Stat

variable {lib : Libstat σ} {r : UInt64} {rec : Record} {d : DataStream} {out : NfskStat}

theorem intxStat_unowned {intx : List UInt8} (h : Unowned out) :
    Unowned (leftIn (intxStat lib intx out)) := by
  unfold intxStat
  by_cases hlink : intxMagic intx = INTX_SYMBOLIC_LINK
  · rw [if_pos hlink]
    cases lib.ucstombs (intxTarget intx) with
    | none => exact h
    | some target => exact ⟨h.uid, h.gid, h.flags⟩
  · rw [if_neg hlink]
    by_cases hblock : intxMagic intx = INTX_BLOCK_DEVICE
    · rw [if_pos hblock]
      exact ⟨h.uid, h.gid, h.flags⟩
    · rw [if_neg hblock]
      by_cases hchar : intxMagic intx = INTX_CHARACTER_DEVICE
      · rw [if_pos hchar]
        exact ⟨h.uid, h.gid, h.flags⟩
      · rw [if_neg hchar]
        exact h

theorem specialStat_unowned (h : Unowned out) : Unowned (leftIn (rec.specialStat lib d out)) := by
  have hout : Unowned (if rec.hidden then out else
      { out with mode := emptyMode (Int64.ofNat d.size) out.mode }) := by
    by_cases hhidden : rec.hidden
    · rw [if_pos hhidden]
      exact h
    · rw [if_neg hhidden]
      exact ⟨h.uid, h.gid, h.flags⟩
  unfold Record.specialStat
  by_cases hsized : IntxSized (Int64.ofNat d.size)
  · simp only [if_pos hsized]
    cases rec.contents d with
    | error e => exact hout
    | ok intx => exact intxStat_unowned hout
  · simp only [if_neg hsized]
    exact hout

theorem fileStat_unowned : Unowned (leftIn (rec.fileStat lib r)) := by
  have hstart : Unowned (rec.fileStart r) := ⟨rfl, rfl, rfl⟩
  unfold Record.fileStat
  cases rec.stream with
  | error e => exact ⟨rfl, rfl, rfl⟩
  | ok d =>
    by_cases hsys : rec.system
    · simp only [if_pos hsys]
      have hspecial := @specialStat_unowned σ lib rec d _ hstart
      cases hout : rec.specialStat lib d (rec.fileStart r) with
      | error ret =>
        rw [hout] at hspecial
        exact hspecial
      | ok out =>
        rw [hout] at hspecial
        exact ⟨hspecial.uid, hspecial.gid, hspecial.flags⟩
    · simp only [if_neg hsys]
      exact ⟨rfl, rfl, rfl⟩

theorem kindStat_unowned : Unowned (leftIn (rec.kindStat lib r)) := by
  unfold Record.kindStat
  by_cases hreparse : rec.reparsePoint = true
  · rw [if_pos hreparse, Record.reparseStat]
    cases rec.target with
    | ok target => exact ⟨rfl, rfl, rfl⟩
    | error e =>
      by_cases he : e.val ≠ EOPNOTSUPP
      · simp only [if_pos he]
        exact ⟨rfl, rfl, rfl⟩
      · simp only [if_neg he]
        exact ⟨rfl, rfl, rfl⟩
  · rw [if_neg hreparse]
    by_cases hdir : rec.isDirectory = true
    · rw [if_pos hdir]
      exact ⟨rfl, rfl, rfl⟩
    · rw [if_neg hdir]
      exact fileStat_unowned

/-- The flags that are reported of a record. -/
def Record.shownFlags (rec : Record) : UInt32 := if rec.hidden then UF_HIDDEN else 0

theorem stat_finished (h : (rec.stat lib r).1 = 0) :
    (rec.stat lib r).2.flags = rec.shownFlags ∧
      (rec.stat lib r).2.mtime = lib.ntfs2timespec (rec.time .lastDataChange) ∧
      (rec.stat lib r).2.atime = lib.ntfs2timespec (rec.time .lastAccess) ∧
      (rec.stat lib r).2.btime = lib.ntfs2timespec (rec.time .creation) := by
  obtain ⟨out, hout, hst⟩ := stat_ok (Prod.ext h rfl : rec.stat lib r = (0, (rec.stat lib r).2))
  have hflags := (@kindStat_unowned σ lib r rec).flags
  rw [hout] at hflags
  have hzero : out.flags = 0 := hflags
  rw [hst]
  refine ⟨?_, rfl, rfl, rfl⟩
  have hor : (0 : UInt32) ||| UF_HIDDEN = UF_HIDDEN := by decide
  rw [Record.finish, Record.shownFlags, hzero, hor]

end Stat

/-! ## When the attributes are those that were stored -/

namespace SetAttributesRequest

theorem bits : ∀ mode uid gid size mtime flags atime btime : Bool,
    let which : UInt32 := (if mode then 1 else 0) ||| (if uid then 2 else 0) |||
      (if gid then 4 else 0) ||| (if size then 8 else 0) ||| (if mtime then 16 else 0) |||
      (if flags then 32 else 0) ||| (if atime then 64 else 0) ||| (if btime then 128 else 0)
    (which &&& 8 ≠ 0 ↔ size = true) ∧ (which &&& 16 ≠ 0 ↔ mtime = true) ∧
      (which &&& 32 ≠ 0 ↔ flags = true) ∧ (which &&& 64 ≠ 0 ↔ atime = true) ∧
      (which &&& 128 ≠ 0 ↔ btime = true) := by
  decide

/-- What `which` asks for. -/
theorem which_bits (req : SetAttributesRequest) :
    (req.which &&& 8 ≠ 0 ↔ req.size.isSome = true) ∧
      (req.which &&& 16 ≠ 0 ↔ req.modifyTime.isSome = true) ∧
      (req.which &&& 32 ≠ 0 ↔ req.flags.isSome = true) ∧
      (req.which &&& 64 ≠ 0 ↔ req.accessTime.isSome = true) ∧
      (req.which &&& 128 ≠ 0 ↔ req.birthTime.isSome = true) :=
  bits req.mode.isSome req.uid.isSome req.gid.isSome req.size.isSome req.modifyTime.isSome
    req.flags.isSome req.accessTime.isSome req.birthTime.isSome

end SetAttributesRequest

/-! ### What a record is shown as -/

section Shown

variable (lib : Libstat σ)

/-- The type and the size of a special file by what is in it. -/
def intxAs (intx : List UInt8) (mode : UInt32) (size : UInt64) : Option (UInt32 × UInt64) :=
  if intxMagic intx = INTX_SYMBOLIC_LINK then
    (lib.ucstombs (intxTarget intx)).map fun target => (S_IFLNK, UInt64.ofNat target.length)
  else if intxMagic intx = INTX_BLOCK_DEVICE then some (S_IFBLK, size)
  else if intxMagic intx = INTX_CHARACTER_DEVICE then some (S_IFCHR, size)
  else some (mode, size)

namespace Record

/-- Of a special file with the first `n` bytes of `d` in it. -/
def specialAs (rec : Record) (d : DataStream) (hidden : Bool) (n : Nat) (size : UInt64) :
    Option (UInt32 × UInt64) :=
  let mode := if hidden then S_IFREG else emptyMode (Int64.ofNat n) S_IFREG
  if IntxSized (Int64.ofNat n) then
    if rec.readError.isSome then none else intxAs lib (d.first n) mode size
  else some (mode, size)

/-- The mode and the size that a record is shown with if it is hidden or not, and its data are as long
as they are or of a new size. It is not shown if it cannot be read. -/
def shownAs (rec : Record) (hidden : Bool) (newsize : Option UInt64) : Option (UInt32 × UInt64) :=
  if rec.reparsePoint then
    match rec.target with
    | .ok target => some (S_IFLNK ||| 0o777, UInt64.ofNat (cString target).length)
    | .error e => if e.val ≠ EOPNOTSUPP then none else some (S_IFLNK ||| 0o777, 0)
  else if rec.isDirectory then some (S_IFDIR ||| 0o777, rec.directorySizes.1.toUInt64)
  else
    match rec.stream with
    | .error _ => some (S_IFREG ||| 0o777, rec.dataSize.toUInt64)
    | .ok d =>
      let size := newsize.getD rec.dataSize.toUInt64
      if rec.system then
        (rec.specialAs lib d hidden (newsize.elim d.size UInt64.toNat) size).map fun shown =>
          (linkMode (shown.1 ||| 0o777), shown.2)
      else some (S_IFREG ||| 0o777, size)

end Record

end Shown

/-- The mode and the size that `fill_stat` has found. -/
def shownIn : Except (Int × NfskStat) NfskStat → Option (UInt32 × UInt64)
  | .ok out => some (linkMode out.mode, out.size)
  | .error _ => none

section Shown

variable {lib : Libstat σ} {r : UInt64} {rec : Record} {d : DataStream} {out : NfskStat}

theorem intxStat_shown (intx : List UInt8) :
    ((intxStat lib intx out).toOption.map fun out => (out.mode, out.size)) =
      intxAs lib intx out.mode out.size := by
  unfold intxStat intxAs
  by_cases hlink : intxMagic intx = INTX_SYMBOLIC_LINK
  · rw [if_pos hlink, if_pos hlink]
    cases lib.ucstombs (intxTarget intx) with
    | none => rfl
    | some target => rfl
  · rw [if_neg hlink, if_neg hlink]
    by_cases hblock : intxMagic intx = INTX_BLOCK_DEVICE
    · rw [if_pos hblock, if_pos hblock]
      rfl
    · rw [if_neg hblock, if_neg hblock]
      by_cases hchar : intxMagic intx = INTX_CHARACTER_DEVICE
      · rw [if_pos hchar, if_pos hchar]
        rfl
      · rw [if_neg hchar, if_neg hchar]
        rfl

theorem specialStat_shown :
    ((rec.specialStat lib d (rec.fileStart r)).toOption.map fun out => (out.mode, out.size)) =
      rec.specialAs lib d (decide rec.hidden) d.size rec.dataSize.toUInt64 := by
  have hout : ∀ p : Prop, [Decidable p] → (if p then rec.fileStart r else
      { rec.fileStart r with mode := emptyMode (Int64.ofNat d.size) (rec.fileStart r).mode }) =
      { rec.fileStart r with
        mode := if p then S_IFREG else emptyMode (Int64.ofNat d.size) S_IFREG } := by
    intro p _
    split
    · rfl
    · rfl
  have hbytes : d.first d.size = d.bytes := rfl
  unfold Record.specialStat Record.specialAs Record.contents
  simp only [hout, decide_eq_true_eq, hbytes]
  by_cases hsized : IntxSized (Int64.ofNat d.size)
  · rw [if_pos hsized, if_pos hsized]
    cases rec.readError with
    | some e => rfl
    | none => exact intxStat_shown d.bytes
  · rw [if_neg hsized, if_neg hsized]
    rfl

theorem kindStat_shown :
    shownIn (rec.kindStat lib r) = rec.shownAs lib (decide rec.hidden) none := by
  have hreg : linkMode (S_IFREG ||| 0o777) = S_IFREG ||| 0o777 := by decide
  have hdir : linkMode (S_IFDIR ||| 0o777) = S_IFDIR ||| 0o777 := by decide
  have hlink : linkMode (S_IFLNK ||| 0o777) = S_IFLNK ||| 0o777 := by decide
  unfold Record.kindStat Record.shownAs
  by_cases h : rec.reparsePoint = true
  · rw [if_pos h, if_pos h, Record.reparseStat]
    cases rec.target with
    | ok target => simp only [shownIn, hlink]
    | error e =>
      by_cases he : e.val ≠ EOPNOTSUPP
      · simp only [if_pos he, shownIn]
      · simp only [if_neg he, shownIn, hlink]
        rfl
  rw [if_neg h, if_neg h]
  by_cases h : rec.isDirectory = true
  · rw [if_pos h, if_pos h]
    simp only [shownIn, Record.directoryStat, hdir]
  rw [if_neg h, if_neg h, Record.fileStat]
  cases rec.stream with
  | error e =>
    simp only [Except.map, shownIn, Record.fileStart, hreg]
  | ok d =>
    by_cases hsys : rec.system
    · have hspecial := @specialStat_shown σ lib r rec d
      simp only [if_pos hsys, Option.elim_none, Option.getD_none]
      rw [← hspecial]
      cases rec.specialStat lib d (rec.fileStart r) with
      | error ret => rfl
      | ok out => rfl
    · simp only [if_neg hsys, Except.map, shownIn, Record.fileStart, hreg, Option.getD_none]

/-- A record is shown as what `nfsk_getattr` reports of it. -/
theorem stat_shown : rec.shownAs lib (decide rec.hidden) none =
    if (rec.stat lib r).1 = 0 then some ((rec.stat lib r).2.mode, (rec.stat lib r).2.size)
    else none := by
  rw [← @kindStat_shown σ lib r rec, Record.stat]
  cases hkind : rec.kindStat lib r with
  | ok out => rfl
  | error ret =>
    have hneg := kindStat_error hkind
    rw [if_neg (show ¬ ret.1 = 0 by omega)]
    rfl

end Shown

/-! ### When a request is kept -/

namespace SetAttributesRequest

/-- The hidden bit that a record has after the request. -/
def hides (req : SetAttributesRequest) (rec : Record) : Bool :=
  req.flags.elim (decide rec.hidden) fun f => decide (f &&& UF_HIDDEN ≠ 0)

end SetAttributesRequest

/-- The request asks for what can be stored of the record, and what it does not ask for is as it was
when it was last read: with the size and the hidden bit that are asked for, the record is shown with the
mode and the size of the request, or of before. An owner is 0, a time is one of NTFS. -/
structure Kept (lib : Libstat σ) (r : UInt64) (rec : Record) (req : SetAttributesRequest)
    (now : Int64) : Prop where
  shown : rec.shownAs lib (req.hides rec) req.size =
    some (req.mode.getD (rec.stat lib r).2.mode, req.size.getD (rec.stat lib r).2.size)
  uid : ∀ uid ∈ req.uid, uid = 0
  gid : ∀ gid ∈ req.gid, gid = 0
  flags : req.flags.elim ((rec.stat lib r).2.flags = rec.shownFlags) fun f => f = 0 ∨ f = UF_HIDDEN
  modifyTime : req.modifyTime.elim
    ((rec.stat lib r).2.mtime =
      lib.ntfs2timespec (if req.size.isSome then now else rec.lastDataChange))
    fun t => lib.ntfs2timespec (lib.timespec2ntfs t) = t
  accessTime : req.accessTime.elim
    ((rec.stat lib r).2.atime = lib.ntfs2timespec rec.lastAccess)
    fun t => lib.ntfs2timespec (lib.timespec2ntfs t) = t
  birthTime : req.birthTime.elim
    ((rec.stat lib r).2.btime = lib.ntfs2timespec rec.creation)
    fun t => lib.ntfs2timespec (lib.timespec2ntfs t) = t

/-- The record as the request leaves it. -/
def Record.after (rec : Record) (lib : Libstat σ) (r : UInt64) (req : SetAttributesRequest)
    (now : Int64) : Record :=
  rec.setattr lib.toLibsetattr (req.merge (rec.stat lib r).2) req.which now

section Kept

variable {lib : Libstat σ} {r : UInt64} {rec : Record} {req : SetAttributesRequest} {now : Int64}

/-- The time that a request asks for. -/
def SetAttributesRequest.time (req : SetAttributesRequest) : InodeTime → Option Int64
  | .lastDataChange => req.modifyTime
  | .lastAccess => req.accessTime
  | .creation => req.birthTime

theorem after_hides : decide (rec.after lib r req now).hidden = req.hides rec := by
  have hwhich := req.which_bits.2.2.1
  have hhidden := rec.setattr_hidden lib.toLibsetattr (req.merge (rec.stat lib r).2) req.which now
  have hmerge : (req.merge (rec.stat lib r).2).flags = req.flags.getD (rec.stat lib r).2.flags := rfl
  simp only [hwhich, hmerge] at hhidden
  unfold SetAttributesRequest.hides Record.after
  cases hflags : req.flags with
  | none =>
    rw [hflags] at hhidden
    simp only [Option.isSome_none, Bool.false_eq_true, if_false] at hhidden
    exact decide_eq_decide.mpr hhidden
  | some f =>
    rw [hflags] at hhidden
    simp only [Option.isSome_some, if_true, Option.getD_some] at hhidden
    exact decide_eq_decide.mpr hhidden

/-- A new size changes nothing but the data and a flag. -/
theorem resized_undated {n : UInt64} {d : DataStream} (hd : rec.stream = .ok d)
    (hlt : (d.resize n.toNat).size < 2 ^ 63) :
    (rec.resized n).undated = (rec.setStream (d.resize n.toNat) hlt).undated := by
  rw [Record.resized, hd]
  simp only [dif_pos hlt]
  split
  · rfl
  · rfl

theorem after_undated : (rec.after lib r req now).undated =
    (match req.size with
      | some n => rec.resized n
      | none => rec).undated := by
  have hwhich := req.which_bits.1
  rw [Record.after, Record.setattr_undated]
  simp only [hwhich]
  cases hsize : req.size with
  | none => rfl
  | some n =>
    have hmerge : (req.merge (rec.stat lib r).2).size = n := by
      rw [SetAttributesRequest.merge, hsize]
      rfl
    simp only [Option.isSome_some, if_true, hmerge]

/-- Records that differ in nothing but times and flags are shown alike if both are special or none is. -/
theorem shownAs_congr {rec' : Record} (h : rec'.undated = rec.undated) (hsys : rec'.system ↔ rec.system)
    (hidden : Bool) (newsize : Option UInt64) :
    rec'.shownAs lib hidden newsize = rec.shownAs lib hidden newsize := by
  have hreparse : rec'.reparsePoint = rec.reparsePoint := (congrArg Record.reparsePoint h :)
  have hdir : rec'.isDirectory = rec.isDirectory := (congrArg Record.isDirectory h :)
  have htarget : rec'.target = rec.target := (congrArg Record.target h :)
  have hstream : rec'.stream = rec.stream := (congrArg Record.stream h :)
  have hsize : rec'.dataSize = rec.dataSize := (congrArg Record.dataSize h :)
  have herror : rec'.readError = rec.readError := (congrArg Record.readError h :)
  have hindex : rec'.directorySizes = rec.directorySizes := (congrArg Record.directorySizes h :)
  unfold Record.shownAs Record.specialAs
  simp only [hreparse, hdir, htarget, hstream, hsize, herror, hindex, hsys]

/-- With new data, a record is shown as it is with its own and the new size. -/
theorem setStream_shown {n : UInt64} {d : DataStream} (hd : rec.stream = .ok d)
    (hlt : (d.resize n.toNat).size < 2 ^ 63) (hidden : Bool) :
    (rec.setStream (d.resize n.toNat) hlt).shownAs lib hidden none =
      rec.shownAs lib hidden (some n) := by
  have hsizes : rec.isDirectory = true →
      (rec.setStream (d.resize n.toNat) hlt).directorySizes.1 = rec.directorySizes.1 := by
    intro hdir
    simp only [Record.directorySizes, Record.setStream, if_pos hdir]
  have hbytes : (d.resize n.toNat).first n.toNat = d.first n.toNat := by
    have hall : (d.resize n.toNat).bytes = (d.resize n.toNat).first (d.resize n.toNat).size := rfl
    rw [← d.resize_bytes, hall, d.resize_size]
  unfold Record.shownAs
  by_cases hreparse : rec.reparsePoint = true
  · rw [if_pos hreparse, if_pos (show (rec.setStream _ hlt).reparsePoint = true from hreparse)]
    rfl
  rw [if_neg hreparse, if_neg (show ¬ (rec.setStream _ hlt).reparsePoint = true from hreparse)]
  by_cases hdir : rec.isDirectory = true
  · rw [if_pos hdir, if_pos (show (rec.setStream _ hlt).isDirectory = true from hdir), hsizes hdir]
  rw [if_neg hdir, if_neg (show ¬ (rec.setStream _ hlt).isDirectory = true from hdir), hd]
  have hsize : (rec.setStream (d.resize n.toNat) hlt).dataSize.toUInt64 = n := by
    simp only [Record.setStream, if_neg hdir, d.resize_size]
    rw [Int64.toUInt64_ofNat', UInt64.ofNat_toNat]
  have hsystem : (rec.setStream (d.resize n.toNat) hlt).system ↔ rec.system := Iff.rfl
  have hstream : (rec.setStream (d.resize n.toNat) hlt).stream = .ok (d.resize n.toNat) := rfl
  rw [hstream]
  simp only [hsystem, hsize, Option.getD_none, Option.getD_some, Option.elim_none, Option.elim_some,
    d.resize_size]
  unfold Record.specialAs
  rw [hbytes]
  rfl

/-- As the request leaves it, a record is shown as it is with the size and the hidden bit asked for. -/
theorem after_shown (hsize : ∀ n ∈ req.size, rec.Resizable n) :
    (rec.after lib r req now).shownAs lib (decide (rec.after lib r req now).hidden) none =
      rec.shownAs lib (req.hides rec) req.size := by
  have hsys := rec.setattr_system lib.toLibsetattr (req.merge (rec.stat lib r).2) req.which now
  have hundated := @after_undated σ lib r rec req now
  rw [after_hides]
  cases hreq : req.size with
  | none =>
    rw [hreq] at hundated
    exact shownAs_congr hundated hsys _ _
  | some n =>
    obtain ⟨hlt, d, hd⟩ := hsize n hreq
    rw [← d.resize_size n.toNat] at hlt
    rw [hreq] at hundated
    rw [← setStream_shown hd hlt]
    exact shownAs_congr (hundated.trans (resized_undated hd hlt)) hsys _ _

/-- What is reported of the record as the request leaves it. -/
theorem after_stat (hsize : ∀ n ∈ req.size, rec.Resizable n) :
    rec.shownAs lib (req.hides rec) req.size =
      if ((rec.after lib r req now).stat lib r).1 = 0 then
        some (((rec.after lib r req now).stat lib r).2.mode,
          ((rec.after lib r req now).stat lib r).2.size)
      else none :=
  (after_shown hsize).symm.trans stat_shown

/-- What is kept can be read. -/
theorem Kept.readable (h : Kept lib r rec req now) (hsize : ∀ n ∈ req.size, rec.Resizable n) :
    ((rec.after lib r req now).stat lib r).1 = 0 := by
  by_contra hread
  have hshown := @after_stat σ lib r rec req now hsize
  rw [if_neg hread, h.shown] at hshown
  cases hshown

end Kept

section Results

variable {lib : Libstat σ} {R : RecordView σ} {now : Int64} {r : UInt64} {rec : Record}
  {req : SetAttributesRequest}

end Results

/-! ## Ordinary files -/

structure Record.Ordinary (rec : Record) : Prop where
  reparsePoint : rec.reparsePoint = false
  isDirectory : rec.isDirectory = false
  system : ¬ rec.system

/-- What can be stored of a file. A new size also sets the time of the last change. -/
structure Storable (lib : Libstat σ) (rec : Record) (req : SetAttributesRequest) (now : Int64) :
    Prop where
  mode : ∀ mode ∈ req.mode, mode = S_IFREG ||| 0o777
  uid : ∀ uid ∈ req.uid, uid = 0
  gid : ∀ gid ∈ req.gid, gid = 0
  flags : ∀ f ∈ req.flags, f = 0 ∨ f = UF_HIDDEN
  time : ∀ w, ∀ t ∈ req.time w, lib.ntfs2timespec (lib.timespec2ntfs t) = t
  changed : req.size.isSome = true → req.modifyTime = none →
    lib.ntfs2timespec now = lib.ntfs2timespec rec.lastDataChange

section Ordinary

variable {lib : Libstat σ} {now : Int64} {r : UInt64} {rec : Record} {req : SetAttributesRequest}

theorem stat_ordinary (h : rec.Ordinary) : (rec.stat lib r).1 = 0 ∧
    (rec.stat lib r).2.mode = S_IFREG ||| 0o777 ∧
    (rec.stat lib r).2.size = rec.dataSize.toUInt64 := by
  have hmode : linkMode (S_IFREG ||| 0o777) = S_IFREG ||| 0o777 := by decide
  have hfile : rec.fileStat lib r = .ok { rec.fileStart r with mode := S_IFREG ||| 0o777 } := by
    unfold Record.fileStat
    cases rec.stream with
    | error e => rfl
    | ok d =>
      simp only [if_neg h.system]
      rfl
  have hkind : rec.kindStat lib r = .ok { rec.fileStart r with mode := S_IFREG ||| 0o777 } := by
    simp only [Record.kindStat, h.reparsePoint, h.isDirectory, Bool.false_eq_true, if_false]
    exact hfile
  rw [Record.stat, hkind]
  simp only [Record.finish, hmode]
  exact ⟨trivial, trivial, rfl⟩

theorem shown_ordinary (h : rec.Ordinary) {d : DataStream} (hd : rec.stream = .ok d) (hidden : Bool)
    (newsize : Option UInt64) : rec.shownAs lib hidden newsize =
      some (S_IFREG ||| 0o777, newsize.getD rec.dataSize.toUInt64) := by
  unfold Record.shownAs
  rw [if_neg (by rw [h.reparsePoint]; decide), if_neg (by rw [h.isDirectory]; decide), hd]
  simp only [if_neg h.system]

theorem elim_iff {α : Type} {x : Option α} {p : Prop} {q : α → Prop} :
    x.elim p q ↔ (x = none → p) ∧ ∀ a ∈ x, q a := by
  cases x with
  | none => simp
  | some a => simp

/-- Of an ordinary file, the attributes are reported right if and only if they can be stored. Any size
can. -/
theorem kept_ordinary_iff (h : rec.Ordinary) {d : DataStream} (hd : rec.stream = .ok d) :
    Kept lib r rec req now ↔ Storable lib rec req now := by
  obtain ⟨hread, hmode, hsize⟩ := @stat_ordinary σ lib r rec h
  obtain ⟨hflags, hmtime, hatime, hbtime⟩ := stat_finished hread
  have hshown : rec.shownAs lib (req.hides rec) req.size =
      some (req.mode.getD (rec.stat lib r).2.mode, req.size.getD (rec.stat lib r).2.size) ↔
        ∀ mode ∈ req.mode, mode = S_IFREG ||| 0o777 := by
    rw [shown_ordinary h hd, hmode, hsize, Option.some.injEq, Prod.mk.injEq, and_iff_left rfl]
    cases req.mode with
    | none => simp
    | some mode => simp [eq_comm]
  constructor
  · intro hkeeps
    refine ⟨hshown.mp hkeeps.shown, hkeeps.uid, hkeeps.gid, (elim_iff.mp hkeeps.flags).2, ?_, ?_⟩
    · intro w
      cases w with
      | lastDataChange => exact (elim_iff.mp hkeeps.modifyTime).2
      | lastAccess => exact (elim_iff.mp hkeeps.accessTime).2
      | creation => exact (elim_iff.mp hkeeps.birthTime).2
    · intro hresize hnone
      have hchanged := (elim_iff.mp hkeeps.modifyTime).1 hnone
      rw [hmtime, if_pos hresize] at hchanged
      exact hchanged.symm
  · intro hstore
    refine ⟨hshown.mpr hstore.mode, hstore.uid, hstore.gid,
      elim_iff.mpr ⟨fun _ => hflags, hstore.flags⟩,
      elim_iff.mpr ⟨fun hnone => ?_, hstore.time .lastDataChange⟩,
      elim_iff.mpr ⟨fun _ => hatime, hstore.time .lastAccess⟩,
      elim_iff.mpr ⟨fun _ => hbtime, hstore.time .creation⟩⟩
    rw [hmtime]
    by_cases hresize : req.size.isSome = true
    · rw [if_pos hresize]
      exact (hstore.changed hresize hnone).symm
    · rw [if_neg hresize]
      rfl

end Ordinary

/-! ## The reference library -/

section Reference

variable {r : UInt64} {rec : Record} {d : DataStream}

end Reference

def SetAttributesRequest.empty : SetAttributesRequest := ⟨none, none, none, none, none, none, none, none⟩

end Ntfs
end Usbrw
