import Usbrw.Ntfs.Items
import Usbrw.Ntfs.Setattr

/-!
# Ntfs.Record

What `fill_stat` reports of an MFT record.

* `Libstat`          — the libntfs-3g calls for it.
* `fillStat`         — the code.
* `Record`           — what a record holds, as far as it is reported.
* `Record.stat`      — what is reported of it, by the kind of the record.
* `LawfulRecord`     — every call tells what the record holds, and changes nothing of it.
* `fillStat_answers` — the code reports `Record.stat`.
-/

namespace Usbrw
namespace Ntfs

open Call

variable {σ : Type}

/-! ## The code -/

def FILE_ATTR_HIDDEN : UInt32 := 0x2

/-- `INTX_FILE_TYPES`: the bytes "IntxLNK\1", "IntxCHR\0" and "IntxBLK\0". -/
def INTX_SYMBOLIC_LINK : UInt64 := 0x014B4E4C78746E49
def INTX_CHARACTER_DEVICE : UInt64 := 0x0052484378746E49
def INTX_BLOCK_DEVICE : UInt64 := 0x004B4C4278746E49

/-- `sizeof(INTX_FILE_TYPES)` -/
def intxHeader : UInt64 := 8
def PATH_MAX : UInt64 := 1024

/-- More than the type, and no more than a path behind it. -/
def IntxSized (size : Int64) : Prop :=
  intxHeader < size.toUInt64 ∧ size.toUInt64 ≤ intxHeader + 2 * PATH_MAX

instance (size : Int64) : Decidable (IntxSized size) := inferInstanceAs (Decidable (_ ∧ _))

/-- `magic` -/
def intxMagic (intx : List UInt8) : UInt64 :=
  (intx.take 8).foldr (fun b n => n <<< 8 ||| b.toUInt64) 0

def units : List UInt8 → List UInt16
  | lo :: hi :: bytes => (hi.toUInt16 <<< 8 ||| lo.toUInt16) :: units bytes
  | _ => []

/-- `target`, as many units as there are. -/
def intxTarget (intx : List UInt8) : List UInt16 := units (intx.drop 8)

/-- An open `$I30` index allocation. -/
structure IndexAttr extends NtfsAttr where
  allocatedSize : Int64

/-- The fields of an inode are those of `struct ntfs_inode`. `ucstombsErrno` is what a failed conversion
sets `errno` to; `reparseTag` is 0 if there is no reparse data. -/
structure Libstat (σ : Type) : Type 1 extends Libvolume σ, Libsetattr σ where
  linkCount : NtfsInode → σ → UInt16
  dataSize : NtfsInode → σ → Int64
  allocatedSize : NtfsInode → σ → Int64
  knownSize : NtfsInode → σ → Bool
  setKnownSize : NtfsInode → Int64 → Int64 → σ → σ
  time : NtfsInode → InodeTime → σ → Int64
  lastMftChange : NtfsInode → σ → Int64
  ntfs2timespec : Int64 → Int64
  makeSymlink : NtfsInode → EStateM Errno σ (List UInt8)
  reparseTag : NtfsInode → σ → UInt32 × σ
  indexOpen : NtfsInode → EStateM Errno σ IndexAttr
  indexClose : IndexAttr → σ → σ
  malloc : Int64 → EStateM Errno σ Unit
  attrPread : DataAttr → Int64 → Int64 → EStateM Errno σ (Int64 × List UInt8)
  ucstombsErrno : List UInt16 → Errno

section Code

variable (lib : Libstat σ)

/-- Contents of an Interix special file. -/
def readIntx (na : DataAttr) : EStateM Int σ (List UInt8) := do
  orFail negErrno (lib.malloc na.dataSize)
  let (n, intx) ← orFail negErrno (lib.attrPread na 0 na.dataSize)
  if n ≠ na.dataSize then fun s => .error (-lib.errno s) s else pure intx

/-- What a reparse point is shown as; one that cannot be resolved has no size. -/
def fillReparse (ni : NtfsInode) (out : NfskStat) : EStateM (Int × NfskStat) σ NfskStat := do
  let out := { out with mode := S_IFLNK ||| 0o777 }
  match ← attempt (lib.makeSymlink ni) with
  | .ok target =>
    let out := { out with size := UInt64.ofNat (cString target).length }
    pure { out with allocSize := (lib.allocatedSize ni (← get)).toUInt64 }
  | .error e =>
    if e.val ≠ EOPNOTSUPP then throw (negErrno e, out)
    else pure { out with allocSize := (lib.allocatedSize ni (← get)).toUInt64 }

/-- The sizes of the index, unless they are known. -/
def loadSizes (ni : NtfsInode) (s : σ) : σ :=
  if lib.knownSize ni s then s
  else
    match lib.indexOpen ni s with
    | .ok na s => lib.indexClose na (lib.setKnownSize ni na.dataSize na.allocatedSize s)
    | .error _ s => s

def fillDirectory (ni : NtfsInode) (out : NfskStat) : EStateM (Int × NfskStat) σ NfskStat := do
  modify (loadSizes lib ni)
  let s ← get
  pure { out with
    mode := S_IFDIR ||| 0o777
    size := (lib.dataSize ni s).toUInt64
    allocSize := (lib.allocatedSize ni s).toUInt64
    links := 1 }

/-- A special file that says what it is by its size. -/
def emptyMode (size : Int64) (mode : UInt32) : UInt32 :=
  if size = 0 then S_IFIFO else if size = 1 then S_IFSOCK else mode

/-- And one that says so by what is in it. -/
def intxStat (intx : List UInt8) (out : NfskStat) : Except (Int × NfskStat) NfskStat :=
  if intxMagic intx = INTX_SYMBOLIC_LINK then
    match lib.ucstombs (intxTarget intx) with
    | none => .error (negErrno (lib.ucstombsErrno (intxTarget intx)), out)
    | some target => .ok { out with mode := S_IFLNK, size := UInt64.ofNat target.length }
  else if intxMagic intx = INTX_BLOCK_DEVICE then .ok { out with mode := S_IFBLK }
  else if intxMagic intx = INTX_CHARACTER_DEVICE then .ok { out with mode := S_IFCHR }
  else .ok out

def fillSpecial (ni : NtfsInode) (na : DataAttr) (out : NfskStat) :
    EStateM (Int × NfskStat) σ NfskStat := do
  let s ← get
  let out :=
    if lib.flags ni s &&& FILE_ATTR_HIDDEN = 0 then { out with mode := emptyMode na.dataSize out.mode }
    else out
  if IntxSized na.dataSize then
    let intx ← orFail (fun res => (res, out)) (readIntx lib na)
    match intxStat lib intx out with
    | .ok out => pure out
    | .error ret => throw ret
  else pure out

def fillFile (ni : NtfsInode) (out : NfskStat) : EStateM (Int × NfskStat) σ NfskStat := do
  let s ← get
  let out := { out with
    mode := S_IFREG
    size := (lib.dataSize ni s).toUInt64
    allocSize := (lib.allocatedSize ni s).toUInt64 }
  if lib.flags ni s &&& FILE_ATTR_SYSTEM ≠ 0 then
    match ← attempt (lib.attrOpen ni) with
    | .error _ => pure { out with mode := out.mode ||| 0o777 }
    | .ok na =>
      let out ← afterwards (fillSpecial lib ni na out)
        (modify (lib.attrClose na) : EStateM Int σ Unit)
      pure { out with mode := out.mode ||| 0o777 }
  else pure { out with mode := out.mode ||| 0o777 }

/-- The part that depends on what the record is. -/
def fillKind (ni : NtfsInode) : EStateM (Int × NfskStat) σ NfskStat := do
  let out := { NfskStat.zero with mft := ni.mftNo, links := (lib.linkCount ni (← get)).toUInt64 }
  if ni.reparsePoint then fillReparse lib ni out
  else if ni.isDirectory then fillDirectory lib ni out
  else fillFile lib ni out

/-- Symbolic links have no other permissions. -/
def linkMode (mode : UInt32) : UInt32 :=
  if mode &&& 0xF000 = S_IFLNK then S_IFLNK ||| 0o777 else mode

/-- The owner, the times and the flags. -/
def finishStat (ni : NtfsInode) (out : NfskStat) (s : σ) : NfskStat :=
  { out with
    mode := linkMode out.mode
    uid := 0
    gid := 0
    atime := lib.ntfs2timespec (lib.time ni .lastAccess s)
    ctime := lib.ntfs2timespec (lib.lastMftChange ni s)
    mtime := lib.ntfs2timespec (lib.time ni .lastDataChange s)
    btime := lib.ntfs2timespec (lib.time ni .creation s)
    flags := if lib.flags ni s &&& FILE_ATTR_HIDDEN ≠ 0 then out.flags ||| UF_HIDDEN else out.flags }

def fillStat (ni : NtfsInode) (s : σ) : (Int × NfskStat) × σ :=
  match fillKind lib ni s with
  | .ok out s => ((0, finishStat lib ni out s), s)
  | .error ret s => (ret, s)

/-- The calls of a volume that reports attributes by `fillStat`. -/
def Libstat.volume : Libvolume σ := { lib.toLibvolume with fillStat := fillStat lib }

end Code

/-! ## Records -/

/-- Of a directory, `dataSize` and `allocatedSize` are what its inode has as long as its index has not
been asked for; a directory with a small index has no index allocation. `target`, `stream` and `index` tell
what opening them gives. -/
structure Record where
  linkCount : UInt16
  reparsePoint : Bool
  isDirectory : Bool
  flags : UInt32
  dataSize : Int64
  allocatedSize : Int64
  index : Option (Int64 × Int64)
  target : Except Errno (List UInt8)
  tag : UInt32
  stream : Except Errno DataStream
  readError : Option Errno
  lastAccess : Int64
  lastMftChange : Int64
  lastDataChange : Int64
  creation : Int64
  stream_lt : ∀ d, stream = .ok d → d.size < 2 ^ 63

/-- The bytes of a stream. -/
def DataStream.bytes (d : DataStream) : List UInt8 := (List.range d.size).map d.byte

/-- Of as many bytes, and not compressed. -/
def DataStream.ofBytes (bytes : List UInt8) : DataStream where
  flags := 0
  size := bytes.length
  initialized := bytes.length
  byte p := bytes.getD p 0
  initialized_le := Nat.le_refl _
  zero := by
    intro p hp
    rw [List.getD_eq_getElem?_getD, List.getElem?_eq_none hp, Option.getD_none]

namespace Record

def time (rec : Record) : InodeTime → Int64
  | .lastDataChange => rec.lastDataChange
  | .lastAccess => rec.lastAccess
  | .creation => rec.creation

def hidden (rec : Record) : Prop := rec.flags &&& FILE_ATTR_HIDDEN ≠ 0

instance (rec : Record) : Decidable rec.hidden := inferInstanceAs (Decidable (_ ≠ _))

def system (rec : Record) : Prop := rec.flags &&& FILE_ATTR_SYSTEM ≠ 0

instance (rec : Record) : Decidable rec.system := inferInstanceAs (Decidable (_ ≠ _))

/-- A directory, and not just a reparse point to one. -/
def indexed (rec : Record) : Bool := rec.isDirectory && !rec.reparsePoint

/-- The sizes of a directory: those of its index, if it has an index allocation. -/
def directorySizes (rec : Record) : Int64 × Int64 :=
  rec.index.getD (rec.dataSize, rec.allocatedSize)

/-- What reading all of a stream gives. -/
def contents (rec : Record) (d : DataStream) : Except Errno (List UInt8) :=
  match rec.readError with
  | some e => .error e
  | none => .ok d.bytes

/-! ### Changes -/

def setTime (rec : Record) (t : Int64) : InodeTime → Record
  | .lastDataChange => { rec with lastDataChange := t }
  | .lastAccess => { rec with lastAccess := t }
  | .creation => { rec with creation := t }

/-- What `ntfs_inode_update_times` does at the time `now`. -/
def touch (rec : Record) (now : Int64) : UpdateTimes → Record
  | .ctime => { rec with lastMftChange := now }
  | .mctime => { rec with lastMftChange := now, lastDataChange := now }

/-- The sizes of a directory are those of its index. -/
def setStream (rec : Record) (d : DataStream) (hd : d.size < 2 ^ 63) : Record :=
  { rec with
    stream := .ok d
    dataSize := if rec.isDirectory then rec.dataSize else Int64.ofNat d.size
    stream_lt := by
      rintro _ ⟨⟩
      exact hd }

/-! ### What is reported -/

section Stat

variable (lib : Libstat σ) (r : UInt64) (rec : Record)

def start : NfskStat :=
  { NfskStat.zero with mft := r, links := rec.linkCount.toUInt64 }

def reparseStat : Except (Int × NfskStat) NfskStat :=
  let out := { rec.start r with mode := S_IFLNK ||| 0o777 }
  match rec.target with
  | .ok target => .ok { out with
      size := UInt64.ofNat (cString target).length, allocSize := rec.allocatedSize.toUInt64 }
  | .error e =>
    if e.val ≠ EOPNOTSUPP then .error (negErrno e, out)
    else .ok { out with allocSize := rec.allocatedSize.toUInt64 }

def directoryStat : NfskStat :=
  { rec.start r with
    mode := S_IFDIR ||| 0o777
    size := rec.directorySizes.1.toUInt64
    allocSize := rec.directorySizes.2.toUInt64
    links := 1 }

def specialStat (d : DataStream) (out : NfskStat) : Except (Int × NfskStat) NfskStat :=
  let size := Int64.ofNat d.size
  let out := if rec.hidden then out else { out with mode := emptyMode size out.mode }
  if IntxSized size then
    match rec.contents d with
    | .ok intx => intxStat lib intx out
    | .error e => .error (negErrno e, out)
  else .ok out

def fileStart : NfskStat :=
  { rec.start r with
    mode := S_IFREG
    size := rec.dataSize.toUInt64
    allocSize := rec.allocatedSize.toUInt64 }

def fileStat : Except (Int × NfskStat) NfskStat :=
  let out := rec.fileStart r
  let special := match rec.stream with
    | .ok d => if rec.system then rec.specialStat lib d out else .ok out
    | .error _ => .ok out
  special.map fun out => { out with mode := out.mode ||| 0o777 }

def kindStat : Except (Int × NfskStat) NfskStat :=
  if rec.reparsePoint then rec.reparseStat r
  else if rec.isDirectory then .ok (rec.directoryStat r)
  else rec.fileStat lib r

def finish (out : NfskStat) : NfskStat :=
  { out with
    mode := linkMode out.mode
    uid := 0
    gid := 0
    atime := lib.ntfs2timespec rec.lastAccess
    ctime := lib.ntfs2timespec rec.lastMftChange
    mtime := lib.ntfs2timespec rec.lastDataChange
    btime := lib.ntfs2timespec rec.creation
    flags := if rec.hidden then out.flags ||| UF_HIDDEN else out.flags }

/-- What `fill_stat` returns for the record, and what it leaves in `*out`. -/
def stat : Int × NfskStat :=
  match rec.kindStat lib r with
  | .ok out => (0, rec.finish lib out)
  | .error ret => ret

end Stat

end Record

section Stat

variable {lib : Libstat σ} {r : UInt64} {rec : Record} {d : DataStream}

theorem intxStat_error {intx : List UInt8} {start : NfskStat} {ret : Int × NfskStat}
    (h : intxStat lib intx start = .error ret) : ret.1 < 0 := by
  unfold intxStat at h
  by_cases hlink : intxMagic intx = INTX_SYMBOLIC_LINK
  · rw [if_pos hlink] at h
    cases htarget : lib.ucstombs (intxTarget intx) with
    | none =>
      rw [htarget] at h
      cases h
      exact negErrno_neg _
    | some target =>
      rw [htarget] at h
      cases h
  · rw [if_neg hlink] at h
    split at h
    · cases h
    · split at h <;> cases h

theorem reparseStat_error {ret : Int × NfskStat} (h : rec.reparseStat r = .error ret) : ret.1 < 0 := by
  unfold Record.reparseStat at h
  cases htarget : rec.target with
  | ok target =>
    rw [htarget] at h
    cases h
  | error e =>
    rw [htarget] at h
    by_cases he : e.val ≠ EOPNOTSUPP
    · simp only [if_pos he] at h
      cases h
      exact negErrno_neg e
    · simp only [if_neg he] at h
      cases h

theorem specialStat_error {start : NfskStat} {ret : Int × NfskStat}
    (h : rec.specialStat lib d start = .error ret) : ret.1 < 0 := by
  unfold Record.specialStat at h
  by_cases hsized : IntxSized (Int64.ofNat d.size)
  · simp only [if_pos hsized] at h
    cases hintx : rec.contents d with
    | error e =>
      rw [hintx] at h
      cases h
      exact negErrno_neg e
    | ok intx =>
      rw [hintx] at h
      exact intxStat_error h
  · simp only [if_neg hsized] at h
    cases h

theorem fileStat_error {ret : Int × NfskStat} (h : rec.fileStat lib r = .error ret) : ret.1 < 0 := by
  unfold Record.fileStat at h
  cases hd : rec.stream with
  | error e =>
    rw [hd] at h
    cases h
  | ok d =>
    by_cases hsys : rec.system
    · simp only [hd, if_pos hsys] at h
      cases hspecial : rec.specialStat lib d (rec.fileStart r) with
      | error ret' =>
        rw [hspecial] at h
        cases h
        exact specialStat_error hspecial
      | ok out =>
        rw [hspecial] at h
        cases h
    · simp only [hd, if_neg hsys] at h
      cases h

theorem kindStat_error {ret : Int × NfskStat} (h : rec.kindStat lib r = .error ret) : ret.1 < 0 := by
  unfold Record.kindStat at h
  by_cases hreparse : rec.reparsePoint = true
  · rw [if_pos hreparse] at h
    exact reparseStat_error h
  · rw [if_neg hreparse] at h
    by_cases hdir : rec.isDirectory = true
    · rw [if_pos hdir] at h
      cases h
    · rw [if_neg hdir] at h
      exact fileStat_error h

theorem stat_ok {st : NfskStat} (h : rec.stat lib r = (0, st)) :
    ∃ out, rec.kindStat lib r = .ok out ∧ st = rec.finish lib out := by
  unfold Record.stat at h
  cases hkind : rec.kindStat lib r with
  | error ret =>
    rw [hkind] at h
    have hneg := kindStat_error hkind
    have hzero : ret.1 = 0 := congrArg Prod.fst h
    omega
  | ok out =>
    rw [hkind] at h
    exact ⟨out, rfl, (congrArg Prod.snd h).symm⟩

end Stat

abbrev RecordView (σ : Type) : Type := σ → UInt64 → Option Record

def RecordView.Holds (R : RecordView σ) (r : UInt64) (rec : Record) (s : σ) : Prop := R s r = some rec

/-- The fields of an open inode. -/
structure Shows (lib : Libstat σ) (ni : NtfsInode) (rec : Record) (s : σ) : Prop where
  linkCount : lib.linkCount ni s = rec.linkCount
  flags : lib.flags ni s = rec.flags
  time : ∀ w, lib.time ni w s = rec.time w
  lastMftChange : lib.lastMftChange ni s = rec.lastMftChange
  dataSize : rec.indexed = false ∨ lib.knownSize ni s = false → lib.dataSize ni s = rec.dataSize
  allocatedSize : rec.indexed = false ∨ lib.knownSize ni s = false →
    lib.allocatedSize ni s = rec.allocatedSize
  directorySizes : rec.indexed = true → lib.knownSize ni s = true →
    lib.dataSize ni s = rec.directorySizes.1 ∧ lib.allocatedSize ni s = rec.directorySizes.2

/-- The inode that is opened for a record. -/
def Record.inode (rec : Record) (r : UInt64) : NtfsInode := ⟨r, rec.reparsePoint, rec.isDirectory⟩

/-- Memory does not run out. -/
structure LawfulRecord (lib : Libstat σ) (R : RecordView σ) : Prop where
  inodeOpen : ∀ r rec, Answers (R.Holds r rec) (lib.inodeOpen r) (.ok (rec.inode r))
  inodeClose : ∀ r rec, Answers (R.Holds r rec) (lib.inodeClose (rec.inode r)) (.ok ())
  shows : ∀ r rec s, R.Holds r rec s → Shows lib (rec.inode r) rec s
  makeSymlink : ∀ r rec, rec.reparsePoint = true →
    Answers (R.Holds r rec) (lib.makeSymlink (rec.inode r)) rec.target
  reparseTag : ∀ r rec s, R.Holds r rec s →
    (lib.reparseTag (rec.inode r) s).1 = rec.tag ∧
      R.Holds r rec (lib.reparseTag (rec.inode r) s).2
  indexOpen : ∀ r rec, rec.indexed = true → Spec (R.Holds r rec) (lib.indexOpen (rec.inode r))
    (fun na s => rec.index = some (na.dataSize, na.allocatedSize) ∧ R.Holds r rec s)
    fun _ s => rec.index = none ∧ R.Holds r rec s
  setKnownSize : ∀ r rec s size alloc, R.Holds r rec s → rec.index = some (size, alloc) →
    lib.knownSize (rec.inode r) (lib.setKnownSize (rec.inode r) size alloc s) = true ∧
      R.Holds r rec (lib.setKnownSize (rec.inode r) size alloc s)
  indexClose : ∀ r rec na s, R.Holds r rec s →
    lib.knownSize (rec.inode r) (lib.indexClose na s) = lib.knownSize (rec.inode r) s ∧
      R.Holds r rec (lib.indexClose na s)
  attrOpen : ∀ r rec, Answers (R.Holds r rec) (lib.attrOpen (rec.inode r))
    (rec.stream.map (refAttr (rec.inode r)))
  attrClose : ∀ r rec na s, R.Holds r rec s → R.Holds r rec (lib.attrClose na s)
  malloc : ∀ r rec size, IntxSized size → Answers (R.Holds r rec) (lib.malloc size) (.ok ())
  ucstombs : ∀ us bytes, lib.ucstombs us = some bytes → 0 ∉ bytes
  /-- All bytes of a stream. -/
  attrPread : ∀ r rec d, rec.stream = .ok d →
    Answers (R.Holds r rec) (lib.attrPread (refAttr (rec.inode r) d) 0 (Int64.ofNat d.size))
      ((rec.contents d).map fun bytes => (Int64.ofNat d.size, bytes))

section Answers

variable {lib : Libstat σ} {R : RecordView σ} {r : UInt64} {rec : Record} {d : DataStream}

theorem readIntx_answers (hL : LawfulRecord lib R) (hd : rec.stream = .ok d)
    (hsize : IntxSized (Int64.ofNat d.size)) :
    Answers (R.Holds r rec) (readIntx lib (refAttr (rec.inode r) d))
      ((rec.contents d).mapError negErrno) := by
  have hmalloc := (hL.malloc r rec _ hsize).orFail negErrno
  have hread := (hL.attrPread r rec d hd).orFail negErrno
  refine Answers.bind_ok hmalloc ?_
  cases hbytes : rec.contents d with
  | error e =>
    rw [hbytes] at hread
    exact Answers.bind_error hread
  | ok bytes =>
    rw [hbytes] at hread
    refine Answers.bind_ok hread ?_
    simp only [refAttr, ne_eq, not_true_eq_false]
    exact Answers.pure _

theorem fillReparse_answers (hL : LawfulRecord lib R) (hreparse : rec.reparsePoint = true) :
    Answers (R.Holds r rec) (fillReparse lib (rec.inode r) (rec.start r)) (rec.reparseStat r) := by
  have hsize : ∀ s, R.Holds r rec s →
      lib.allocatedSize (rec.inode r) s = rec.allocatedSize :=
    fun s hs => (hL.shows r rec s hs).allocatedSize (.inl (by simp [Record.indexed, hreparse]))
  refine Answers.bind_ok (hL.makeSymlink r rec hreparse).attempt ?_
  unfold Record.reparseStat
  cases rec.target with
  | ok target =>
    refine Answers.bind_get fun s hs => ?_
    simp only [hsize s hs]
    exact Answers.pure _
  | error e =>
    by_cases he : e.val ≠ EOPNOTSUPP
    · simp only [if_pos he]
      exact Answers.throw _
    · simp only [if_neg he]
      refine Answers.bind_get fun s hs => ?_
      simp only [hsize s hs]
      exact Answers.pure _

/-- The index is asked for its sizes, or was before, or has none. -/
theorem loadSizes_holds (hL : LawfulRecord lib R) (hdir : rec.indexed = true) {s : σ}
    (hs : R.Holds r rec s) :
    R.Holds r rec (loadSizes lib (rec.inode r) s) ∧
      (lib.knownSize (rec.inode r) (loadSizes lib (rec.inode r) s) = true ∨ rec.index = none) := by
  unfold loadSizes
  cases hknown : lib.knownSize (rec.inode r) s with
  | true =>
    rw [if_pos rfl]
    exact ⟨hs, .inl hknown⟩
  | false =>
    rw [if_neg Bool.false_ne_true]
    have hopen := hL.indexOpen r rec hdir s hs
    cases hrun : lib.indexOpen (rec.inode r) s with
    | error e s' =>
      rw [hrun] at hopen
      exact ⟨hopen.2, .inr hopen.1⟩
    | ok na s' =>
      rw [hrun] at hopen
      obtain ⟨hset, hs'⟩ := hL.setKnownSize r rec s' _ _ hopen.2 hopen.1
      obtain ⟨hclose, hs''⟩ := hL.indexClose r rec na _ hs'
      exact ⟨hs'', .inl (hclose.trans hset)⟩

theorem fillDirectory_answers (hL : LawfulRecord lib R) (hdir : rec.indexed = true) :
    Answers (R.Holds r rec) (fillDirectory lib (rec.inode r) (rec.start r))
      (.ok (rec.directoryStat r)) := by
  intro s hs
  obtain ⟨hs', hknown⟩ := loadSizes_holds hL hdir hs
  have hshows := hL.shows r rec _ hs'
  have hsizes : lib.dataSize (rec.inode r) (loadSizes lib (rec.inode r) s) =
        rec.directorySizes.1 ∧
      lib.allocatedSize (rec.inode r) (loadSizes lib (rec.inode r) s) =
        rec.directorySizes.2 := by
    cases hk : lib.knownSize (rec.inode r) (loadSizes lib (rec.inode r) s) with
    | true => exact hshows.directorySizes hdir hk
    | false =>
      have hnone := hknown.resolve_left (ne_true_of_eq_false hk)
      simp only [Record.directorySizes, hnone, Option.getD_none]
      exact ⟨hshows.dataSize (.inr hk), hshows.allocatedSize (.inr hk)⟩
  refine ⟨?_, hs'⟩
  rw [Record.directoryStat, ← hsizes.1, ← hsizes.2]

theorem fillSpecial_answers (hL : LawfulRecord lib R) (hd : rec.stream = .ok d) (out : NfskStat) :
    Answers (R.Holds r rec) (fillSpecial lib (rec.inode r) (refAttr (rec.inode r) d) out)
      (rec.specialStat lib d out) := by
  refine Answers.bind_get fun s hs => ?_
  have hhidden : (lib.flags (rec.inode r) s &&& FILE_ATTR_HIDDEN = 0) ↔ ¬ rec.hidden := by
    rw [(hL.shows r rec s hs).flags, Record.hidden, not_not]
  have hsize : (refAttr (rec.inode r) d).dataSize = Int64.ofNat d.size := rfl
  unfold Record.specialStat
  simp only [hhidden, hsize, ite_not]
  by_cases hsized : IntxSized (Int64.ofNat d.size)
  · simp only [if_pos hsized]
    have hread := readIntx_answers (r := r) hL hd hsized
    cases hintx : rec.contents d with
    | error e =>
      rw [hintx] at hread
      exact Answers.bind_error (hread.orFail _)
    | ok intx =>
      rw [hintx] at hread
      refine Answers.bind_ok (hread.orFail _) ?_
      simp only
      split
      · rename_i heq
        rw [heq]
        exact Answers.pure _
      · rename_i heq
        rw [heq]
        exact Answers.throw _
  · simp only [if_neg hsized]
    exact Answers.pure _

theorem fillFile_answers (hL : LawfulRecord lib R) (hdir : rec.isDirectory = false) :
    Answers (R.Holds r rec) (fillFile lib (rec.inode r) (rec.start r)) (rec.fileStat lib r) := by
  refine Answers.bind_get fun s hs => ?_
  have hshows := hL.shows r rec s hs
  have hindexed : rec.indexed = false := by simp [Record.indexed, hdir]
  have hsystem : (lib.flags (rec.inode r) s &&& FILE_ATTR_SYSTEM ≠ 0) ↔ rec.system := by
    rw [hshows.flags, Record.system]
  have hopen := (hL.attrOpen r rec).attempt (δ := Int × NfskStat)
  unfold Record.fileStat
  simp only [hshows.dataSize (.inl hindexed), hshows.allocatedSize (.inl hindexed), hsystem]
  by_cases hsys : rec.system
  · simp only [if_pos hsys]
    refine Answers.bind_ok hopen ?_
    cases hd : rec.stream with
    | error e => exact Answers.pure _
    | ok d =>
      have hclose : ∀ s, R.Holds r rec s → R.Holds r rec (final
          ((modify (lib.attrClose (refAttr (rec.inode r) d)) : EStateM Int σ Unit) s)) :=
        fun s hs => hL.attrClose r rec _ s hs
      have hspecial := (fillSpecial_answers (r := r) hL hd (rec.fileStart r)).afterwards hclose
      simp only
      cases hstat : rec.specialStat lib d (rec.fileStart r) with
      | error ret =>
        rw [hstat] at hspecial
        exact Answers.bind_error hspecial
      | ok out =>
        rw [hstat] at hspecial
        exact Answers.bind_ok hspecial (Answers.pure _)
  · simp only [if_neg hsys]
    cases rec.stream with
    | error e => exact Answers.pure _
    | ok d => exact Answers.pure _

theorem fillKind_answers (hL : LawfulRecord lib R) :
    Answers (R.Holds r rec) (fillKind lib (rec.inode r)) (rec.kindStat lib r) := by
  refine Answers.bind_get fun s hs => ?_
  have hstart : { NfskStat.zero with
      mft := (rec.inode r).mftNo, links := (lib.linkCount (rec.inode r) s).toUInt64 } =
      rec.start r := by
    rw [(hL.shows r rec s hs).linkCount]
    rfl
  rw [hstart]
  unfold Record.kindStat
  cases hreparse : rec.reparsePoint with
  | true =>
    have hopen : (rec.inode r).reparsePoint = true := hreparse
    simp only [hopen, if_true]
    exact fillReparse_answers hL hreparse
  | false =>
    have hopen : (rec.inode r).reparsePoint = false := hreparse
    simp only [hopen, Bool.false_eq_true, if_false]
    cases hdir : rec.isDirectory with
    | true =>
      have hopen : (rec.inode r).isDirectory = true := hdir
      simp only [hopen, if_true]
      exact fillDirectory_answers hL (by simp [Record.indexed, hreparse, hdir])
    | false =>
      have hopen : (rec.inode r).isDirectory = false := hdir
      simp only [hopen, Bool.false_eq_true, if_false]
      exact fillFile_answers hL hdir

/-- `fill_stat` reports what the record says. -/
theorem fillStat_answers (hL : LawfulRecord lib R) {s : σ} (hs : R.Holds r rec s) :
    (fillStat lib (rec.inode r) s).1 = rec.stat lib r ∧
      R.Holds r rec (fillStat lib (rec.inode r) s).2 := by
  have hkind := fillKind_answers hL s hs
  unfold fillStat Record.stat
  cases hrun : fillKind lib (rec.inode r) s with
  | error ret s' =>
    rw [hrun] at hkind
    rw [hkind.1]
    exact ⟨rfl, hkind.2⟩
  | ok out s' =>
    rw [hrun] at hkind
    have hshows := hL.shows r rec s' hkind.2
    rw [hkind.1]
    refine ⟨?_, hkind.2⟩
    simp only [finishStat, Record.finish, hshows.flags, hshows.time, hshows.lastMftChange,
      Record.hidden, Record.time]
    rfl

theorem recordStat_closed {lib : Libdir σ} {mft : UInt64} {s s₁ s₂ : σ} {ni : NtfsInode}
    (hopen : lib.inodeOpen mft s = .ok ni s₁)
    (hclose : lib.inodeClose ni (lib.fillStat ni s₁).2 = .ok () s₂) :
    recordStat lib mft s = (((lib.fillStat ni s₁).1.1, some (lib.fillStat ni s₁).1.2), s₂) := by
  rw [recordStat, hopen]
  simp only [hclose]

theorem getattr_answers (hL : LawfulRecord lib R) (hr : 1 < r) {s : σ} (hs : R.Holds r rec s) :
    ∃ s', nfskGetattrImpl lib.volume r s =
        (((rec.stat lib r).1, some (rec.stat lib r).2), s') ∧ R.Holds r rec s' := by
  obtain ⟨s₁, hopen⟩ := ((hL.inodeOpen r rec).ok_iff hs).mpr rfl
  have hs₁ := ((hL.inodeOpen r rec).ok hs hopen).2
  obtain ⟨hstat, hs₂⟩ := fillStat_answers hL hs₁
  obtain ⟨s₃, hclose⟩ := ((hL.inodeClose r rec).ok_iff hs₂).mpr rfl
  have hrun := @recordStat_closed σ lib.volume.toLibdir r s s₁ s₃ (rec.inode r) hopen hclose
  refine ⟨s₃, ?_, ((hL.inodeClose r rec).ok hs₂ hclose).2⟩
  rw [nfskGetattrImpl, if_neg (UInt64.not_le.mpr hr), hrun, ← hstat]
  rfl

end Answers

end Ntfs
end Usbrw
