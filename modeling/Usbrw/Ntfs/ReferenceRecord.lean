import Usbrw.Ntfs.Record

/-!
# Ntfs.ReferenceRecord

A library that obeys the laws of `Ntfs.Record`: a table of records. Names are not part of it.

* `refLibstat`        — its calls. The sizes of directories are always known.
* `refLibstat_lawful` — they tell what the records hold.
* `Record.blank` — to make records of.
-/

namespace Usbrw
namespace Ntfs

open Call

abbrev RefRecords : Type := UInt64 → Option Record

namespace RefRecords

def change (f : Record → Record) (ni : NtfsInode) (s : RefRecords) : RefRecords :=
  Function.update s ni.mftNo ((s ni.mftNo).map f)

/-- A call that looks at a record. -/
def look {α : Type} (f : Record → Except Errno α) (ni : NtfsInode) : EStateM Errno RefRecords α := fun s =>
  match s ni.mftNo with
  | some rec =>
    match f rec with
    | .ok a => .ok a s
    | .error e => .error e s
  | none => .error ⟨ENOENT, ENOENT_pos⟩ s

/-- Give a record another stream, if it is not too long. -/
def stream (f : DataStream → DataStream) (ni : NtfsInode) : EStateM Errno RefRecords Unit := fun s =>
  match s ni.mftNo with
  | some rec =>
    match rec.stream with
    | .ok d =>
      if hd : (f d).size < 2 ^ 63 then
        .ok () (Function.update s ni.mftNo (some (rec.setStream (f d) hd)))
      else .error ⟨ EIO, EIO_pos⟩ s
    | .error e => .error e s
  | none => .error ⟨ENOENT, ENOENT_pos⟩ s

end RefRecords

/-- 1970 in 100 ns since 1601. -/
def NTFS_TIME_OFFSET : Int64 := (369 * 365 + 89) * 24 * 3600 * 10000000

/-- ASCII, up to the first unit that is 0. -/
def asciiUnits (us : List UInt16) : Option (List UInt8) :=
  let us := us.takeWhile (· ≠ 0)
  if us.all (· < 128) then some (us.map UInt16.toUInt8) else none

theorem asciiUnits_nonzero {us : List UInt16} {bytes : List UInt8} (h : asciiUnits us = some bytes) :
    0 ∉ bytes := by
  unfold asciiUnits at h
  by_cases hascii : (us.takeWhile (· ≠ 0)).all (· < 128) = true
  · rw [if_pos hascii] at h
    cases h
    intro hzero
    obtain ⟨u, hu, hbyte⟩ := List.mem_map.mp hzero
    have hne : u ≠ 0 := by simpa using List.mem_takeWhile_imp hu
    have hsmall : u < 128 := by simpa using List.all_eq_true.mp hascii u hu
    have hlt := UInt16.lt_iff_toNat_lt.mp hsmall
    refine hne (UInt16.toNat_inj.mp ?_)
    have hnat := congrArg UInt8.toNat hbyte
    rw [UInt16.toNat_toUInt8] at hnat
    have hlt' : u.toNat < 128 := hlt
    have hzero' : (0 : UInt8).toNat = 0 := rfl
    have hzero'' : (0 : UInt16).toNat = 0 := rfl
    omega
  · rw [if_neg hascii] at h
    cases h

/-- What `ntfs_attr_pread` finds in the stream of a record. -/
def Record.read (rec : Record) (pos count : Int64) : Except Errno (Int64 × List UInt8) := do
  let d ← rec.stream
  let bytes ← rec.contents d
  pure (count, (bytes.drop pos.toInt.toNat).take count.toInt.toNat)

theorem read_whole {rec : Record} {d : DataStream} (hd : rec.stream = .ok d) :
    rec.read 0 (Int64.ofNat d.size) =
      (rec.contents d).map fun bytes => (Int64.ofNat d.size, bytes) := by
  have hsize : (Int64.ofNat d.size).toInt.toNat = d.size := by
    rw [Int64.toInt_ofNat_of_lt (rec.stream_lt d hd), Int.toNat_natCast]
  have hall : (d.bytes.drop (0 : Int64).toInt.toNat).take (Int64.ofNat d.size).toInt.toNat =
      d.bytes := by
    rw [hsize]
    exact List.take_of_length_le (by simp [DataStream.bytes])
  unfold Record.read Record.contents
  rw [hd]
  cases rec.readError with
  | some e => rfl
  | none =>
    have hread : ((d.bytes.drop (0 : Int64).toInt.toNat).take (Int64.ofNat d.size).toInt.toNat) =
        d.bytes := hall
    exact congrArg (fun bytes => Except.ok (Int64.ofNat d.size, bytes)) hread

/-- The clock shows `now`. -/
def refLibstat (now : Int64) : Libstat RefRecords where
  mbstoucs _ := .error ⟨EILSEQ, EILSEQ_pos⟩
  inodeOpen r := fun s =>
    match s r with
    | some rec => .ok (rec.inode r) s
    | none => .error ⟨ENOENT, ENOENT_pos⟩ s
  inodeClose _ := pure ()
  inodeLookupByName _ _ := throw ⟨ENOENT, ENOENT_pos⟩
  inodeUpdateTimes ni w := RefRecords.change (fun rec => rec.touch now w) ni
  checkEmptyDir _ := pure ()
  link _ _ _ := throw ⟨EOPNOTSUPP, EOPNOTSUPP_pos⟩
  delete _ _ _ := throw ⟨EOPNOTSUPP, EOPNOTSUPP_pos⟩
  forbiddenNames _ := none
  create _ _ _ := throw ⟨EOPNOTSUPP, EOPNOTSUPP_pos⟩
  createSymlink _ _ _ := throw ⟨EOPNOTSUPP, EOPNOTSUPP_pos⟩
  inodeCloseInDir _ _ := pure ()
  ucstombs := asciiUnits
  readdir _ _ _ st := (⟨-1, EOPNOTSUPP, 0⟩, st)
  fillStat _ s := ((0, NfskStat.zero), s)
  errno _ := 0
  timespec2ntfs t := t * 10000000 + NTFS_TIME_OFFSET
  flags ni s := ((s ni.mftNo).map Record.flags).getD 0
  setFlags ni f := RefRecords.change (fun rec => { rec with flags := f }) ni
  setTime ni w t := RefRecords.change (fun rec => rec.setTime t w) ni
  attrOpen ni := RefRecords.look (fun rec => rec.stream.map (refAttr ni)) ni
  attrClose _ s := s
  attrTruncate na n :=
    if n < 0 then throw ⟨ EINVAL, EINVAL_pos⟩
    else RefRecords.stream (fun d => d.truncate n.toInt.toNat) na.inode
  attrPwrite na pos bytes := do
    RefRecords.stream (fun d => d.write pos.toInt.toNat bytes) na.inode
    pure bytes.length
  setNtfsAttrib ni a := modify (RefRecords.change (fun rec => { rec with flags := a }) ni)
  linkCount ni s := ((s ni.mftNo).map Record.linkCount).getD 0
  dataSize ni s := ((s ni.mftNo).map fun rec =>
    if rec.indexed then rec.directorySizes.1 else rec.dataSize).getD 0
  allocatedSize ni s := ((s ni.mftNo).map fun rec =>
    if rec.indexed then rec.directorySizes.2 else rec.allocatedSize).getD 0
  knownSize _ _ := true
  setKnownSize _ _ _ s := s
  time ni w s := ((s ni.mftNo).map fun rec => rec.time w).getD 0
  lastMftChange ni s := ((s ni.mftNo).map Record.lastMftChange).getD 0
  ntfs2timespec t := (t - NTFS_TIME_OFFSET) / 10000000
  makeSymlink ni := RefRecords.look Record.target ni
  reparseTag ni s := (((s ni.mftNo).map Record.tag).getD 0, s)
  indexOpen ni := RefRecords.look (fun rec =>
    match rec.index with
    | some (size, alloc) => .ok ⟨⟨ni, size⟩, alloc⟩
    | none => .error ⟨ENOENT, ENOENT_pos⟩) ni
  indexClose _ s := s
  malloc _ := pure ()
  attrPread na pos count := RefRecords.look (fun rec => rec.read pos count) na.inode
  ucstombsErrno _ := ⟨EILSEQ, EILSEQ_pos⟩

def refRecords : RecordView RefRecords := fun s => s

/-- A file that holds nothing that was set. -/
def Record.blank : Record where
  linkCount := 1
  reparsePoint := false
  isDirectory := false
  flags := 0
  dataSize := 0
  allocatedSize := 0
  index := none
  target := .error ⟨ENOENT, ENOENT_pos⟩
  tag := 0
  stream := .error ⟨ENOENT, ENOENT_pos⟩
  readError := none
  lastAccess := NTFS_TIME_OFFSET
  lastMftChange := NTFS_TIME_OFFSET
  lastDataChange := NTFS_TIME_OFFSET
  creation := NTFS_TIME_OFFSET
  stream_lt := fun _ h => nomatch h

section Lawful

variable {r : UInt64} {rec : Record}

theorem look_answers {α : Type} {f : Record → Except Errno α} {ni : NtfsInode} (hni : ni.mftNo = r) :
    Answers (refRecords.Holds r rec) (RefRecords.look f ni) (f rec) := by
  intro s hs
  have hrec : s ni.mftNo = some rec := by rw [hni]; exact hs
  simp only [RefRecords.look, hrec]
  cases h : f rec with
  | ok a => exact ⟨rfl, hs⟩
  | error e => exact ⟨rfl, hs⟩

theorem refLibstat_shows (now : Int64) {s : RefRecords} (hs : refRecords.Holds r rec s) :
    Shows (refLibstat now) (rec.inode r) rec s := by
  have hrec : s (rec.inode r).mftNo = some rec := hs
  refine ⟨?_, ?_, ?_, ?_, ?_, ?_, ?_⟩
  · simp [refLibstat, hrec]
  · simp [refLibstat, hrec]
  · simp [refLibstat, hrec]
  · simp [refLibstat, hrec]
  · rintro (h | h)
    · simp [refLibstat, hrec, h]
    · cases h
  · rintro (h | h)
    · simp [refLibstat, hrec, h]
    · cases h
  · intro h _
    simp [refLibstat, hrec, h]

theorem refLibstat_lawful (now : Int64) : LawfulRecord (refLibstat now) refRecords where
  inodeOpen := by
    intro r rec s hs
    have hrec : s r = some rec := hs
    simp only [refLibstat, hrec]
    exact ⟨trivial, hs⟩
  inodeClose := fun _ _ => Answers.pure ()
  shows := fun _ _ _ hs => refLibstat_shows now hs
  makeSymlink := fun _ _ _ => look_answers rfl
  reparseTag := by
    intro r rec s hs
    have hrec : s (rec.inode r).mftNo = some rec := hs
    exact ⟨by simp [refLibstat, hrec], hs⟩
  indexOpen := by
    intro r rec _ s hs
    have hrec : s (rec.inode r).mftNo = some rec := hs
    simp only [refLibstat, RefRecords.look, hrec]
    cases hindex : rec.index with
    | some p => exact ⟨rfl, hs⟩
    | none => exact ⟨rfl, hs⟩
  setKnownSize := fun _ _ _ _ _ hs _ => ⟨rfl, hs⟩
  indexClose := fun _ _ _ _ hs => ⟨rfl, hs⟩
  attrOpen := fun _ _ => look_answers rfl
  attrClose := fun _ _ _ _ hs => hs
  malloc := fun _ _ _ _ => Answers.pure ()
  ucstombs := fun _ _ h => asciiUnits_nonzero h
  attrPread := by
    intro r rec d hd
    rw [← read_whole hd]
    exact look_answers rfl

end Lawful

end Ntfs
end Usbrw
