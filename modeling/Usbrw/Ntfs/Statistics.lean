import Usbrw.Ntfs.Symlinks
import Usbrw.Ntfs.SetAttributes

/-!
# Ntfs.Statistics

`nfsk_fsstat_impl`, and `volumeStatistics`, which reports what `nfsk_fsstat` returned when the volume was
mounted.

* `Libstatfs`        — the libntfs-3g calls, and the fields of `ntfs_volume`.
* `nfskFsstatImpl`, `volumeStatistics` — the code.
* `MountedVolume`    — a volume with `statfsCache`.
* `FileCall`         — the calls that a run is made of.
* `counts`, `Sane`   — what is counted, and what it can be.
* `statFSResult_iff` — the same is reported of two states if and only if the counts are the same.
-/

namespace Usbrw
namespace Ntfs

open Call

variable {σ : Type}

/-! ## The code -/

/-- Without a bitmap of the MFT records `mftBitmapSize` is none. -/
structure Libstatfs (σ : Type) : Type 1 extends Libstat σ where
  data : Libdata σ
  clusterSize : σ → UInt32
  nrClusters : σ → Int64
  freeClusters : σ → Int64
  freeMftRecords : σ → Int64
  mftBitmapSize : σ → Option Int64
  volName : σ → Option (List UInt8)
  freeSpaceKnown : σ → Bool
  getFreeSpace : σ → σ

structure NfskStatfs where
  totalBytes : UInt64
  freeBytes : UInt64
  bsize : UInt32
  totalFiles : UInt64
  freeFiles : UInt64
  name : List UInt8
  deriving DecidableEq

structure FSStatFSResult where
  fileSystemTypeName : String
  blockSize : Int
  ioSize : Int
  totalBlocks : UInt64
  availableBlocks : UInt64
  freeBlocks : UInt64
  totalFiles : UInt64
  freeFiles : UInt64
  deriving DecidableEq

section Code

variable (lib : Libstatfs σ)

/-- The bitmaps are looked through once. -/
def countFree (s : σ) : σ := if lib.freeSpaceKnown s then s else lib.getFreeSpace s

def nfskFsstatImpl (s : σ) : NfskStatfs × σ :=
  let bsize := lib.clusterSize s
  let s := countFree lib s
  let totalFiles := ((lib.mftBitmapSize s).getD 0).toUInt64 <<< 3
  ({  totalBytes := (lib.nrClusters s).toUInt64 * (lib.clusterSize s).toUInt64
      freeBytes := (if 0 < lib.freeClusters s then (lib.freeClusters s).toUInt64 else 0) *
        (lib.clusterSize s).toUInt64
      bsize := bsize
      totalFiles := totalFiles
      freeFiles := if 0 < lib.freeMftRecords s then (lib.freeMftRecords s).toUInt64 else totalFiles
      name := ((lib.volName s).map fun name => strlcpy name 256).getD [] }, s)

/-- The result that is made of an `nfsk_statfs`. -/
def statFSResult (st : NfskStatfs) : FSStatFSResult :=
  let bsize := max st.bsize 1
  { fileSystemTypeName := "ntfs3g"
    blockSize := st.bsize.toNat
    ioSize := 1048576
    totalBlocks := st.totalBytes / bsize.toUInt64
    availableBlocks := st.freeBytes / bsize.toUInt64
    freeBlocks := st.freeBytes / bsize.toUInt64
    totalFiles := st.totalFiles
    freeFiles := st.freeFiles }

structure MountedVolume (σ : Type) extends NTFSVolume σ where
  statfsCache : NfskStatfs

/-- `init` -/
def mounted (raw : σ) : MountedVolume σ where
  raw := (nfskFsstatImpl lib raw).2
  itemCache _ := none
  statfsCache := (nfskFsstatImpl lib raw).1

def volumeStatistics (v : MountedVolume σ) : FSStatFSResult := statFSResult v.statfsCache

/-- `nfsk_write`, which clears `errno` first. -/
def writeData (mft offset : UInt64) (contents : List UInt8) : EStateM Int σ Int := fun s =>
  match nfskWrite lib.data mft offset (UInt64.ofNat contents.length) contents ⟨s, 0⟩ with
  | (env, n) => if n < 0 then .error n env.state else .ok n env.state

/-- Nothing at all has no base address. A negative offset traps in `UInt64(offset)`. -/
def write (contents : List UInt8) (item : FSItem) (offset : UInt64) :
    EStateM Int (NTFSVolume σ) Int :=
  match item with
  | .ntfs it => if contents = [] then throw EINVAL else bridged (writeData lib it.mft offset contents)
  | .other => throw EINVAL

end Code

/-- A file is truncated by setting its size. -/
inductive FileCall where
  | createItem (name : FSFileName) (type : ItemType) (directory : FSItem)
  | write (contents : List UInt8) (item : FSItem) (offset : UInt64)
  | setAttributes (newAttributes : SetAttributesRequest) (item : FSItem)
  | removeItem (item : FSItem) (name : FSFileName) (directory : FSItem)

def FileCall.run (lib : Libstatfs σ) (windowsNames : Bool) :
    FileCall → EStateM Int (NTFSVolume σ) Unit
  | .createItem name type directory =>
    dropResult (Ntfs.createItem lib.toLibvolume windowsNames name type directory)
  | .write contents item offset => dropResult (Ntfs.write lib contents item offset)
  | .setAttributes newAttributes item => dropResult (Ntfs.setAttributes lib.toLibstat newAttributes item)
  | .removeItem item name directory => Ntfs.removeItem lib.toLibvolume item name directory

/-- The volume after a call, which may have failed. None of them asks for the statistics again. -/
def step (lib : Libstatfs σ) (windowsNames : Bool) (v : MountedVolume σ) (c : FileCall) :
    MountedVolume σ :=
  { v with toNTFSVolume := final (c.run lib windowsNames v.toNTFSVolume) }

/-- `volumeStatistics` reports what `nfsk_fsstat` returns. -/
def Current (lib : Libstatfs σ) (v : MountedVolume σ) : Prop :=
  volumeStatistics v = statFSResult (nfskFsstatImpl lib v.raw).1

/-! ## Counts -/

/-- A volume whose size in bytes is a `uint64_t`. -/
structure Geometry where
  clusterSize : UInt32
  nrClusters : Int64
  clusterSize_pos : 0 < clusterSize.toNat
  bytes_lt : nrClusters.toUInt64.toNat * clusterSize.toNat < 2 ^ 64

/-- The counts that `nfsk_fsstat` reads. -/
@[ext] structure Counts where
  freeClusters : UInt64
  freeMftRecords : UInt64
  mftBitmapSize : UInt64
  deriving DecidableEq

/-- A count below 0 is one that failed. -/
def available (n : Int64) : UInt64 := if 0 < n then n.toUInt64 else 0

def counts (lib : Libstatfs σ) (s : σ) : Counts :=
  let s := countFree lib s
  { freeClusters := available (lib.freeClusters s)
    freeMftRecords := available (lib.freeMftRecords s)
    mftBitmapSize := ((lib.mftBitmapSize s).getD 0).toUInt64 }

/-- The counts are ones that a volume can have. Some of the MFT records are always in use. -/
structure Sane (lib : Libstatfs σ) (g : Geometry) (s : σ) : Prop where
  clusterSize : lib.clusterSize s = g.clusterSize
  clusterSize_counted : lib.clusterSize (countFree lib s) = g.clusterSize
  nrClusters : lib.nrClusters (countFree lib s) = g.nrClusters
  free_le : (counts lib s).freeClusters ≤ g.nrClusters.toUInt64
  records_lt : 0 < (counts lib s).freeMftRecords →
    (counts lib s).freeMftRecords.toNat < (counts lib s).mftBitmapSize.toNat * 8
  bitmap_lt : (counts lib s).mftBitmapSize.toNat < 2 ^ 60

section Report

variable {lib : Libstatfs σ} {g : Geometry} {s s' : σ}

theorem available_pos_iff {n : Int64} : 0 < available n ↔ 0 < n := by
  unfold available
  by_cases hn : 0 < n
  · rw [if_pos hn]
    refine iff_of_true ?_ hn
    have hne : n.toUInt64 ≠ 0 := by
      intro hzero
      have hback : n = 0 := congrArg UInt64.toInt64 hzero
      rw [hback] at hn
      exact absurd hn (by decide)
    exact UInt64.pos_iff_ne_zero.mpr hne
  · rw [if_neg hn]
    exact iff_of_false (by decide) hn

theorem max_one {n : UInt32} (h : 0 < n.toNat) : max n 1 = n := by
  have hmax : max n 1 = if n ≤ 1 then 1 else n := rfl
  rw [hmax]
  by_cases hle : n ≤ 1
  · rw [if_pos hle]
    exact UInt32.le_antisymm (UInt32.le_iff_toNat_le.mpr h) hle
  · rw [if_neg hle]

/-- Bytes in clusters, and back. -/
theorem blocks_of_bytes {n cs : UInt64} (hcs : 0 < cs.toNat) (hlt : n.toNat * cs.toNat < 2 ^ 64) :
    n * cs / cs = n := by
  rw [← UInt64.toNat_inj, UInt64.toNat_div, UInt64.toNat_mul, Nat.mod_eq_of_lt hlt,
    Nat.mul_div_cancel _ hcs]

theorem toNat_shift {n : UInt64} (h : n.toNat < 2 ^ 60) : (n <<< 3).toNat = n.toNat * 8 := by
  have hshift : (3 : UInt64).toNat % 64 = 3 := rfl
  rw [UInt64.toNat_shiftLeft, hshift, Nat.shiftLeft_eq]
  omega

/-- A sum of bytes that is reported in blocks is the number of its clusters. -/
theorem Geometry.blocks (g : Geometry) {n : UInt64} (hle : n ≤ g.nrClusters.toUInt64) :
    n * g.clusterSize.toUInt64 / (max g.clusterSize 1).toUInt64 = n := by
  rw [max_one g.clusterSize_pos]
  refine blocks_of_bytes g.clusterSize_pos ?_
  exact Nat.lt_of_le_of_lt (Nat.mul_le_mul_right _ (UInt64.le_iff_toNat_le.mp hle)) g.bytes_lt

/-- What is reported of a volume with these counts. No free record at all is reported as all of
them. -/
def Counts.result (c : Counts) (g : Geometry) : FSStatFSResult where
  fileSystemTypeName := "ntfs3g"
  blockSize := g.clusterSize.toNat
  ioSize := 1048576
  totalBlocks := g.nrClusters.toUInt64
  availableBlocks := c.freeClusters
  freeBlocks := c.freeClusters
  totalFiles := c.mftBitmapSize <<< 3
  freeFiles := if 0 < c.freeMftRecords then c.freeMftRecords else c.mftBitmapSize <<< 3

theorem Sane.result (h : Sane lib g s) :
    statFSResult (nfskFsstatImpl lib s).1 = (counts lib s).result g := by
  have htotal := g.blocks (UInt64.le_refl g.nrClusters.toUInt64)
  have hfree := g.blocks h.free_le
  have hfiles : (if 0 < lib.freeMftRecords (countFree lib s)
        then (lib.freeMftRecords (countFree lib s)).toUInt64
        else ((lib.mftBitmapSize (countFree lib s)).getD 0).toUInt64 <<< 3) =
      ((counts lib s).result g).freeFiles := by
    have hcount : (counts lib s).freeMftRecords = available (lib.freeMftRecords (countFree lib s)) :=
      rfl
    unfold Counts.result
    rw [hcount]
    by_cases hpos : 0 < lib.freeMftRecords (countFree lib s)
    · rw [if_pos hpos, if_pos (available_pos_iff.mpr hpos), available, if_pos hpos]
    · rw [if_neg hpos, if_neg (mt available_pos_iff.mp hpos)]
      rfl
  unfold nfskFsstatImpl statFSResult
  simp only [h.clusterSize, h.clusterSize_counted, h.nrClusters, htotal, hfiles]
  have hblocks : (if 0 < lib.freeClusters (countFree lib s)
        then (lib.freeClusters (countFree lib s)).toUInt64 else 0) *
      g.clusterSize.toUInt64 / (max g.clusterSize 1).toUInt64 = (counts lib s).freeClusters := hfree
  rw [hblocks]
  rfl

/-- The counts can be told from what is reported. -/
theorem statFSResult_iff (hs : Sane lib g s) (hs' : Sane lib g s') :
    statFSResult (nfskFsstatImpl lib s).1 = statFSResult (nfskFsstatImpl lib s').1 ↔
      counts lib s = counts lib s' := by
  rw [hs.result, hs'.result]
  constructor
  · intro h
    have hfree : (counts lib s).freeClusters = (counts lib s').freeClusters :=
      congrArg FSStatFSResult.freeBlocks h
    have htotal : (counts lib s).mftBitmapSize <<< 3 = (counts lib s').mftBitmapSize <<< 3 :=
      congrArg FSStatFSResult.totalFiles h
    have hnat := congrArg UInt64.toNat htotal
    rw [toNat_shift hs.bitmap_lt, toNat_shift hs'.bitmap_lt] at hnat
    have hbitmap : (counts lib s).mftBitmapSize = (counts lib s').mftBitmapSize :=
      UInt64.toNat_inj.mp (by omega)
    have hfiles : ((counts lib s).result g).freeFiles = ((counts lib s').result g).freeFiles :=
      congrArg FSStatFSResult.freeFiles h
    -- a positive number of free records is less than all of them
    have hne : ∀ {s : σ}, Sane lib g s → 0 < (counts lib s).freeMftRecords →
        (counts lib s).freeMftRecords ≠ (counts lib s).mftBitmapSize <<< 3 := by
      intro s hs hpos heq
      have hlt := hs.records_lt hpos
      rw [heq, toNat_shift hs.bitmap_lt] at hlt
      exact Nat.lt_irrefl _ hlt
    have hrecords : (counts lib s).freeMftRecords = (counts lib s').freeMftRecords := by
      unfold Counts.result at hfiles
      by_cases hpos : 0 < (counts lib s).freeMftRecords
      · by_cases hpos' : 0 < (counts lib s').freeMftRecords
        · rwa [if_pos hpos, if_pos hpos'] at hfiles
        · rw [if_pos hpos, if_neg hpos', ← htotal] at hfiles
          exact absurd hfiles (hne hs hpos)
      · by_cases hpos' : 0 < (counts lib s').freeMftRecords
        · rw [if_neg hpos, if_pos hpos', htotal] at hfiles
          exact absurd hfiles.symm (hne hs' hpos')
        · have hzero := UInt64.not_lt.mp hpos
          have hzero' := UInt64.not_lt.mp hpos'
          exact (UInt64.le_zero_iff.mp hzero).trans (UInt64.le_zero_iff.mp hzero').symm
    exact Counts.ext hfree hrecords hbitmap
  · intro h
    rw [h]

end Report

end Ntfs
end Usbrw
