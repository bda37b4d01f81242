import Usbrw.Block.Device
import Usbrw.Shim.Device

/-!
# Ext.Loader

`EXTFileSystem.swift`: how an ext volume gets its block I/O and its identity.

* `FSBlockDevice`     — a block resource with what `loadResource` asks it about itself.
* `BlockIOHolder`     — the resource behind the callbacks; the process has one, `shared`.
* `IoCall`            — one call of a callback of a volume.
* `probeResource`, `loadResource` — the superblock test, and the loading of a volume.
* `watch`             — a resource that keeps a log of what reaches it.

`ι` names the resources, `σ` is the state of all of them together.
-/

namespace Usbrw
namespace Ext

open Block Shim

structure FSBlockDevice (σ : Type) extends BlockResource σ where
  blockSize : UInt32
  blockCount : UInt64
  isWritable : Bool

/-- `BlockIOHolder.shared`. -/
structure BlockIOHolder (ι σ : Type) where
  block : Option ι
  world : σ

variable {ι σ : Type}

namespace BlockIOHolder

/-- The new resource takes the place of any earlier one. -/
def setup (h : BlockIOHolder ι σ) (b : ι) : BlockIOHolder ι σ := { h with block := some b }

section Callbacks

variable (res : ι → FSBlockDevice σ)

/-- An offset from 2^63 on, which Swift's `off_t(off)` traps on, does not occur. -/
def read (h : BlockIOHolder ι σ) (off len : UInt64) : BlockIOHolder ι σ × Int × List UInt8 :=
  match h.block with
  | none => (h, -ENODEV, [])
  | some b =>
    match (res b).read h.world off.toInt64 len.toNat with
    | (w, .ok bs) => ({ h with world := w }, 0, bs)
    | (w, .error _) => ({ h with world := w }, - EIO, [])

def write (h : BlockIOHolder ι σ) (off len : UInt64) (buf : List UInt8) :
    BlockIOHolder ι σ × Int :=
  match h.block with
  | none => (h, -ENODEV)
  | some b =>
    match (res b).write h.world off.toInt64 (buf.take len.toNat) with
    | (w, .ok _) => ({ h with world := w }, 0)
    | (w, .error _) => ({ h with world := w }, - EIO)

/-- What the flush throws is dropped. -/
def sync (h : BlockIOHolder ι σ) : BlockIOHolder ι σ × Int :=
  match h.block with
  | none => (h, -ENODEV)
  | some b => ({ h with world := (flushResource (res b).toBlockResource h.world).1 }, 0)

end Callbacks

end BlockIOHolder

section Load

variable (res : ι → FSBlockDevice σ)

/-- The `nfsk_blockio` of a volume on the resource `b`. The callbacks look up the shared holder, so
they are the same for every volume. -/
def loaderIo (b : ι) (writable : Bool) : NfskBlockio (BlockIOHolder ι σ) where
  read := some (BlockIOHolder.read res)
  write := some (BlockIOHolder.write res)
  sync := some (BlockIOHolder.sync res)
  readonly := !writable
  blockSize := (res b).blockSize
  blockCount := (res b).blockCount

/-- `uuid(fromSuperblock:)`: the version and the variant bits are forced. -/
def uuidFromSuperblock (b : List UInt8) : List UInt8 :=
  let v := b.set 6 ((b.getD 6 0 &&& 0x0F) ||| 0x40)
  v.set 8 ((v.getD 8 0 &&& 0x3F) ||| 0x80)

/-- A buffer after a read stored `bs` in it: the rest of it is what it was. -/
def filled (old bs : List UInt8) : List UInt8 := bs ++ old.drop bs.length

def le16 (buf : List UInt8) (i : Nat) : UInt16 :=
  (buf.getD i 0).toUInt16 ||| (buf.getD (i + 1) 0).toUInt16 <<< 8

def le32 (buf : List UInt8) (i : Nat) : UInt32 :=
  (le16 buf i).toUInt32 ||| (le16 buf (i + 2)).toUInt32 <<< 16

/-- The guard of `probeResource` on the superblock at byte 1024. -/
def superblockOk (buf : List UInt8) : Bool :=
  le16 buf (1024 + 56) == 0xEF53 && le32 buf (1024 + 24) ≤ 6 && 0 < le32 buf (1024 + 0) &&
    0 < le32 buf (1024 + 4)

/-- The container ID that `probeResource` replies, or none; `old` is the fresh buffer. -/
def probeResource (b : ι) (old : List UInt8) (w : σ) : σ × Option (List UInt8) :=
  match (res b).read w 0 2048 with
  | (w, .error _) => (w, none)
  | (w, .ok bs) =>
    let buffer := filled old bs
    if superblockOk buffer then
      (w, some (uuidFromSuperblock ((List.range 16).map fun i => buffer.getD (104 + i) 0)))
    else (w, none)

/-- The volume ID that `loadResource` gives: a random one, here none, when the read fails. -/
def readVolumeID (b : ι) (old : List UInt8) (w : σ) : σ × Option (List UInt8) :=
  match (res b).read w 0 1024 with
  | (w, .error _) => (w, none)
  | (w, .ok bs) =>
    (w, some (uuidFromSuperblock ((List.range 16).map fun i => (filled old bs).getD (104 + i) 0)))

/-- One call of a callback. -/
inductive IoCall where
  | read (off len : UInt64)
  | write (off : UInt64) (data : List UInt8)
  | sync

def IoCall.run {τ : Type} (io : NfskBlockio τ) (s : τ) : IoCall → τ
  | .read off len => (io.callRead s off len).1
  | .write off data =>
    match io.write with
    | none => s
    | some f => (f s off (UInt64.ofNat data.length) data).1
  | .sync =>
    match io.sync with
    | none => s
    | some f => (f s).1

/-- A loaded volume: the resource it was loaded from, its callbacks and its ID. -/
structure EXTVolume (ι σ : Type) where
  origin : ι
  io : NfskBlockio (BlockIOHolder ι σ)
  volumeID : Option (List UInt8)

/-- `loadResource`. `calls` are the calls that `extfsk_open` makes through the callbacks, `opened` is
whether it succeeds. -/
def loadResource (forceReadOnly : Bool) (h : BlockIOHolder ι σ) (b : ι) (calls : List IoCall)
    (opened : Bool) (old : List UInt8) : BlockIOHolder ι σ × Option (EXTVolume ι σ) :=
  let writable := (res b).isWritable && !forceReadOnly
  let io := loaderIo res b writable
  let h := calls.foldl (IoCall.run io) (h.setup b)
  if opened then
    match readVolumeID res b old h.world with
    | (w, uid) => ({ h with world := w }, some ⟨b, io, uid⟩)
  else (h, none)

end Load

/-! ## What reaches a resource -/

inductive Touch where
  | transfer (off : Int64) (len : Nat)
  | flush (flushed : Bool)

/-- The resource `i` with a log of what reaches it. -/
def watch (d : FSBlockDevice σ) (i : ι) : FSBlockDevice (σ × List (ι × Touch)) where
  metadataRead := fun t off len =>
    match d.metadataRead t.1 off len with
    | (s, r) => ((s, t.2 ++ [(i, .transfer off len)]), r)
  delayedMetadataWrite := fun t off bytes =>
    match d.delayedMetadataWrite t.1 off bytes with
    | (s, r) => ((s, t.2 ++ [(i, .transfer off bytes.length)]), r)
  read := fun t off len =>
    match d.read t.1 off len with
    | (s, r) => ((s, t.2 ++ [(i, .transfer off len)]), r)
  write := fun t off bytes =>
    match d.write t.1 off bytes with
    | (s, r) => ((s, t.2 ++ [(i, .transfer off bytes.length)]), r)
  metadataFlush := some fun t =>
    match flushResource d.toBlockResource t.1 with
    | (s, r) => ((s, t.2 ++ [(i, .flush r.isOk)]), r)
  blockSize := d.blockSize
  blockCount := d.blockCount
  isWritable := d.isWritable

section Watch

variable (d : FSBlockDevice σ) (i : ι) (t : σ × List (ι × Touch))

@[simp] theorem watch_read (off : Int64) (len : Nat) : (watch d i).read t off len =
    (((d.read t.1 off len).1, t.2 ++ [(i, .transfer off len)]), (d.read t.1 off len).2) := rfl

@[simp] theorem watch_metadataRead (off : Int64) (len : Nat) : (watch d i).metadataRead t off len =
    (((d.metadataRead t.1 off len).1, t.2 ++ [(i, .transfer off len)]),
      (d.metadataRead t.1 off len).2) := rfl

@[simp] theorem watch_write (off : Int64) (bytes : List UInt8) : (watch d i).write t off bytes =
    (((d.write t.1 off bytes).1, t.2 ++ [(i, .transfer off bytes.length)]),
      (d.write t.1 off bytes).2) := rfl

/-- What a flush threw, if it threw anything, is in the log. -/
@[simp] theorem flushResource_watch : flushResource (watch d i).toBlockResource t =
    (((flushResource d.toBlockResource t.1).1,
      t.2 ++ [(i, .flush (flushResource d.toBlockResource t.1).2.isOk)]),
      (flushResource d.toBlockResource t.1).2) := rfl

end Watch

/-! A callback reaches the resource in the holder, once. -/

section Callbacks

variable (res : ι → FSBlockDevice σ) (b : ι) (w : σ × List (ι × Touch))

theorem BlockIOHolder.read_watch (off len : UInt64) :
    ∃ rc data, BlockIOHolder.read (fun i => watch (res i) i) ⟨some b, w⟩ off len =
      (⟨some b, ((res b).read w.1 off.toInt64 len.toNat).1,
        w.2 ++ [(b, .transfer off.toInt64 len.toNat)]⟩, rc, data) := by
  simp only [BlockIOHolder.read, watch_read]
  rcases (res b).read w.1 off.toInt64 len.toNat with ⟨s, e | bs⟩
  · exact ⟨_, _, rfl⟩
  · exact ⟨_, _, rfl⟩

theorem BlockIOHolder.write_watch (off len : UInt64) (buf : List UInt8) :
    ∃ rc, BlockIOHolder.write (fun i => watch (res i) i) ⟨some b, w⟩ off len buf =
      (⟨some b, ((res b).write w.1 off.toInt64 (buf.take len.toNat)).1,
        w.2 ++ [(b, .transfer off.toInt64 (buf.take len.toNat).length)]⟩, rc) := by
  simp only [BlockIOHolder.write, watch_write]
  rcases (res b).write w.1 off.toInt64 (buf.take len.toNat) with ⟨s, e | n⟩
  · exact ⟨_, rfl⟩
  · exact ⟨_, rfl⟩

theorem BlockIOHolder.sync_watch :
    BlockIOHolder.sync (fun i => watch (res i) i) ⟨some b, w⟩ =
      (⟨some b, (flushResource (res b).toBlockResource w.1).1,
        w.2 ++ [(b, .flush (flushResource (res b).toBlockResource w.1).2.isOk)]⟩, 0) := rfl

end Callbacks

end Ext
end Usbrw
