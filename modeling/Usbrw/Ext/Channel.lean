import Usbrw.Shim.Device

/-!
# Ext.Channel

The `io_manager` of `ext_fskit.c`: libext2fs reads and writes whole blocks of the channel, and byte
ranges through a bounce buffer of one block.

* `IoChannel`   — the callbacks of the volume and the block size of the channel.
* `ByteBuf`     — the bounce buffer `g_byte_buf`, which all channels share.
* `extIoReadBlk64`, `extIoWriteBlk64` — blocks, or `-count` bytes when `count` is negative.
* `extIoReadByte`, `extIoWriteByte`   — byte ranges, a block at a time.
-/

namespace Usbrw
namespace Ext

open Shim Region

/-- `struct struct_io_channel`. The block size is an `int` that libext2fs keeps positive. -/
structure IoChannel (τ : Type) where
  privateData : NfskBlockio τ
  blockSize : UInt32

/-- The `errcode_t` of a failing channel call. -/
inductive IoErrcode where
  | badDeviceName
  | eio
  | erofs
  deriving DecidableEq

/-- `g_byte_buf`, as large as the largest block. -/
structure ByteBuf where
  bytes : List UInt8
  size : bytes.length = 65536

namespace ByteBuf

/-- After a read stored `data` at the start of it. -/
def fill (g : ByteBuf) (data : List UInt8) : ByteBuf where
  bytes := (data ++ g.bytes.drop data.length).take 65536
  size := by
    have := g.size
    simp only [List.length_take, List.length_append, List.length_drop]
    omega

theorem size_copyIn (g : ByteBuf) (skip : Nat) (w : List UInt8) :
    ((patch g.bytes skip w).take 65536).length = 65536 := by
  have := g.size
  simp only [patch, List.length_take, List.length_append, List.length_drop]
  omega

/-- After a `memcpy` of `w` to the index `skip`. -/
def copyIn (g : ByteBuf) (skip : Nat) (w : List UInt8) : ByteBuf where
  bytes := (patch g.bytes skip w).take 65536
  size := size_copyIn g skip w

end ByteBuf

def zeroBuf : ByteBuf := ⟨List.replicate 65536 0, List.length_replicate ..⟩

variable {τ : Type}

/-- A channel starts with blocks of 1024 bytes. -/
def extIoOpen (io : NfskBlockio τ) : IoChannel τ := ⟨io, 1024⟩

def extIoSetBlocksize (ch : IoChannel τ) (blocksize : UInt32) : IoChannel τ :=
  { ch with blockSize := blocksize }

section Calls

variable (ch : IoChannel τ)

/-- `ext_io_read_blk64` with a `count` that is not negative. -/
def readBlocks (s : τ) (block : UInt64) (count : Nat) : τ × Except IoErrcode (List UInt8) :=
  match ch.privateData.read with
  | none => (s, .error .badDeviceName)
  | some read =>
    let bs := ch.blockSize.toUInt64
    match read s (block * bs) (UInt64.ofNat count * bs) with
    | (s, rc, data) => if rc ≠ 0 then (s, .error .eio) else (s, .ok data)

/-- `ext_io_write_blk64` with a `count` that is not negative. -/
def writeBlocks (s : τ) (block : UInt64) (count : Nat) (data : List UInt8) :
    τ × Except IoErrcode Unit :=
  match ch.privateData.write with
  | none => (s, .error .badDeviceName)
  | some write =>
    if ch.privateData.readonly then (s, .error .erofs)
    else
      let bs := ch.blockSize.toUInt64
      match write s (block * bs) (UInt64.ofNat count * bs) data with
      | (s, rc) => if rc ≠ 0 then (s, .error .eio) else (s, .ok ())

/-- How many of the `left` bytes from `offset` on are in the block of `offset`. -/
def inBlock (offset : UInt64) (left : Nat) : Nat :=
  min (ch.blockSize.toNat - (offset % ch.blockSize.toUInt64).toNat) left

/-- The loop of `ext_io_read_byte`; each pass takes a byte at least, so `left` passes are enough. -/
def readByteLoop : Nat → τ → ByteBuf → UInt64 → Nat → List UInt8 →
    τ × ByteBuf × Except IoErrcode (List UInt8)
  | 0, s, g, _, _, out => (s, g, .ok out)
  | passes + 1, s, g, offset, left, out =>
    if left = 0 then (s, g, .ok out)
    else
      let bs := ch.blockSize.toUInt64
      let n := inBlock ch offset left
      match readBlocks ch s (offset / bs) 1 with
      | (s, .error e) => (s, g, .error e)
      | (s, .ok data) =>
        let g := g.fill data
        readByteLoop passes s g (offset + UInt64.ofNat n) (left - n)
          (out ++ (g.bytes.drop (offset % bs).toNat).take n)

def extIoReadByte (s : τ) (g : ByteBuf) (offset : UInt64) (count : Int) :
    τ × ByteBuf × Except IoErrcode (List UInt8) :=
  readByteLoop ch count.toNat s g offset count.toNat []

/-- The loop of `ext_io_write_byte`: each block is read, changed and written back. -/
def writeByteLoop : Nat → τ → ByteBuf → UInt64 → List UInt8 → τ × ByteBuf × Except IoErrcode Unit
  | 0, s, g, _, _ => (s, g, .ok ())
  | passes + 1, s, g, offset, data =>
    if data.length = 0 then (s, g, .ok ())
    else
      let bs := ch.blockSize.toUInt64
      let n := inBlock ch offset data.length
      match readBlocks ch s (offset / bs) 1 with
      | (s, .error e) => (s, g, .error e)
      | (s, .ok old) =>
        let g := (g.fill old).copyIn (offset % bs).toNat (data.take n)
        match writeBlocks ch s (offset / bs) 1 g.bytes with
        | (s, .error e) => (s, g, .error e)
        | (s, .ok ()) => writeByteLoop passes s g (offset + UInt64.ofNat n) (data.drop n)

/-- `data` is the caller's buffer, of which `count` bytes are written. -/
def extIoWriteByte (s : τ) (g : ByteBuf) (offset : UInt64) (count : Int) (data : List UInt8) :
    τ × ByteBuf × Except IoErrcode Unit :=
  writeByteLoop ch count.toNat s g offset (data.take count.toNat)

def extIoReadBlk64 (s : τ) (g : ByteBuf) (block : UInt64) (count : Int) :
    τ × ByteBuf × Except IoErrcode (List UInt8) :=
  if ch.privateData.read.isNone then (s, g, .error .badDeviceName)
  else if count < 0 then extIoReadByte ch s g (block * ch.blockSize.toUInt64) (-count)
  else
    match readBlocks ch s block count.toNat with
    | (s, r) => (s, g, r)

def extIoWriteBlk64 (s : τ) (g : ByteBuf) (block : UInt64) (count : Int) (data : List UInt8) :
    τ × ByteBuf × Except IoErrcode Unit :=
  if ch.privateData.write.isNone then (s, g, .error .badDeviceName)
  else if ch.privateData.readonly then (s, g, .error .erofs)
  else if count < 0 then extIoWriteByte ch s g (block * ch.blockSize.toUInt64) (-count) data
  else
    match writeBlocks ch s block count.toNat data with
    | (s, r) => (s, g, r)

/-- What `io->sync` returns is dropped. -/
def extIoFlush (s : τ) : τ × Except IoErrcode Unit :=
  match ch.privateData.sync with
  | none => (s, .ok ())
  | some sync => ((sync s).1, .ok ())

end Calls

end Ext
end Usbrw
