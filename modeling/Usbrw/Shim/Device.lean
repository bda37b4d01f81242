import Usbrw.Errno
import Usbrw.Base.Region
import Usbrw.Base.Mask

/-!
# Shim.Device

The alignment shim of `ntfs_device_fskit.c`: libntfs asks for arbitrary byte ranges, the block
resource only serves whole blocks.

* `NfskBlockio`   — the callbacks and the geometry Swift hands over (`struct nfsk_blockio`).
* `fskitPread`    — direct read of an aligned request, else head, middle and tail.
* `fskitPwrite`   — the same split, where head and tail are read-modify-write.

The callbacks act on a state `σ` (what they reach through `ctx`) and return 0 or an error code.
-/

namespace Usbrw
namespace Shim

open Region

/-- `struct nfsk_blockio`. A write callback is passed a length and the buffer from its current
position on, as in C; a read callback returns what it stored in the buffer. -/
structure NfskBlockio (σ : Type) where
  read : Option (σ → UInt64 → UInt64 → σ × Int × List UInt8)
  write : Option (σ → UInt64 → UInt64 → List UInt8 → σ × Int)
  sync : Option (σ → σ × Int)
  readonly : Bool
  blockSize : UInt32
  blockCount : UInt64

/-- What a device operation returns, and what it stored in `errno` if it did. -/
structure Ret where
  ret : Int64
  errno : Option Int
  deriving DecidableEq

def Ret.done (n : UInt64) : Ret := ⟨n.toInt64, none⟩

def Ret.fail (e : Int) : Ret := ⟨-1, some e⟩

def nfskAlignMax : UInt32 := 4096

variable {σ : Type}

def nfskAlignQuantum (io : NfskBlockio σ) : UInt32 :=
  let a := if io.blockSize = 0 then 512 else io.blockSize
  if a < 512 ∨ nfskAlignMax < a ∨ a &&& (a - 1) ≠ 0 then 512 else a

/-- Cut `end` at the last block; an `off` past it gives an empty range. -/
def nfskClampEnd (io : NfskBlockio σ) (al : UInt32) (off stop : UInt64) : UInt64 :=
  if io.blockCount = 0 then stop
  else
    let limit := io.blockCount * al.toUInt64
    if limit ≤ off then off else if limit < stop then limit else stop

/-- Call `io->read`. A NULL callback is never called: `nfsk_open_ex` refuses it. -/
def NfskBlockio.callRead (io : NfskBlockio σ) (s : σ) (off len : UInt64) : σ × Int × List UInt8 :=
  match io.read with
  | none => (s, -EFAULT, [])
  | some read => read s off len

/-- Continue with `f` unless a callback failed. -/
def andThen {α β : Type} (r : σ × Except Int α) (f : σ → α → σ × Except Int β) :
    σ × Except Int β :=
  match r with
  | (s, .error rc) => (s, .error rc)
  | (s, .ok c) => f s c

/-- How many bytes of the request the head block holds: the rest of the block from `cur` on, or
what is left of the request when that is less. -/
def headLen (al : UInt32) (stop cur : UInt64) : UInt64 :=
  let n := al.toUInt64 - (cur - (cur &&& ~~~(al - 1).toUInt64))
  if stop - cur < n then stop - cur else n

/-! ## `fskit_pread` -/

/-- The loop variables of `fskit_pread`: the position, and the bytes stored in `buf` so far. -/
structure ReadPos where
  cur : UInt64
  out : List UInt8

section Pread

variable (io : NfskBlockio σ) (al : UInt32) (stop : UInt64)

/-- Head: bounce the block that holds `cur` when `cur` is inside it. -/
def preadHead (s : σ) (c : ReadPos) : σ × Except Int ReadPos :=
  if c.cur &&& (al - 1).toUInt64 ≠ 0 then
    let base := c.cur &&& ~~~(al - 1).toUInt64
    let skip := c.cur - base
    match io.callRead s base al.toUInt64 with
    | (s, rc, tmp) =>
      if rc ≠ 0 then (s, .error rc)
      else
        let n := headLen al stop c.cur
        (s, .ok ⟨c.cur + n, c.out ++ (tmp.drop skip.toNat).take n.toNat⟩)
  else (s, .ok c)

/-- Middle: whole blocks straight into the caller's buffer. -/
def preadMid (s : σ) (c : ReadPos) : σ × Except Int ReadPos :=
  let mid := (stop - c.cur) &&& ~~~(al - 1).toUInt64
  if mid ≠ 0 then
    match io.callRead s c.cur mid with
    | (s, rc, bs) =>
      if rc ≠ 0 then (s, .error rc) else (s, .ok ⟨c.cur + mid, c.out ++ bs⟩)
  else (s, .ok c)

/-- Tail: bounce the last block when the request ends inside it. -/
def preadTail (s : σ) (c : ReadPos) : σ × Except Int ReadPos :=
  if c.cur < stop then
    match io.callRead s c.cur al.toUInt64 with
    | (s, rc, tmp) =>
      if rc ≠ 0 then (s, .error rc)
      else (s, .ok ⟨stop, c.out ++ tmp.take (stop - c.cur).toNat⟩)
  else (s, .ok c)

end Pread

/-- The transfer of `fskit_pread` once the request is known to be non-empty. -/
def preadBody (io : NfskBlockio σ) (al : UInt32) (off stop : UInt64) (s : σ) :
    σ × Except Int ReadPos :=
  if off &&& (al - 1).toUInt64 = 0 ∧ stop &&& (al - 1).toUInt64 = 0 then
    match io.callRead s off (stop - off) with
    | (s, rc, bs) => if rc ≠ 0 then (s, .error rc) else (s, .ok ⟨stop, bs⟩)
  else
    andThen (andThen (preadHead io al stop s ⟨off, []⟩) (preadMid io al stop)) (preadTail io al stop)

/-- Returns the state, the result and the bytes stored in `buf`. -/
def fskitPread (io : NfskBlockio σ) (s : σ) (count offset : Int64) : σ × Ret × List UInt8 :=
  if io.read.isNone then (s, .fail EINVAL, [])
  else if count < 0 ∨ offset < 0 then (s, .fail EINVAL, [])
  else if count = 0 then (s, .done 0, [])
  else
    let al := nfskAlignQuantum io
    let off := offset.toUInt64
    let stop := nfskClampEnd io al off (off + count.toUInt64)
    if stop ≤ off then (s, .done 0, [])
    else
      match preadBody io al off stop s with
      | (s, .error rc) => (s, .fail (-rc), [])
      | (s, .ok c) => (s, .done (stop - off), c.out)

/-! ## `fskit_pwrite` -/

/-- The loop variables of `fskit_pwrite`: the position, and the source buffer from there on. -/
structure WritePos where
  cur : UInt64
  src : List UInt8

section Pwrite

variable (io : NfskBlockio σ) (write : σ → UInt64 → UInt64 → List UInt8 → σ × Int) (al : UInt32)
  (stop : UInt64)

/-- Read the block at `base`, copy `n` source bytes in at `skip` and write the block back. -/
def rmwBlock (s : σ) (base skip n : UInt64) (src : List UInt8) : σ × Int :=
  match io.callRead s base al.toUInt64 with
  | (s, rc, tmp) =>
    if rc ≠ 0 then (s, rc)
    else write s base al.toUInt64 (patch tmp skip.toNat (src.take n.toNat))

def pwriteHead (s : σ) (c : WritePos) : σ × Except Int WritePos :=
  if c.cur &&& (al - 1).toUInt64 ≠ 0 then
    let base := c.cur &&& ~~~(al - 1).toUInt64
    let skip := c.cur - base
    let n := headLen al stop c.cur
    match rmwBlock io write al s base skip n c.src with
    | (s, rc) => if rc ≠ 0 then (s, .error rc) else (s, .ok ⟨c.cur + n, c.src.drop n.toNat⟩)
  else (s, .ok c)

def pwriteMid (s : σ) (c : WritePos) : σ × Except Int WritePos :=
  let mid := (stop - c.cur) &&& ~~~(al - 1).toUInt64
  if mid ≠ 0 then
    match write s c.cur mid c.src with
    | (s, rc) =>
      if rc ≠ 0 then (s, .error rc) else (s, .ok ⟨c.cur + mid, c.src.drop mid.toNat⟩)
  else (s, .ok c)

def pwriteTail (s : σ) (c : WritePos) : σ × Except Int WritePos :=
  if c.cur < stop then
    let n := stop - c.cur
    match rmwBlock io write al s c.cur 0 n c.src with
    | (s, rc) => if rc ≠ 0 then (s, .error rc) else (s, .ok ⟨stop, c.src.drop n.toNat⟩)
  else (s, .ok c)

/-- The transfer of `fskit_pwrite` once the request is known to be non-empty. -/
def pwriteBody (off : UInt64) (src : List UInt8) (s : σ) : σ × Except Int WritePos :=
  if off &&& (al - 1).toUInt64 = 0 ∧ stop &&& (al - 1).toUInt64 = 0 then
    match write s off (stop - off) src with
    | (s, rc) =>
      if rc ≠ 0 then (s, .error rc) else (s, .ok ⟨stop, src.drop (stop - off).toNat⟩)
  else
    andThen (andThen (pwriteHead io write al stop s ⟨off, src⟩) (pwriteMid write al stop))
      (pwriteTail io write al stop)

end Pwrite

def fskitPwrite (io : NfskBlockio σ) (s : σ) (src : List UInt8) (count offset : Int64) : σ × Ret :=
  match io.write with
  | none => (s, .fail EINVAL)
  | some write =>
    if count < 0 ∨ offset < 0 then (s, .fail EINVAL)
    else if count = 0 then (s, .done 0)
    else if io.readonly then (s, .fail EROFS)
    else
      let al := nfskAlignQuantum io
      let off := offset.toUInt64
      let stop := nfskClampEnd io al off (off + count.toUInt64)
      if stop ≤ off then (s, .done 0)
      else
        match pwriteBody io write al stop off src s with
        | (s, .error rc) => (s, .fail (-rc))
        | (s, .ok _) => (s, .done (stop - off))

/-! ## `fskit_sync` -/

def fskitSync (io : NfskBlockio σ) (s : σ) : σ × Int :=
  match io.sync with
  | none => (s, 0)
  | some sync => sync s

end Shim
end Usbrw
