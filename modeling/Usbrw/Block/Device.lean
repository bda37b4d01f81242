import Usbrw.Block.Resource

/-!
# Block.Device

`NTFSBlockDevice`: the `pread`, `pwrite` and `sync` behind the `nfsk_blockio` callbacks. Transfers
shorter than `metadataCutover` try the resource's metadata calls first and fall back to the plain
ones; longer transfers are plain from the start.

Results are what the Swift functions return: 0, a negated `POSIXError` code, or a positive `errno`
for every other failure.
-/

namespace Usbrw
namespace Block

/-- The state of an `NTFSBlockDevice`: its resource's, and `cacheDirty`. -/
structure NTFSBlockDevice (σ : Type) where
  resource : σ
  cacheDirty : Bool

def metadataCutover : Nat := 64 * 1024

/-- The `Int32` a `catch` of `blockIO` returns. -/
def Thrown.rc : Thrown → Int
  | .posix code _ => -code
  | .other => EIO

theorem Thrown.rc_ne_zero (t : Thrown) : t.rc ≠ 0 := by
  cases t with
  | posix code pos => simp only [Thrown.rc]; omega
  | other => decide

variable {σ : Type}

/-- `USBRWFSKCompat.flushResource`: a resource without `metadataFlush` counts as flushed. -/
def flushResource (br : BlockResource σ) (s : σ) : σ × Except Thrown Unit :=
  match br.metadataFlush with
  | none => (s, .ok ())
  | some flush => flush s

section BlockIO

variable (br : BlockResource σ) (d : NTFSBlockDevice σ) (offset : Int64)

/-- The flush before a small read falls back; its own failure is dropped. -/
def flushIfDirty : NTFSBlockDevice σ :=
  if d.cacheDirty then ⟨(flushResource br d.resource).1, false⟩ else d

def plainRead (len : Nat) : NTFSBlockDevice σ × Int × List UInt8 :=
  match br.read d.resource offset len with
  | (s, .ok bs) => ({ d with resource := s }, if bs.length = len then 0 else EIO, bs)
  | (s, .error t) => ({ d with resource := s }, t.rc, [])

def plainWrite (bytes : List UInt8) : NTFSBlockDevice σ × Int :=
  match br.write d.resource offset bytes with
  | (s, .ok n) => ({ d with resource := s }, if n = bytes.length then 0 else EIO)
  | (s, .error t) => ({ d with resource := s }, t.rc)

/-- `blockIO` with direction 0. Returns the state, the result and the bytes stored in `buf`. -/
def blockIORead (len : Nat) : NTFSBlockDevice σ × Int × List UInt8 :=
  if len < metadataCutover then
    match br.metadataRead d.resource offset len with
    | (s, .ok bs) => ({ d with resource := s }, 0, bs)
    | (s, .error _) => plainRead br (flushIfDirty br { d with resource := s }) offset len
  else plainRead br d offset len

/-- `blockIO` with direction 1. -/
def blockIOWrite (bytes : List UInt8) : NTFSBlockDevice σ × Int :=
  if bytes.length < metadataCutover then
    match br.delayedMetadataWrite d.resource offset bytes with
    | (s, .ok ()) => (⟨s, true⟩, 0)
    | (s, .error _) => plainWrite br { d with resource := s } offset bytes
  else plainWrite br d offset bytes

end BlockIO

/-! ## The callbacks -/

section Callbacks

variable (blockResource : Option (BlockResource σ)) (d : NTFSBlockDevice σ)

def pread (offset : Int64) (len : Nat) : NTFSBlockDevice σ × Int × List UInt8 :=
  match blockResource with
  | none => (d, ENODEV, [])
  | some br => blockIORead br d offset len

def pwrite (offset : Int64) (bytes : List UInt8) : NTFSBlockDevice σ × Int :=
  match blockResource with
  | none => (d, ENODEV)
  | some br => blockIOWrite br d offset bytes

def sync : NTFSBlockDevice σ × Int :=
  match blockResource with
  | none => (d, ENODEV)
  | some br =>
    match flushResource br d.resource with
    | (s, .ok ()) => (⟨s, false⟩, 0)
    | (s, .error _) => ({ d with resource := s }, EIO)

end Callbacks

end Block
end Usbrw
