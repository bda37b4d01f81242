import Usbrw.Shim.Device

/-!
# Shim.Strict

The device under the shim: a block resource that refuses every request whose offset or length is
not a multiple of its block length or that leaves the device, and that may also fail at any call.
A failing call leaves the device as it was.

* `strictRead`, `strictWrite` — its callbacks; `strictIo` is the `nfsk_blockio` built from them.
* `served`                    — how much of a request lies on the device.
* `clampEnd_toNat`            — the shim cuts a request to exactly that.
-/

namespace Usbrw
namespace Shim

open Region Mask

/-- `calls` counts the requests so far; `failed` records that some request did not return 0. -/
structure Disk where
  bytes : Nat → UInt8
  calls : Nat
  failed : Bool

def Disk.fresh (bytes : Nat → UInt8) : Disk := ⟨bytes, 0, false⟩

def Disk.fault (d : Disk) : Disk := { d with calls := d.calls + 1, failed := true }

def Disk.done (d : Disk) : Disk := { d with calls := d.calls + 1 }

/-- A request the device accepts: whole blocks, and inside the device when it has an end. -/
def Accepts (al : Nat) (cap : Option Nat) (off len : Nat) : Prop :=
  off % al = 0 ∧ len % al = 0 ∧ ∀ c ∈ cap, off + len ≤ c

instance (al : Nat) (cap : Option Nat) (off len : Nat) : Decidable (Accepts al cap off len) := by
  unfold Accepts
  infer_instance

section Callbacks

variable (al : Nat) (cap : Option Nat) (faults : Nat → Int)

/-- `faults i` is the error code of the `i`-th request, 0 when it succeeds. -/
def strictRead (d : Disk) (off len : UInt64) : Disk × Int × List UInt8 :=
  if ¬ Accepts al cap off.toNat len.toNat then (d.fault, -EINVAL, [])
  else if faults d.calls ≠ 0 then (d.fault, faults d.calls, [])
  else (d.done, 0, slice d.bytes off.toNat len.toNat)

def strictWrite (d : Disk) (off len : UInt64) (buf : List UInt8) : Disk × Int :=
  if ¬ Accepts al cap off.toNat len.toNat then (d.fault, -EINVAL)
  else if faults d.calls ≠ 0 then (d.fault, faults d.calls)
  else ({ d.done with bytes := overwrite d.bytes off.toNat (buf.take len.toNat) }, 0)

end Callbacks

/-- The block length a `block_size` stands for. -/
def quantumOf (blockSize : UInt32) : Nat := if blockSize = 0 then 512 else blockSize.toNat

def capacity (blockSize : UInt32) (blockCount : UInt64) : Option Nat :=
  if blockCount = 0 then none else some (blockCount.toNat * quantumOf blockSize)

def strictIo (readonly : Bool) (blockSize : UInt32) (blockCount : UInt64) (faults : Nat → Int) :
    NfskBlockio Disk where
  read := some (strictRead (quantumOf blockSize) (capacity blockSize blockCount) faults)
  write := some (strictWrite (quantumOf blockSize) (capacity blockSize blockCount) faults)
  sync := none
  readonly := readonly
  blockSize := blockSize
  blockCount := blockCount

section Fields

variable (readonly : Bool) (b : UInt32) (n : UInt64) (faults : Nat → Int)

@[simp] theorem strictIo_read : (strictIo readonly b n faults).read =
    some (strictRead (quantumOf b) (capacity b n) faults) := rfl
@[simp] theorem strictIo_write : (strictIo readonly b n faults).write =
    some (strictWrite (quantumOf b) (capacity b n) faults) := rfl
@[simp] theorem strictIo_readonly : (strictIo readonly b n faults).readonly = readonly := rfl
@[simp] theorem strictIo_blockSize : (strictIo readonly b n faults).blockSize = b := rfl
@[simp] theorem strictIo_blockCount : (strictIo readonly b n faults).blockCount = n := rfl

end Fields

/-- A `block_size` of 0, or a power of two from 512 to 4096. -/
def LegalBlockSize (b : UInt32) : Prop := b = 0 ∨ IsPow2 b ∧ 512 ≤ b ∧ b ≤ 4096

/-- How many of `count` bytes from `off` on lie on the device. -/
def served (blockSize : UInt32) (blockCount : UInt64) (off count : Nat) : Nat :=
  if blockCount = 0 then count else min count (blockCount.toNat * quantumOf blockSize - off)

/-! ## The shim computes the device's own geometry -/

variable {σ : Type}

theorem and_pred_of_isPow2 {a : UInt32} (h : IsPow2 a) : a &&& (a - 1) = 0 := by
  have h1 : (1 : UInt32) ≤ a := by rw [UInt32.le_iff_toNat_le]; exact h.pos
  obtain ⟨k, hk⟩ := h
  apply UInt32.toNat_inj.mp
  rw [UInt32.toNat_and, UInt32.toNat_sub_of_le _ _ h1, hk]
  show 2 ^ k &&& (2 ^ k - 1) = 0
  rw [Nat.and_two_pow_sub_one_eq_mod, Nat.mod_self]

theorem alignQuantum_of_legal {io : NfskBlockio σ} (h : LegalBlockSize io.blockSize) :
    nfskAlignQuantum io = if io.blockSize = 0 then 512 else io.blockSize := by
  rcases h with h0 | ⟨hp, hlo, hhi⟩
  · simp only [nfskAlignQuantum, h0]; decide
  · have h0 : io.blockSize ≠ 0 := by
      intro e; rw [e] at hlo; exact absurd hlo (by decide)
    have hlo' : ¬ io.blockSize < 512 := UInt32.not_lt.mpr hlo
    have hhi' : ¬ nfskAlignMax < io.blockSize := UInt32.not_lt.mpr hhi
    simp [nfskAlignQuantum, h0, hlo', hhi', and_pred_of_isPow2 hp]

theorem alignQuantum_toNat {io : NfskBlockio σ} (h : LegalBlockSize io.blockSize) :
    (nfskAlignQuantum io).toNat = quantumOf io.blockSize := by
  rw [alignQuantum_of_legal h, quantumOf]
  by_cases h0 : io.blockSize = 0 <;> simp [h0]

theorem alignQuantum_isPow2 {io : NfskBlockio σ} (h : LegalBlockSize io.blockSize) :
    IsPow2 (nfskAlignQuantum io) := by
  rw [alignQuantum_of_legal h]
  rcases h with h0 | ⟨hp, hlo, _⟩
  · rw [if_pos h0]; exact ⟨9, rfl⟩
  · have h0 : io.blockSize ≠ 0 := by
      intro e; rw [e] at hlo; exact absurd hlo (by decide)
    rwa [if_neg h0]

theorem clampEnd_toNat {io : NfskBlockio σ} {off count : UInt64}
    (hb : LegalBlockSize io.blockSize)
    (hcap : io.blockCount.toNat * quantumOf io.blockSize < 2 ^ 64)
    (hsum : off.toNat + count.toNat < 2 ^ 64) :
    (nfskClampEnd io (nfskAlignQuantum io) off (off + count)).toNat =
      off.toNat + served io.blockSize io.blockCount off.toNat count.toNat := by
  have hadd : (off + count).toNat = off.toNat + count.toNat := by
    rw [UInt64.toNat_add, Nat.mod_eq_of_lt hsum]
  by_cases h0 : io.blockCount = 0
  · simp only [nfskClampEnd, served, h0, if_true, hadd]
  · have hlim : (io.blockCount * (nfskAlignQuantum io).toUInt64).toNat =
        io.blockCount.toNat * quantumOf io.blockSize := by
      rw [UInt64.toNat_mul, UInt32.toNat_toUInt64, alignQuantum_toNat hb, Nat.mod_eq_of_lt hcap]
    simp only [nfskClampEnd, served, h0, if_false, UInt64.le_iff_toNat_le, UInt64.lt_iff_toNat_lt,
      hlim, hadd]
    split
    · omega
    · split <;> simp only [hlim, hadd] <;> omega

/-- Where the shim ends the request that an `offset` and a `count` ask for. -/
theorem request_toNat (readonly : Bool) {b : UInt32} {n : UInt64} (hb : LegalBlockSize b)
    (hcap : n.toNat * quantumOf b < 2 ^ 64) (faults : Nat → Int) {offset count : Int64}
    (ho : 0 ≤ offset) (hc : 0 ≤ count) :
    (nfskClampEnd (strictIo readonly b n faults) (nfskAlignQuantum (strictIo readonly b n faults))
      offset.toUInt64 (offset.toUInt64 + count.toUInt64)).toNat =
      offset.toUInt64.toNat + served b n offset.toNatClampNeg count.toNatClampNeg := by
  have h1 := offset.toNatClampNeg_lt
  have h2 := count.toNatClampNeg_lt
  have ho' := Int64.toNat_toUInt64_of_le ho
  have hc' := Int64.toNat_toUInt64_of_le hc
  rw [clampEnd_toNat hb hcap (by omega), ho', hc']
  rfl

theorem served_le (b : UInt32) (n : UInt64) (off count : Nat) : served b n off count ≤ count := by
  unfold served
  split <;> omega

/-! ## Requests the device accepts -/

section Accepted

variable {al : Nat} {cap : Option Nat} {faults : Nat → Int} {d : Disk} {off len : UInt64}

/-- A failed request: nothing stored, and the schedule made it fail. -/
def Failed (faults : Nat → Int) (d d' : Disk) (rc : Int) : Prop :=
  rc ≠ 0 ∧ d'.bytes = d.bytes ∧ d'.failed = true ∧ ∃ i, faults i ≠ 0

theorem strictRead_accepted (h : Accepts al cap off.toNat len.toNat) :
    (∃ d', strictRead al cap faults d off len = (d', 0, slice d.bytes off.toNat len.toNat) ∧
      d'.bytes = d.bytes ∧ d'.failed = d.failed) ∨
    ∃ d' rc, strictRead al cap faults d off len = (d', rc, []) ∧ Failed faults d d' rc := by
  by_cases hf : faults d.calls = 0
  · left
    exact ⟨d.done, by simp [strictRead, h, hf], rfl, rfl⟩
  · right
    exact ⟨d.fault, faults d.calls, by simp [strictRead, h, hf], hf, rfl, rfl, _, hf⟩

theorem strictWrite_accepted (buf : List UInt8) (h : Accepts al cap off.toNat len.toNat) :
    (∃ d', strictWrite al cap faults d off len buf = (d', 0) ∧
      d'.bytes = overwrite d.bytes off.toNat (buf.take len.toNat) ∧ d'.failed = d.failed) ∨
    ∃ d' rc, strictWrite al cap faults d off len buf = (d', rc) ∧ Failed faults d d' rc := by
  by_cases hf : faults d.calls = 0
  · left
    let d' : Disk := { d.done with bytes := overwrite d.bytes off.toNat (buf.take len.toNat) }
    exact ⟨d', by simp [strictWrite, h, hf, d'], rfl, rfl⟩
  · right
    exact ⟨d.fault, faults d.calls, by simp [strictWrite, h, hf], hf, rfl, rfl, _, hf⟩

end Accepted

end Shim
end Usbrw
