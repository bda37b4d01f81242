import Usbrw.Errno
import Usbrw.Base.Region

/-!
# Block.Resource

The block resource under `NTFSBlockDevice`: the five calls the adapter makes to it, over a state
`σ` of its own.

* `BlockResource` — the calls. A call that throws gives an error, `metadataFlush` may be absent.
* `Slot`          — one byte address: the byte on the device, and the buffer cache's copy of it.
* `Slot.Settle`   — what the cache may do to a slot by itself: fill, drop, write back.
* `Lawful`        — the calls over the slots: the metadata calls go through the cache, the plain
  ones past it, and a call that throws changes no slot.
-/

namespace Usbrw
namespace Block

open Region

/-- What a call throws: a `POSIXError` with its code (0 is not one of them), or any other error. -/
inductive Thrown where
  | posix (code : Int) (pos : 0 < code)
  | other

/-- `FSBlockDeviceResource`. A read returns the bytes it transferred, a write how many. -/
structure BlockResource (σ : Type) where
  metadataRead : σ → Int64 → Nat → σ × Except Thrown (List UInt8)
  delayedMetadataWrite : σ → Int64 → List UInt8 → σ × Except Thrown Unit
  read : σ → Int64 → Nat → σ × Except Thrown (List UInt8)
  write : σ → Int64 → List UInt8 → σ × Except Thrown Nat
  metadataFlush : Option (σ → σ × Except Thrown Unit)

/-- A byte in the buffer cache; `dirty` until it is written to the device. -/
structure Cell where
  byte : UInt8
  dirty : Bool
  deriving DecidableEq

structure Slot where
  device : UInt8
  cached : Option Cell
  deriving DecidableEq

namespace Slot

/-- What a read through the cache delivers. -/
def seen (x : Slot) : UInt8 :=
  match x.cached with
  | none => x.device
  | some c => c.byte

/-- What the cache may do to a slot between two transfers. -/
inductive Settle : Slot → Slot → Prop where
  | keep (x : Slot) : Settle x x
  | fill (d : UInt8) : Settle ⟨d, none⟩ ⟨d, some ⟨d, false⟩⟩
  | drop (d b : UInt8) : Settle ⟨d, some ⟨b, false⟩⟩ ⟨d, none⟩
  | writeBack (d b : UInt8) : Settle ⟨d, some ⟨b, true⟩⟩ ⟨b, some ⟨b, false⟩⟩
  | evict (d b : UInt8) : Settle ⟨d, some ⟨b, true⟩⟩ ⟨b, none⟩

/-- The slot stands for `v`: the cached byte is `v`, and so is the device's unless it is dirty. -/
def Holds (x : Slot) (v : UInt8) : Prop :=
  match x.cached with
  | none => x.device = v
  | some c => c.byte = v ∧ (c.dirty = false → x.device = v)

theorem Holds.settle {x y : Slot} {v : UInt8} (h : x.Holds v) (hs : Settle x y) : y.Holds v := by
  cases hs with
  | keep => exact h
  | fill d => exact ⟨h, fun _ => h⟩
  | drop d b => exact h.2 rfl
  | writeBack d b => exact ⟨h.1, fun _ => h.1⟩
  | evict d b => exact h.1

theorem Holds.settle_device {x y : Slot} {v : UInt8} (h : x.Holds v) (hd : x.device = v)
    (hs : Settle x y) : y.device = v := by
  cases hs with
  | keep => exact hd
  | fill d => exact hd
  | drop d b => exact hd
  | writeBack d b => exact h.1
  | evict d b => exact h.1

theorem Holds.seen {x : Slot} {v : UInt8} (h : x.Holds v) : x.seen = v := by
  cases hc : x.cached with
  | none => simpa [Holds, Slot.seen, hc] using h
  | some c =>
    simp only [Holds, hc] at h
    simpa [Slot.seen, hc] using h.1

/-- Unless a cached byte differs from it, the device's byte is the slot's value. -/
theorem Holds.device_iff {x : Slot} {v : UInt8} (h : x.Holds v) :
    x.device = v ↔ ∀ c, x.cached = some c → c.byte = x.device := by
  cases hc : x.cached with
  | none => simpa [Holds, hc] using h
  | some c =>
    simp only [Holds, hc] at h
    simp only [Option.some.injEq, forall_eq']
    rw [h.1]
    exact eq_comm

/-- A slot with nothing dirty in the cache has its value on the device. -/
theorem Holds.device_of_clean {x : Slot} {v : UInt8} (h : x.Holds v)
    (hd : ∀ c, x.cached = some c → c.dirty = false) : x.device = v := by
  cases hc : x.cached with
  | none => simpa [Holds, hc] using h
  | some c =>
    simp only [Holds, hc] at h
    exact h.2 (hd c hc)

/-- A byte stored on the device is the slot's value when the cache has nothing else there. -/
theorem holds_overwritten {x : Slot} {b : UInt8} (h : ∀ c, x.cached = some c → c.byte = b) :
    ({ x with device := b } : Slot).Holds b := by
  cases hc : x.cached with
  | none => simp [Holds]
  | some c => simp [Holds, h c hc]

/-- Storing a byte the device has already, or under a dirty one, changes no slot's value. -/
theorem Holds.overwrite_same {x : Slot} {v b : UInt8} (h : x.Holds v)
    (hd : (∀ c, x.cached = some c → c.dirty = false) → x.device = b) :
    ({ x with device := b } : Slot).Holds v := by
  cases hc : x.cached with
  | none =>
    have hv : x.device = v := h.device_of_clean (by simp [hc])
    have hb : x.device = b := hd (by simp [hc])
    simp [Holds, ← hv, ← hb]
  | some c =>
    have hbyte : c.byte = v := by simpa [Slot.seen, hc] using h.seen
    simp only [Holds]
    refine ⟨hbyte, ?_⟩
    intro hclean
    have hall : ∀ c', x.cached = some c' → c'.dirty = false := by
      intro c' hc'
      rw [hc] at hc'
      cases hc'
      exact hclean
    rw [← hd hall, h.device_of_clean hall]

end Slot

variable {σ : Type}

/-- The bytes of the device, and those of the buffer cache, in a state of the resource. -/
def View (σ : Type) : Type := σ → Int → Slot

def View.device (v : View σ) (s : σ) (p : Int) : UInt8 := (v s p).device

def View.seen (v : View σ) (s : σ) (p : Int) : UInt8 := (v s p).seen

structure Lawful (br : BlockResource σ) (v : View σ) : Prop where
  metadataRead_ok : ∀ {s s' off len bs}, br.metadataRead s off len = (s', .ok bs) →
    bs.length = len ∧ Carries (v.seen s) off.toInt bs ∧ ∀ p, (v s p).Settle (v s' p)
  metadataRead_throws : ∀ {s s' off len t}, br.metadataRead s off len = (s', .error t) →
    ∀ p, v s' p = v s p
  delayedMetadataWrite_ok : ∀ {s s' off bs}, br.delayedMetadataWrite s off bs = (s', .ok ()) →
    ∀ p, match cellAt bs off.toInt p with
      | some b => v s' p = ⟨(v s p).device, some ⟨b, true⟩⟩
      | none => (v s p).Settle (v s' p)
  delayedMetadataWrite_throws : ∀ {s s' off bs t},
    br.delayedMetadataWrite s off bs = (s', .error t) → ∀ p, v s' p = v s p
  read_ok : ∀ {s s' off len bs}, br.read s off len = (s', .ok bs) →
    bs.length ≤ len ∧ Carries (v.device s) off.toInt bs ∧ ∀ p, v s' p = v s p
  read_throws : ∀ {s s' off len t}, br.read s off len = (s', .error t) → ∀ p, v s' p = v s p
  write_ok : ∀ {s s' off bs n}, br.write s off bs = (s', .ok n) →
    n ≤ bs.length ∧ ∀ p, v s' p = match cellAt (bs.take n) off.toInt p with
      | some b => { v s p with device := b }
      | none => v s p
  write_throws : ∀ {s s' off bs t}, br.write s off bs = (s', .error t) → ∀ p, v s' p = v s p
  metadataFlush_ok : ∀ {flush s s'}, br.metadataFlush = some flush → flush s = (s', .ok ()) →
    ∀ p, (v s p).Settle (v s' p) ∧ ∀ c, (v s' p).cached = some c → c.dirty = false
  metadataFlush_throws : ∀ {flush s s' t}, br.metadataFlush = some flush →
    flush s = (s', .error t) → ∀ p, v s' p = v s p

end Block
end Usbrw
