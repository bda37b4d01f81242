import Usbrw.Block.Resource

/-!
# Block.Reference

A block resource that obeys the laws: a disk under a buffer cache that keeps what small reads and
delayed writes bring in until it is told to flush. No call throws.
-/

namespace Usbrw
namespace Block

open Region

def Slot.fetch (x : Slot) : Slot :=
  match x.cached with
  | none => { x with cached := some ⟨x.device, false⟩ }
  | some _ => x

def Slot.flush (x : Slot) : Slot :=
  match x.cached with
  | some ⟨b, true⟩ => ⟨b, some ⟨b, false⟩⟩
  | _ => x

theorem Slot.settle_fetch (x : Slot) : x.Settle x.fetch := by
  obtain ⟨d, c⟩ := x
  cases c with
  | none => exact .fill d
  | some c => exact .keep _

theorem Slot.settle_flush (x : Slot) : x.Settle x.flush := by
  obtain ⟨d, c⟩ := x
  cases c with
  | none => exact .keep _
  | some c =>
    obtain ⟨b, dirty⟩ := c
    cases dirty with
    | true => exact .writeBack d b
    | false => exact .keep _

theorem Slot.clean_flush {x : Slot} {c : Cell} (h : x.flush.cached = some c) : c.dirty = false := by
  obtain ⟨d, c'⟩ := x
  cases c' with
  | none => cases h
  | some c' =>
    obtain ⟨b, dirty⟩ := c'
    cases dirty with
    | true => cases h; rfl
    | false => cases h; rfl

/-- The state of the buffered disk is its own view. -/
def slots : View (Int → Slot) := fun s => s

def bufferedDisk : BlockResource (Int → Slot) where
  metadataRead s off len :=
    (fun p => if off.toInt ≤ p ∧ p < off.toInt + len then (s p).fetch else s p,
      .ok (load (slots.seen s) off.toInt len))
  delayedMetadataWrite s off bs :=
    (fun p => match cellAt bs off.toInt p with
      | some b => ⟨(s p).device, some ⟨b, true⟩⟩
      | none => s p, .ok ())
  read s off len := (s, .ok (load (slots.device s) off.toInt len))
  write s off bs :=
    (fun p => match cellAt bs off.toInt p with
      | some b => { s p with device := b }
      | none => s p, .ok bs.length)
  metadataFlush := some fun s => (fun p => (s p).flush, .ok ())

theorem bufferedDisk_lawful : Lawful bufferedDisk slots where
  metadataRead_ok := by
    intro s s' off len bs h
    cases h
    refine ⟨length_load _ _ _, carries_load _ _ _, ?_⟩
    intro p
    simp only [slots]
    split
    · exact (s p).settle_fetch
    · exact .keep _
  metadataRead_throws := by intro s s' off len t h; cases h
  delayedMetadataWrite_ok := by
    intro s s' off bs h p
    cases h
    cases hc : cellAt bs off.toInt p with
    | none => simp only [slots, hc]; exact .keep _
    | some b => simp only [slots, hc]
  delayedMetadataWrite_throws := by intro s s' off bs t h; cases h
  read_ok := by
    intro s s' off len bs h
    cases h
    exact ⟨Nat.le_of_eq (length_load _ _ _), carries_load _ _ _, fun _ => rfl⟩
  read_throws := by intro s s' off len t h; cases h
  write_ok := by
    intro s s' off bs n h
    cases h
    refine ⟨Nat.le_refl _, ?_⟩
    intro p
    cases hc : cellAt bs off.toInt p with
    | none => simp [slots, hc]
    | some b => simp [slots, hc]
  write_throws := by intro s s' off bs t h; cases h
  metadataFlush_ok := by
    intro flush s s' hf h p
    cases hf
    cases h
    exact ⟨(s p).settle_flush, fun c hc => Slot.clean_flush hc⟩
  metadataFlush_throws := by
    intro flush s s' t hf h
    cases hf
    cases h

/-- A disk of zeros with nothing in the cache. -/
def zeros : Int → Slot := fun _ => ⟨0, none⟩

end Block
end Usbrw
