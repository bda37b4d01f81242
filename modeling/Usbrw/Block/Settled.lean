import Usbrw.Block.ReadYourWrites

/-!
# Block.Settled

A resource that has nothing left to write: reading it and flushing it changes no byte of the device.
-/

namespace Usbrw
namespace Block

variable {σ : Type}

/-- The device holds the bytes `was`, and the cache has none for it that are different. -/
def Settled (v : View σ) (was : Int → UInt8) (s : σ) : Prop :=
  ∀ p, (v s p).device = was p ∧ ∀ c, (v s p).cached = some c → c.dirty = false

variable {br : BlockResource σ} {v : View σ} {was : Int → UInt8} {s s' : σ}
  {d : NTFSBlockDevice σ}

theorem Slot.Settle.clean {x y : Slot} (h : Slot.Settle x y)
    (hx : ∀ c, x.cached = some c → c.dirty = false) :
    y.device = x.device ∧ ∀ c, y.cached = some c → c.dirty = false := by
  cases h with
  | keep => exact ⟨rfl, hx⟩
  | fill d => exact ⟨rfl, fun c hc => by cases hc; rfl⟩
  | drop d b => exact ⟨rfl, nofun⟩
  | writeBack d b => cases hx _ rfl
  | evict d b => cases hx _ rfl

/-- What the device holds is what it held. -/
theorem Settled.self (h : Settled v was s) : Settled v (v.device s) s := fun p => ⟨rfl, (h p).2⟩

theorem Settled.device (h : Settled v was s) (p : Int) : v.device s p = was p := (h p).1

theorem Settled.settle (hs : ∀ p, (v s p).Settle (v s' p)) (h : Settled v was s) :
    Settled v was s' := by
  intro p
  obtain ⟨hdevice, hclean⟩ := (hs p).clean (h p).2
  exact ⟨hdevice.trans (h p).1, hclean⟩

theorem Settled.same (hs : ∀ p, v s' p = v s p) (h : Settled v was s) : Settled v was s' :=
  h.settle fun p => by rw [hs p]; exact .keep _

theorem Settled.read (hR : Lawful br v) (h : Settled v was s) (off : Int64) (len : Nat) :
    Settled v was (br.read s off len).1 := by
  cases hr : br.read s off len with
  | mk s' res =>
    cases res with
    | ok bs => exact h.same (hR.read_ok hr).2.2
    | error t => exact h.same (hR.read_throws hr)

/-- A plain write passes the cache by. -/
theorem Settled.write (hR : Lawful br v) (h : Settled v was s) (off : Int64) (bytes : List UInt8) :
    Settled v (v.device (br.write s off bytes).1) (br.write s off bytes).1 := by
  cases hw : br.write s off bytes with
  | mk s' res =>
    cases res with
    | error t => exact (h.same (hR.write_throws hw)).self
    | ok n =>
      refine fun p => ⟨rfl, fun c hc => (h p).2 c ?_⟩
      have hslot := (hR.write_ok hw).2 p
      rw [← hc, hslot]
      split <;> rfl

theorem Settled.flush (hR : Lawful br v) (h : Settled v was s) :
    Settled v was (flushResource br s).1 :=
  h.settle (flushResource_settle hR s)

theorem Settled.pread (hR : Lawful br v) (h : Settled v was d.resource) (off : Int64) (len : Nat) :
    Settled v was (pread (some br) d off len).1.resource :=
  blockIORead_keeps hR (fun _ _ e h => h.settle e) h

theorem Settled.sync (hR : Lawful br v) (h : Settled v was d.resource) :
    Settled v was (sync (some br) d).1.resource := by
  have hflush := h.flush hR
  simp only [Block.sync]
  cases hf : flushResource br d.resource with
  | mk s res =>
    rw [hf] at hflush
    cases res with
    | ok u => exact hflush
    | error t => exact hflush

end Block
end Usbrw
