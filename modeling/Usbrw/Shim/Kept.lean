import Usbrw.Shim.Device

/-!
# Shim.Kept

What the callbacks keep, the shim keeps.

* `ReadsKeep`, `WritesKeep` — the calls of a callback keep a property of the state.
* `ReadsKeep.fskitPread`    — then so does `fskit_pread`.
* `fskitPwrite_readonly`    — on a read-only device `fskit_pwrite` makes no call.
-/

namespace Usbrw
namespace Shim

variable {σ α β : Type}

def ReadsKeep (io : NfskBlockio σ) (I : σ → Prop) : Prop :=
  ∀ read, io.read = some read → ∀ s off len, I s → I (read s off len).1

def WritesKeep (io : NfskBlockio σ) (I : σ → Prop) : Prop :=
  ∀ write, io.write = some write → ∀ s off len src, I s → I (write s off len src).1

section Keeps

variable {io : NfskBlockio σ} {I : σ → Prop}

theorem andThen_keeps {r : σ × Except Int α} {f : σ → α → σ × Except Int β} (h : I r.1)
    (hf : ∀ s a, I s → I (f s a).1) : I (andThen r f).1 := by
  obtain ⟨s, res⟩ := r
  cases res with
  | error rc => exact h
  | ok a => exact hf s a h

theorem ReadsKeep.callRead (hI : ReadsKeep io I) {s : σ} (off len : UInt64) (h : I s) :
    I (io.callRead s off len).1 := by
  unfold NfskBlockio.callRead
  split
  · exact h
  · exact hI _ (by assumption) s off len h

theorem ReadsKeep.preadHead (hI : ReadsKeep io I) (al : UInt32) (stop : UInt64) {s : σ}
    (c : ReadPos) (h : I s) : I (preadHead io al stop s c).1 := by
  have hcall := hI.callRead (c.cur &&& ~~~(al - 1).toUInt64) al.toUInt64 h
  simp only [Shim.preadHead]
  split
  · split <;> exact hcall
  · exact h

theorem ReadsKeep.preadMid (hI : ReadsKeep io I) (al : UInt32) (stop : UInt64) {s : σ}
    (c : ReadPos) (h : I s) : I (preadMid io al stop s c).1 := by
  have hcall := hI.callRead c.cur ((stop - c.cur) &&& ~~~(al - 1).toUInt64) h
  simp only [Shim.preadMid]
  split
  · split <;> exact hcall
  · exact h

theorem ReadsKeep.preadTail (hI : ReadsKeep io I) (al : UInt32) (stop : UInt64) {s : σ}
    (c : ReadPos) (h : I s) : I (preadTail io al stop s c).1 := by
  have hcall := hI.callRead c.cur al.toUInt64 h
  simp only [Shim.preadTail]
  split
  · split <;> exact hcall
  · exact h

theorem ReadsKeep.preadBody (hI : ReadsKeep io I) (al : UInt32) (off stop : UInt64) {s : σ}
    (h : I s) : I (preadBody io al off stop s).1 := by
  have hcall := hI.callRead off (stop - off) h
  simp only [Shim.preadBody]
  split
  · split <;> exact hcall
  · refine andThen_keeps (andThen_keeps ?_ fun s c => ?_) fun s c => ?_
    · exact hI.preadHead al stop _ h
    · exact hI.preadMid al stop c
    · exact hI.preadTail al stop c

theorem ReadsKeep.fskitPread (hI : ReadsKeep io I) {s : σ} (count offset : Int64) (h : I s) :
    I (fskitPread io s count offset).1 := by
  have hbody := hI.preadBody (nfskAlignQuantum io) offset.toUInt64
    (nfskClampEnd io (nfskAlignQuantum io) offset.toUInt64 (offset.toUInt64 + count.toUInt64)) h
  unfold Shim.fskitPread
  split
  · exact h
  split
  · exact h
  split
  · exact h
  simp only
  split
  · exact h
  · split <;> rename_i hrun <;> rw [hrun] at hbody <;> exact hbody

end Keeps

theorem fskitPwrite_readonly {io : NfskBlockio σ} (h : io.readonly = true) (s : σ)
    (src : List UInt8) (count offset : Int64) : (fskitPwrite io s src count offset).1 = s := by
  unfold fskitPwrite
  split
  · rfl
  · split
    · rfl
    · split <;> rfl

end Shim
end Usbrw
