import Mathlib.Logic.Relation
import Usbrw.Block.Reports
import Usbrw.Shim.Device

/-!
# Shim.Failure

What a failed device operation says about the callback that failed.

* `blockio`  — the callbacks of an `NTFSBlockDevice`.
* `Call`     — one call of a callback.
* `Ends`     — calls that return 0, and then one that does not.
* `fskitPread_fails`, `fskitPwrite_fails` — an operation that fails stored the negated return code of
  such a call in `errno`.
-/

namespace Usbrw
namespace Shim

open Block Region Relation

variable {σ α β : Type}

/-- The `nfsk_blockio` that `NTFSBlockDevice` hands over. -/
def blockio (blockResource : Option (BlockResource σ)) (readonly : Bool) (blockSize : UInt32)
    (blockCount : UInt64) : NfskBlockio (NTFSBlockDevice σ) where
  read := some fun d off len => pread blockResource d off.toInt64 len.toNat
  write := some fun d off len src => pwrite blockResource d off.toInt64 (src.take len.toNat)
  sync := some (sync blockResource)
  readonly := readonly
  blockSize := blockSize
  blockCount := blockCount

inductive Call where
  | read (off len : UInt64)
  | write (off len : UInt64) (src : List UInt8)

namespace Call

def run (io : NfskBlockio σ) (s : σ) : Call → σ × Int
  | .read off len => ((io.callRead s off len).1, (io.callRead s off len).2.1)
  | .write off len src =>
    match io.write with
    | none => (s, -EFAULT)
    | some f => f s off len src

/-- The callback returns 0 or a negated code. -/
def Reports (blockResource : Option (BlockResource σ)) (d : NTFSBlockDevice σ) : Call → Prop
  | .read off len => ReadReports blockResource d off.toInt64 len.toNat
  | .write off len src => WriteReports blockResource d off.toInt64 (src.take len.toNat)

theorem run_nonpos_iff (blockResource : Option (BlockResource σ)) (readonly : Bool)
    (blockSize : UInt32) (blockCount : UInt64) (d : NTFSBlockDevice σ) (c : Call) :
    (c.run (blockio blockResource readonly blockSize blockCount) d).2 ≤ 0 ↔
      c.Reports blockResource d := by
  cases c with
  | read off len => exact pread_nonpos_iff blockResource d off.toInt64 len.toNat
  | write off len src => exact pwrite_nonpos_iff blockResource d off.toInt64 (src.take len.toNat)

end Call

section Stages

variable (io : NfskBlockio σ)

/-- Calls that return 0 lead from one state to the other. -/
def Leads : σ → σ → Prop := ReflTransGen fun s s' => ∃ c : Call, c.run io s = (s', 0)

/-- The call `c` returned `rc`, after calls that returned 0. -/
structure Ends (s s' : σ) (s₁ : σ) (c : Call) (rc : Int) : Prop where
  leads : Leads io s s₁
  run : c.run io s₁ = (s', rc)
  failed : rc ≠ 0

/-- A stage that starts in `s` goes on after calls that returned 0, or fails with the last one. -/
def Stage (s : σ) : σ × Except Int α → Prop
  | (s', .ok _) => Leads io s s'
  | (s', .error rc) => ∃ s₁ c, Ends io s s' s₁ c rc

variable {io} {s s' : σ}

theorem Stage.andThen {r : σ × Except Int α} {f : σ → α → σ × Except Int β}
    (h : Stage io s r) (hf : ∀ s₁ a, Stage io s₁ (f s₁ a)) : Stage io s (Shim.andThen r f) := by
  obtain ⟨s₁, res⟩ := r
  cases res with
  | error rc => exact h
  | ok a =>
    have hstage := hf s₁ a
    unfold Shim.andThen
    simp only
    cases hr : f s₁ a with
    | mk s₂ res₂ =>
      rw [hr] at hstage
      cases res₂ with
      | ok b => exact ReflTransGen.trans h hstage
      | error rc =>
        obtain ⟨s₃, c, hends⟩ := hstage
        exact ⟨s₃, c, ReflTransGen.trans h hends.leads, hends.run, hends.failed⟩

/-- A stage that is one call and stops unless it returns 0. -/
theorem stage_call (io : NfskBlockio σ) (s : σ) (c : Call) (a : α) :
    Stage io s (if (c.run io s).2 ≠ 0 then ((c.run io s).1, .error (c.run io s).2)
      else ((c.run io s).1, .ok a)) := by
  by_cases h : (c.run io s).2 ≠ 0
  · rw [if_pos h]
    exact ⟨s, c, ReflTransGen.refl, rfl, h⟩
  · rw [if_neg h]
    have hrun : c.run io s = ((c.run io s).1, 0) := by
      rw [← not_not.mp h]
    exact ReflTransGen.single ⟨c, hrun⟩

theorem stage_ok (a : α) : Stage io s (s, .ok a) := ReflTransGen.refl

theorem Ret.done_ne_fail (n : UInt64) (e : Int) : Ret.done n ≠ Ret.fail e := by
  intro h
  have herrno := congrArg Ret.errno h
  cases herrno

/-! ## The stages of `fskit_pread` -/

theorem preadHead_stage (al : UInt32) (stop : UInt64) (s : σ) (c : ReadPos) :
    Stage io s (preadHead io al stop s c) := by
  unfold preadHead
  split
  · exact stage_call io _ (.read _ al.toUInt64) _
  · exact stage_ok c

theorem preadMid_stage (al : UInt32) (stop : UInt64) (s : σ) (c : ReadPos) :
    Stage io s (preadMid io al stop s c) := by
  unfold preadMid
  simp only
  split
  · exact stage_call io _ (.read _ _) _
  · exact stage_ok c

theorem preadTail_stage (al : UInt32) (stop : UInt64) (s : σ) (c : ReadPos) :
    Stage io s (preadTail io al stop s c) := by
  unfold preadTail
  split
  · exact stage_call io _ (.read _ _) _
  · exact stage_ok c

theorem preadBody_stage (io : NfskBlockio σ) (al : UInt32) (off stop : UInt64) (s : σ) :
    Stage io s (preadBody io al off stop s) := by
  unfold preadBody
  split
  · exact stage_call io _ (.read _ _) _
  · exact ((preadHead_stage al stop s _).andThen (preadMid_stage al stop)).andThen
      (preadTail_stage al stop)

/-- A read of the device that fails stores the negated return code of the call that failed. -/
theorem fskitPread_fails {count offset : Int64} {e : Int} {out : List UInt8}
    (hread : io.read.isSome) (hc : 0 ≤ count) (ho : 0 ≤ offset)
    (h : fskitPread io s count offset = (s', .fail e, out)) :
    ∃ s₁ c rc, Ends io s s' s₁ c rc ∧ e = -rc := by
  have hnone : ¬ io.read.isNone = true := by
    rw [Option.isNone_iff_eq_none]
    exact Option.isSome_iff_ne_none.mp hread
  have hneg : ¬ (count < 0 ∨ offset < 0) := by
    rintro (hlt | hlt)
    · exact absurd hc (Int64.not_le.mpr hlt)
    · exact absurd ho (Int64.not_le.mpr hlt)
  unfold fskitPread at h
  rw [if_neg hnone, if_neg hneg] at h
  by_cases hz : count = 0
  · rw [if_pos hz] at h
    cases h
  · rw [if_neg hz] at h
    simp only at h
    split at h
    · cases h
    · have hstage := preadBody_stage io (nfskAlignQuantum io) offset.toUInt64
        (nfskClampEnd io (nfskAlignQuantum io) offset.toUInt64
          (offset.toUInt64 + count.toUInt64)) s
      split at h
      · rename_i s₂ rc hr
        rw [hr] at hstage
        cases h
        obtain ⟨s₁, c, hends⟩ := hstage
        exact ⟨s₁, c, rc, hends, rfl⟩
      · exact absurd (congrArg (fun r => r.2.1) h) (Ret.done_ne_fail _ _)

/-! ## The stages of `fskit_pwrite` -/

section Write

variable {write : σ → UInt64 → UInt64 → List UInt8 → σ × Int}

/-- A stage that is one write. -/
theorem stage_write (hw : io.write = some write) (off len : UInt64) (src : List UInt8) (s : σ)
    (a : α) :
    Stage io s (if (write s off len src).2 ≠ 0 then ((write s off len src).1,
      .error (write s off len src).2) else ((write s off len src).1, .ok a)) := by
  have hrun : (Call.write off len src).run io s = write s off len src := by
    simp only [Call.run, hw]
  have hstage := stage_call io s (.write off len src) a
  rwa [hrun] at hstage

/-- A block that is read, changed and written back. -/
theorem rmwBlock_stage (hw : io.write = some write) (al : UInt32) (s : σ) (base skip n : UInt64)
    (src : List UInt8) (a : α) :
    Stage io s (if (rmwBlock io write al s base skip n src).2 ≠ 0 then
        ((rmwBlock io write al s base skip n src).1,
          .error (rmwBlock io write al s base skip n src).2)
      else ((rmwBlock io write al s base skip n src).1, .ok a)) := by
  have hread := stage_call io s (.read base al.toUInt64)
    (io.callRead s base al.toUInt64).2.2
  have hboth := hread.andThen fun s₁ tmp => stage_write hw base al.toUInt64
    (patch tmp skip.toNat (src.take n.toNat)) s₁ a
  simp only [Call.run] at hboth
  unfold rmwBlock
  by_cases h : (io.callRead s base al.toUInt64).2.1 ≠ 0
  · simpa [andThen, h] using hboth
  · simpa [andThen, h] using hboth

theorem pwriteHead_stage (hw : io.write = some write) (al : UInt32) (stop : UInt64) (s : σ)
    (c : WritePos) : Stage io s (pwriteHead io write al stop s c) := by
  unfold pwriteHead
  split
  · exact rmwBlock_stage hw al s _ _ _ c.src _
  · exact stage_ok c

theorem pwriteMid_stage (hw : io.write = some write) (al : UInt32) (stop : UInt64) (s : σ)
    (c : WritePos) : Stage io s (pwriteMid write al stop s c) := by
  unfold pwriteMid
  simp only
  split
  · exact stage_write hw _ _ c.src s _
  · exact stage_ok c

theorem pwriteTail_stage (hw : io.write = some write) (al : UInt32) (stop : UInt64) (s : σ)
    (c : WritePos) : Stage io s (pwriteTail io write al stop s c) := by
  unfold pwriteTail
  split
  · exact rmwBlock_stage hw al s _ _ _ c.src _
  · exact stage_ok c

theorem pwriteBody_stage (hw : io.write = some write) (al : UInt32) (off stop : UInt64)
    (src : List UInt8) (s : σ) : Stage io s (pwriteBody io write al stop off src s) := by
  unfold pwriteBody
  split
  · exact stage_write hw _ _ src s _
  · exact ((pwriteHead_stage hw al stop s _).andThen (pwriteMid_stage hw al stop)).andThen
      (pwriteTail_stage hw al stop)

end Write

/-- A write of the device that fails stores the negated return code of the call that failed. -/
theorem fskitPwrite_fails {count offset : Int64} {e : Int} {src : List UInt8}
    (hwrite : io.write.isSome) (hrw : io.readonly = false) (hc : 0 ≤ count) (ho : 0 ≤ offset)
    (h : fskitPwrite io s src count offset = (s', .fail e)) :
    ∃ s₁ c rc, Ends io s s' s₁ c rc ∧ e = -rc := by
  obtain ⟨write, hw⟩ := Option.isSome_iff_exists.mp hwrite
  have hneg : ¬ (count < 0 ∨ offset < 0) := by
    rintro (hlt | hlt)
    · exact absurd hc (Int64.not_le.mpr hlt)
    · exact absurd ho (Int64.not_le.mpr hlt)
  unfold fskitPwrite at h
  rw [hw] at h
  simp only [if_neg hneg, hrw, Bool.false_eq_true, if_false] at h
  by_cases hz : count = 0
  · rw [if_pos hz] at h
    exact absurd (congrArg (fun r => r.2) h) (Ret.done_ne_fail _ _)
  · rw [if_neg hz] at h
    split at h
    · exact absurd (congrArg (fun r => r.2) h) (Ret.done_ne_fail _ _)
    · have hstage := pwriteBody_stage hw (nfskAlignQuantum io) offset.toUInt64
        (nfskClampEnd io (nfskAlignQuantum io) offset.toUInt64
          (offset.toUInt64 + count.toUInt64)) src s
      split at h
      · rename_i s₂ rc hr
        rw [hr] at hstage
        cases h
        obtain ⟨s₁, c, hends⟩ := hstage
        exact ⟨s₁, c, rc, hends, rfl⟩
      · exact absurd (congrArg (fun r => r.2) h) (Ret.done_ne_fail _ _)

end Stages

end Shim
end Usbrw
