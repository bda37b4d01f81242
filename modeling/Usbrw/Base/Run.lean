/-!
# Base.Run

Runs of a deterministic machine `step : σ → ω → σ` over a list of operations.

* `Along step P s os` — `P` holds of every state the run passes and the operation taken there.
* `along_of_inv`      — the invariant rule: what one step gives, a whole run gives.
* `foldl_iff_along`   — a property of the end of a run that every step can only lose.
* `always_iff_along`  — a property of every state of a run, by what each step has to meet.
-/

namespace Usbrw
namespace Run

variable {σ ω : Type} {step : σ → ω → σ}

def Along (step : σ → ω → σ) (P : σ → ω → Prop) : σ → List ω → Prop
  | _, [] => True
  | s, o :: os => P s o ∧ Along step P (step s o) os

/-- A guarded invariant: where `ok` holds of a step, `I` is kept and `good` follows. The run then
has `good` all along and ends in `I`. -/
theorem along_of_inv {I : σ → Prop} {ok good : σ → ω → Prop}
    (hstep : ∀ s o, I s → ok s o → good s o ∧ I (step s o)) :
    ∀ {os : List ω} {s : σ}, I s → Along step ok s os →
      Along step good s os ∧ I (os.foldl step s) := by
  intro os
  induction os with
  | nil => intro s hi _; exact ⟨trivial, hi⟩
  | cons o os ih =>
    intro s hi hok
    obtain ⟨ho, hrest⟩ := hok
    obtain ⟨hgood, hinv⟩ := hstep s o hi ho
    obtain ⟨hal, hend⟩ := ih hinv hrest
    exact ⟨⟨hgood, hal⟩, hend⟩

theorem along_of_forall {P : σ → ω → Prop} (h : ∀ s o, P s o) {s : σ} {os : List ω} :
    Along step P s os := by
  induction os generalizing s with
  | nil => trivial
  | cons o os ih => exact ⟨h s o, ih⟩

/-- The invariant rule where every step keeps the invariant. -/
theorem along_of_steps {I : σ → Prop} {good : σ → ω → Prop}
    (hstep : ∀ s o, I s → good s o ∧ I (step s o)) {s : σ} {os : List ω} (hs : I s) :
    Along step good s os := by
  have htrue : Along step (fun _ _ => True) s os := along_of_forall fun _ _ => trivial
  exact (along_of_inv (fun s o hi _ => hstep s o hi) hs htrue).1

theorem inv_foldl {I : σ → Prop} (hstep : ∀ s o, I s → I (step s o)) {s : σ} (hs : I s)
    (os : List ω) : I (os.foldl step s) := by
  induction os generalizing s with
  | nil => exact hs
  | cons o os ih => exact ih (hstep s o hs)

/-- A property that a step keeps exactly where `ok` holds of it holds at the end of a run exactly
when it held at the start and `ok` holds all along. -/
theorem foldl_iff_along {I P : σ → Prop} {ok : σ → ω → Prop}
    (hstep : ∀ s o, I s → I (step s o) ∧ (P (step s o) ↔ P s ∧ ok s o)) :
    ∀ {os : List ω} {s : σ}, I s → (P (os.foldl step s) ↔ P s ∧ Along step ok s os) := by
  intro os
  induction os with
  | nil => intro s _; exact (and_iff_left trivial).symm
  | cons o os ih =>
    intro s hi
    obtain ⟨hi', hp⟩ := hstep s o hi
    rw [List.foldl_cons, ih hi', hp, and_assoc]
    rfl

/-- Where `P` holds, a step that `pre` admits keeps it exactly if `ok` holds of the step. Then a run
of such steps has `P` in every state it reaches exactly if `ok` holds all along. -/
theorem always_iff_along {P : σ → Prop} {pre ok : σ → ω → Prop}
    (hstep : ∀ s o, P s → pre s o → (P (step s o) ↔ ok s o)) :
    ∀ {os : List ω} {s : σ}, P s → Along step pre s os →
      ((∀ k, P ((os.take k).foldl step s)) ↔ Along step ok s os) := by
  intro os
  induction os with
  | nil =>
    intro s hs _
    exact ⟨fun _ => trivial, fun _ k => by simpa using hs⟩
  | cons o os ih =>
    intro s hs hpre
    obtain ⟨ho, hrest⟩ := hpre
    have hone := hstep s o hs ho
    constructor
    · intro hall
      have hnext : P (step s o) := hall 1
      exact ⟨hone.mp hnext, (ih hnext hrest).mp fun k => hall (k + 1)⟩
    · intro hok k
      have hnext := hone.mpr hok.1
      cases k with
      | zero => exact hs
      | succ k => exact (ih hnext hrest).mpr hok.2 k

theorem always_of_inv {I : σ → Prop} {ok : σ → ω → Prop}
    (hstep : ∀ s o, I s → ok s o → I (step s o)) {s : σ} {os : List ω} (hs : I s)
    (hok : Along step ok s os) (k : Nat) : I ((os.take k).foldl step s) := by
  have hone : ∀ s o, I s → ok s o → (I (step s o) ↔ True) :=
    fun s o hi ho => iff_true_intro (hstep s o hi ho)
  exact (always_iff_along hone hs hok).mpr (along_of_forall fun _ _ => trivial) k

theorem along_and_iff {P Q : σ → ω → Prop} {s : σ} {os : List ω} :
    Along step (fun s o => P s o ∧ Q s o) s os ↔ Along step P s os ∧ Along step Q s os := by
  induction os generalizing s with
  | nil => exact ⟨fun _ => ⟨trivial, trivial⟩, fun _ => trivial⟩
  | cons o os ih =>
    simp only [Along, ih]
    constructor
    · rintro ⟨⟨hp, hq⟩, hps, hqs⟩
      exact ⟨⟨hp, hps⟩, hq, hqs⟩
    · rintro ⟨⟨hp, hps⟩, hq, hqs⟩
      exact ⟨⟨hp, hq⟩, hps, hqs⟩

end Run
end Usbrw
