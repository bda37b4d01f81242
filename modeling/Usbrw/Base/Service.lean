import Usbrw.Base.Run

/-!
# Base.Service

What an object answers, against what it is allowed to answer.

* `Contract`        — the answers that are allowed to a request, and the states they lead to.
* `history`         — the requests of a run of an object, with its answers.
* `Serves`          — a history that a contract allows.
* `serves_of_simulation`, `serves_of_steps` — an object whose steps are allowed has histories that are.
* `history_eq_of_simulation` — the rule for an object that is to answer as another one does.
-/

namespace Usbrw
namespace Service

open Run

/-- `S a o r b`: from `a` the request `o` may be answered with `r`, which leads to `b`. -/
abbrev Contract (α ω ρ : Type) : Type := α → ω → ρ → α → Prop

variable {α σ ω ρ : Type}

def history (step : σ → ω → σ × ρ) : σ → List ω → List (ω × ρ)
  | _, [] => []
  | s, o :: os => (o, (step s o).2) :: history step (step s o).1 os

/-- The state a run of an object ends in. -/
def after (step : σ → ω → σ × ρ) (s : σ) (os : List ω) : σ := os.foldl (fun s o => (step s o).1) s

inductive Serves (S : Contract α ω ρ) : α → List (ω × ρ) → α → Prop where
  | nil {a : α} : Serves S a [] a
  | cons {a b c : α} {o : ω} {r : ρ} {h : List (ω × ρ)} (head : S a o r b) (tail : Serves S b h c) :
    Serves S a ((o, r) :: h) c

/-- `R` relates a state of the object to one it may stand for, and `ok` is what is asked of the
requests. -/
theorem serves_of_simulation {S : Contract α ω ρ} {step : σ → ω → σ × ρ} {R : σ → α → Prop}
    {ok : σ → ω → Prop}
    (hstep : ∀ s a o, R s a → ok s o → ∃ b, S a o (step s o).2 b ∧ R (step s o).1 b) :
    ∀ {os : List ω} {s : σ} {a : α}, R s a → Along (fun s o => (step s o).1) ok s os →
      ∃ b, Serves S a (history step s os) b ∧ R (after step s os) b := by
  intro os
  induction os with
  | nil => intro s a h _; exact ⟨a, .nil, h⟩
  | cons o os ih =>
    intro s a h hok
    obtain ⟨ho, hrest⟩ := hok
    obtain ⟨b, hserves, hb⟩ := hstep s a o h ho
    obtain ⟨c, htail, hc⟩ := ih hb hrest
    exact ⟨c, .cons hserves htail, hc⟩

/-- The rule where `abs` is what a state of the object stands for, as long as `I` holds, which it does
to the end. -/
theorem serves_of_steps {S : Contract α ω ρ} {step : σ → ω → σ × ρ} {abs : σ → α} {I : σ → Prop}
    {ok : σ → ω → Prop}
    (hstep : ∀ s o, I s → ok s o → S (abs s) o (step s o).2 (abs (step s o).1) ∧ I (step s o).1)
    {os : List ω} {s : σ} (hi : I s) (hok : Along (fun s o => (step s o).1) ok s os) :
    Serves S (abs s) (history step s os) (abs (after step s os)) ∧ I (after step s os) := by
  obtain ⟨b, hserves, hb, hend⟩ := serves_of_simulation (R := fun s a => abs s = a ∧ I s)
    (fun s a o h ho => by
      obtain ⟨rfl, hi⟩ := h
      obtain ⟨hserves, hinv⟩ := hstep s o hi ho
      exact ⟨_, hserves, rfl, hinv⟩) ⟨rfl, hi⟩ hok
  rw [hb]
  exact ⟨hserves, hend⟩

/-- An object that answers as another one does, step by step, has the same histories. -/
theorem history_eq_of_simulation {τ : Type} {step : σ → ω → σ × ρ} {spec : τ → ω → τ × ρ}
    {R : σ → τ → Prop}
    (hstep : ∀ s a o, R s a → (step s o).2 = (spec a o).2 ∧ R (step s o).1 (spec a o).1)
    (os : List ω) :
    ∀ {s : σ} {a : τ}, R s a →
      history step s os = history spec a os ∧ R (after step s os) (after spec a os) := by
  induction os with
  | nil => intro s a h; exact ⟨rfl, h⟩
  | cons o os ih =>
    intro s a h
    obtain ⟨hreply, hnext⟩ := hstep s a o h
    obtain ⟨hhistory, hafter⟩ := ih hnext
    refine ⟨?_, hafter⟩
    simp only [history, hreply, hhistory]

end Service
end Usbrw
