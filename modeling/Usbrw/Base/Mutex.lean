import Mathlib.Logic.Function.Basic

/-!
# Base.Mutex

A recursive mutex, and threads that take and give it back in the calls they make.

* `depthAfter`  — the recursion depth after locks and unlocks; an unlock at depth 0 is refused.
* `Balanced`    — locks and unlocks that end at the depth they start from.
* `Threads`     — the mutex, and what every thread has still to do in its call.
* `Threads.Blocked` — a thread waits for the mutex and another one has it.
* `closing_run` — where every call is balanced, a thread has the mutex only in a call.
-/

namespace Usbrw
namespace Mutex

inductive Event where
  | lock
  | unlock
  deriving DecidableEq

def depthAfter : Nat → List Event → Nat
  | d, [] => d
  | d, .lock :: es => depthAfter (d + 1) es
  | d, .unlock :: es => depthAfter (d - 1) es

def Balanced (es : List Event) : Prop := ∀ d, depthAfter d es = d

theorem depthAfter_append (d : Nat) (es fs : List Event) :
    depthAfter d (es ++ fs) = depthAfter (depthAfter d es) fs := by
  induction es generalizing d with
  | nil => rfl
  | cons e es ih =>
    cases e with
    | lock => simp only [List.cons_append, depthAfter, ih]
    | unlock => simp only [List.cons_append, depthAfter, ih]

/-- The mutex, and the rest of every thread's call. A thread with nothing left is in no call. -/
structure Threads (θ : Type) where
  owner : Option θ
  depth : Nat
  todo : θ → List Event

inductive Act (θ : Type) where
  | call (t : θ) (es : List Event)
  | run (t : θ)

namespace Threads

variable {θ : Type} [DecidableEq θ]

def depthOf (s : Threads θ) (t : θ) : Nat := if s.owner = some t then s.depth else 0

def setTodo (s : Threads θ) (t : θ) (es : List Event) : Threads θ :=
  { s with todo := Function.update s.todo t es }

/-- `t` has the mutex at depth `d`. -/
def setDepth (s : Threads θ) (t : θ) (d : Nat) : Threads θ :=
  { s with owner := if d = 0 then none else some t, depth := d }

/-- A thread in no call starts one; a thread in a call takes its next step, unless it has to wait. -/
def step (s : Threads θ) : Act θ → Threads θ
  | .call t es => if s.todo t = [] then s.setTodo t es else s
  | .run t =>
    match s.todo t with
    | [] => s
    | .lock :: es =>
      if s.owner = none ∨ s.owner = some t then (s.setDepth t (s.depthOf t + 1)).setTodo t es else s
    | .unlock :: es =>
      if s.owner = some t then (s.setDepth t (s.depth - 1)).setTodo t es else s.setTodo t es

/-- `t` waits for the mutex, which `u` has. -/
def Blocked (s : Threads θ) (t u : θ) : Prop :=
  s.owner = some u ∧ u ≠ t ∧ ∃ es, s.todo t = .lock :: es

def idle : Threads θ := ⟨none, 0, fun _ => []⟩

/-- Every thread gives back in its call what it has taken. -/
structure Closing (s : Threads θ) : Prop where
  closes : ∀ t, depthAfter (s.depthOf t) (s.todo t) = 0
  owned : ∀ t, s.owner = some t → 0 < s.depth

variable {s : Threads θ} {t u : θ} {d : Nat} {es : List Event}

theorem depthOf_setTodo : (s.setTodo t es).depthOf u = s.depthOf u := rfl

theorem todo_setTodo_self : (s.setTodo t es).todo t = es := by simp [setTodo]

theorem todo_setTodo_of_ne (h : u ≠ t) : (s.setTodo t es).todo u = s.todo u := by
  simp [setTodo, h]

theorem depthOf_setDepth_self : (s.setDepth t d).depthOf t = d := by
  by_cases h : d = 0
  · simp [depthOf, setDepth, h]
  · simp [depthOf, setDepth, h]

theorem depthOf_setDepth_of_ne (h : u ≠ t) : (s.setDepth t d).depthOf u = 0 := by
  unfold depthOf setDepth
  by_cases hd : d = 0
  · simp [hd]
  · simp [hd, h.symm]

theorem depthOf_of_not_owner (h : s.owner ≠ some t) : s.depthOf t = 0 := if_neg h

/-- What one step of the owner, or of a thread that becomes it, leaves. -/
theorem Closing.advance (h : s.Closing) (hfree : s.owner = none ∨ s.owner = some t)
    (hes : depthAfter d es = 0) : ((s.setDepth t d).setTodo t es).Closing := by
  refine ⟨?_, ?_⟩
  · intro u
    by_cases hu : u = t
    · rw [hu, depthOf_setTodo, depthOf_setDepth_self, todo_setTodo_self, hes]
    · rw [depthOf_setTodo, depthOf_setDepth_of_ne hu, todo_setTodo_of_ne hu]
      have hclose := h.closes u
      have hzero : s.depthOf u = 0 := by
        refine depthOf_of_not_owner ?_
        intro howner
        rw [howner] at hfree
        cases hfree with
        | inl hnone => cases hnone
        | inr hsome => exact hu (Option.some.inj hsome)
      rw [hzero] at hclose
      exact hclose
  · intro u hu
    by_cases hd : d = 0
    · simp [setTodo, setDepth, hd] at hu
    · exact Nat.pos_of_ne_zero hd

theorem Closing.setTodo (h : s.Closing) (hes : depthAfter (s.depthOf t) es = 0) :
    (s.setTodo t es).Closing := by
  refine ⟨?_, h.owned⟩
  intro u
  rw [depthOf_setTodo]
  by_cases hu : u = t
  · rw [hu, todo_setTodo_self, hes]
  · rw [todo_setTodo_of_ne hu]
    exact h.closes u

/-- A thread in no call does not have the mutex. -/
theorem Closing.depthOf_idle (h : s.Closing) (ht : s.todo t = []) : s.depthOf t = 0 := by
  have hclose := h.closes t
  rwa [ht] at hclose

theorem Closing.step (h : s.Closing) {a : Act θ} (ha : ∀ t es, a = .call t es → Balanced es) :
    (s.step a).Closing := by
  cases a with
  | call t es =>
    simp only [Threads.step]
    by_cases ht : s.todo t = []
    · rw [if_pos ht]
      refine h.setTodo ?_
      rw [ha t es rfl, h.depthOf_idle ht]
    · rwa [if_neg ht]
  | run t =>
    have hclose := h.closes t
    simp only [Threads.step]
    split
    · exact h
    · rename_i es htodo
      rw [htodo] at hclose
      by_cases hfree : s.owner = none ∨ s.owner = some t
      · rw [if_pos hfree]
        exact h.advance hfree hclose
      · rwa [if_neg hfree]
    · rename_i es htodo
      rw [htodo] at hclose
      by_cases howner : s.owner = some t
      · rw [if_pos howner]
        refine h.advance (.inr howner) ?_
        rwa [depthOf, if_pos howner] at hclose
      · rw [if_neg howner]
        refine h.setTodo ?_
        rwa [depthOf_of_not_owner howner] at hclose ⊢

theorem Closing.not_returned (h : s.Closing) (hb : s.Blocked t u) : s.todo u ≠ [] := by
  intro hidle
  have hzero := h.depthOf_idle hidle
  rw [depthOf, if_pos hb.1] at hzero
  exact absurd (h.owned u hb.1) (by omega)

theorem closing_idle : (idle : Threads θ).Closing := by
  refine ⟨fun t => rfl, ?_⟩
  intro t ht
  cases ht

end Threads

open Threads

/-- In every run in which all calls are balanced, in any order of their steps, every thread gives
back what it has taken. -/
theorem closing_run {θ : Type} [DecidableEq θ] (acts : List (Act θ))
    (hacts : ∀ t es, .call t es ∈ acts → Balanced es) : (acts.foldl step idle).Closing := by
  suffices hrun : ∀ s : Threads θ, s.Closing → (acts.foldl step s).Closing from
    hrun idle closing_idle
  induction acts with
  | nil => exact fun s hs => hs
  | cons a acts ih =>
    intro s hs
    refine ih (fun t es hmem => hacts t es (List.mem_cons_of_mem a hmem)) _ (hs.step ?_)
    intro t es heq
    exact hacts t es (by simp [heq])

end Mutex
end Usbrw
