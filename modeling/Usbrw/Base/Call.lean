/-!
# Base.Call

Calls that act on a state and return a value or an error code, `EStateM ε σ α`, with a Hoare logic
for them. The state stays what it is when a call fails: nothing is rolled back.

* `attempt`  — make a call and go on with its outcome, as code does that inspects a return code.
* `orFail`   — make a call and give up with a translated code when it fails.
* `final`    — the state a call leaves.
* `dropResult`  — make a call and drop its result.
* `onFail`, `afterwards` — undo what a failed call follows, and clean up in any case.
* `Keeps`    — an invariant, by `Spec`.
* `Answers`  — an invariant that decides the outcome of a call.
* `Spec`     — a precondition, a postcondition for success and one for failure.
-/

namespace Usbrw
namespace Call

variable {ε δ σ α β : Type}

def attempt (x : EStateM ε σ α) : EStateM δ σ (Except ε α) := fun s =>
  match x s with
  | .ok a s' => .ok (.ok a) s'
  | .error e s' => .ok (.error e) s'

def orFail (f : ε → δ) (x : EStateM ε σ α) : EStateM δ σ α := fun s =>
  match x s with
  | .ok a s' => .ok a s'
  | .error e s' => .error (f e) s'

/-- The state a call leaves, whether it returns or fails. -/
def final (r : EStateM.Result ε σ α) : σ :=
  match r with
  | .ok _ s => s
  | .error _ s => s

@[simp] theorem final_ok (a : α) (s : σ) : final (.ok a s : EStateM.Result ε σ α) = s := rfl
@[simp] theorem final_error (e : ε) (s : σ) : final (.error e s : EStateM.Result ε σ α) = s := rfl

/-- Make a call and, if it fails, another one, whatever comes of that. The failure is the first's. -/
def onFail (x : EStateM ε σ α) (undo : EStateM δ σ β) : EStateM ε σ α := fun s =>
  match x s with
  | .ok a s' => .ok a s'
  | .error e s' => .error e (final (undo s'))

/-- Make a call and then another one, whatever comes of either. The outcome is the first's. -/
def afterwards (x : EStateM ε σ α) (cleanup : EStateM δ σ β) : EStateM ε σ α := fun s =>
  match x s with
  | .ok a s' => .ok a (final (cleanup s'))
  | .error e s' => .error e (final (cleanup s'))

/-- Make a call for what it does only. -/
def dropResult (x : EStateM ε σ α) : EStateM ε σ Unit := do
  let _ ← x
  pure ()

/-! ## Running a sequence of calls -/

theorem run_bind_ok {x : EStateM ε σ α} {f : α → EStateM ε σ β} {s s' : σ} {a : α}
    (h : x s = .ok a s') : (x >>= f) s = f a s' := by
  simp only [Bind.bind, EStateM.bind, h]

theorem run_bind_error {x : EStateM ε σ α} {f : α → EStateM ε σ β} {s s' : σ} {e : ε}
    (h : x s = .error e s') : (x >>= f) s = .error e s' := by
  simp only [Bind.bind, EStateM.bind, h]

theorem run_orFail_ok {f : ε → δ} {x : EStateM ε σ α} {s s' : σ} {a : α} (h : x s = .ok a s') :
    orFail f x s = .ok a s' := by
  simp only [orFail, h]

theorem run_orFail_error {f : ε → δ} {x : EStateM ε σ α} {s s' : σ} {e : ε}
    (h : x s = .error e s') : orFail f x s = .error (f e) s' := by
  simp only [orFail, h]

theorem run_attempt_ok {x : EStateM ε σ α} {s s' : σ} {a : α} (h : x s = .ok a s') :
    (attempt x : EStateM δ σ (Except ε α)) s = .ok (.ok a) s' := by
  simp only [attempt, h]

theorem run_attempt_error {x : EStateM ε σ α} {s s' : σ} {e : ε} (h : x s = .error e s') :
    (attempt x : EStateM δ σ (Except ε α)) s = .ok (.error e) s' := by
  simp only [attempt, h]

theorem orFail_ok_iff {f : ε → δ} {x : EStateM ε σ α} {s s' : σ} {a : α} :
    orFail f x s = .ok a s' ↔ x s = .ok a s' := by
  cases hx : x s with
  | ok b t =>
    rw [run_orFail_ok hx]
    simp
  | error e t =>
    rw [run_orFail_error hx]
    simp

/-- A sequence that returns has made the first call, which returned, and went on from there. -/
theorem bind_ok_iff {x : EStateM ε σ α} {f : α → EStateM ε σ β} {s s' : σ} {b : β} :
    (x >>= f) s = .ok b s' ↔ ∃ a t, x s = .ok a t ∧ f a t = .ok b s' := by
  constructor
  · intro h
    cases hx : x s with
    | ok a t => exact ⟨a, t, rfl, (run_bind_ok hx).symm.trans h⟩
    | error e t =>
      rw [run_bind_error hx] at h
      cases h
  · rintro ⟨a, t, hx, hf⟩
    rw [run_bind_ok hx, hf]

theorem orFail_bind_ok_iff {f : ε → δ} {x : EStateM ε σ α} {g : α → EStateM δ σ β} {s s' : σ}
    {b : β} : (orFail f x >>= g) s = .ok b s' ↔ ∃ a t, x s = .ok a t ∧ g a t = .ok b s' := by
  simp only [bind_ok_iff, orFail_ok_iff]

/-- Returning something else leaves the same state. -/
theorem final_bind_pure (x : EStateM ε σ α) (f : α → β) (s : σ) :
    final ((x >>= fun a => pure (f a)) s) = final (x s) := by
  simp only [Bind.bind, EStateM.bind]
  cases x s with
  | ok a s' => rfl
  | error e s' => rfl

theorem final_dropResult (x : EStateM ε σ α) (s : σ) : final (dropResult x s) = final (x s) :=
  final_bind_pure x (fun _ => ()) s

theorem dropResult_ok_iff {x : EStateM ε σ α} {s s' : σ} :
    dropResult x s = .ok () s' ↔ ∃ a, x s = .ok a s' := by
  rw [dropResult, bind_ok_iff]
  simp [Pure.pure, EStateM.pure]

theorem run_get_bind (f : σ → EStateM ε σ β) (s : σ) : (get >>= f) s = f s s := rfl

theorem run_modify_bind (g : σ → σ) (f : Unit → EStateM ε σ β) (s : σ) :
    (modify g >>= f) s = f () (g s) := rfl

/-! ## Pre- and postconditions -/

/-- From a state in `P`, a returning call ends in `Q` and a failing one in `E`. -/
def Spec (P : σ → Prop) (x : EStateM ε σ α) (Q : α → σ → Prop) (E : ε → σ → Prop) : Prop :=
  ∀ s, P s → match x s with
    | .ok a s' => Q a s'
    | .error e s' => E e s'

section Rules

variable {P : σ → Prop} {Q Q' : α → σ → Prop} {E E' : ε → σ → Prop} {R : β → σ → Prop}
  {D : δ → σ → Prop} {x : EStateM ε σ α}

theorem Spec.ok (h : Spec P x Q E) {s s' : σ} {a : α} (hs : P s) (hx : x s = .ok a s') :
    Q a s' := by
  have hq := h s hs
  rwa [hx] at hq

theorem Spec.error (h : Spec P x Q E) {s s' : σ} {e : ε} (hs : P s) (hx : x s = .error e s') :
    E e s' := by
  have hq := h s hs
  rwa [hx] at hq

theorem Spec.pure {a : α} (h : ∀ s, P s → Q a s) : Spec P (pure a : EStateM ε σ α) Q E := h

theorem Spec.throw {e : ε} (h : ∀ s, P s → E e s) : Spec P (throw e : EStateM ε σ α) Q E := h

theorem Spec.modify {P Q : σ → Prop} {E : ε → σ → Prop} {f : σ → σ} (h : ∀ s, P s → Q (f s)) :
    Spec P (modify f : EStateM ε σ Unit) (fun _ => Q) E := h

theorem Spec.bind {f : α → EStateM ε σ β} (hx : Spec P x Q E) (hf : ∀ a, Spec (Q a) (f a) R E) :
    Spec P (x >>= f) R E := by
  intro s hs
  have hxs := hx s hs
  simp only [Bind.bind, EStateM.bind]
  cases h : x s with
  | ok a s' =>
    rw [h] at hxs
    exact hf a s' hxs
  | error e s' =>
    rw [h] at hxs
    exact hxs

theorem Spec.bind_get {f : σ → EStateM ε σ β} (hf : ∀ s₀, Spec (fun s => s = s₀ ∧ P s) (f s₀) R E) :
    Spec P (get >>= f) R E :=
  fun s hs => hf s s ⟨rfl, hs⟩

theorem Spec.orFail {f : ε → δ} (hx : Spec P x Q E) (he : ∀ e s, E e s → D (f e) s) :
    Spec P (orFail f x) Q D := by
  intro s hs
  have hxs := hx s hs
  simp only [Call.orFail]
  cases h : x s with
  | ok a s' => rw [h] at hxs; exact hxs
  | error e s' => rw [h] at hxs; exact he e s' hxs

theorem Spec.bind_orFail {f : ε → δ} {g : α → EStateM δ σ β} (hx : Spec P x Q E)
    (he : ∀ e s, E e s → D (f e) s) (hg : ∀ a, Spec (Q a) (g a) R D) :
    Spec P (Call.orFail f x >>= g) R D :=
  Spec.bind (hx.orFail he) hg

/-- Whatever follows an attempted call starts where the call left off, whether it failed or not. -/
theorem Spec.bind_attempt {g : Except ε α → EStateM δ σ β} (hx : Spec P x Q E)
    (hok : ∀ a, Spec (Q a) (g (.ok a)) R D) (herr : ∀ e, Spec (E e) (g (.error e)) R D) :
    Spec P (attempt x >>= g) R D := by
  intro s hs
  have hxs := hx s hs
  simp only [Bind.bind, EStateM.bind, attempt]
  cases h : x s with
  | ok a s' =>
    rw [h] at hxs
    exact hok a s' hxs
  | error e s' =>
    rw [h] at hxs
    exact herr e s' hxs

theorem Spec.conseq (hx : Spec P x Q E) (hq : ∀ a s, Q a s → Q' a s)
    (he : ∀ e s, E e s → E' e s) : Spec P x Q' E' := by
  intro s hs
  have hxs := hx s hs
  cases h : x s with
  | ok a s' => rw [h] at hxs; exact hq a s' hxs
  | error e s' => rw [h] at hxs; exact he e s' hxs

theorem Spec.conseq_ok (hx : Spec P x Q E) (hq : ∀ a s, Q a s → Q' a s) : Spec P x Q' E :=
  hx.conseq hq fun _ _ h => h

theorem Spec.conseq_error (hx : Spec P x Q E) (he : ∀ e s, E e s → E' e s) : Spec P x Q E' :=
  hx.conseq (fun _ _ h => h) he

/-- A call that never fails from these states. -/
theorem Spec.returns (hx : Spec P x Q E) (hr : Spec P x (fun _ _ => True) fun _ _ => False) :
    Spec P x Q E' := by
  intro s hs
  have hxs := hx s hs
  have hrs := hr s hs
  cases h : x s with
  | ok a s' => rw [h] at hxs; exact hxs
  | error e s' => rw [h] at hrs; exact hrs.elim

/-- A check that ends the call, before the rest of it. -/
theorem Spec.guard {p : Prop} [Decidable p] {e : ε} (he : p → ∀ s, P s → E e s)
    (hx : ¬ p → Spec P x Q E) : Spec P (if p then MonadExcept.throw e else x) Q E := by
  by_cases hp : p
  · rw [if_pos hp]
    exact Spec.throw (he hp)
  · rw [if_neg hp]
    exact hx hp

/-- A fact that does not depend on the state may be assumed. -/
theorem Spec.assume {φ : Prop} (h : φ → Spec P x Q E) : Spec (fun s => φ ∧ P s) x Q E := by
  intro s hs
  exact h hs.1 s hs.2

theorem Spec.final {I : σ → Prop} (h : Spec P x (fun _ => I) fun _ => I) {s : σ} (hs : P s) :
    I (Call.final (x s)) := by
  have hxs := h s hs
  cases hx : x s with
  | ok a s' => rw [hx] at hxs; exact hxs
  | error e s' => rw [hx] at hxs; exact hxs

theorem Spec.onFail {undo : EStateM δ σ β} (hx : Spec P x Q E)
    (hu : ∀ e s, E e s → E' e (Call.final (undo s))) : Spec P (onFail x undo) Q E' := by
  intro s hs
  have hxs := hx s hs
  simp only [Call.onFail]
  cases h : x s with
  | ok a s' => rw [h] at hxs; exact hxs
  | error e s' => rw [h] at hxs; exact hu e s' hxs

theorem Spec.afterwards {cleanup : EStateM δ σ β} (hx : Spec P x Q E)
    (hq : ∀ a s, Q a s → Q' a (Call.final (cleanup s)))
    (he : ∀ e s, E e s → E' e (Call.final (cleanup s))) :
    Spec P (afterwards x cleanup) Q' E' := by
  intro s hs
  have hxs := hx s hs
  simp only [Call.afterwards]
  cases h : x s with
  | ok a s' => rw [h] at hxs; exact hq a s' hxs
  | error e s' => rw [h] at hxs; exact he e s' hxs

end Rules

/-! ## Invariants -/

section Keeps

variable {I : σ → Prop} {x : EStateM ε σ α}

/-- A call that keeps an invariant, whether it returns or fails. -/
def Keeps (I : σ → Prop) (x : EStateM ε σ α) : Prop := Spec I x (fun _ => I) fun _ => I

theorem Keeps.throw (e : ε) : Keeps I (throw e : EStateM ε σ α) := fun _ h => h

theorem Keeps.modify {f : σ → σ} (h : ∀ s, I s → I (f s)) :
    Keeps I (modify f : EStateM ε σ Unit) := h

theorem Keeps.pure (a : α) : Keeps I (pure a : EStateM ε σ α) := fun _ h => h

theorem Keeps.orFail (hx : Keeps I x) (f : ε → δ) : Keeps I (orFail f x) :=
  Spec.orFail hx fun _ _ h => h

theorem Keeps.attempt (hx : Keeps I x) :
    Keeps I (attempt x : EStateM δ σ (Except ε α)) := by
  intro s hs
  have hxs := hx s hs
  simp only [Call.attempt]
  cases h : x s with
  | ok a s' =>
    rw [h] at hxs
    exact hxs
  | error e s' =>
    rw [h] at hxs
    exact hxs

theorem Keeps.bind_get {f : σ → EStateM ε σ α} (hf : ∀ s, Keeps I (f s)) : Keeps I (get >>= f) :=
  fun s hs => hf s s hs

theorem Keeps.ite {p : Prop} [Decidable p] {y : EStateM ε σ α} (hx : p → Keeps I x)
    (hy : ¬ p → Keeps I y) : Keeps I (if p then x else y) := by
  by_cases h : p
  · rw [if_pos h]
    exact hx h
  · rw [if_neg h]
    exact hy h

theorem Keeps.bind {f : α → EStateM ε σ β} (hx : Keeps I x) (hf : ∀ a, Keeps I (f a)) :
    Keeps I (x >>= f) :=
  Spec.bind hx hf

theorem Keeps.onFail {undo : EStateM δ σ β} (hx : Keeps I x) (hu : Keeps I undo) :
    Keeps I (onFail x undo) :=
  Spec.onFail hx fun _ _ h => Spec.final hu h

theorem Keeps.afterwards {cleanup : EStateM δ σ β} (hx : Keeps I x) (hc : Keeps I cleanup) :
    Keeps I (afterwards x cleanup) :=
  Spec.afterwards hx (fun _ _ h => Spec.final hc h) fun _ _ h => Spec.final hc h

/-- What a call leaves a function of the state at, it keeps every property of. -/
theorem Keeps.of_value {f : σ → β} (h : ∀ c, Keeps (fun s => f s = c) x) (P : β → Prop) :
    Keeps (fun s => P (f s)) x := by
  intro s hs
  have hxs := h (f s) s rfl
  cases hx : x s with
  | ok a s' =>
    rw [hx] at hxs
    show P (f s')
    rwa [show f s' = f s from hxs]
  | error e s' =>
    rw [hx] at hxs
    show P (f s')
    rwa [show f s' = f s from hxs]

end Keeps

/-! ## Outcomes that are known -/

section Answers

variable {I : σ → Prop} {x : EStateM ε σ α} {v : Except ε α}

/-- The call keeps `I`, and wherever `I` holds its outcome is `v`. -/
def Answers (I : σ → Prop) (x : EStateM ε σ α) (v : Except ε α) : Prop :=
  Spec I x (fun a s => v = .ok a ∧ I s) fun e s => v = .error e ∧ I s

theorem Answers.pure (a : α) : Answers I (pure a : EStateM ε σ α) (.ok a) :=
  Spec.pure fun _ hs => ⟨rfl, hs⟩

theorem Answers.throw (e : ε) : Answers I (throw e : EStateM ε σ α) (.error e) :=
  Spec.throw fun _ hs => ⟨rfl, hs⟩

theorem Answers.modify {f : σ → σ} (h : ∀ s, I s → I (f s)) :
    Answers I (modify f : EStateM ε σ Unit) (.ok ()) :=
  fun s hs => ⟨rfl, h s hs⟩

theorem Answers.bind_ok {a : α} {f : α → EStateM ε σ β} {w : Except ε β}
    (hx : Answers I x (.ok a)) (hf : Answers I (f a) w) : Answers I (x >>= f) w := by
  refine Spec.bind (Spec.conseq_error hx fun _ _ h => nomatch h.1) fun b => ?_
  rintro s ⟨hb, hs⟩
  cases hb
  exact hf s hs

theorem Answers.bind_error {e : ε} {f : α → EStateM ε σ β} (hx : Answers I x (.error e)) :
    Answers I (x >>= f) (.error e) := by
  refine Spec.bind (Spec.conseq_error hx ?_) ?_
  · rintro _ s ⟨he, hs⟩
    cases he
    exact ⟨rfl, hs⟩
  · rintro _ s ⟨he, _⟩
    cases he

/-- What is read of the state may be used as if it were known. -/
theorem Answers.bind_get {f : σ → EStateM ε σ α} (hf : ∀ s, I s → Answers I (f s) v) :
    Answers I (get >>= f) v :=
  fun s hs => hf s hs s hs

theorem Answers.orFail (hx : Answers I x v) (f : ε → δ) :
    Answers I (orFail f x) (v.mapError f) := by
  refine Spec.orFail (Spec.conseq_ok hx ?_) ?_
  · rintro a s ⟨rfl, hs⟩
    exact ⟨rfl, hs⟩
  · rintro e s ⟨rfl, hs⟩
    exact ⟨rfl, hs⟩

theorem Answers.attempt (hx : Answers I x v) :
    Answers I (attempt x : EStateM δ σ (Except ε α)) (.ok v) := by
  intro s hs
  have hxs := hx s hs
  simp only [Call.attempt]
  cases h : x s with
  | ok a s' =>
    rw [h] at hxs
    exact ⟨by rw [hxs.1], hxs.2⟩
  | error e s' =>
    rw [h] at hxs
    exact ⟨by rw [hxs.1], hxs.2⟩

theorem Answers.afterwards {cleanup : EStateM δ σ β} (hx : Answers I x v)
    (hc : ∀ s, I s → I (Call.final (cleanup s))) : Answers I (afterwards x cleanup) v :=
  Spec.afterwards hx (fun _ s h => ⟨h.1, hc s h.2⟩) fun _ s h => ⟨h.1, hc s h.2⟩

theorem Answers.onFail {undo : EStateM δ σ β} (hx : Answers I x v)
    (hu : ∀ s, I s → I (Call.final (undo s))) : Answers I (onFail x undo) v :=
  Spec.onFail hx fun _ s h => ⟨h.1, hu s h.2⟩

theorem Answers.ok_iff (hx : Answers I x v) {s : σ} (hs : I s) {a : α} :
    (∃ s', x s = .ok a s') ↔ v = .ok a := by
  have hxs := hx s hs
  cases h : x s with
  | ok b s' =>
    rw [h] at hxs
    rw [hxs.1]
    constructor
    · rintro ⟨_, heq⟩
      cases heq
      rfl
    · rintro heq
      cases heq
      exact ⟨s', rfl⟩
  | error e s' =>
    rw [h] at hxs
    rw [hxs.1]
    exact iff_of_false (fun ⟨_, heq⟩ => nomatch heq) fun heq => nomatch heq

end Answers

end Call
end Usbrw
