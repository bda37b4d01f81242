import Mathlib.Logic.Function.Basic

/-!
# Base.Serial

Calls that threads make on a shared state under one recursive lock, their steps in any order.

* `Code`      — what a call does, step by step; `run` is what it does when it runs alone.
* `Guarded`   — a call that takes the lock first and is done once it has given it back. It may also
  keep it.
* `Conf`      — the threads, the lock and the state; a step of a thread shows a call or a return.
* `Atomic`    — the same threads where every call takes effect at one instant.
* `serializable` — what a run of guarded calls shows, the threads of `Atomic` show too.
-/

namespace Usbrw
namespace Serial

inductive Code (σ ρ : Type) where
  | done (r : ρ)
  | lock (k : Code σ ρ)
  | unlock (k : Code σ ρ)
  /-- One access: the state changes, and what was read decides what comes next. -/
  | act (f : σ → σ) (k : σ → Code σ ρ)

variable {σ ρ τ : Type}

namespace Code

def run : Code σ ρ → σ → ρ × σ
  | done r, s => (r, s)
  | lock k, s => k.run s
  | unlock k, s => k.run s
  | act f k, s => (k s).run (f s)

def bind : Code σ ρ → (ρ → Code σ τ) → Code σ τ
  | done r, g => g r
  | lock k, g => lock (k.bind g)
  | unlock k, g => unlock (k.bind g)
  | act f k, g => act f fun s => (k s).bind g

instance : Monad (Code σ) where
  pure := done
  bind := bind

/-- Look at the state. -/
def view (f : σ → ρ) : Code σ ρ := act id fun s => done (f s)

theorem run_bind (c : Code σ ρ) (g : ρ → Code σ τ) (s : σ) :
    (c.bind g).run s = (g (c.run s).1).run (c.run s).2 := by
  induction c generalizing s with
  | done r => rfl
  | lock k ih => exact ih s
  | unlock k ih => exact ih s
  | act f k ih => exact ih s (f s)

/-- At depth `n` of the lock: it is touched, like the state, at a depth of at least 1 only. -/
inductive Within : Nat → Code σ ρ → Prop where
  | done {n : Nat} (r : ρ) : Within n (done r)
  | lock {n : Nat} {k : Code σ ρ} (h : Within (n + 2) k) : Within (n + 1) (lock k)
  | unlock {n : Nat} {k : Code σ ρ} (h : Within n k) : Within (n + 1) (unlock k)
  | act {n : Nat} {f : σ → σ} {k : σ → Code σ ρ} (h : ∀ s, Within (n + 1) (k s)) :
    Within (n + 1) (act f k)

def Guarded : Code σ ρ → Prop
  | done _ => True
  | lock k => Within 1 k
  | _ => False

theorem Within.deeper {n : Nat} {c : Code σ ρ} (h : Within n c) (m : Nat) : Within (n + m) c := by
  induction h with
  | done r => exact .done r
  | @lock n k _ ih =>
    rw [Nat.add_right_comm]
    refine .lock ?_
    rwa [Nat.add_right_comm] at ih
  | @unlock n k _ ih =>
    rw [Nat.add_right_comm]
    exact .unlock ih
  | @act n f k _ ih =>
    rw [Nat.add_right_comm]
    refine .act fun s => ?_
    have hs := ih s
    rwa [Nat.add_right_comm] at hs

theorem Within.done_of_zero {c : Code σ ρ} (h : Within 0 c) : ∃ r, c = Code.done r := by
  cases h with
  | done r => exact ⟨r, rfl⟩

/-- A guarded call made by a thread that has the lock already. -/
theorem Guarded.within {c : Code σ ρ} (h : c.Guarded) (n : Nat) : Within (n + 1) c := by
  cases c with
  | done r => exact .done r
  | lock k =>
    refine .lock ?_
    have hk := Within.deeper (show Within 1 k from h) (n + 1)
    rwa [Nat.add_comm] at hk
  | unlock k => exact h.elim
  | act f k => exact h.elim

theorem Within.map {n : Nat} {c : Code σ ρ} (h : Within n c) (f : ρ → τ) : Within n (f <$> c) := by
  induction h with
  | done r => exact .done (f r)
  | lock _ ih => exact .lock ih
  | unlock _ ih => exact .unlock ih
  | act _ ih => exact .act ih

theorem Guarded.map {c : Code σ ρ} (h : c.Guarded) (f : ρ → τ) : (f <$> c).Guarded := by
  cases c with
  | done r => trivial
  | lock k => exact Within.map (show Within 1 k from h) f
  | unlock k => exact h.elim
  | act g k => exact h.elim

/-- Inside the lock, code that gives back what it takes. -/
def Neutral (c : Code σ ρ) : Prop :=
  ∀ ⦃τ : Type⦄ (n : Nat) (g : ρ → Code σ τ), (∀ r, Within (n + 1) (g r)) →
    Within (n + 1) (c.bind g)

/-- Code that leaves the lock alone. -/
inductive LockFree : Code σ ρ → Prop where
  | done (r : ρ) : LockFree (done r)
  | act {f : σ → σ} {k : σ → Code σ ρ} (h : ∀ s, LockFree (k s)) : LockFree (act f k)

theorem LockFree.neutral {c : Code σ ρ} (h : LockFree c) : Neutral c := by
  intro τ n g hg
  induction h with
  | done r => exact hg r
  | act _ ih => exact .act ih

theorem neutral_pure (r : ρ) : Neutral (pure r : Code σ ρ) := fun _ _ _ hg => hg r

theorem neutral_view (f : σ → ρ) : Neutral (view f) := fun _ _ _ hg => .act fun s => hg (f s)

theorem Neutral.bind {c : Code σ ρ} {g : ρ → Code σ τ} (hc : Neutral c) (hg : ∀ r, Neutral (g r)) :
    Neutral (c >>= g) := by
  intro υ n k hk
  have hassoc : ∀ c : Code σ ρ, (c.bind g).bind k = c.bind fun r => (g r).bind k := by
    intro c
    induction c with
    | done r => rfl
    | lock c ih => exact congrArg lock ih
    | unlock c ih => exact congrArg unlock ih
    | act f c ih => exact congrArg (act f) (funext ih)
  show Within (n + 1) ((c.bind g).bind k)
  rw [hassoc c]
  exact hc n _ fun r => hg r n k hk

theorem Neutral.ite {c d : Code σ ρ} {p : Prop} [Decidable p] (hc : Neutral c) (hd : Neutral d) :
    Neutral (if p then c else d) := by
  by_cases hp : p
  · rw [if_pos hp]
    exact hc
  · rw [if_neg hp]
    exact hd

/-- Take the lock, and give it back at the end. -/
def locked (c : Code σ ρ) : Code σ ρ := lock (c.bind fun r => unlock (done r))

theorem Neutral.locked {c : Code σ ρ} (hc : Neutral c) : Neutral (locked c) := by
  intro τ n g hg
  have hassoc : ∀ c : Code σ ρ,
      (c.bind fun r => unlock (done r)).bind g = c.bind fun r => unlock (g r) := by
    intro c
    induction c with
    | done r => rfl
    | lock c ih => exact congrArg lock ih
    | unlock c ih => exact congrArg unlock ih
    | act f c ih => exact congrArg (act f) (funext ih)
  show Within (n + 1) (lock ((c.bind fun r => unlock (done r)).bind g))
  rw [hassoc c]
  exact .lock (hc (n + 1) _ fun r => .unlock (hg r))

theorem Neutral.guarded {c : Code σ ρ} (hc : Neutral c) : (Code.locked c).Guarded :=
  hc 0 _ fun r => .unlock (.done r)

theorem run_locked (c : Code σ ρ) (s : σ) : (locked c).run s = c.run s := by
  show (c.bind fun r => unlock (done r)).run s = c.run s
  rw [run_bind]
  rfl

end Code

/-! ## Threads -/

inductive Act (θ κ : Type) where
  | call (t : θ) (c : κ)
  | run (t : θ)

/-- What is seen of a run. -/
inductive Event (θ κ ρ : Type) where
  | called (t : θ) (c : κ)
  | returned (t : θ) (r : ρ)

variable {θ κ : Type} [DecidableEq θ]

/-- `held` is the thread that has the lock and how often it took it again. -/
structure Conf (θ σ ρ : Type) where
  state : σ
  held : Option (θ × Nat)
  rest : θ → Option (Code σ ρ)

namespace Conf

def start (s : σ) : Conf θ σ ρ := ⟨s, none, fun _ => none⟩

def setRest (c : Conf θ σ ρ) (t : θ) (k : Option (Code σ ρ)) : Conf θ σ ρ :=
  { c with rest := Function.update c.rest t k }

/-- The next step of a thread with `k` left to do. One that waits for the lock does nothing. -/
def advance (c : Conf θ σ ρ) (t : θ) : Code σ ρ → Conf θ σ ρ × List (Event θ κ ρ)
  | .done r => (c.setRest t none, [.returned t r])
  | .lock k =>
    match c.held with
    | none => ({ c with held := some (t, 0) }.setRest t (some k), [])
    | some (u, n) =>
      if u = t then ({ c with held := some (t, n + 1) }.setRest t (some k), []) else (c, [])
  | .unlock k =>
    match c.held with
    | some (u, 0) =>
      if u = t then ({ c with held := none }.setRest t (some k), []) else (c.setRest t (some k), [])
    | some (u, n + 1) =>
      if u = t then ({ c with held := some (t, n) }.setRest t (some k), [])
      else (c.setRest t (some k), [])
    | none => (c.setRest t (some k), [])
  | .act f k => ({ c with state := f c.state }.setRest t (some (k c.state)), [])

def step (code : κ → Code σ ρ) (c : Conf θ σ ρ) : Act θ κ → Conf θ σ ρ × List (Event θ κ ρ)
  | .call t x =>
    match c.rest t with
    | none => (c.setRest t (some (code x)), [.called t x])
    | some _ => (c, [])
  | .run t =>
    match c.rest t with
    | none => (c, [])
    | some k => c.advance t k

/-- A run, and what is seen of it. -/
def exec (code : κ → Code σ ρ) : Conf θ σ ρ → List (Act θ κ) → Conf θ σ ρ × List (Event θ κ ρ)
  | c, [] => (c, [])
  | c, a :: as => (((c.step code a).1.exec code as).1,
      (c.step code a).2 ++ ((c.step code a).1.exec code as).2)

end Conf

/-! ## Calls that take effect at once -/

inductive Phase (κ ρ : Type) where
  | idle
  | pending (c : κ)
  | finished (r : ρ)

structure Atomic (θ κ σ ρ : Type) where
  state : σ
  phase : θ → Phase κ ρ

namespace Atomic

def start (s : σ) : Atomic θ κ σ ρ := ⟨s, fun _ => .idle⟩

def setPhase (a : Atomic θ κ σ ρ) (t : θ) (p : Phase κ ρ) : Atomic θ κ σ ρ :=
  { a with phase := Function.update a.phase t p }

/-- `sem` is what a call does to the state, and its result. Between its call and its return a thread
takes one step that is not seen. -/
inductive Runs (sem : κ → σ → ρ × σ) :
    Atomic θ κ σ ρ → List (Event θ κ ρ) → Atomic θ κ σ ρ → Prop where
  | refl {a : Atomic θ κ σ ρ} : Runs sem a [] a
  | call {a b : Atomic θ κ σ ρ} {t : θ} {c : κ} {es : List (Event θ κ ρ)} (h : Runs sem a es b)
      (idle : b.phase t = .idle) : Runs sem a (es ++ [.called t c]) (b.setPhase t (.pending c))
  | effect {a b : Atomic θ κ σ ρ} {t : θ} {c : κ} {es : List (Event θ κ ρ)} (h : Runs sem a es b)
      (pending : b.phase t = .pending c) :
    Runs sem a es ({ b with state := (sem c b.state).2 }.setPhase t (.finished (sem c b.state).1))
  | ret {a b : Atomic θ κ σ ρ} {t : θ} {r : ρ} {es : List (Event θ κ ρ)} (h : Runs sem a es b)
      (finished : b.phase t = .finished r) :
    Runs sem a (es ++ [.returned t r]) (b.setPhase t .idle)

end Atomic

/-! ## Every run has such a view -/

section Simulation

variable {code : κ → Code σ ρ} {sem : κ → σ → ρ × σ}

/-- Where a thread stands in its call. A call that waits for the lock, or needs none, has done
nothing; one that has it has done some of its steps, and the rest amounts to all of it on the state
as it was. -/
inductive Stands (code : κ → Code σ ρ) (sem : κ → σ → ρ × σ) (c : Conf θ σ ρ) (a : Atomic θ κ σ ρ)
    (t : θ) : Prop where
  | idle (rest : c.rest t = none) (phase : a.phase t = .idle)
  | waiting (x : κ) (out : ∀ n, c.held ≠ some (t, n)) (rest : c.rest t = some (code x))
      (phase : a.phase t = .pending x)
  | holding (x : κ) (n : Nat) (k : Code σ ρ) (held : c.held = some (t, n))
      (rest : c.rest t = some k) (phase : a.phase t = .pending x) (within : k.Within (n + 1))
      (same : k.run c.state = sem x a.state)
  | finished (r : ρ) (out : ∀ n, c.held ≠ some (t, n)) (rest : c.rest t = some (.done r))
      (phase : a.phase t = .finished r)

/-- The states agree unless the thread that has the lock is in a call. -/
structure Sim (code : κ → Code σ ρ) (sem : κ → σ → ρ × σ) (c : Conf θ σ ρ) (a : Atomic θ κ σ ρ) :
    Prop where
  stands : ∀ t, Stands code sem c a t
  settled : (∀ t n, c.held = some (t, n) → c.rest t = none) → a.state = c.state

variable {c c' : Conf θ σ ρ} {a a' a₀ : Atomic θ κ σ ρ} {t u : θ} {es : List (Event θ κ ρ)}

omit [DecidableEq θ] in
/-- What another thread does. -/
theorem Stands.frame (h : Stands code sem c a u) (hrest : c'.rest u = c.rest u)
    (hphase : a'.phase u = a.phase u) (hheld : ∀ n, c'.held = some (u, n) ↔ c.held = some (u, n))
    (hstate : ∀ n, c.held = some (u, n) → c'.state = c.state ∧ a'.state = a.state) :
    Stands code sem c' a' u := by
  have hout : (∀ n, c.held ≠ some (u, n)) → ∀ n, c'.held ≠ some (u, n) :=
    fun hout n hn => hout n ((hheld n).mp hn)
  cases h with
  | idle rest phase => exact .idle (hrest.trans rest) (hphase.trans phase)
  | waiting x out rest phase =>
    exact .waiting x (hout out) (hrest.trans rest) (hphase.trans phase)
  | holding x n k held rest phase within same =>
    obtain ⟨hc, ha⟩ := hstate n held
    refine .holding x n k ((hheld n).mpr held) (hrest.trans rest) (hphase.trans phase) within ?_
    rw [hc, ha]
    exact same
  | finished r out rest phase =>
    exact .finished r (hout out) (hrest.trans rest) (hphase.trans phase)

@[simp] theorem setRest_state (k : Option (Code σ ρ)) : (c.setRest t k).state = c.state := rfl
@[simp] theorem setRest_held (k : Option (Code σ ρ)) : (c.setRest t k).held = c.held := rfl
@[simp] theorem setRest_self (k : Option (Code σ ρ)) : (c.setRest t k).rest t = k :=
  Function.update_self ..
theorem setRest_of_ne (k : Option (Code σ ρ)) (h : u ≠ t) : (c.setRest t k).rest u = c.rest u :=
  Function.update_of_ne h ..
@[simp] theorem setPhase_state (p : Phase κ ρ) : (a.setPhase t p).state = a.state := rfl
@[simp] theorem setPhase_self (p : Phase κ ρ) : (a.setPhase t p).phase t = p :=
  Function.update_self ..
theorem setPhase_of_ne (p : Phase κ ρ) (h : u ≠ t) : (a.setPhase t p).phase u = a.phase u :=
  Function.update_of_ne h ..

/-- A step of one thread, which may be the one with the lock; the others stand where they stood. -/
theorem Sim.update (h : Sim code sem c a) {k : Option (Code σ ρ)} {p : Phase κ ρ}
    (s s' : σ) (held : Option (θ × Nat))
    (hheld : ∀ u, u ≠ t → ∀ n, held = some (u, n) ↔ c.held = some (u, n))
    (hstate : ∀ u, u ≠ t → ∀ n, c.held = some (u, n) → s = c.state ∧ s' = a.state)
    (ht : Stands code sem ({ c with state := s, held := held }.setRest t k)
      ({ a with state := s' }.setPhase t p) t)
    (hsettled : (∀ u n, held = some (u, n) → ({ c with state := s, held := held }.setRest t k).rest u =
      none) → s' = s) :
    Sim code sem ({ c with state := s, held := held }.setRest t k)
      ({ a with state := s' }.setPhase t p) where
  stands u := by
    by_cases hu : u = t
    · rw [hu]
      exact ht
    · exact (h.stands u).frame (setRest_of_ne k hu) (setPhase_of_ne p hu) (hheld u hu)
        (hstate u hu)
  settled := hsettled

theorem Sim.call (h : Sim code sem c a) (hguard : ∀ x, (code x).Guarded)
    (hsem : ∀ x s, (code x).run s = sem x s) (x : κ) (hidle : c.rest t = none) :
    Sim code sem (c.setRest t (some (code x))) (a.setPhase t (.pending x)) := by
  refine h.update c.state a.state c.held (fun _ _ _ => .rfl)
    (fun _ _ _ _ => ⟨rfl, rfl⟩) ?_ ?_
  · by_cases hout : ∀ n, c.held ≠ some (t, n)
    · exact .waiting x hout (setRest_self _) (setPhase_self _)
    · -- the thread kept the lock after an earlier call
      simp only [not_forall, not_not] at hout
      obtain ⟨n, hn⟩ := hout
      refine .holding x n (code x) hn (setRest_self _) (setPhase_self _) ((hguard x).within n) ?_
      have hsame : a.state = c.state := by
        refine h.settled fun u m hm => ?_
        rw [hn] at hm
        cases hm
        exact hidle
      show (code x).run c.state = sem x a.state
      rw [hsem, hsame]
  · intro hrest
    refine h.settled fun u n hn => ?_
    by_cases hu : u = t
    · rw [hu]
      exact hidle
    · have hn' := hrest u n hn
      rwa [setRest_of_ne _ hu] at hn'

theorem setPhase_setPhase (p q : Phase κ ρ) : (a.setPhase t p).setPhase t q = a.setPhase t q := by
  unfold Atomic.setPhase
  rw [Function.update_idem]

/-- The whole call takes effect, and is seen to return. -/
theorem runs_effect_ret {x : κ} {r : ρ} {s : σ} (h : Atomic.Runs sem a₀ es a)
    (hphase : a.phase t = .pending x) (hsem : sem x a.state = (r, s)) :
    Atomic.Runs sem a₀ (es ++ [.returned t r]) ({ a with state := s }.setPhase t .idle) := by
  have heffect := h.effect hphase
  rw [hsem] at heffect
  have hret := heffect.ret (r := r) (setPhase_self _)
  rwa [setPhase_setPhase] at hret

/-- The step of a thread is seen of the atomic threads as well. -/
def Follows (code : κ → Code σ ρ) (sem : κ → σ → ρ × σ) (a₀ a : Atomic θ κ σ ρ)
    (es : List (Event θ κ ρ)) (r : Conf θ σ ρ × List (Event θ κ ρ)) : Prop :=
  Atomic.Runs sem a₀ es a → ∃ a', Atomic.Runs sem a₀ (es ++ r.2) a' ∧ Sim code sem r.1 a'

theorem Sim.follows (h : Sim code sem c' a) : Follows code sem a₀ a es (c', []) :=
  fun hruns => ⟨a, by rwa [List.append_nil], h⟩

omit [DecidableEq θ] in
/-- Other threads do not have the lock that `t` has. -/
theorem held_iff_of_ne {n m : Nat} (hheld : c.held = some (t, n)) (hu : u ≠ t) (i : Nat) :
    some (t, m) = some (u, i) ↔ c.held = some (u, i) := by
  rw [hheld]
  constructor
  · rintro heq
    cases heq
    exact absurd rfl hu
  · rintro heq
    cases heq
    exact absurd rfl hu

theorem Sim.advance_waiting (h : Sim code sem c a) (hguard : ∀ x, (code x).Guarded)
    (hsem : ∀ x s, (code x).run s = sem x s) (x : κ) (hout : ∀ n, c.held ≠ some (t, n))
    (hrest : c.rest t = some (code x)) (hphase : a.phase t = .pending x) :
    Follows code sem a₀ a es (c.advance t (code x)) := by
  have hrun := hsem x
  have hok := hguard x
  cases hx : code x with
  | done r =>
    rw [hx] at hrun
    intro hruns
    refine ⟨_, runs_effect_ret hruns hphase (hrun a.state).symm, ?_⟩
    refine h.update c.state a.state c.held (fun _ _ _ => .rfl)
      (fun _ _ _ _ => ⟨rfl, rfl⟩) (.idle (setRest_self _) (setPhase_self _)) fun hnone => ?_
    refine h.settled fun u n hn => ?_
    have hu : u ≠ t := by
      rintro rfl
      exact hout n hn
    have hn' := hnone u n hn
    rwa [setRest_of_ne _ hu] at hn'
  | lock k =>
    rw [hx] at hrun hok hrest
    unfold Conf.advance
    cases hheld : c.held with
    | none =>
      have hstate : a.state = c.state := h.settled fun u n hn => by
        rw [hheld] at hn
        cases hn
      have hstands : Stands code sem ({ c with held := some (t, 0) }.setRest t (some k)) a t :=
        .holding x 0 k rfl (setRest_self _) hphase hok (by
          show k.run c.state = sem x a.state
          rw [← hrun, hstate]
          rfl)
      have hsame : a.setPhase t (.pending x) = a := by
        unfold Atomic.setPhase
        rw [← hphase, Function.update_eq_self]
      refine Sim.follows ?_
      rw [← hsame] at hstands ⊢
      refine h.update c.state a.state (some (t, 0)) ?_
        (fun _ _ _ _ => ⟨rfl, rfl⟩) hstands fun _ => hstate
      intro u hu n
      rw [hheld]
      constructor
      · rintro heq
        cases heq
        exact absurd rfl hu
      · nofun
    | some p =>
      obtain ⟨u, n⟩ := p
      have hu : u ≠ t := by
        rintro rfl
        exact hout n hheld
      simp only [if_neg hu]
      exact h.follows
  | unlock k =>
    rw [hx] at hok
    exact hok.elim
  | act f k =>
    rw [hx] at hok
    exact hok.elim

theorem Sim.advance_holding (h : Sim code sem c a) (x : κ) (n : Nat) (k : Code σ ρ)
    (hheld : c.held = some (t, n)) (hrest : c.rest t = some k) (hphase : a.phase t = .pending x)
    (hwithin : k.Within (n + 1)) (hsame : k.run c.state = sem x a.state) :
    Follows code sem a₀ a es (c.advance t k) := by
  have hpending : a.setPhase t (.pending x) = a := by
    unfold Atomic.setPhase
    rw [← hphase, Function.update_eq_self]
  have hothers : ∀ u, u ≠ t → ∀ m, c.held ≠ some (u, m) := by
    rintro u hu m hm
    rw [hheld] at hm
    cases hm
    exact hu rfl
  -- the thread goes on in its call
  have hgo : ∀ (s : σ) (m : Nat) (k' : Code σ ρ), k'.Within (m + 1) → k'.run s = sem x a.state →
      Sim code sem ({ c with state := s, held := some (t, m) }.setRest t (some k')) a := by
    intro s m k' hk' hrun
    have hstands : Stands code sem ({ c with state := s, held := some (t, m) }.setRest t (some k')) a
        t := .holding x m k' rfl (setRest_self _) hphase hk' hrun
    rw [← hpending] at hstands ⊢
    refine h.update _ a.state _ (fun u hu i => held_iff_of_ne hheld hu i) ?_ hstands ?_
    · exact fun u hu i hi => absurd hi (hothers u hu i)
    · intro hnone
      have hrest' := hnone t m rfl
      rw [setRest_self] at hrest'
      cases hrest'
  cases k with
  | done r =>
    intro hruns
    refine ⟨_, runs_effect_ret hruns hphase hsame.symm, ?_⟩
    exact h.update c.state c.state c.held (fun _ _ _ => .rfl)
      (fun u hu i hi => absurd hi (hothers u hu i)) (.idle (setRest_self _) (setPhase_self _))
      fun _ => rfl
  | lock k =>
    unfold Conf.advance
    simp only [hheld, if_true]
    cases hwithin with
    | lock hk => exact (hgo c.state (n + 1) k hk hsame).follows
  | unlock k =>
    unfold Conf.advance
    cases hwithin with
    | unlock hk =>
      cases n with
      | zero =>
        obtain ⟨r, rfl⟩ := hk.done_of_zero
        simp only [hheld, if_true]
        intro hruns
        have heffect := hruns.effect hphase
        have hres : sem x a.state = (r, c.state) := hsame.symm
        rw [hres] at heffect
        refine ⟨_, by rwa [List.append_nil], ?_⟩
        refine h.update c.state c.state none ?_
          (fun u hu i hi => absurd hi (hothers u hu i)) ?_ fun _ => rfl
        · exact fun u hu i => iff_of_false nofun (hothers u hu i)
        · exact .finished r nofun (setRest_self _) (setPhase_self _)
      | succ n =>
        simp only [hheld, if_true]
        exact (hgo c.state n k hk hsame).follows
  | act f k =>
    unfold Conf.advance
    cases hwithin with
    | act hk =>
      have hsim := hgo (f c.state) n (k c.state) (hk c.state) hsame
      rw [← hheld] at hsim
      exact hsim.follows

theorem Sim.step (h : Sim code sem c a) (hguard : ∀ x, (code x).Guarded)
    (hsem : ∀ x s, (code x).run s = sem x s) (o : Act θ κ) :
    Follows code sem a₀ a es (c.step code o) := by
  cases o with
  | call t x =>
    cases hrest : c.rest t with
    | none =>
      simp only [Conf.step, hrest]
      intro hruns
      refine ⟨_, hruns.call ?_, h.call hguard hsem x hrest⟩
      cases h.stands t with
      | idle _ phase => exact phase
      | waiting _ _ rest _ => rw [hrest] at rest; cases rest
      | holding _ _ _ _ rest _ _ _ => rw [hrest] at rest; cases rest
      | finished _ _ rest _ => rw [hrest] at rest; cases rest
    | some k =>
      simp only [Conf.step, hrest]
      exact h.follows
  | run t =>
    cases hrest : c.rest t with
    | none =>
      simp only [Conf.step, hrest]
      exact h.follows
    | some k =>
      simp only [Conf.step, hrest]
      cases h.stands t with
      | idle rest phase => rw [hrest] at rest; cases rest
      | waiting x out rest phase =>
        have hk := rest
        rw [hrest] at hk
        cases hk
        exact h.advance_waiting hguard hsem x out rest phase
      | holding x n k' held rest phase within same =>
        have hk := rest
        rw [hrest] at hk
        cases hk
        exact h.advance_holding x n k held rest phase within same
      | finished r out rest phase =>
        have hk := rest
        rw [hrest] at hk
        cases hk
        intro hruns
        refine ⟨_, hruns.ret phase, ?_⟩
        refine h.update c.state a.state c.held (fun _ _ _ => .rfl)
          (fun _ _ _ _ => ⟨rfl, rfl⟩) (.idle (setRest_self _) (setPhase_self _)) fun hnone => ?_
        refine h.settled fun u n hn => ?_
        have hu : u ≠ t := by
          rintro rfl
          exact out n hn
        have hn' := hnone u n hn
        rwa [setRest_of_ne _ hu] at hn'

/-- Whatever is seen of a run of guarded calls, in any order of their steps, is seen as well of calls
that each take effect at one instant between call and return. When no thread that has the lock is in
a call, the states agree, too. -/
theorem serializable (hguard : ∀ x, (code x).Guarded) (hsem : ∀ x s, (code x).run s = sem x s)
    (s : σ) (acts : List (Act θ κ)) :
    ∃ a, Atomic.Runs sem (.start s) ((Conf.start s).exec code acts).2 a ∧
      Sim code sem ((Conf.start s).exec code acts).1 a := by
  have hrun : ∀ (acts : List (Act θ κ)) (c : Conf θ σ ρ) (a : Atomic θ κ σ ρ)
      (es : List (Event θ κ ρ)), Sim code sem c a → Atomic.Runs sem (.start s) es a →
      ∃ a', Atomic.Runs sem (.start s) (es ++ (c.exec code acts).2) a' ∧
        Sim code sem (c.exec code acts).1 a' := by
    intro acts
    induction acts with
    | nil => exact fun c a es h hruns => ⟨a, by rwa [Conf.exec, List.append_nil], h⟩
    | cons o acts ih =>
      intro c a es h hruns
      obtain ⟨a', hruns', h'⟩ := h.step hguard hsem o hruns
      obtain ⟨b, hb, hsim⟩ := ih _ a' _ h' hruns'
      refine ⟨b, ?_, hsim⟩
      rwa [Conf.exec, ← List.append_assoc]
  have hstart : Sim code sem (Conf.start s : Conf θ σ ρ) (.start s) :=
    ⟨fun t => .idle rfl rfl, fun _ => rfl⟩
  obtain ⟨a, hruns, hsim⟩ := hrun acts _ _ [] hstart .refl
  exact ⟨a, by rwa [List.nil_append] at hruns, hsim⟩

end Simulation

end Serial
end Usbrw
