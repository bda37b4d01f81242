import Mathlib.Data.List.Count

/-!
# Base.Ledger

What a sequence of acquisitions and releases holds.

* `Entry`      — something acquired, exchanged for something else or for nothing, or released.
* `run`        — what is held after a sequence, if nothing was given up that was not held.
* `kept`       — what would be held if nothing had been released.
* `released_eq_kept` — a sequence that ends with nothing held has released all that it kept.
-/

namespace Usbrw
namespace Ledger

inductive Entry (α : Type) where
  | acquire (a : α)
  | exchange (a : α) (b : Option α)
  | release (a : α)

variable {α : Type} [DecidableEq α]

@[simp] def Entry.step : Entry α → List α → Option (List α)
  | acquire a, held => some (a :: held)
  | exchange a b, held => if a ∈ held then some (b.toList ++ held.erase a) else none
  | release a, held => if a ∈ held then some (held.erase a) else none

@[simp] def run : List (Entry α) → List α → Option (List α)
  | [], held => some held
  | e :: es, held => (e.step held).bind (run es)

@[simp] def Entry.keep : Entry α → List α → List α
  | acquire a, kept => a :: kept
  | exchange a b, kept => b.toList ++ kept.erase a
  | release _, kept => kept

@[simp] def kept : List (Entry α) → List α → List α
  | [], held => held
  | e :: es, held => kept es (e.keep held)

def Entry.releases (a : α) : Entry α → Bool
  | release b => b = a
  | _ => false

def released (a : α) (es : List (Entry α)) : Nat := es.countP (Entry.releases a)

theorem run_append (es es' : List (Entry α)) (held : List α) :
    run (es ++ es') held = (run es held).bind (run es') := by
  induction es generalizing held with
  | nil => rfl
  | cons e es ih =>
    simp only [List.cons_append, run, Option.bind_assoc]
    congr
    funext mid
    exact ih mid

theorem kept_append (es es' : List (Entry α)) (held : List α) :
    kept (es ++ es') held = kept es' (kept es held) := by
  induction es generalizing held with
  | nil => rfl
  | cons e es ih => exact ih (e.keep held)

/-- What is not held but kept has been released. -/
theorem Entry.step_count {e : Entry α} {held held' ks : List α} (h : e.step held = some held')
    (hle : ∀ a, held.count a ≤ ks.count a) (a : α) :
    (e.keep ks).count a + held.count a =
      held'.count a + (if e.releases a then 1 else 0) + ks.count a := by
  cases e with
  | acquire b =>
    simp only [step, Option.some.injEq] at h
    subst h
    simp only [keep, releases, List.count_cons, Bool.false_eq_true, if_false]
    omega
  | exchange b c =>
    simp only [step] at h
    split at h
    case isFalse => cases h
    case isTrue hmem =>
      cases h
      have hb := hle b
      have hpos := List.count_pos_iff.mpr hmem
      simp only [keep, releases, List.count_append, List.count_erase, Bool.false_eq_true, if_false]
      by_cases hab : b = a
      · subst hab
        simp only [beq_self_eq_true, if_true]
        omega
      · rw [if_neg (by simpa using hab)]
        omega
  | release b =>
    simp only [step] at h
    split at h
    case isFalse => cases h
    case isTrue hmem =>
      cases h
      have hpos := List.count_pos_iff.mpr hmem
      simp only [keep, releases, List.count_erase, decide_eq_true_eq]
      by_cases hab : b = a
      · subst hab
        simp only [beq_self_eq_true, if_true]
        omega
      · rw [if_neg (by simpa using hab), if_neg hab]
        omega

theorem run_count {es : List (Entry α)} {held held' ks : List α} (h : run es held = some held')
    (hle : ∀ a, held.count a ≤ ks.count a) (a : α) :
    (kept es ks).count a + held.count a = held'.count a + released a es + ks.count a := by
  induction es generalizing held ks with
  | nil =>
    cases h
    simp only [kept, released, List.countP_nil]
    omega
  | cons e es ih =>
    obtain ⟨mid, hstep, hrun⟩ := Option.bind_eq_some_iff.mp h
    have hcount := Entry.step_count hstep hle
    have hmid : ∀ b, mid.count b ≤ (e.keep ks).count b := by
      intro b
      have := hcount b
      have := hle b
      omega
    have hrest := ih hrun hmid
    have := hcount a
    simp only [kept, released, List.countP_cons] at hrest ⊢
    omega

theorem released_eq_kept {es : List (Entry α)} (h : run es [] = some []) (a : α) :
    released a es = (kept es []).count a := by
  have := run_count h (fun _ => Nat.le_refl _) a
  simp only [List.count_nil] at this
  omega

end Ledger
end Usbrw
