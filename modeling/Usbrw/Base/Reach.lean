import Mathlib.Logic.Relation

/-!
# Base.Reach

Reachability from a root along a relation, when the relation changes around one point.

* `reach_of_leaf` — if nothing leads on from `x`, every other point stays reachable as long as the
  steps that do not lead to `x` stay.
* `reach_within`  — a set that holds the root and is closed under steps holds all that is reachable.
-/

namespace Usbrw
namespace Reach

open Relation

variable {α : Type} {r r' : α → α → Prop} {root x c : α}

theorem reach_of_leaf (hleaf : ∀ b, ¬ r x b) (hkeep : ∀ a b, r a b → b ≠ x → r' a b)
    (h : ReflTransGen r root c) (hc : c ≠ x) : ReflTransGen r' root c := by
  induction h with
  | refl => exact .refl
  | @tail b c _ hbc ih =>
    have hb : b ≠ x := by
      rintro rfl
      exact hleaf c hbc
    exact (ih hb).tail (hkeep b c hbc hc)

theorem reach_within {S : α → Prop} (hroot : S root) (hstep : ∀ a b, S a → r a b → S b)
    (h : ReflTransGen r root c) : S c := by
  induction h with
  | refl => exact hroot
  | tail _ hbc ih => exact hstep _ _ ih hbc

end Reach
end Usbrw
