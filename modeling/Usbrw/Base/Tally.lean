import Mathlib.Algebra.BigOperators.Finprod
import Mathlib.Algebra.Order.BigOperators.Group.Finset

/-!
# Base.Tally

How many items of a finite family of lists have a property.

* `tally`           — the number.
* `tally_swap`      — what it becomes when one list of the family is another.
* `tally_insert`    — and with an item more.
* `tally_pos_iff`, `unique_of_tally_le_one` — where the items are.
-/

namespace Usbrw
namespace Tally

variable {ι α : Type} [Fintype ι] {f g : ι → List α} {p q : α → Bool} {i : ι}

/-- A sum that does not compute: over a type such as `UInt32` it must never be unfolded. -/
noncomputable def tally (f : ι → List α) (p : α → Bool) : Nat := ∑ᶠ c, (f c).countP p

theorem tally_eq_sum : tally f p = ∑ c, (f c).countP p := finsum_eq_sum_of_fintype _

theorem tally_congr (h : ∀ c, (g c).countP p = (f c).countP p) : tally g p = tally f p := by
  rw [tally_eq_sum, tally_eq_sum]
  exact Finset.sum_congr rfl fun c _ => h c

theorem tally_eq_zero_iff : tally f p = 0 ↔ ∀ c, ∀ x ∈ f c, ¬ p x := by
  simp [tally_eq_sum, List.countP_eq_zero]

theorem tally_pos_iff : 0 < tally f p ↔ ∃ c, ∃ x ∈ f c, p x := by
  rw [Nat.pos_iff_ne_zero, ne_eq, tally_eq_zero_iff]
  simp

theorem countP_le_tally (i : ι) : (f i).countP p ≤ tally f p := by
  rw [tally_eq_sum]
  exact Finset.single_le_sum (f := fun c => (f c).countP p) (fun _ _ => Nat.zero_le _)
    (Finset.mem_univ i)

/-- Only the lists of `s` count where the others are empty. -/
theorem tally_of_support (s : Finset ι) (h : ∀ c, c ∉ s → f c = []) :
    tally f p = ∑ c ∈ s, (f c).countP p := by
  rw [tally_eq_sum]
  refine (Finset.sum_subset (Finset.subset_univ s) ?_).symm
  intro c _ hc
  rw [h c hc]
  rfl

/-- Items of two kinds that exclude each other are counted one kind after the other. -/
theorem countP_split {q r t : α → Bool} (h : ∀ a, q a = (r a || t a))
    (hdisj : ∀ a, r a = true → t a = false) (l : List α) :
    l.countP q = l.countP r + l.countP t := by
  induction l with
  | nil => rfl
  | cons a l ih =>
    rw [List.countP_cons, List.countP_cons, List.countP_cons, ih, h a]
    cases hr : r a with
    | true =>
      rw [hdisj a hr]
      simp
      omega
    | false =>
      simp
      omega

variable [DecidableEq ι]

theorem tally_swap (h : ∀ c, c ≠ i → g c = f c) :
    tally g p + (f i).countP p = tally f p + (g i).countP p := by
  have hrest : ∑ c ∈ Finset.univ.erase i, (g c).countP p =
      ∑ c ∈ Finset.univ.erase i, (f c).countP p := by
    refine Finset.sum_congr rfl fun c hc => ?_
    rw [h c (Finset.ne_of_mem_erase hc)]
  have hf := Finset.add_sum_erase Finset.univ (fun c => (f c).countP p) (Finset.mem_univ i)
  have hg := Finset.add_sum_erase Finset.univ (fun c => (g c).countP p) (Finset.mem_univ i)
  rw [tally_eq_sum, tally_eq_sum]
  omega

theorem tally_insert {l₁ l₂ : List α} {a : α} (h : ∀ c, c ≠ i → g c = f c) (hf : f i = l₁ ++ l₂)
    (hg : g i = l₁ ++ a :: l₂) : tally g p = tally f p + if p a then 1 else 0 := by
  have hswap := tally_swap (p := p) h
  rw [hf, hg, List.countP_append, List.countP_append, List.countP_cons] at hswap
  omega

/-- Two lists of a family do not both hold the one item there is. -/
theorem unique_of_tally_le_one (h : tally f p ≤ 1) {c d : ι} {x y : α} (hx : x ∈ f c) (hpx : p x)
    (hy : y ∈ f d) (hpy : p y) : c = d := by
  by_contra hne
  have hc : 0 < (f c).countP p := List.countP_pos_iff.mpr ⟨x, hx, hpx⟩
  have hd : 0 < (f d).countP p := List.countP_pos_iff.mpr ⟨y, hy, hpy⟩
  have hsum := Finset.add_sum_erase Finset.univ (fun c => (f c).countP p) (Finset.mem_univ c)
  have hle : (f d).countP p ≤ ∑ c ∈ Finset.univ.erase c, (f c).countP p :=
    Finset.single_le_sum (f := fun c => (f c).countP p) (fun _ _ => Nat.zero_le _)
      (Finset.mem_erase.mpr ⟨fun heq => hne heq.symm, Finset.mem_univ d⟩)
  rw [tally_eq_sum] at h
  omega

end Tally
end Usbrw
