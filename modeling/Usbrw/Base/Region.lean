import Mathlib.Data.List.Basic

/-!
# Base.Region

Byte-addressed images, over any type of cells. An image gives every address a cell; a transfer
moves a run of consecutive cells.

* `slice img a n`      — the `n` cells of `img` from address `a` on.
* `overwrite img a xs` — `img` with the cells `xs` stored from address `a` on.
* `patch xs i w`       — the buffer `xs` with the window `w` copied in at index `i`.
* `cellAt xs a p`      — the cell at `p` of a buffer laid out from the signed address `a` on.
* `store`, `load`      — storing such a buffer, and filling one.
* `Carries`            — being what an image holds there.

`overwrite_patch_slice` is the rule for read-modify-write: storing back a run of cells in which a
window was replaced is storing that window alone.
-/

namespace Usbrw
namespace Region

variable {α : Type}

def slice (img : Nat → α) (a n : Nat) : List α := (List.range n).map fun i => img (a + i)

def overwrite (img : Nat → α) (a : Nat) (xs : List α) : Nat → α := fun p =>
  if a ≤ p then (xs[p - a]?).getD (img p) else img p

def patch (xs : List α) (i : Nat) (w : List α) : List α :=
  xs.take i ++ w ++ xs.drop (i + w.length)

/-! ## Reading a run of cells -/

@[simp] theorem length_slice (img : Nat → α) (a n : Nat) : (slice img a n).length = n := by
  simp [slice]

@[simp] theorem slice_zero (img : Nat → α) (a : Nat) : slice img a 0 = [] := rfl

theorem getElem?_slice {img : Nat → α} {a n i : Nat} (h : i < n) :
    (slice img a n)[i]? = some (img (a + i)) := by
  simp [slice, h]

theorem slice_add (img : Nat → α) (a m n : Nat) :
    slice img a (m + n) = slice img a m ++ slice img (a + m) n := by
  simp [slice, List.range_add, List.map_append, Nat.add_assoc, Function.comp_def]

theorem take_slice {img : Nat → α} {a n k : Nat} (h : k ≤ n) :
    (slice img a n).take k = slice img a k := by
  obtain ⟨m, rfl⟩ := Nat.exists_eq_add_of_le h
  simp [slice_add]

theorem drop_slice {img : Nat → α} {a n k : Nat} (h : k ≤ n) :
    (slice img a n).drop k = slice img (a + k) (n - k) := by
  obtain ⟨m, rfl⟩ := Nat.exists_eq_add_of_le h
  simp [slice_add]

theorem window_slice {img : Nat → α} {a b i n : Nat} (h : i + n ≤ b) :
    ((slice img a b).drop i).take n = slice img (a + i) n := by
  rw [drop_slice (by omega), take_slice (by omega)]

theorem slice_congr {img img' : Nat → α} {a n : Nat}
    (h : ∀ p, a ≤ p → p < a + n → img p = img' p) : slice img a n = slice img' a n := by
  simp only [slice]
  apply List.map_congr_left
  intro i hi
  have hlt : i < n := by simpa using hi
  exact h (a + i) (by omega) (by omega)

/-! ## Storing a run of cells -/

theorem overwrite_outside {img : Nat → α} {a p : Nat} {xs : List α}
    (h : p < a ∨ a + xs.length ≤ p) : overwrite img a xs p = img p := by
  simp only [overwrite]
  by_cases ha : a ≤ p
  · rw [if_pos ha, List.getElem?_eq_none (by omega)]; rfl
  · rw [if_neg ha]

theorem overwrite_inside {img : Nat → α} {a p : Nat} {xs : List α} (h1 : a ≤ p)
    (h2 : p < a + xs.length) : some (overwrite img a xs p) = xs[p - a]? := by
  have hi : p - a < xs.length := by omega
  simp [overwrite, h1, List.getElem?_eq_getElem hi]

@[simp] theorem overwrite_nil (img : Nat → α) (a : Nat) : overwrite img a [] = img := by
  funext p; simp [overwrite]

theorem overwrite_append (img : Nat → α) (a : Nat) (xs ys : List α) :
    overwrite img a (xs ++ ys) = overwrite (overwrite img a xs) (a + xs.length) ys := by
  funext p
  simp only [overwrite]
  by_cases h1 : a ≤ p
  · by_cases h2 : a + xs.length ≤ p
    · have hx : xs.length ≤ p - a := by omega
      rw [if_pos h1, if_pos h2, if_pos h1, List.getElem?_append_right hx,
        List.getElem?_eq_none hx, show p - a - xs.length = p - (a + xs.length) by omega]
      rfl
    · rw [if_pos h1, if_neg h2, if_pos h1, List.getElem?_append_left (by omega)]
  · rw [if_neg h1, if_neg (show ¬ a + xs.length ≤ p by omega), if_neg h1]

theorem overwrite_slice (img : Nat → α) (a n : Nat) : overwrite img a (slice img a n) = img := by
  funext p
  by_cases h : p < a ∨ a + n ≤ p
  · exact overwrite_outside (by simpa using h)
  · have hi : p - a < n := by omega
    have e : some (overwrite img a (slice img a n) p) = (slice img a n)[p - a]? :=
      overwrite_inside (by omega) (by simp; omega)
    rw [getElem?_slice hi, Nat.add_sub_cancel' (by omega)] at e
    exact Option.some.inj e

theorem slice_overwrite_disjoint {img : Nat → α} {a b n : Nat} {xs : List α}
    (h : b + n ≤ a ∨ a + xs.length ≤ b) :
    slice (overwrite img a xs) b n = slice img b n :=
  slice_congr fun _ h1 h2 => overwrite_outside (by omega)

theorem slice_overwrite_self (img : Nat → α) (a : Nat) (xs : List α) :
    slice (overwrite img a xs) a xs.length = xs := by
  apply List.ext_getElem?
  intro i
  by_cases hi : i < xs.length
  · rw [getElem?_slice hi, overwrite_inside (by omega) (by omega), Nat.add_sub_cancel_left]
  · rw [List.getElem?_eq_none (by simp; omega), List.getElem?_eq_none (by omega)]

/-! ## Read-modify-write -/

theorem length_patch {xs w : List α} {i : Nat} (h : i + w.length ≤ xs.length) :
    (patch xs i w).length = xs.length := by
  simp [patch]; omega

/-- Storing back a slice in which the window at `i` was replaced stores the window alone. -/
theorem overwrite_patch_slice {img : Nat → α} {a n i : Nat} {w : List α}
    (h : i + w.length ≤ n) :
    overwrite img a (patch (slice img a n) i w) = overwrite img (a + i) w := by
  have hi : i ≤ n := by omega
  have e : slice img (a + (i + w.length)) (n - (i + w.length)) =
      slice (overwrite img (a + i) w) (a + i + w.length) (n - (i + w.length)) := by
    rw [slice_overwrite_disjoint (Or.inr (Nat.le_refl _)), Nat.add_assoc]
  rw [patch, take_slice hi, drop_slice h, overwrite_append, overwrite_append, overwrite_slice,
    length_slice, e, List.length_append, length_slice, ← Nat.add_assoc, overwrite_slice]

/-! ## Signed addresses -/

def cellAt (xs : List α) (a p : Int) : Option α := if a ≤ p then xs[(p - a).toNat]? else none

def store (img : Int → α) (a : Int) (xs : List α) : Int → α := fun p =>
  (cellAt xs a p).getD (img p)

/-- `xs` is what `img` holds from address `a` on. -/
def Carries (img : Int → α) (a : Int) (xs : List α) : Prop :=
  ∀ p x, cellAt xs a p = some x → img p = x

/-- The `n` cells of `img` from address `a` on. -/
def load (img : Int → α) (a : Int) (n : Nat) : List α :=
  (List.range n).map fun i : Nat => img (a + i)

@[simp] theorem length_load (img : Int → α) (a : Int) (n : Nat) : (load img a n).length = n := by
  simp [load]

theorem carries_load (img : Int → α) (a : Int) (n : Nat) : Carries img a (load img a n) := by
  intro p x hx
  by_cases ha : a ≤ p
  · simp only [cellAt, if_pos ha, load, List.getElem?_map] at hx
    obtain ⟨i, hi, rfl⟩ := Option.map_eq_some_iff.mp hx
    obtain ⟨_, rfl⟩ := List.getElem?_eq_some_iff.mp hi
    rw [List.getElem_range, Int.toNat_of_nonneg (by omega)]
    congr 1
    omega
  · simp [cellAt, if_neg ha] at hx

theorem cellAt_inside {xs : List α} {a p : Int} (h1 : a ≤ p) (h2 : p < a + xs.length) :
    ∃ x, cellAt xs a p = some x := by
  have hi : (p - a).toNat < xs.length := by omega
  exact ⟨xs[(p - a).toNat], by simp [cellAt, h1, List.getElem?_eq_getElem hi]⟩

theorem bounds_of_cellAt {xs : List α} {a p : Int} {x : α} (h : cellAt xs a p = some x) :
    a ≤ p ∧ p < a + xs.length := by
  by_cases ha : a ≤ p
  · rw [cellAt, if_pos ha] at h
    obtain ⟨hi, _⟩ := List.getElem?_eq_some_iff.mp h
    omega
  · rw [cellAt, if_neg ha] at h
    cases h

theorem store_of_cellAt {img : Int → α} {a p : Int} {xs : List α} {x : α}
    (h : cellAt xs a p = some x) : store img a xs p = x := by
  rw [store, h]; rfl

theorem store_of_none {img : Int → α} {a p : Int} {xs : List α} (h : cellAt xs a p = none) :
    store img a xs p = img p := by
  rw [store, h]; rfl

theorem Carries.congr {img img' : Int → α} {a : Int} {xs : List α} (h : Carries img a xs)
    (e : ∀ p, a ≤ p → p < a + xs.length → img' p = img p) : Carries img' a xs := by
  intro p x hx
  obtain ⟨h1, h2⟩ := bounds_of_cellAt hx
  rw [e p h1 h2, h p x hx]

end Region
end Usbrw
