import Usbrw.Base.Region
import Usbrw.Base.Service

/-!
# Base.FlatFile

Files as the cells they hold, one after another, over any type of cells. Where nothing was written
there are blanks.

* `read`, `write`, `resize` — the cells from a position on, cells stored there, another length.
* `read_slice`, `write_slice`, `resize_slice` — the same of an image and a length.
* `Store`, `Files`          — files under keys, and what may be answered to requests for them.
-/

namespace Usbrw
namespace FlatFile

open Region

variable {α : Type}

def read (f : List α) (a n : Nat) : List α := (f.drop a).take n

/-- Cut off, or filled up with blanks. -/
def resize (blank : α) (f : List α) (n : Nat) : List α :=
  f.take n ++ List.replicate (n - f.length) blank

/-- Nothing is stored, and no blanks either, for no cells at all. -/
def write (blank : α) (f : List α) (a : Nat) (xs : List α) : List α :=
  if xs = [] then f else patch (resize blank f (max f.length a)) a xs

section Slices

variable {blank : α} {img img' : Nat → α} {n m a : Nat} {xs : List α}

theorem read_slice (img : Nat → α) (n a m : Nat) :
    read (slice img 0 n) a m = slice img a (min m (n - a)) := by
  unfold read
  by_cases ha : a ≤ n
  · rw [drop_slice ha, Nat.zero_add]
    by_cases hm : m ≤ n - a
    · rw [take_slice hm, Nat.min_eq_left hm]
    · rw [List.take_of_length_le (by simp; omega), Nat.min_eq_right (by omega)]
  · rw [List.drop_eq_nil_of_le (by simp; omega), show min m (n - a) = 0 by omega]
    simp

theorem slice_of_blank (h : ∀ p, a ≤ p → p < a + n → img p = blank) :
    slice img a n = List.replicate n blank := by
  rw [List.eq_replicate_iff]
  refine ⟨length_slice img a n, fun x hx => ?_⟩
  obtain ⟨i, hi, rfl⟩ := List.mem_map.mp hx
  have hlt : i < n := List.mem_range.mp hi
  exact h (a + i) (by omega) (by omega)

theorem resize_slice (hkept : ∀ p, p < n → p < m → img' p = img p)
    (hblank : ∀ p, n ≤ p → p < m → img' p = blank) :
    slice img' 0 m = resize blank (slice img 0 n) m := by
  have hold : ∀ k, k ≤ n → k ≤ m → slice img' 0 k = slice img 0 k :=
    fun k hn hm => slice_congr fun p _ hp => hkept p (by omega) (by omega)
  unfold resize
  rw [length_slice]
  by_cases hm : m ≤ n
  · rw [take_slice hm, Nat.sub_eq_zero_of_le hm, List.replicate_zero, List.append_nil]
    exact hold m hm (Nat.le_refl m)
  · obtain ⟨k, rfl⟩ := Nat.exists_eq_add_of_le (show n ≤ m by omega)
    have hrest : slice img' n k = List.replicate k blank :=
      slice_of_blank fun p hn hk => hblank p hn hk
    rw [List.take_of_length_le (by simp), slice_add, Nat.zero_add, hrest, hold n (by omega) (by omega),
      Nat.add_sub_cancel_left]

/-- An image with blanks from its end on. -/
theorem write_slice (hne : xs ≠ []) (hblank : ∀ p, n ≤ p → img p = blank) :
    slice (overwrite img a xs) 0 (max n (a + xs.length)) = write blank (slice img 0 n) a xs := by
  have hgrown : resize blank (slice img 0 n) (max n a) = slice img 0 (max n a) :=
    (resize_slice (fun _ _ _ => rfl) fun p hp _ => hblank p hp).symm
  have hend : max n (a + xs.length) = a + (xs.length + (n - (a + xs.length))) := by omega
  have hbefore : slice (overwrite img a xs) 0 a = slice img 0 a :=
    slice_overwrite_disjoint (.inl (by omega))
  have hafter : slice (overwrite img a xs) (a + xs.length) (n - (a + xs.length)) =
      slice img (a + xs.length) (n - (a + xs.length)) :=
    slice_overwrite_disjoint (.inr (Nat.le_refl _))
  unfold write
  rw [if_neg hne, length_slice, hgrown, patch, take_slice (Nat.le_max_right n a), hend, slice_add,
    Nat.zero_add, slice_add, hbefore, slice_overwrite_self, hafter, List.append_assoc]
  congr 2
  by_cases hle : a + xs.length ≤ max n a
  · rw [drop_slice hle, Nat.zero_add]
    congr 1
    omega
  · rw [List.drop_eq_nil_of_le (by simp; omega), show n - (a + xs.length) = 0 by omega, slice_zero]

end Slices

/-! ## Files under keys -/

variable {κ : Type} [DecidableEq κ]

abbrev Store (κ α : Type) : Type := κ → Option (List α)

inductive Request (κ α : Type) where
  | read (file : κ) (offset len : Nat)
  | write (file : κ) (offset : Nat) (cells : List α)
  | resize (file : κ) (len : Nat)

inductive Reply (α : Type) where
  | cells (xs : List α)
  | count (n : Nat)
  | done
  | failed

/-- A read stores what there is of the cells asked for. A write may store fewer than it was given,
and says so. What fails changes nothing, but a file whose length could not be set may hold
anything. -/
inductive Files (blank : α) : Service.Contract (Store κ α) (Request κ α) (Reply α) where
  | read {fs : Store κ α} {k : κ} {f : List α} (a n : Nat) (file : fs k = some f) :
    Files blank fs (.read k a n) (.cells (FlatFile.read f a n)) fs
  | readFailed {fs : Store κ α} (k : κ) (a n : Nat) : Files blank fs (.read k a n) .failed fs
  | write {fs : Store κ α} {k : κ} {f : List α} (a : Nat) {xs : List α} {n : Nat}
      (file : fs k = some f) (count : n ≤ xs.length) :
    Files blank fs (.write k a xs) (.count n)
      (Function.update fs k (some (FlatFile.write blank f a (xs.take n))))
  | writeFailed {fs : Store κ α} (k : κ) (a : Nat) (xs : List α) :
    Files blank fs (.write k a xs) .failed fs
  | resize {fs : Store κ α} {k : κ} {f : List α} (n : Nat) (file : fs k = some f) :
    Files blank fs (.resize k n) .done (Function.update fs k (some (FlatFile.resize blank f n)))
  | resizeFailed {fs : Store κ α} (k : κ) (n : Nat) (f : Option (List α)) :
    Files blank fs (.resize k n) .failed (Function.update fs k f)

end FlatFile
end Usbrw
