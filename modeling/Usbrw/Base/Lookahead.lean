import Usbrw.Base.Paging

/-!
# Base.Lookahead

Enumerating items at increasing positions where every item is delivered late, when the next one is
met: the position of that one is its cookie. The last item gets a position past all of them.

* `deliveries`          — the items to deliver, each with its cookie.
* `deliveries_cookie`   — a cookie stands for the items after its own.
* `pages_of_deliveries` — the first few deliveries are a page in the sense of `Base.Paging`.
-/

namespace Usbrw
namespace Paging

variable {α β : Type} {pos : α → Nat} {skip : α → Bool} {report : α → Option β} {fin : Nat}

/-- With `pending` still to be delivered. An item that is skipped delivers nothing; one that is not
makes room for itself even if there is nothing to report of it. -/
def deliveries (pos : α → Nat) (skip : α → Bool) (report : α → Option β) (fin : Nat) :
    Option β → List α → List (β × Nat)
  | none, [] => []
  | some b, [] => [(b, fin)]
  | none, x :: xs =>
    if skip x then deliveries pos skip report fin none xs
    else deliveries pos skip report fin (report x) xs
  | some b, x :: xs =>
    if skip x then deliveries pos skip report fin (some b) xs
    else (b, pos x) :: deliveries pos skip report fin (report x) xs

/-- What there is to report of the items that are not skipped. -/
def reported (skip : α → Bool) (report : α → Option β) (xs : List α) : List β :=
  xs.filterMap fun x => if skip x then none else report x

/-- From a position on. -/
def reportedFrom (pos : α → Nat) (skip : α → Bool) (report : α → Option β) (all : List α) (c : Nat) :
    List β :=
  reported skip report (above all pos c)

theorem reported_skip {x : α} {xs : List α} (h : skip x = true) :
    reported skip report (x :: xs) = reported skip report xs := by
  simp [reported, h]

theorem reported_cons {x : α} {xs : List α} (h : ¬ skip x = true) :
    reported skip report (x :: xs) = (report x).toList ++ reported skip report xs := by
  cases hr : report x with
  | none => simp [reported, h, hr]
  | some b => simp [reported, h, hr]

theorem deliveries_skip {x : α} {xs : List α} (h : skip x = true) (pending : Option β) :
    deliveries pos skip report fin pending (x :: xs) =
      deliveries pos skip report fin pending xs := by
  cases pending with
  | none => simp [deliveries, h]
  | some b => simp [deliveries, h]

theorem deliveries_cons {x : α} {xs : List α} (h : ¬ skip x = true) (pending : Option β) :
    deliveries pos skip report fin pending (x :: xs) =
      (pending.toList.map fun b => (b, pos x)) ++ deliveries pos skip report fin (report x) xs := by
  cases pending with
  | none => simp [deliveries, h]
  | some b => simp [deliveries, h]

theorem deliveries_fst (xs : List α) (pending : Option β) :
    (deliveries pos skip report fin pending xs).map Prod.fst =
      pending.toList ++ reported skip report xs := by
  induction xs generalizing pending with
  | nil =>
    cases pending with
    | none => rfl
    | some b => rfl
  | cons x xs ih =>
    by_cases h : skip x = true
    · rw [deliveries_skip h, reported_skip h, ih]
    · rw [deliveries_cons h, reported_cons h, List.map_append, ih, List.map_map]
      congr 1
      cases pending with
      | none => rfl
      | some b => rfl

def Increasing (pos : α → Nat) (xs : List α) : Prop := xs.Pairwise fun x y => pos x < pos y

/-- From the position of an item on, there are that item and those after it. -/
theorem above_position {pre xs : List α} {x : α} (h : Increasing pos (pre ++ x :: xs)) :
    above (pre ++ x :: xs) pos (pos x) = x :: xs := by
  obtain ⟨_, hright, hcross⟩ := List.pairwise_append.mp h
  obtain ⟨hx, _⟩ := List.pairwise_cons.mp hright
  have hleft : above pre pos (pos x) = [] := by
    apply List.filter_eq_nil_iff.mpr
    intro y hy
    have hlt := hcross y hy x List.mem_cons_self
    simp only [decide_eq_true_eq]
    omega
  have hkeep : above (x :: xs) pos (pos x) = x :: xs := by
    apply List.filter_eq_self.mpr
    intro y hy
    simp only [decide_eq_true_eq]
    cases hy with
    | head => exact Nat.le_refl _
    | tail _ hy => exact Nat.le_of_lt (hx y hy)
  rw [above, List.filter_append]
  exact (congrArg₂ _ hleft hkeep).trans (List.nil_append _)

/-- What remains from a position on is a final part of the items. -/
theorem above_suffix {all : List α} (h : Increasing pos all) (c : Nat) :
    ∃ pre, all = pre ++ above all pos c := by
  induction all with
  | nil => exact ⟨[], rfl⟩
  | cons x xs ih =>
    obtain ⟨hx, hxs⟩ := List.pairwise_cons.mp h
    by_cases hc : c ≤ pos x
    · refine ⟨[], ?_⟩
      rw [List.nil_append, above, List.filter_eq_self.mpr]
      intro y hy
      simp only [decide_eq_true_eq]
      cases hy with
      | head => exact hc
      | tail _ hy =>
        have hlt := hx y hy
        omega
    · obtain ⟨pre, hpre⟩ := ih hxs
      have hskip : above (x :: xs) pos c = above xs pos c := by simp [above, hc]
      exact ⟨x :: pre, by rw [hskip, List.cons_append, ← hpre]⟩

theorem deliveries_cookie {all xs : List α} (hall : Increasing pos all)
    (hfin : ∀ x ∈ all, pos x < fin) :
    ∀ {pre : List α} {pending : Option β} {front back : List (β × Nat)} {b : β} {k : Nat},
      all = pre ++ xs →
      deliveries pos skip report fin pending xs = front ++ (b, k) :: back →
      reported skip report (above all pos k) = back.map Prod.fst := by
  induction xs with
  | nil =>
    intro pre pending front back b k hsplit h
    cases pending with
    | none => simp [deliveries] at h
    | some b' =>
      cases front with
      | nil =>
        -- the last item: its cookie is past all of them
        simp only [deliveries, List.nil_append, List.cons.injEq, Prod.mk.injEq] at h
        obtain ⟨⟨_, rfl⟩, rfl⟩ := h
        have hnone : above all pos fin = [] := by
          apply List.filter_eq_nil_iff.mpr
          intro y hy
          have hlt := hfin y hy
          simp only [decide_eq_true_eq]
          omega
        rw [hnone]
        rfl
      | cons y front => simp [deliveries] at h
  | cons x xs ih =>
    intro pre pending front back b k hsplit h
    have hsplit' : all = (pre ++ [x]) ++ xs := by rw [hsplit, List.append_assoc]; rfl
    by_cases hskip : skip x = true
    · rw [deliveries_skip hskip] at h
      exact ih hsplit' h
    · rw [deliveries_cons hskip] at h
      cases pending with
      | none => exact ih hsplit' h
      | some b' =>
        cases front with
        | nil =>
          -- the pending item, delivered with the position of `x`
          simp only [Option.toList_some, List.map_cons, List.map_nil, List.singleton_append,
            List.nil_append, List.cons.injEq, Prod.mk.injEq] at h
          obtain ⟨⟨_, rfl⟩, hback⟩ := h
          rw [hsplit, above_position (by rw [← hsplit]; exact hall), reported_cons hskip, ← hback,
            deliveries_fst]
        | cons y front =>
          simp only [Option.toList_some, List.map_cons, List.map_nil, List.cons_append,
            List.cons.injEq] at h
          exact ih hsplit' h.2

/-- The first deliveries from a cookie on are a page. -/
theorem pages_of_deliveries {all : List α} (hall : Increasing pos all)
    (hfin : ∀ x ∈ all, pos x < fin) (c n : Nat) :
    Pages (reportedFrom pos skip report all) c
      ((deliveries pos skip report fin none (above all pos c)).take (n + 1)) := by
  obtain ⟨pre, hpre⟩ := above_suffix hall c
  have hcookie := @deliveries_cookie _ _ pos skip report fin all (above all pos c) hall hfin pre none
  have hfst := @deliveries_fst _ _ pos skip report fin (above all pos c) none
  generalize deliveries pos skip report fin none (above all pos c) = D at hcookie hfst ⊢
  have hcut : D = D.take (n + 1) ++ D.drop (n + 1) := (List.take_append_drop _ _).symm
  generalize hA : D.take (n + 1) = A at hcut ⊢
  generalize D.drop (n + 1) = B at hcut
  have hrest : reportedFrom pos skip report all c = A.map Prod.fst ++ B.map Prod.fst := by
    rw [← List.map_append, ← hcut, hfst]
    rfl
  refine ⟨?_, ?_, ?_⟩
  · rw [hrest, List.take_left' (List.length_map _)]
  · intro hnil
    have hD : D = [] := by
      rw [hnil, List.take_eq_nil_iff] at hA
      exact hA.resolve_left (Nat.succ_ne_zero n)
    rw [hnil, hD] at hcut
    rw [hrest, hnil, ← List.nil_append B, ← hcut]
    rfl
  · intro hne
    rw [hrest, List.drop_left' (List.length_map _)]
    have hlast : D = A.dropLast ++ ((A.getLast hne).1, (A.getLast hne).2) :: B := by
      rw [hcut]
      conv => lhs; rw [← List.dropLast_append_getLast hne]
      rw [List.append_assoc]
      rfl
    exact hcookie hpre hlast

end Paging
end Usbrw
