import Mathlib.Data.List.Basic

/-!
# Base.Paging

Enumerating a collection page by page. Each call starts at a cookie and delivers some items, each
with a cookie of its own; the next call starts at the cookie of the last item delivered. A page
ends when the client, which takes at least one item, refuses the next.

* `enumerate`             — the client: call until a call delivers nothing.
* `enumerate_exact`       — if every cookie stands for the items after it, everything is delivered
  exactly once, in order.
* `enumerate_offsets_iff` — where a cookie is an offset and a call delivers the items at or above
  it, this is so exactly if no item starts below the end of an earlier one.
-/

namespace Usbrw
namespace Paging

variable {α β κ σ : Type}

/-- `limit i` is one less than the number of items the client takes in the `i`-th call. `none`: a
call failed, or the fuel ran out. -/
def enumerate (call : Nat → κ → σ → Option (List (β × κ) × σ)) (limit : Nat → Nat) :
    Nat → Nat → κ → σ → Option (List β)
  | 0, _, _, _ => none
  | fuel + 1, i, c, s =>
    match call (limit i + 1) c s with
    | none => none
    | some ([], _) => some []
    | some (x :: xs, s') =>
      (enumerate call limit fuel (i + 1) ((x :: xs).getLast (List.cons_ne_nil x xs)).2 s').map
        (((x :: xs).map Prod.fst) ++ ·)

/-- A page from a cookie that stands for the items `rest`: a part of them from the front, not empty
unless `rest` is, and the last cookie stands for what remains. -/
def Pages (rest : κ → List β) (c : κ) (page : List (β × κ)) : Prop :=
  page.map Prod.fst = (rest c).take page.length ∧ (page = [] → rest c = []) ∧
    ∀ h : page ≠ [], rest (page.getLast h).2 = (rest c).drop page.length

theorem enumerate_exact {call : Nat → κ → σ → Option (List (β × κ) × σ)} {rest : κ → List β}
    {Inv : σ → Prop} (limit : Nat → Nat)
    (hcall : ∀ n c s, Inv s → ∃ page s', call (n + 1) c s = some (page, s') ∧ Inv s' ∧
      Pages rest c page) :
    ∀ (i : Nat) (c : κ) (s : σ), Inv s →
      ∃ fuel, enumerate call limit fuel i c s = some (rest c) := by
  suffices h : ∀ m i c s, Inv s → (rest c).length ≤ m →
      ∃ fuel, enumerate call limit fuel i c s = some (rest c) from
    fun i c s hs => h _ i c s hs (Nat.le_refl _)
  intro m
  -- on the number of items still to come, which every page that is not empty lowers
  induction m with
  | zero =>
    intro i c s hs hm
    obtain ⟨page, s', hrun, hs', hfst, hnil, _⟩ := hcall (limit i) c s hs
    have hrest : rest c = [] := List.eq_nil_of_length_eq_zero (by omega)
    have hpage : page = [] := by simpa [hrest] using hfst
    exact ⟨1, by simp [enumerate, hrun, hpage, hrest]⟩
  | succ m ih =>
    intro i c s hs hm
    obtain ⟨page, s', hrun, hs', hfst, hnil, hlast⟩ := hcall (limit i) c s hs
    cases page with
    | nil => exact ⟨1, by simp [enumerate, hrun, hnil rfl]⟩
    | cons x xs =>
      have hrest := hlast (List.cons_ne_nil x xs)
      have hle : (rest ((x :: xs).getLast (List.cons_ne_nil x xs)).2).length ≤ m := by
        rw [hrest, List.length_drop, List.length_cons]
        omega
      obtain ⟨fuel, hf⟩ := ih (i + 1) _ s' hs' hle
      refine ⟨fuel + 1, ?_⟩
      simp only [enumerate, hrun, hf, Option.map_some]
      rw [hrest, hfst, List.take_append_drop]

/-! ## Offsets as cookies -/

section Offsets

variable {all : List α} {off next : α → Nat} {label : α → β}

/-- The items at or above an offset, each with the cookie delivered with it. -/
def above (all : List α) (off : α → Nat) (c : Nat) : List α := all.filter fun x => c ≤ off x

def remaining (all : List α) (off : α → Nat) (label : α → β) (c : Nat) : List β :=
  (above all off c).map label

def Ordered (off next : α → Nat) (all : List α) : Prop :=
  all.Pairwise fun x y => next x ≤ off y

/-- Above the end of an item, only the items around it on its own page remain to be looked at. -/
theorem above_next {c : Nat} {m₁ m₂ : List α} {x : α} (hx : off x < next x)
    (hsplit : above all off c = m₁ ++ x :: m₂) :
    above all off (next x) = above (m₁ ++ m₂) off (next x) := by
  have hmem : x ∈ above all off c := by rw [hsplit]; simp
  have hc : c ≤ off x := by simpa using (List.mem_filter.mp hmem).2
  have hfilter : above all off (next x) = above (above all off c) off (next x) := by
    simp only [above, List.filter_filter]
    apply List.filter_congr
    intro y _
    rw [← Bool.decide_and]
    have hsame : (next x ≤ off y ∧ c ≤ off y) ↔ next x ≤ off y := by omega
    simp only [hsame]
  have hnot : ¬ next x ≤ off x := by omega
  rw [hfilter, hsplit]
  simp [above, hnot]

/-- In an ordered collection these are the items after it. -/
theorem above_of_ordered {m₁ m₂ : List α} {x : α} (hnext : ∀ y ∈ m₁ ++ x :: m₂, off y < next y)
    (h : Ordered off next (m₁ ++ x :: m₂)) : above (m₁ ++ m₂) off (next x) = m₂ := by
  obtain ⟨_, hright, hcross⟩ := List.pairwise_append.mp h
  obtain ⟨hx, _⟩ := List.pairwise_cons.mp hright
  have hleft : above m₁ off (next x) = [] := by
    apply List.filter_eq_nil_iff.mpr
    intro y hy
    have h1 := hcross y hy x (by simp)
    have h2 := hnext y (by simp [hy])
    have h3 := hnext x (by simp)
    simp only [decide_eq_true_eq]
    omega
  have hkeep : above m₂ off (next x) = m₂ := by
    apply List.filter_eq_self.mpr
    intro y hy
    simpa using hx y hy
  rw [above, List.filter_append]
  exact (congrArg₂ _ hleft hkeep).trans (List.nil_append m₂)

theorem above_zero : above all off 0 = all := by
  simp [above]

/-- Every call delivers the first items at or above its cookie, as many as the client takes. -/
def DeliversAbove (call : Nat → Nat → σ → Option (List (β × Nat) × σ)) (Inv : σ → Prop)
    (all : List α) (off next : α → Nat) (label : α → β) : Prop :=
  ∀ n c s, Inv s → ∃ s', Inv s' ∧
    call n c s = some (((above all off c).take n).map fun x => (label x, next x), s')

theorem pages_of_ordered (hnext : ∀ x ∈ all, off x < next x) (hord : Ordered off next all)
    (c n : Nat) :
    Pages (remaining all off label) c
      (((above all off c).take (n + 1)).map fun x => (label x, next x)) := by
  generalize hA : above all off c = A
  have hsub : A.Sublist all := by rw [← hA]; exact List.filter_sublist
  have hsplit : A = A.take (n + 1) ++ A.drop (n + 1) := (List.take_append_drop _ _).symm
  generalize hT : A.take (n + 1) = T at hsplit ⊢
  refine ⟨?_, ?_, ?_⟩
  · rw [List.length_map, remaining, hA, ← List.map_take]
    conv => rhs; rw [hsplit, List.take_left]
    simp
  · intro hnil
    have hTnil : T = [] := by simpa using hnil
    rw [hTnil, List.take_eq_nil_iff] at hT
    rw [remaining, hA]
    simpa using hT
  · intro hne
    have hTne : T ≠ [] := by simpa using hne
    have hcut : A = T.dropLast ++ T.getLast hTne :: A.drop (n + 1) := by
      conv => lhs; rw [hsplit, ← List.dropLast_append_getLast hTne]
      simp
    have hx := hnext (T.getLast hTne) (hsub.subset (by rw [hcut]; simp))
    have habove : above all off (next (T.getLast hTne)) = A.drop (n + 1) := by
      rw [above_next hx (hA.trans hcut)]
      refine above_of_ordered (fun y hy => ?_) (by rw [← hcut]; exact hord.sublist hsub)
      exact hnext y (hsub.subset (by rw [hcut]; exact hy))
    rw [List.getLast_map, remaining, remaining, habove, hA, List.length_map, ← List.map_drop]
    conv => rhs; rw [hsplit, List.drop_left]

/-- Taking one item a call, only an ordered collection is delivered in full. -/
theorem ordered_of_singles {call : Nat → Nat → σ → Option (List (β × Nat) × σ)} {Inv : σ → Prop}
    (hcall : DeliversAbove call Inv all off next label) (hnext : ∀ x ∈ all, off x < next x) :
    ∀ {fuel i c : Nat} {s : σ} {ys : List β}, Inv s →
      enumerate call (fun _ => 0) fuel i c s = some ys →
      ys.length ≤ (above all off c).length ∧
        (ys.length = (above all off c).length → Ordered off next (above all off c)) := by
  intro fuel
  induction fuel with
  | zero => intro i c s ys _ h; cases h
  | succ fuel ih =>
    intro i c s ys hs h
    obtain ⟨s', hs', hrun⟩ := hcall 1 c s hs
    simp only [enumerate, hrun] at h
    cases hA : above all off c with
    | nil =>
      simp only [hA, List.take_nil, List.map_nil, Option.some.injEq] at h
      rw [← h]
      exact ⟨Nat.le_refl 0, fun _ => List.Pairwise.nil⟩
    | cons x xs =>
      simp only [hA, List.take_succ_cons, List.take_zero, List.map_cons, List.map_nil,
        List.getLast_singleton] at h
      obtain ⟨rest, hrest, rfl⟩ := Option.map_eq_some_iff.mp h
      obtain ⟨hle, heq⟩ := ih hs' hrest
      have hmem : x ∈ all := List.mem_of_mem_filter (by rw [← above, hA]; simp)
      have hsplit : above all off c = [] ++ x :: xs := hA
      have hxs : above all off (next x) = above xs off (next x) :=
        above_next (hnext x hmem) hsplit
      have hlen : (above xs off (next x)).length ≤ xs.length := List.length_filter_le _ _
      rw [hxs] at hle heq
      simp only [List.singleton_append, List.length_cons]
      refine ⟨by omega, ?_⟩
      intro hfull
      have hall : (above xs off (next x)).length = xs.length := by omega
      have hself : above xs off (next x) = xs :=
        List.filter_eq_self.mpr (List.length_filter_eq_length_iff.mp hall)
      have hcons := heq (by omega)
      rw [hself] at hcons
      refine List.pairwise_cons.mpr ⟨?_, hcons⟩
      intro y hy
      simpa using List.length_filter_eq_length_iff.mp hall y hy

/-- Offsets work as cookies exactly when no item starts below the end of an earlier one. -/
theorem enumerate_offsets_iff {call : Nat → Nat → σ → Option (List (β × Nat) × σ)}
    {Inv : σ → Prop} (hcall : DeliversAbove call Inv all off next label)
    (hnext : ∀ x ∈ all, off x < next x) {s : σ} (hs : Inv s) :
    (∀ limit, ∃ fuel, enumerate call limit fuel 0 0 s = some (all.map label)) ↔
      Ordered off next all := by
  constructor
  · intro h
    obtain ⟨fuel, hf⟩ := h fun _ => 0
    have hord := (ordered_of_singles hcall hnext hs hf).2
    rw [above_zero, List.length_map] at hord
    exact hord rfl
  · intro hord limit
    have hpages : ∀ n c s, Inv s → ∃ page s', call (n + 1) c s = some (page, s') ∧ Inv s' ∧
        Pages (remaining all off label) c page := by
      intro n c s hs
      obtain ⟨s', hs', hrun⟩ := hcall (n + 1) c s hs
      exact ⟨_, s', hrun, hs', pages_of_ordered hnext hord c n⟩
    obtain ⟨fuel, hf⟩ := enumerate_exact limit hpages 0 0 s hs
    rw [remaining, above_zero] at hf
    exact ⟨fuel, hf⟩

end Offsets

end Paging
end Usbrw
