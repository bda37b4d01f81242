import Mathlib.Logic.Relation

/-!
# Base.Ancestry

Directories as a graph: `edge a b` says that `a` holds an entry for `b`. A directory may be held by
several others.

* `Rooted`        — every directory is reachable from the root, and none is below itself.
* `Rooted.link`   — an entry for what its holder is not in or below.
* `acyclic_of_rank` — where entries lead upward in some rank, nothing is below itself.
* `Rooted.unlink` — one directory loses entries, but not its last, or it goes and held nothing.
* `Rooted.create` — a directory comes, with nothing in it.
-/

namespace Usbrw
namespace Ancestry

open Relation

variable {α : Type}

structure Rooted (root : α) (dir : α → Prop) (edge : α → α → Prop) : Prop where
  holder : ∀ a b, edge a b → dir a
  reachable : ∀ d, dir d → ReflTransGen edge root d
  acyclic : ∀ d, ¬ TransGen edge d d

variable {root p c : α} {dir dir' : α → Prop} {edge edge' : α → α → Prop}

/-- What is below what: `b` is `a` or held by something that is. -/
abbrev Below (edge : α → α → Prop) (a b : α) : Prop := ReflTransGen edge a b

/-- The edges of `edge'` are old, or lead from `p` to `c`, which `p` is not below. -/
def Adds (edge edge' : α → α → Prop) (p c : α) : Prop :=
  ∀ a b, edge' a b → edge a b ∨ (a = p ∧ b = c ∧ ¬ Below edge c p)

/-- New edges from `p` put nothing above `p`. -/
theorem below_of_adds {x : α} (hnew : ∀ a b, edge' a b → edge a b ∨ a = p) (h : Below edge' x p) :
    Below edge x p := by
  induction h using ReflTransGen.head_induction_on with
  | refl => exact .refl
  | head hab _ ih =>
    cases hnew _ _ hab with
    | inl hold => exact .head hold ih
    | inr hp =>
      rw [hp]

/-- A path with the new edge leads to `p` first and on from `c` last. -/
theorem path_of_adds (hnew : Adds edge edge' p c) {a b : α} (h : TransGen edge' a b) :
    TransGen edge a b ∨ (Below edge a p ∧ Below edge c b ∧ ¬ Below edge c p) := by
  induction h with
  | single hab =>
    rcases hnew _ _ hab with hold | ⟨rfl, rfl, hnot⟩
    · exact .inl (.single hold)
    · exact .inr ⟨.refl, .refl, hnot⟩
  | tail _ hbc ih =>
    rcases hnew _ _ hbc with hold | ⟨rfl, rfl, hnot⟩
    · rcases ih with hpath | ⟨hap, hcb, hnot⟩
      · exact .inl (.tail hpath hold)
      · exact .inr ⟨hap, .tail hcb hold, hnot⟩
    · rcases ih with hpath | ⟨hap, _, _⟩
      · exact .inr ⟨hpath.to_reflTransGen, .refl, hnot⟩
      · exact .inr ⟨hap, .refl, hnot⟩

theorem acyclic_of_rank (rank : α → Nat) (h : ∀ a b, edge a b → rank a < rank b) (d : α) :
    ¬ TransGen edge d d := by
  have hlt : ∀ b, TransGen edge d b → rank d < rank b := by
    intro b hb
    induction hb with
    | single hab => exact h _ _ hab
    | tail _ hbc ih => exact Nat.lt_trans ih (h _ _ hbc)
  exact fun hd => Nat.lt_irrefl _ (hlt d hd)

/-- Directories stay where they are, and one of them may get another entry. -/
theorem Rooted.link (h : Rooted root dir edge) (hdir : ∀ d, dir' d → dir d)
    (hholder : ∀ a b, edge' a b → dir' a) (hold : ∀ a b, edge a b → edge' a b)
    (hnew : Adds edge edge' p c) : Rooted root dir' edge' := by
  refine ⟨hholder, ?_, ?_⟩
  · intro d hd
    exact ReflTransGen.mono hold _ _ (h.reachable d (hdir d hd))
  · intro d hd
    rcases path_of_adds hnew hd with hpath | ⟨hdp, hcd, hnot⟩
    · exact h.acyclic d hpath
    · exact hnot (hcd.trans hdp)

/-- What a directory does not lead to is reached without it. -/
theorem reachable_avoiding (hkeep : ∀ a b, edge a b → b ≠ c → edge' a b) {d : α}
    (h : ReflTransGen edge root d) (hd : ¬ Below edge c d) : ReflTransGen edge' root d := by
  induction h with
  | refl => exact .refl
  | @tail b d _ hbd ih =>
    have hne : d ≠ c := by
      rintro rfl
      exact hd .refl
    exact (ih fun hcb => hd (hcb.tail hbd)).tail (hkeep b d hbd hne)

/-- And what it leads to is still reached from it. -/
theorem below_kept (hacyclic : ∀ d, ¬ TransGen edge d d)
    (hkeep : ∀ a b, edge a b → b ≠ c → edge' a b) {d : α} (h : Below edge c d) :
    Below edge' c d := by
  induction h with
  | refl => exact .refl
  | @tail b d hcb hbd ih =>
    have hne : d ≠ c := by
      rintro rfl
      exact hacyclic _ (TransGen.tail' hcb hbd)
    exact ih.tail (hkeep b d hbd hne)

/-- Only entries for `c` go, and another one stays; or `c` goes, with nothing in it. -/
theorem Rooted.unlink (h : Rooted root dir edge) (hdir : ∀ d, dir' d → dir d)
    (hholder : ∀ a b, edge' a b → dir' a) (hsub : ∀ a b, edge' a b → edge a b)
    (hkeep : ∀ a b, edge a b → b ≠ c → edge' a b)
    (hother : dir' c → ∃ q, edge' q c) (hleaf : ¬ dir' c → ∀ b, ¬ edge c b) :
    Rooted root dir' edge' := by
  refine ⟨hholder, ?_, fun d hd => h.acyclic d (TransGen.mono hsub _ _ hd)⟩
  intro d hd
  by_cases hcd : Below edge c d
  · by_cases hc : dir' c
    · obtain ⟨q, hq⟩ := hother hc
      have hqc : ¬ Below edge c q := fun hcq => h.acyclic c (TransGen.tail' hcq (hsub q c hq))
      have hroot := reachable_avoiding hkeep (h.reachable q (h.holder q c (hsub q c hq))) hqc
      exact (hroot.tail hq).trans (below_kept h.acyclic hkeep hcd)
    · -- `c` has gone, and nothing was below it
      cases hcd.cases_head with
      | inl heq =>
        rw [← heq] at hd
        exact absurd hd hc
      | inr hstep =>
        obtain ⟨b, hcb, _⟩ := hstep
        exact absurd hcb (hleaf hc b)
  · exact reachable_avoiding hkeep (h.reachable d (hdir d hd)) hcd

/-- A new directory is held by old ones and holds nothing. -/
theorem Rooted.create (h : Rooted root dir edge)
    (hdir : ∀ d, dir' d → dir d ∨ (d = c ∧ ∃ q, dir q ∧ edge' q c))
    (hholder : ∀ a b, edge' a b → dir' a) (hold : ∀ a b, edge a b → edge' a b)
    (hnew : ∀ a b, edge' a b → edge a b ∨ b = c) (hleaf : ∀ b, ¬ edge' c b) :
    Rooted root dir' edge' := by
  refine ⟨hholder, ?_, ?_⟩
  · intro d hd
    rcases hdir d hd with hd | ⟨rfl, q, hq, hqc⟩
    · exact ReflTransGen.mono hold _ _ (h.reachable d hd)
    · exact (ReflTransGen.mono hold _ _ (h.reachable q hq)).tail hqc
  · intro d hd
    have hpath : ∀ b, TransGen edge' d b → TransGen edge d b ∨ b = c := by
      intro b hb
      induction hb with
      | single hab => exact (hnew _ _ hab).imp TransGen.single id
      | tail _ hbc ih =>
        rcases hnew _ _ hbc with hedge | heq
        · rcases ih with hpath | rfl
          · exact .inl (hpath.tail hedge)
          · exact absurd hbc (hleaf _)
        · exact .inr heq
    rcases hpath d hd with hcycle | rfl
    · exact h.acyclic d hcycle
    · obtain ⟨b, hb, _⟩ := TransGen.head'_iff.mp hd
      exact hleaf b hb

end Ancestry
end Usbrw
