import Usbrw.Ext.Readdir
import Usbrw.Ext.Remove

/-!
# Ext.Dotdot

What `dotdot_helper` does to a directory: the first entry called `..` gets another inode.

* `editBlocks`   — a directory after a callback that keeps no state has visited it.
* `dirents`      — the live entries of a directory.
* `LawfulEdit`   — `dir_iterate2` writes back what such a callback changes.
* `rewriteDotdot_spec` — after `rewriteDotdot` the live entries are `reparent` of the old ones.
-/

namespace Usbrw
namespace Ext

open Call

variable {σ : Type}

/-! ## Directories that a callback edits -/

section Edit

variable (f : DirEntry → Nat → DirentRet)

/-- True when the callback ended the visit. -/
def editBlock : Nat → List DirEntry → Bool × List DirEntry
  | _, [] => (false, [])
  | offset, e :: es =>
    if e.inode ≠ 0 then
      if (f e offset).abort then (true, (f e offset).changed.getD e :: es)
      else
        let r := editBlock (offset + e.recLen.toNat) es
        (r.1, (f e offset).changed.getD e :: r.2)
    else
      let r := editBlock (offset + e.recLen.toNat) es
      (r.1, e :: r.2)

def editBlocks : List (List DirEntry) → List (List DirEntry)
  | [] => []
  | b :: bs =>
    if (editBlock f 0 b).1 then (editBlock f 0 b).2 :: bs
    else (editBlock f 0 b).2 :: editBlocks bs

end Edit

def DirEntry.dirent (e : DirEntry) : Dirent := ⟨e.inode, e.bytes, (e.nameLen >>> 8).toUInt8⟩

/-- The live entries of a block. -/
def liveDirents (b : List DirEntry) : List Dirent :=
  (b.filter fun e => e.inode ≠ 0).map DirEntry.dirent

def dirents (blocks : List (List DirEntry)) : List Dirent := blocks.flatMap liveDirents

/-- Every name is as long as its entry says. -/
def WellSized (blocks : List (List DirEntry)) : Prop :=
  ∀ b ∈ blocks, ∀ e ∈ b, (e.nameLen &&& 0xFF).toNat ≤ e.name.length

structure LawfulEdit (fs : Ext2fs σ) (V : View σ) : Prop where
  dirIterate2 : ∀ {κ : Type} v d (proc : DirentProc σ κ) (f : DirEntry → Nat → DirentRet),
    (∀ e offset st, proc e offset st = (f e offset, st)) →
    Spec (fun st => V.Is v st.1) (fs.dirIterate2 d proc)
      (fun _ st => ∃ blocks, WellSized blocks ∧ v.dir d = dirents blocks ∧
        V.Is (v.setDir d (dirents (editBlocks f blocks))) st.1)
      fun _ st => V.Is v st.1

/-! ## `dotdot_helper` -/

/-- The first `..` points to `p`; an entry for inode 0 is a deleted one. -/
def reparent (p : UInt32) : List Dirent → List Dirent
  | [] => []
  | e :: es =>
    if e.name = dotdot then
      if p = 0 then es else { e with inode := p } :: es
    else e :: reparent p es

/-- What `dotdot_helper` makes of an entry. -/
def dotdotEdit (p : UInt32) (e : DirEntry) (_ : Nat) : DirentRet :=
  if (e.nameLen &&& 0xFF) = 2 ∧ e.name.take 2 = dotdot then ⟨some { e with inode := p }, true⟩
  else ⟨none, false⟩

theorem dotdotHelper_eq (p : UInt32) (e : DirEntry) (offset : Nat) (st : σ × Unit) :
    dotdotHelper p e offset st = (dotdotEdit p e offset, st) := by
  unfold dotdotHelper dotdotEdit
  split <;> rfl

theorem is_dotdot_iff {e : DirEntry} (h : (e.nameLen &&& 0xFF).toNat ≤ e.name.length) :
    ((e.nameLen &&& 0xFF) = 2 ∧ e.name.take 2 = dotdot) ↔ e.dirent.name = dotdot := by
  show _ ↔ e.name.take (e.nameLen &&& 0xFF).toNat = dotdot
  constructor
  · rintro ⟨hlen, hname⟩
    rw [hlen]
    exact hname
  · intro hname
    have hlen : (e.nameLen &&& 0xFF).toNat = 2 := by
      have := congrArg List.length hname
      rw [List.length_take, Nat.min_eq_left h] at this
      exact this
    rw [hlen] at hname
    exact ⟨UInt16.toNat_inj.mp hlen, hname⟩

section Reparent

variable {p : UInt32}

theorem reparent_append_of_mem {es rest : List Dirent} (h : ∃ e ∈ es, e.name = dotdot) :
    reparent p (es ++ rest) = reparent p es ++ rest := by
  induction es with
  | nil =>
    obtain ⟨e, he, _⟩ := h
    cases he
  | cons x es ih =>
    by_cases hx : x.name = dotdot
    · simp only [List.cons_append, reparent, if_pos hx]
      split <;> rfl
    · simp only [List.cons_append, reparent, if_neg hx]
      obtain ⟨e, he, hname⟩ := h
      cases he with
      | head => exact absurd hname hx
      | tail _ he => rw [ih ⟨e, he, hname⟩]

theorem reparent_append_of_not_mem {es rest : List Dirent} (h : ∀ e ∈ es, e.name ≠ dotdot) :
    reparent p (es ++ rest) = es ++ reparent p rest := by
  induction es with
  | nil => rfl
  | cons x es ih =>
    simp only [List.cons_append, reparent, if_neg (h x (by simp))]
    rw [ih fun e he => h e (by simp [he])]

theorem reparent_of_not_mem {es : List Dirent} (h : ∀ e ∈ es, e.name ≠ dotdot) :
    reparent p es = es := by
  have happend : reparent p (es ++ []) = es ++ reparent p [] := reparent_append_of_not_mem h
  rwa [List.append_nil, reparent, List.append_nil] at happend

theorem liveDirents_cons (e : DirEntry) (b : List DirEntry) :
    liveDirents (e :: b) = if e.inode ≠ 0 then e.dirent :: liveDirents b else liveDirents b := by
  unfold liveDirents
  by_cases h : e.inode = 0 <;> simp [h]

/-- A block after the visit: ended at the first `..`, or without one. -/
theorem editBlock_dotdot {b : List DirEntry} (offset : Nat)
    (hsize : ∀ e ∈ b, (e.nameLen &&& 0xFF).toNat ≤ e.name.length) :
    liveDirents (editBlock (dotdotEdit p) offset b).2 = reparent p (liveDirents b) ∧
      ((editBlock (dotdotEdit p) offset b).1 = true ↔
        ∃ e ∈ liveDirents b, e.name = dotdot) := by
  induction b generalizing offset with
  | nil => simp [editBlock, liveDirents, reparent]
  | cons e b ih =>
    obtain ⟨hlist, hend⟩ := ih (offset + e.recLen.toNat) fun x hx => hsize x (by simp [hx])
    have hdots := is_dotdot_iff (hsize e (by simp))
    by_cases hlive : e.inode ≠ 0
    · rw [editBlock, if_pos hlive, liveDirents_cons, if_pos hlive]
      by_cases hname : e.dirent.name = dotdot
      · have hf : dotdotEdit p e offset = ⟨some { e with inode := p }, true⟩ :=
          if_pos (hdots.mpr hname)
        rw [hf, if_pos rfl, reparent, if_pos hname, Option.getD_some, liveDirents_cons]
        refine ⟨?_, by simp [hname]⟩
        by_cases hp : p = 0
        · simp [hp]
        · simp only [ne_eq, hp, not_false_eq_true, if_true, if_false]
          rfl
      · have hf : dotdotEdit p e offset = ⟨none, false⟩ :=
          if_neg fun h => hname (hdots.mp h)
        rw [hf, if_neg (by simp), reparent, if_neg hname, Option.getD_none, liveDirents_cons,
          if_pos hlive, hlist]
        refine ⟨rfl, ?_⟩
        simpa [hname] using hend
    · rw [editBlock, if_neg hlive, liveDirents_cons, if_neg hlive, liveDirents_cons, if_neg hlive]
      exact ⟨hlist, hend⟩

theorem dirents_editBlocks {blocks : List (List DirEntry)} (hsize : WellSized blocks) :
    dirents (editBlocks (dotdotEdit p) blocks) = reparent p (dirents blocks) := by
  induction blocks with
  | nil => rfl
  | cons b bs ih =>
    obtain ⟨hlist, hend⟩ := editBlock_dotdot (p := p) 0 (hsize b (by simp))
    have hrest := ih fun x hx => hsize x (by simp [hx])
    simp only [dirents, List.flatMap_cons] at hrest ⊢
    by_cases h : (editBlock (dotdotEdit p) 0 b).1 = true
    · rw [editBlocks, if_pos h, List.flatMap_cons, hlist, reparent_append_of_mem (hend.mp h)]
    · have hno : ∀ e ∈ liveDirents b, e.name ≠ dotdot := by
        intro e he hname
        exact h (hend.mpr ⟨e, he, hname⟩)
      rw [editBlocks, if_neg h, List.flatMap_cons, hlist, hrest, reparent_append_of_not_mem hno,
        reparent_of_not_mem hno]

end Reparent

theorem rewriteDotdot_spec {fs : Ext2fs σ} {V : View σ} (hE : LawfulEdit fs V) (v : Volume)
    (ino p : UInt32) :
    Spec (V.Is v) (rewriteDotdot fs ino p)
      (fun _ => V.Is (v.setDir ino (reparent p (v.dir ino)))) fun _ => V.Is v := by
  intro s hs
  have hrun := hE.dirIterate2 v ino (dotdotHelper p) (dotdotEdit p) (dotdotHelper_eq p) (s, ()) hs
  unfold rewriteDotdot
  cases h : fs.dirIterate2 ino (dotdotHelper p) (s, ()) with
  | ok u st =>
    rw [h] at hrun
    obtain ⟨blocks, hsize, hdir, hs'⟩ := hrun
    rw [dirents_editBlocks hsize, ← hdir] at hs'
    exact hs'
  | error e st =>
    rw [h] at hrun
    exact hrun

end Ext
end Usbrw
