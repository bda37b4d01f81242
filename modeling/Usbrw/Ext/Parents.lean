import Usbrw.Ext.Remove
import Usbrw.Ext.Tree

/-!
# Ext.Parents

The link counts of parent directories. The bridge reads the parent's inode, changes its link count
and writes it back, in three places, and ignores what fails.

* `relink`        — what the three have in common.
* `relink_cases`  — the count is changed, or nothing is.
* `OnlyNode`      — at most one inode differs.
* `Rewritable`, `relink_volume` — where neither call fails, it is changed as it should.
-/

namespace Usbrw
namespace Ext

open Volume

variable {σ : Type}

namespace Volume

def relinked (v : Volume) (p : UInt32) (links : UInt16) : Volume :=
  v.setNode p { v.node p with links := links }

@[simp] theorem relinked_dir (v : Volume) (p : UInt32) (n : UInt16) : (v.relinked p n).dir = v.dir :=
  rfl
@[simp] theorem relinked_inUse (v : Volume) (p : UInt32) (n : UInt16) :
    (v.relinked p n).inUse = v.inUse := rfl
@[simp] theorem relinked_data (v : Volume) (p : UInt32) (n : UInt16) :
    (v.relinked p n).data = v.data := rfl

theorem relinked_links_self (v : Volume) (p : UInt32) (n : UInt16) :
    ((v.relinked p n).node p).links = n := by
  simp [relinked]

theorem relinked_node_of_ne (v : Volume) {p i : UInt32} (n : UInt16) (h : i ≠ p) :
    (v.relinked p n).node i = v.node i := by
  simp [relinked, h]

theorem sameShape_relinked (v : Volume) (p : UInt32) (n : UInt16) : SameShape v (v.relinked p n) :=
  sameShape_setNode rfl

end Volume

/-- At most the inode `d` differs. -/
structure OnlyNode (d : UInt32) (v w : Volume) : Prop where
  dir : w.dir = v.dir
  inUse : w.inUse = v.inUse
  data : w.data = v.data
  nodes : ∀ i, i ≠ d → w.node i = v.node i

section OnlyNode

variable {u v w : Volume} {d : UInt32}

theorem OnlyNode.refl (d : UInt32) (v : Volume) : OnlyNode d v v := ⟨rfl, rfl, rfl, fun _ _ => rfl⟩

theorem OnlyNode.of_eq (h : w = v) : OnlyNode d v w := by
  rw [h]
  exact OnlyNode.refl d v

theorem OnlyNode.trans (h : OnlyNode d u v) (h' : OnlyNode d v w) : OnlyNode d u w :=
  ⟨h'.dir.trans h.dir, h'.inUse.trans h.inUse, h'.data.trans h.data,
    fun i hi => (h'.nodes i hi).trans (h.nodes i hi)⟩

end OnlyNode

section Relink

variable {fs : Ext2fs σ} {V : View σ}

/-- Read the inode `p`, and if its link count is one that `c` accepts, write it back changed. -/
def relink (fs : Ext2fs σ) (p : UInt32) (c : UInt16 → Bool) (g : Ext2Inode → σ → Ext2Inode)
    (s : σ) : σ :=
  match fs.readInode p s with
  | .error _ s => s
  | .ok pinode s =>
    if c pinode.iLinksCount then
      match fs.writeInode p (g pinode s) s with
      | .ok () s => s
      | .error _ s => s
    else s

/-- `g` sets the link count as `h` says, and no other field of the node. -/
def Sets (g : Ext2Inode → σ → Ext2Inode) (h : UInt16 → UInt16) : Prop :=
  ∀ inode s, (g inode s).node = { inode.node with links := h inode.node.links }

/-- Neither reading the inode `p` nor writing it back fails. -/
def Rewritable (fs : Ext2fs σ) (p : UInt32) (s : σ) : Prop :=
  ∃ pinode s₁, fs.readInode p s = .ok pinode s₁ ∧
    ∀ inode, ∃ s₂, fs.writeInode p inode s₁ = .ok () s₂

variable {c : UInt16 → Bool} {g : Ext2Inode → σ → Ext2Inode} {h : UInt16 → UInt16} {p : UInt32}

theorem relink_cases (hL : Lawful fs V) (hg : Sets g h) (p : UInt32) (s : σ) :
    V.volume (relink fs p c g s) = V.volume s ∨
      V.volume (relink fs p c g s) =
        (V.volume s).relinked p (h ((V.volume s).node p).links) := by
  unfold relink
  cases hr : fs.readInode p s with
  | error e s₁ => exact Or.inl ((hL.readInode (V.volume s) p).error rfl hr)
  | ok pinode s₁ =>
    obtain ⟨hnode, hs₁⟩ := (hL.readInode (V.volume s) p).ok rfl hr
    simp only
    split
    · cases hw : fs.writeInode p (g pinode s₁) s₁ with
      | error e s₂ => exact Or.inl ((hL.writeInode (V.volume s) p _).error hs₁ hw)
      | ok u s₂ =>
        refine Or.inr ?_
        have hs₂ := (hL.writeInode (V.volume s) p _).ok hs₁ hw
        rw [hg pinode s₁, hnode] at hs₂
        exact hs₂
    · exact Or.inl hs₁

theorem relink_sameShape (hL : Lawful fs V) (hg : Sets g h) (p : UInt32) (s : σ) :
    SameShape (V.volume s) (V.volume (relink fs p c g s)) := by
  cases relink_cases (c := c) hL hg p s with
  | inl heq =>
    rw [heq]
    exact SameShape.refl _
  | inr heq =>
    rw [heq]
    exact sameShape_relinked _ _ _

theorem relink_onlyNode (hL : Lawful fs V) (hg : Sets g h) (p : UInt32) (s : σ) :
    OnlyNode p (V.volume s) (V.volume (relink fs p c g s)) := by
  cases relink_cases (c := c) hL hg p s with
  | inl heq => exact OnlyNode.of_eq heq
  | inr heq =>
    rw [heq]
    exact ⟨rfl, rfl, rfl, fun i hi => relinked_node_of_ne _ _ hi⟩

theorem relink_volume (hL : Lawful fs V) (hg : Sets g h) {s : σ} (hrw : Rewritable fs p s) :
    V.volume (relink fs p c g s) =
      if c ((V.volume s).node p).links then
        (V.volume s).relinked p (h ((V.volume s).node p).links)
      else V.volume s := by
  obtain ⟨pinode, s₁, hr, hwrite⟩ := hrw
  obtain ⟨hnode, hs₁⟩ := (hL.readInode (V.volume s) p).ok rfl hr
  have hlinks : pinode.iLinksCount = ((V.volume s).node p).links := by
    rw [← hnode]
    rfl
  obtain ⟨s₂, hw⟩ := hwrite (g pinode s₁)
  unfold relink
  rw [hr]
  simp only [hw, hlinks]
  split
  · have hs₂ := (hL.writeInode (V.volume s) p _).ok hs₁ hw
    rw [hg pinode s₁, hnode] at hs₂
    exact hs₂
  · exact hs₁

end Relink

/-! ## The three places -/

section Places

variable {fs : Ext2fs σ} {V : View σ}

theorem dropParentLink_eq (fs : Ext2fs σ) {p : UInt32} (hp : p ≠ 0) (s : σ) :
    dropParentLink fs p s = relink fs p (fun n => 1 < n)
      (fun i s => { i with iLinksCount := i.iLinksCount - 1, iMtime := fs.time s }) s := by
  unfold dropParentLink relink
  rw [if_neg hp]
  cases fs.readInode p s with
  | error e s₁ => rfl
  | ok pinode s₁ => exact if_congr decide_eq_true_iff.symm rfl rfl

theorem dropParentLink_sameShape (hL : Lawful fs V) (p : UInt32) (s : σ) :
    SameShape (V.volume s) (V.volume (dropParentLink fs p s)) := by
  by_cases hp : p = 0
  · rw [dropParentLink, if_pos hp]
    exact SameShape.refl _
  · rw [dropParentLink_eq fs hp]
    exact relink_sameShape (h := fun n => n - 1) hL (fun _ _ => rfl) p s

theorem dropParentLink_onlyNode (hL : Lawful fs V) (p : UInt32) (s : σ) :
    OnlyNode p (V.volume s) (V.volume (dropParentLink fs p s)) := by
  by_cases hp : p = 0
  · rw [dropParentLink, if_pos hp]
    exact OnlyNode.refl p _
  · rw [dropParentLink_eq fs hp]
    exact relink_onlyNode (h := fun n => n - 1) hL (fun _ _ => rfl) p s

theorem addParentLink_eq (fs : Ext2fs σ) (p : UInt32) (s : σ) :
    addParentLink fs p s = relink fs p (fun _ => true)
      (fun i _ => { i with iLinksCount := i.iLinksCount + 1 }) s := by
  unfold addParentLink relink
  cases fs.readInode p s with
  | error e s₁ => rfl
  | ok pinode s₁ => exact (if_pos rfl).symm

theorem removeParentLink_eq (fs : Ext2fs σ) (p : UInt32) (s : σ) :
    removeParentLink fs p s = relink fs p (fun n => 1 < n)
      (fun i _ => { i with iLinksCount := i.iLinksCount - 1 }) s := by
  unfold removeParentLink relink
  cases fs.readInode p s with
  | error e s₁ => rfl
  | ok pinode s₁ => exact if_congr decide_eq_true_iff.symm rfl rfl

theorem addParentLink_sameShape (hL : Lawful fs V) (p : UInt32) (s : σ) :
    SameShape (V.volume s) (V.volume (addParentLink fs p s)) := by
  rw [addParentLink_eq]
  exact relink_sameShape (h := fun n => n + 1) hL (fun _ _ => rfl) p s

theorem removeParentLink_sameShape (hL : Lawful fs V) (p : UInt32) (s : σ) :
    SameShape (V.volume s) (V.volume (removeParentLink fs p s)) := by
  rw [removeParentLink_eq]
  exact relink_sameShape (h := fun n => n - 1) hL (fun _ _ => rfl) p s

end Places

end Ext
end Usbrw
