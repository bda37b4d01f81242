import Usbrw.Ext.Create
import Usbrw.Ext.Orphans

/-!
# Ext.Files

What the calls do to a volume exactly when they concern files.

* `Beside`              — nothing changes but one inode.
* `InodeFreed`          — the inode is released, with the blocks it had.
* `LinkDropped`         — `ext_after_unlink` takes a link from a file, and frees it with its last one.
* `extAfterUnlink_file` — that is what it does to a file.
* `createFile_spec`     — a new file has one link, one entry, and an inode that was free.
-/

namespace Usbrw
namespace Ext

open Call Volume

variable {σ : Type}

/-- Nothing changes but the inode `x`, and it keeps its mode. -/
structure Beside (x : UInt32) (v w : Volume) : Prop where
  dirs : ∀ c, c ≠ x → w.dir c = v.dir c
  inUse : ∀ c, c ≠ x → w.inUse c = v.inUse c
  nodes : ∀ c, c ≠ x → w.node c = v.node c
  datas : ∀ c, c ≠ x → w.data c = v.data c
  mode : (w.node x).mode = (v.node x).mode

section Shapes

variable {v w : Volume} {x : UInt32}

theorem Beside.node_mode (h : Beside x v w) (i : UInt32) : (w.node i).mode = (v.node i).mode := by
  by_cases hi : i = x
  · rw [hi, h.mode]
  · rw [h.nodes i hi]

end Shapes

/-! ## `ext_after_unlink` on a file -/

/-- The library finds no blocks to punch in an inode with these fields. -/
def Blockless (fs : Ext2fs σ) (n : Node) : Prop :=
  ∃ inode : Ext2Inode, inode.node = n ∧ fs.inodeHasValidBlocks2 inode = false

/-- A link is taken from `x`; with the last one its blocks, if it has any, and the inode are
released. -/
structure LinkDropped (fs : Ext2fs σ) (x : UInt32) (v w : Volume) : Prop where
  beside : Beside x v w
  links : (v.node x).links ≠ 0 → (w.node x).links = (v.node x).links - 1
  kept : (v.node x).links ≠ 1 → w.inUse x = v.inUse x ∧ w.data x = v.data x
  freed : (v.node x).links = 1 → w.inUse x = false ∧
    (w.data x = (fun _ => 0) ∨ Blockless fs { v.node x with links := 0 })

section AfterUnlink

variable {fs : Ext2fs σ} {V : View σ} {v : Volume} {x : UInt32}

theorem beside_setNode {n : Node} (h : n.mode = (v.node x).mode) : Beside x v (v.setNode x n) := by
  refine ⟨fun _ _ => rfl, fun _ _ => rfl, ?_, fun _ _ => rfl, ?_⟩
  · intro c hc
    simp [hc]
  · simp [h]

/-- The inode is free and has no link; nothing else has changed but its blocks, which are gone. -/
structure InodeFreed (fs : Ext2fs σ) (x : UInt32) (v w : Volume) : Prop where
  beside : Beside x v w
  links : (w.node x).links = 0
  inUse : w.inUse x = false
  blocks : w.data x = (fun _ => 0) ∨ Blockless fs { v.node x with links := 0 }

/-- What follows the punch. -/
theorem markFree_freed (hL : Lawful fs V) {w : Volume} {inode : Ext2Inode} (isdir : Bool)
    (h : Beside x v w) (hnode : inode.node = { v.node x with links := 0 })
    (hblocks : w.data x = (fun _ => 0) ∨ Blockless fs { v.node x with links := 0 }) :
    Spec (V.Is w) (do
        modify (fs.inodeAllocStats2 x (-1) isdir)
        orFail translateErrno (fs.writeInode x inode))
      (fun _ s => InodeFreed fs x v (V.volume s)) fun _ _ => True := by
  refine Spec.bind (Spec.modify fun s hs => hL.inodeAllocStats2 w x (-1) isdir s hs) ?_
  intro _
  refine Spec.orFail (Spec.conseq (hL.writeInode _ x inode) ?_ fun _ _ _ => trivial)
    fun _ _ h => h
  intro _ s hs
  rw [hs.eq, hnode]
  refine ⟨⟨h.dirs, ?_, ?_, h.datas, ?_⟩, ?_, ?_, hblocks⟩
  · intro c hc
    simp [hc, h.inUse c hc]
  · intro c hc
    simp [hc, h.nodes c hc]
  · simp
  · simp
  · simp

/-- The last link goes: the blocks are punched, the inode is marked free and written back. -/
theorem releaseInode_freed (hL : Lawful fs V) {inode : Ext2Inode} (isdir : Bool)
    (hnode : inode.node = { v.node x with links := 0 }) :
    Spec (V.Is v) (releaseInode fs x inode isdir) (fun _ s => InodeFreed fs x v (V.volume s))
      fun _ _ => True := by
  unfold releaseInode
  by_cases hvalid : fs.inodeHasValidBlocks2 inode = true
  · simp only [if_pos hvalid]
    refine Spec.bind_orFail (hL.punch v x inode) (fun _ _ _ => trivial) ?_
    rintro inode' s ⟨hnode', n, hn, hs⟩
    have hmode : n.mode = (v.node x).mode := by
      cases hn with
      | inl hn => rw [hn]
      | inr hn => rw [hn, hnode]
    have hbeside : Beside x v ((v.setNode x n).clear x) := by
      refine ⟨?_, fun _ _ => rfl, ?_, ?_, ?_⟩
      · intro c hc
        simp [hc]
      · intro c hc
        simp [hc]
      · intro c hc
        simp [clear, setData, setDir, setNode, hc]
      · simp [hmode]
    refine markFree_freed hL isdir hbeside (hnode'.trans hnode) (Or.inl ?_) s hs
    simp [clear, setData, setDir]
  · simp only [if_neg hvalid]
    refine markFree_freed hL isdir ⟨fun _ _ => rfl, fun _ _ => rfl, fun _ _ => rfl, fun _ _ => rfl, rfl⟩
      hnode (Or.inr ⟨inode, hnode, ?_⟩)
    simpa using hvalid

theorem extAfterUnlink_file (hL : Lawful fs V) (hfile : (v.node x).isDir = false) (p : UInt32) :
    Spec (V.Is v) (extAfterUnlink fs x true p) (fun _ s => LinkDropped fs x v (V.volume s))
      fun _ _ => True := by
  unfold extAfterUnlink
  refine Spec.bind_orFail (hL.readInode v x) (fun _ _ _ => trivial) ?_
  intro inode
  refine Spec.assume fun hnode => ?_
  have hdir : ¬ LINUX_S_ISDIR inode.iMode = true :=
    ne_true_of_eq_false ((isDir_of_node hnode).trans hfile)
  have hlinks : inode.iLinksCount = (v.node x).links := by rw [← hnode]; rfl
  refine Spec.bind (Q := fun _ => V.Is v) (fun s hs => hs) ?_
  intro s₀
  simp only [not_true_eq_false, if_false, if_neg hdir, hlinks]
  by_cases h0 : (v.node x).links = 0
  · rw [if_pos h0]
    refine Spec.pure ?_
    intro s hs
    rw [hs.eq]
    exact ⟨⟨fun _ _ => rfl, fun _ _ => rfl, fun _ _ => rfl, fun _ _ => rfl, rfl⟩,
      fun h => absurd h0 h, fun _ => ⟨rfl, rfl⟩, fun h => absurd (h0.symm.trans h) (by decide)⟩
  · rw [if_neg h0]
    by_cases h1 : (v.node x).links - 1 = 0
    · rw [if_pos h1]
      have hone : (v.node x).links = 1 := by
        have := congrArg (fun n => n + 1) h1
        simpa using this
      have hdead : (inode.dead (fs.time s₀)).node = { v.node x with links := 0 } := by
        rw [← hnode]
        rfl
      refine Spec.conseq (releaseInode_freed hL false hdead) ?_ fun _ _ _ => trivial
      rintro _ s ⟨hbeside, hzero, hfree, hblocks⟩
      exact ⟨hbeside, fun _ => by rw [hzero, h1], fun h => absurd hone h,
        fun _ => ⟨hfree, hblocks⟩⟩
    · rw [if_neg h1]
      refine Spec.orFail (Spec.conseq (hL.writeInode v x _) ?_ fun _ _ _ => trivial) fun _ _ h => h
      intro _ s hs
      have hn : ({ inode with iLinksCount := (v.node x).links - 1, iCtime := fs.time s₀ } :
          Ext2Inode).node = { v.node x with links := (v.node x).links - 1 } := by
        rw [← hnode]
        rfl
      rw [hs.eq, hn]
      refine ⟨beside_setNode rfl, fun _ => by simp, fun _ => ⟨rfl, rfl⟩, ?_⟩
      intro hone
      rw [hone] at h1
      exact absurd rfl h1

end AfterUnlink

/-! ## `extfsk_create` of a file -/

theorem regularMode_format (mode : UInt32) :
    (regularMode mode).toUInt16 &&& LINUX_S_IFMT = LINUX_S_IFREG := by
  have hlow : (UInt32.toUInt16 0o7777).toBitVec &&& LINUX_S_IFMT.toBitVec = 0 := by decide
  have hreg : LINUX_S_IFREG.toUInt32.toUInt16.toBitVec &&& LINUX_S_IFMT.toBitVec =
      LINUX_S_IFREG.toBitVec := by decide
  rw [regularMode, UInt32.toUInt16_or, UInt32.toUInt16_and]
  refine UInt16.toBitVec_inj.mp ?_
  rw [UInt16.toBitVec_and, UInt16.toBitVec_or, UInt16.toBitVec_and, BitVec.and_or_distrib_right,
    BitVec.and_assoc, hlow, hreg]
  simp

theorem regularMode_isDir (mode : UInt32) : LINUX_S_ISDIR (regularMode mode).toUInt16 = false := by
  rw [LINUX_S_ISDIR, regularMode_format]
  decide

section Create

variable {fs : Ext2fsNew σ} {V : View σ}

/-- The node of a new file. -/
def newFile (mode : UInt32) : Node := ⟨mode.toUInt16, 1, 0⟩

theorem finishFile_spec (hL : LawfulNew fs V) (v : Volume) (child mode uid gid : UInt32) :
    Spec (V.Is v) (finishFile fs child mode uid gid)
      (fun r s => r = child.toUInt64 ∧
        V.Is ((v.setNode child (newFile mode)).setInUse child true) s) fun _ => V.Is v := by
  unfold finishFile
  refine Spec.bind (Q := fun _ => V.Is v) (fun _ h => h) ?_
  intro s₀
  simp only
  refine Spec.bind_orFail (hL.writeNewInode v child _) (fun _ _ h => h) ?_
  intro _
  refine Spec.bind (Spec.modify fun s hs => hL.lawful.inodeAllocStats2 _ child 1 false s hs) ?_
  exact fun _ => Spec.pure fun s hs => ⟨rfl, hs⟩

/-- A free inode was picked, linked under the name, and became a file. -/
structure FileMade (d : UInt32) (name : List UInt8) (mode : UInt32) (child : UInt32)
    (v v' : Volume) : Prop where
  fresh : v.inUse child = false
  unreserved : EXT2_GOOD_OLD_FIRST_INO ≤ child
  made : ∃ w, Entered d ⟨child, name, EXT2_FT_REG_FILE⟩ v w ∧
    v' = (w.setNode child (newFile mode)).setInUse child true

theorem createFile_spec (hL : LawfulNew fs V) (v : Volume) (d : UInt32) (name : List UInt8)
    (mode uid gid : UInt32) :
    Spec (V.Is v) (createFile fs d name mode uid gid)
      (fun r s => ∃ child, r = child.toUInt64 ∧ FileMade d name mode child v (V.volume s))
      fun _ s => Resized d v (V.volume s) ∨
        ∃ child, Entered d ⟨child, name, EXT2_FT_REG_FILE⟩ v (V.volume s) := by
  unfold createFile
  refine Spec.bind_orFail (hL.newInode v d mode) ?_ ?_
  · intro _ s hs
    rw [hs.eq]
    exact Or.inl (Resized.refl d v)
  · intro child
    refine Spec.assume fun hchild => ?_
    refine Spec.bind_orFail (linkExpanding_enters hL.lawful v d name child EXT2_FT_REG_FILE)
      (fun _ _ h => Or.inl h) ?_
    intro _ s hs
    refine Spec.conseq (finishFile_spec hL (V.volume s) child mode uid gid) ?_ ?_ s rfl
    · rintro r s' ⟨hr, hs'⟩
      exact ⟨child, hr, hchild.1, hchild.2, V.volume s, hs, hs'⟩
    · intro _ s' hs'
      rw [hs'.eq]
      exact Or.inr ⟨child, hs⟩

end Create

end Ext
end Usbrw
