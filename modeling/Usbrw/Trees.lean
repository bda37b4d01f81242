import Usbrw.Ext.Ancestry
import Usbrw.Ext.ReferenceNew
import Usbrw.Ntfs.Reference
import Usbrw.Ntfs.Tree

/-!
# Trees

Runs of renames, on either file system, and the directory tree.

* `renames_keep_trees` — the tree stays one as long as no directory is moved into itself.
* `tree_lost`          — a directory that is moved into what it holds is cut off from the root.
-/

namespace Usbrw

open Call Run Ancestry

namespace Ntfs

/-- A call of `nfsk_rename`, with the faults of the volume during it and the counter `rename_seq`
before it. -/
structure RenameCall where
  oldDir : UInt64
  oldName : List UInt8
  newDir : UInt64
  newName : List UInt8
  sched : Schedule
  renameSeq : Nat

variable {σ : Type}

def renameStep (lib : Libntfs σ) (s : σ) (c : RenameCall) : σ :=
  final (nfskRenameImpl lib c.sched c.renameSeq c.oldDir c.oldName c.newDir c.newName s)

/-- The call moves no directory into itself. -/
def RenameCall.Apart (lib : Libntfs σ) (V : View σ) (s : σ) (c : RenameCall) : Prop :=
  ¬ MovesIntoItself lib c.sched c.renameSeq (V.names s) c.oldDir c.oldName c.newDir c.newName

end Ntfs

namespace Ext

structure RenameCall where
  oldDir : UInt64
  oldName : List UInt8
  newDir : UInt64
  newName : List UInt8

variable {σ : Type}

def renameStep (fs : Ext2fs σ) (s : σ) (c : RenameCall) : σ :=
  final (extfskRename fs c.oldDir c.oldName c.newDir c.newName s)

def RenameCall.Apart (fs : Ext2fs σ) (V : View σ) (s : σ) (c : RenameCall) : Prop :=
  KeepsApart fs V c.oldDir c.oldName c.newDir c.newName s

end Ext

/-- Before every call of a run and after the last the directories are a tree, whether the calls
succeed or fail. -/
theorem renames_keep_trees {σ τ : Type} {lib : Ntfs.Libntfs σ} {V : Ntfs.View σ}
    (hN : Ntfs.Lawful lib V) {fs : Ext.Ext2fs τ} {W : Ext.View τ} (hL : Ext.Lawful fs W)
    (hE : Ext.LawfulEdit fs W) :
    (∀ s calls, (V.names s).IsTree →
      Along (Ntfs.renameStep lib) (Ntfs.RenameCall.Apart lib V) s calls →
        Along (Ntfs.renameStep lib) (fun s _ => (V.names s).IsTree) s calls ∧
          (V.names (calls.foldl (Ntfs.renameStep lib) s)).IsTree) ∧
    ∀ s calls, (W.volume s).IsTree →
      Along (Ext.renameStep fs) (Ext.RenameCall.Apart fs W) s calls →
        Along (Ext.renameStep fs) (fun s _ => (W.volume s).IsTree) s calls ∧
          (W.volume (calls.foldl (Ext.renameStep fs) s)).IsTree := by
  constructor
  · intro s calls hv hcalls
    refine along_of_inv (I := fun s => (V.names s).IsTree) ?_ hv hcalls
    intro s c hv hc
    exact ⟨hv, Spec.final (Ntfs.rename_isTree hN hv hc) rfl⟩
  · intro s calls hv hcalls
    refine along_of_inv (I := fun s => (W.volume s).IsTree) ?_ hv hcalls
    intro s c hv hc
    exact ⟨hv, Ext.extfskRename_isTree hL hE hv hc⟩

/-! ## A directory `d` in the root, and a directory `e` in that -/

def dirD : List UInt8 := [0x64]
def dirE : List UInt8 := [0x65]

namespace Ntfs

/-- `d` is record 20 and `e` record 21. -/
def dirInDir : RefState :=
  ofLists [((5, [0x64]), 20), ((20, [0x65]), 21)]
    [⟨5, false, true⟩, ⟨20, false, true⟩, ⟨21, false, true⟩] (by decide) (by decide)

theorem dirInDir_holds {a b : UInt64} (h : dirInDir.ns.Holds a b) :
    (a = 5 ∧ b = 20) ∨ (a = 20 ∧ b = 21) := by
  obtain ⟨_, _, u, hu, _⟩ := h
  have hmem := ofLists_entry_mem hu
  simp only [List.mem_cons, Prod.mk.injEq, List.not_mem_nil, or_false] at hmem
  tauto

theorem dirInDir_isTree : dirInDir.ns.IsTree := by
  have hd : dirInDir.ns.Holds 5 20 := ⟨⟨_, rfl, rfl⟩, ⟨_, rfl, rfl⟩, [0x64], rfl, by decide⟩
  have he : dirInDir.ns.Holds 20 21 := ⟨⟨_, rfl, rfl⟩, ⟨_, rfl, rfl⟩, [0x65], rfl, by decide⟩
  refine ⟨fun _ _ hab => hab.1, ?_, acyclic_of_rank UInt64.toNat ?_⟩
  · rintro d ⟨n, hn, _⟩
    obtain ⟨hmem, rfl⟩ := ofLists_node_mem hn
    simp only [List.mem_cons, List.not_mem_nil, or_false] at hmem
    rcases hmem with rfl | rfl | rfl
    · exact .refl
    · exact .single hd
    · exact (Relation.ReflTransGen.single hd).tail he
  · intro a b hab
    rcases dirInDir_holds hab with ⟨rfl, rfl⟩ | ⟨rfl, rfl⟩
    · decide
    · decide

/-- `e` is moved to the root. -/
def outOf : RenameCall := ⟨20, dirE, 5, dirE, fun _ => none, 0⟩

theorem outOf_apart : outOf.Apart refLibntfs RefState.view dirInDir := by
  rintro ⟨ino, ou, nu, hstarts, _, hin, _⟩
  have hou := hstarts.converts
  cases hou
  have hsource : some (21 : UInt64) = some ino := hstarts.source
  cases hsource
  refine hin fun _ hbelow => ?_
  rcases hbelow.cases_head with heq | ⟨b, hb, _⟩
  · exact absurd heq (by decide)
  · rcases dirInDir_holds hb with ⟨h, _⟩ | ⟨h, _⟩
    · exact absurd h (by decide)
    · exact absurd h (by decide)

end Ntfs

namespace Ext

/-- `d` is inode 12 and `e` inode 13. -/
def dirInDir : RefState where
  volume :=
    { node := fun _ => ⟨LINUX_S_IFDIR, 2, 1024⟩
      inUse := fun i => i = 2 ∨ i = 12 ∨ i = 13
      data := fun _ _ => 0
      dir := fun i =>
        if i = 2 then [⟨12, dirD, EXT2_FT_DIR⟩]
        else if i = 12 then [⟨2, dotdot, EXT2_FT_DIR⟩, ⟨13, dirE, EXT2_FT_DIR⟩]
        else if i = 13 then [⟨12, dotdot, EXT2_FT_DIR⟩] else [] }
  handles := []

theorem dirInDir_contains {a b : UInt32} (h : dirInDir.volume.Contains a b) :
    (a = 2 ∧ b = 12) ∨ (a = 12 ∧ b = 13) := by
  obtain ⟨⟨_, ha, _⟩, _, e, he, hdots, rfl⟩ := h
  have hino : a = 2 ∨ a = 12 ∨ a = 13 := of_decide_eq_true ha
  rcases hino with rfl | rfl | rfl
  · cases List.mem_singleton.mp he
    exact .inl ⟨rfl, rfl⟩
  · rcases List.mem_cons.mp he with rfl | he
    · exact absurd (.inr rfl) hdots
    · cases List.mem_singleton.mp he
      exact .inr ⟨rfl, rfl⟩
  · cases List.mem_singleton.mp he
    exact absurd (.inr rfl) hdots

theorem dirInDir_isTree : dirInDir.volume.IsTree := by
  have hd : dirInDir.volume.Contains 2 12 :=
    ⟨by decide, by decide, ⟨12, dirD, EXT2_FT_DIR⟩, by decide, by decide, rfl⟩
  have he : dirInDir.volume.Contains 12 13 :=
    ⟨by decide, by decide, ⟨13, dirE, EXT2_FT_DIR⟩, by decide, by decide, rfl⟩
  refine ⟨fun _ _ hab => hab.1, ?_, acyclic_of_rank UInt32.toNat ?_⟩
  · rintro d ⟨_, hd', _⟩
    have hino : d = 2 ∨ d = 12 ∨ d = 13 := of_decide_eq_true hd'
    rcases hino with rfl | rfl | rfl
    · exact .refl
    · exact .single hd
    · exact (Relation.ReflTransGen.single hd).tail he
  · intro a b hab
    rcases dirInDir_contains hab with ⟨rfl, rfl⟩ | ⟨rfl, rfl⟩
    · decide
    · decide

def outOf : RenameCall := ⟨12, dirE, 2, dirE⟩

theorem outOf_apart :
    outOf.Apart refLibraryNew.toExt2fs RefState.view dirInDir := by
  rintro ino inode s' ⟨s₁, hlookup, hread⟩
  cases hlookup
  cases hread
  rw [if_pos (by decide)]
  intro _
  refine .inr ⟨by decide, by decide, fun hbelow => ?_⟩
  rcases hbelow.cases_head with heq | ⟨b, hb, _⟩
  · exact absurd heq (by decide)
  · rcases dirInDir_contains hb with ⟨h, _⟩ | ⟨h, _⟩
    · exact absurd h (by decide)
    · exact absurd h (by decide)

end Ext

theorem renames_keep_trees_out_of :
    ([Ntfs.outOf].foldl (Ntfs.renameStep Ntfs.refLibntfs) Ntfs.dirInDir).ns.IsTree ∧
    ([Ext.outOf].foldl (Ext.renameStep Ext.refLibraryNew.toExt2fs) Ext.dirInDir).volume.IsTree := by
  obtain ⟨hntfs, hext⟩ := renames_keep_trees Ntfs.refLibntfs_lawful Ext.refLibraryNew_ext2fs
    Ext.refLibraryNew_edit
  exact ⟨(hntfs Ntfs.dirInDir [Ntfs.outOf] Ntfs.dirInDir_isTree ⟨Ntfs.outOf_apart, trivial⟩).2,
    (hext Ext.dirInDir [Ext.outOf] Ext.dirInDir_isTree ⟨Ext.outOf_apart, trivial⟩).2⟩

/-- `d` is moved into `e`. Both calls return 0, and then `d` is below itself and no longer below the
root. -/
theorem tree_lost :
    (Ntfs.Lawful Ntfs.refLibntfs Ntfs.RefState.view ∧ Ntfs.dirInDir.ns.IsTree ∧
      ∃ s', Ntfs.nfskRenameImpl Ntfs.refLibntfs (fun _ => none) 0 5 dirD 21 dirD Ntfs.dirInDir =
        .ok () s' ∧ ¬ s'.ns.IsTree) ∧
    Ext.Lawful Ext.refLibraryNew.toExt2fs Ext.RefState.view ∧
      Ext.LawfulEdit Ext.refLibraryNew.toExt2fs Ext.RefState.view ∧ Ext.dirInDir.volume.IsTree ∧
      ∃ s', Ext.extfskRename Ext.refLibraryNew.toExt2fs 2 dirD 13 dirD Ext.dirInDir = .ok () s' ∧
        ¬ s'.volume.IsTree := by
  constructor
  · refine ⟨Ntfs.refLibntfs_lawful, Ntfs.dirInDir_isTree, _, rfl, fun h => h.acyclic 20 ?_⟩
    refine .tail (b := 21) (.single ⟨⟨_, rfl, rfl⟩, ⟨_, rfl, rfl⟩, dirE.map UInt8.toUInt16, rfl,
      by decide⟩) ⟨⟨_, rfl, rfl⟩, ⟨_, rfl, rfl⟩, dirD.map UInt8.toUInt16, rfl, by decide⟩
  · refine ⟨Ext.refLibraryNew_ext2fs, Ext.refLibraryNew_edit, Ext.dirInDir_isTree, _, rfl,
      fun h => h.acyclic 12 ?_⟩
    refine .tail (b := 13) (.single ⟨by decide, by decide, ⟨13, dirE, Ext.EXT2_FT_DIR⟩, by decide,
      by decide, rfl⟩)
      ⟨by decide, by decide, ⟨12, dirD, Ext.EXT2_FT_DIR⟩, by decide, by decide, rfl⟩

end Usbrw
