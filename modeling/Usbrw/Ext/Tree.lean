import Usbrw.Base.Reach
import Usbrw.Ext.Volume

/-!
# Ext.Tree

The directory tree of a volume, and what a changed entry does to it.

* `Edge`, `AllReachable` — the tree, `.` and `..` aside. Only inodes a directory is to hold count
  as allocated, not the reserved ones.
* `SameShape`, `Around`  — volumes with the same tree, and with the same but for one inode.
* `allReachable_unlinked` — an entry of a leaf went.
* `allReachable_moved`    — a file got a new entry and lost an old one.
* `entries`              — how many entries of one name and inode there are: fewer after a removal.
-/

namespace Usbrw
namespace Ext

open Reach Relation

def EXT2_ROOT_INO : UInt32 := 2

namespace Volume

/-- The directory `d` is in use and has an entry for `ino` other than `.` and `..`. -/
def Edge (v : Volume) (d ino : UInt32) : Prop :=
  v.inUse d = true ∧ (v.node d).isDir = true ∧ ∃ e ∈ v.dir d, ¬ IsDots e.name ∧ e.inode = ino

def AllReachable (v : Volume) : Prop :=
  ∀ ino, v.inUse ino = true → ReflTransGen v.Edge EXT2_ROOT_INO ino

/-- The same tree: at most link counts, sizes and file contents differ. -/
structure SameShape (v v' : Volume) : Prop where
  dir : v'.dir = v.dir
  inUse : v'.inUse = v.inUse
  mode : ∀ d, (v'.node d).mode = (v.node d).mode

/-- The same tree but for `ino`, which may have been emptied and freed. -/
structure Around (ino : UInt32) (v v' : Volume) : Prop where
  dir : ∀ d, d ≠ ino → v'.dir d = v.dir d
  own : v'.dir ino = v.dir ino ∨ v'.dir ino = []
  inUse : ∀ d, d ≠ ino → v'.inUse d = v.inUse d
  mode : ∀ d, (v'.node d).mode = (v.node d).mode

section Shapes

variable {v v' v'' : Volume} {ino : UInt32}

theorem SameShape.refl (v : Volume) : SameShape v v := ⟨rfl, rfl, fun _ => rfl⟩

theorem SameShape.trans (h : SameShape v v') (h' : SameShape v' v'') : SameShape v v'' :=
  ⟨h'.dir.trans h.dir, h'.inUse.trans h.inUse, fun d => (h'.mode d).trans (h.mode d)⟩

theorem SameShape.around (h : SameShape v v') (ino : UInt32) : Around ino v v' :=
  ⟨fun _ _ => by rw [h.dir], Or.inl (by rw [h.dir]), fun _ _ => by rw [h.inUse], h.mode⟩

theorem Around.trans (h : Around ino v v') (h' : Around ino v' v'') : Around ino v v'' := by
  refine ⟨fun d hd => (h'.dir d hd).trans (h.dir d hd), ?_,
    fun d hd => (h'.inUse d hd).trans (h.inUse d hd), fun d => (h'.mode d).trans (h.mode d)⟩
  cases h'.own with
  | inl heq => rw [heq]; exact h.own
  | inr hnil => exact Or.inr hnil

theorem sameShape_setNode {n : Node} (hn : n.mode = (v.node ino).mode) :
    SameShape v (v.setNode ino n) := by
  refine ⟨rfl, rfl, ?_⟩
  intro d
  by_cases hd : d = ino
  · rw [hd, setNode_node, Function.update_self, hn]
  · rw [setNode_node, Function.update_of_ne hd]

theorem around_clear (v : Volume) (ino : UInt32) : Around ino v (v.clear ino) :=
  ⟨fun d hd => by rw [clear_dir, Function.update_of_ne hd], Or.inr (by simp), fun _ _ => rfl,
    fun _ => rfl⟩

theorem around_setInUse (v : Volume) (ino : UInt32) (b : Bool) : Around ino v (v.setInUse ino b) :=
  ⟨fun _ _ => rfl, Or.inl rfl, fun d hd => by rw [setInUse_inUse, Function.update_of_ne hd],
    fun _ => rfl⟩

end Shapes

/-! ## Trees after an entry went or came -/

section Trees

variable {v v' w : Volume} {d d' ino : UInt32} {name : List UInt8}

/-- Nothing below `ino`: not in use, not a directory, or an empty one. -/
def Leaf (v : Volume) (ino : UInt32) : Prop := ∀ b, ¬ v.Edge ino b

theorem leaf_of_not_occupied (h : v.inUse ino = true → ¬ v.Occupied ino) : v.Leaf ino := by
  rintro b ⟨huse, hdir, e, he, hdots, _⟩
  exact h huse ⟨hdir, e, he, hdots⟩

theorem leaf_of_not_dir (h : (v.node ino).isDir = false) : v.Leaf ino := by
  rintro b ⟨_, hdir, _⟩
  rw [h] at hdir
  cases hdir

theorem isDir_congr (h : (v'.node d).mode = (v.node d).mode) :
    (v'.node d).isDir = (v.node d).isDir := by
  rw [Node.isDir, Node.isDir, h]

theorem SameShape.edge (h : SameShape v v') {a b : UInt32} (he : v.Edge a b) : v'.Edge a b := by
  obtain ⟨huse, hdir, e, hmem, hdots, hino⟩ := he
  exact ⟨by rwa [h.inUse], by rwa [isDir_congr (h.mode a)], e, by rwa [h.dir], hdots, hino⟩

theorem SameShape.allReachable (h : SameShape v v') (hv : v.AllReachable) : v'.AllReachable := by
  intro c hc
  rw [h.inUse] at hc
  exact ReflTransGen.mono (fun _ _ he => h.edge he) _ _ (hv c hc)

theorem unlinked_dir_of_ne (h : d' ≠ d) : (v.unlinked d name ino).dir d' = v.dir d' := by
  rw [unlinked, setDir_dir, Function.update_of_ne h]

theorem unlinked_dir_self :
    (v.unlinked d name ino).dir d = (v.dir d).eraseP fun e => e.Names name ino := by
  rw [unlinked, setDir_dir, Function.update_self]

theorem mem_of_mem_unlinked {e : Dirent} (h : e ∈ (v.unlinked d name ino).dir d') :
    e ∈ v.dir d' := by
  by_cases hd : d' = d
  · rw [hd, unlinked_dir_self] at h
    rw [hd]
    exact List.mem_of_mem_eraseP h
  · rwa [unlinked_dir_of_ne hd] at h

theorem mem_unlinked {e : Dirent} (h : e ∈ v.dir d') (hne : e.inode ≠ ino) :
    e ∈ (v.unlinked d name ino).dir d' := by
  by_cases hd : d' = d
  · rw [hd] at h
    rw [hd, unlinked_dir_self]
    refine (List.mem_eraseP_of_neg ?_).mpr h
    simp [Dirent.Names, hne]
  · rwa [unlinked_dir_of_ne hd]

/-- With an entry for a leaf gone, and only the leaf touched after that, every other inode stays
reachable. -/
theorem reachable_of_ne (hv : v.AllReachable) (hleaf : v.Leaf ino)
    (h : Around ino (v.unlinked d name ino) v') {c : UInt32} (hc : v'.inUse c = true)
    (hne : c ≠ ino) : ReflTransGen v'.Edge EXT2_ROOT_INO c := by
  have huse : v.inUse c = true := by
    rw [h.inUse c hne] at hc
    exact hc
  refine reach_of_leaf hleaf ?_ (hv c huse) hne
  rintro a b ⟨hause, hadir, e, he, hdots, hb⟩ hbne
  have ha : a ≠ ino := by
    rintro rfl
    exact hleaf b ⟨hause, hadir, e, he, hdots, hb⟩
  refine ⟨by rw [h.inUse a ha]; exact hause, by rw [isDir_congr (h.mode a)]; exact hadir, e, ?_,
    hdots, hb⟩
  rw [h.dir a ha]
  exact mem_unlinked he (by rw [hb]; exact hbne)

/-- Another entry for the inode remains in a directory that is in use. -/
def NamedElsewhere (v : Volume) (d : UInt32) (name : List UInt8) (ino : UInt32) : Prop :=
  ∃ d', (v.unlinked d name ino).Edge d' ino

/-- After an entry for a leaf went, all is reachable if the inode was freed or has another name. -/
theorem allReachable_unlinked (hv : v.AllReachable) (hleaf : v.Leaf ino)
    (h : Around ino (v.unlinked d name ino) v')
    (hown : v'.inUse ino = true →
      SameShape (v.unlinked d name ino) v' ∧ v.NamedElsewhere d name ino) : v'.AllReachable := by
  intro c hc
  by_cases hne : c = ino
  · rw [hne] at hc ⊢
    obtain ⟨hsame, d', hedge⟩ := hown hc
    have hd' : d' ≠ ino := by
      rintro rfl
      obtain ⟨huse, hdir, e, he, hdots, hb⟩ := hedge
      exact hleaf _ ⟨huse, hdir, e, mem_of_mem_unlinked he, hdots, hb⟩
    have hedge' := hsame.edge hedge
    exact (reachable_of_ne hv hleaf h hedge'.1 hd').tail hedge'
  · exact reachable_of_ne hv hleaf h hc hne

/-- An entry was added, link counts and sizes aside. -/
structure Linked (d : UInt32) (e : Dirent) (v w : Volume) : Prop where
  inUse : w.inUse = v.inUse
  mode : ∀ c, (w.node c).mode = (v.node c).mode
  dir : ∃ l₁ l₂, v.dir d = l₁ ++ l₂ ∧ w.dir = Function.update v.dir d (l₁ ++ e :: l₂)

theorem Linked.mem {e x : Dirent} {c : UInt32} (h : Linked d e v w) (hx : x ∈ v.dir c) :
    x ∈ w.dir c := by
  obtain ⟨l₁, l₂, hd, hw⟩ := h.dir
  rw [hw]
  by_cases hc : c = d
  · rw [hc, hd] at hx
    rw [hc, Function.update_self]
    simp only [List.mem_append, List.mem_cons] at hx ⊢
    cases hx with
    | inl hx => exact Or.inl hx
    | inr hx => exact Or.inr (Or.inr hx)
  · rwa [Function.update_of_ne hc]

theorem Linked.allReachable {e : Dirent} (h : Linked d e v w) (hv : v.AllReachable) :
    w.AllReachable := by
  intro c hc
  rw [h.inUse] at hc
  refine ReflTransGen.mono ?_ _ _ (hv c hc)
  rintro a b ⟨huse, hdir, x, hx, hdots, hb⟩
  exact ⟨by rwa [h.inUse], by rwa [isDir_congr (h.mode a)], x, h.mem hx, hdots, hb⟩

theorem linked_setDir {e : Dirent} {l₁ l₂ : List Dirent} (h : SameShape v v')
    (hd : v'.dir d = l₁ ++ l₂) : Linked d e v (v'.setDir d (l₁ ++ e :: l₂)) :=
  ⟨h.inUse, h.mode, l₁, l₂, by rw [← h.dir, hd], by rw [setDir_dir, h.dir]⟩

/-- What linking a new entry and then unlinking an old one may leave: nothing done, only the new
entry, or both done. -/
inductive Moved (d' : UInt32) (old : List UInt8) (d : UInt32) (e : Dirent) (v v' : Volume) :
    Prop where
  | same (h : SameShape v v')
  | linked (h : Linked d e v v')
  | moved {w : Volume} (h : Linked d e v w) (hx : ∃ x ∈ w.dir d', x.Names old e.inode)
      (hs : SameShape (w.unlinked d' old e.inode) v')

/-- When an entry is added and then one is removed, the new one is there or all old ones are. -/
theorem Linked.unlinked {e : Dirent} (h : Linked d e v w)
    (hx : ∃ x ∈ w.dir d', x.Names name ino) :
    e ∈ (w.unlinked d' name ino).dir d ∨
      ∀ c x, x ∈ v.dir c → x ∈ (w.unlinked d' name ino).dir c := by
  obtain ⟨l₁, l₂, hd, hw⟩ := h.dir
  have hwd : w.dir d = l₁ ++ e :: l₂ := by rw [hw, Function.update_self]
  by_cases hdd : d = d'
  · subst hdd
    obtain ⟨x, hx, hp⟩ := hx
    obtain ⟨a, m₁, m₂, _, _, hcut, herase⟩ := List.exists_of_eraseP
      (p := fun y : Dirent => decide (y.Names name ino)) hx (decide_eq_true hp)
    rw [unlinked_dir_self, herase]
    have hperm : (e :: (l₁ ++ l₂)).Perm (a :: (m₁ ++ m₂)) := by
      refine List.perm_middle.symm.trans ?_
      rw [← hwd, hcut]
      exact List.perm_middle
    by_cases hea : e = a
    · right
      intro c y hy
      by_cases hc : c = d
      · rw [hc, hd] at hy
        rw [hc, unlinked_dir_self, herase]
        rw [hea] at hperm
        exact (List.perm_cons a).mp hperm |>.mem_iff.mp hy
      · rw [unlinked_dir_of_ne hc, hw, Function.update_of_ne hc]
        exact hy
    · left
      have hmem : e ∈ a :: (m₁ ++ m₂) := hperm.mem_iff.mp (by simp)
      cases hmem with
      | head => exact absurd rfl hea
      | tail _ hmem => exact hmem
  · left
    rw [unlinked_dir_of_ne hdd, hwd]
    simp

/-- A file was linked under a new name and unlinked under the old one. -/
theorem allReachable_moved {t : UInt8} {new : List UInt8} (hv : v.AllReachable)
    (hfile : (v.node ino).isDir = false) (h : Linked d ⟨ino, new, t⟩ v w)
    (hx : ∃ x ∈ w.dir d', x.Names name ino) (huse : v.inUse d = true)
    (hdir : (v.node d).isDir = true) (hdots : ¬ IsDots new) :
    (w.unlinked d' name ino).AllReachable := by
  have hleaf : w.Leaf ino := leaf_of_not_dir (by rw [isDir_congr (h.mode ino)]; exact hfile)
  have hself := (SameShape.refl (w.unlinked d' name ino)).around ino
  intro c hc
  by_cases hne : c = ino
  · cases h.unlinked hx with
    | inl hnew =>
      have hd : d ≠ ino := by
        rintro rfl
        rw [hfile] at hdir
        cases hdir
      have huse' : (w.unlinked d' name ino).inUse d = true := by
        show w.inUse d = true
        rw [h.inUse]
        exact huse
      rw [hne]
      refine (reachable_of_ne (h.allReachable hv) hleaf hself huse' hd).tail ?_
      refine ⟨huse', ?_, _, hnew, hdots, rfl⟩
      show (w.node d).isDir = true
      rw [isDir_congr (h.mode d)]
      exact hdir
    | inr hkeep =>
      have hcv : v.inUse c = true := by
        rw [← h.inUse]
        exact hc
      refine ReflTransGen.mono ?_ _ _ (hv c hcv)
      rintro a b ⟨hause, hadir, x, hxa, hxd, hb⟩
      refine ⟨?_, ?_, x, hkeep a x hxa, hxd, hb⟩
      · show w.inUse a = true
        rwa [h.inUse]
      · show (w.node a).isDir = true
        rwa [isDir_congr (h.mode a)]
  · exact reachable_of_ne (h.allReachable hv) hleaf hself hc hne

end Trees

/-! ## Entries of one name and inode -/

section Entries

variable {v v' w : Volume} {c d d' ino ino' : UInt32} {name old : List UInt8}

def entries (v : Volume) (d : UInt32) (name : List UInt8) (ino : UInt32) : Nat :=
  (v.dir d).countP fun e => e.Names name ino

theorem entries_unlinked (hx : ∃ x ∈ v.dir d, x.Names name ino) :
    (v.unlinked d name ino).entries d name ino + 1 = v.entries d name ino := by
  obtain ⟨x, hx, hp⟩ := hx
  obtain ⟨a, l₁, l₂, _, ha, hcut, herase⟩ := List.exists_of_eraseP
    (p := fun y : Dirent => decide (y.Names name ino)) hx (decide_eq_true hp)
  rw [entries, entries, unlinked_dir_self, herase, hcut, List.countP_append, List.countP_append,
    List.countP_cons, if_pos ha]
  omega

theorem entries_unlinked_lt (hx : ∃ x ∈ v.dir d, x.Names name ino) :
    (v.unlinked d name ino).entries d name ino < v.entries d name ino :=
  Nat.lt_of_succ_le (Nat.le_of_eq (entries_unlinked hx))

theorem entries_unlinked_le : (v.unlinked d' old ino').entries c name ino ≤ v.entries c name ino := by
  by_cases hc : c = d'
  · rw [hc, entries, unlinked_dir_self]
    exact List.Sublist.countP_le List.eraseP_sublist
  · exact Nat.le_of_eq (by rw [entries, unlinked_dir_of_ne hc, entries])

theorem SameShape.entries (h : SameShape v v') : v'.entries c name ino = v.entries c name ino := by
  rw [Volume.entries, h.dir, Volume.entries]

theorem Around.entries_le (h : Around ino' v v') : v'.entries c name ino ≤ v.entries c name ino := by
  unfold entries
  by_cases hc : c = ino'
  · rw [hc]
    cases h.own with
    | inl heq => exact Nat.le_of_eq (by rw [heq])
    | inr hnil => rw [hnil]; exact Nat.zero_le _
  · exact Nat.le_of_eq (by rw [h.dir c hc])

theorem Linked.entries {e : Dirent} (h : Linked d e v w) (hne : e.inode ≠ ino) :
    w.entries c name ino = v.entries c name ino := by
  obtain ⟨l₁, l₂, hd, hw⟩ := h.dir
  unfold Volume.entries
  rw [hw]
  by_cases hc : c = d
  · have he : ¬ (decide (e.Names name ino) = true) := by simp [Dirent.Names, hne]
    rw [hc, Function.update_self, hd, List.countP_append, List.countP_append, List.countP_cons,
      if_neg he, Nat.add_zero]
  · rw [Function.update_of_ne hc]

theorem Moved.entries_le {e : Dirent} (h : Moved d' old d e v v') (hne : e.inode ≠ ino) :
    v'.entries c name ino ≤ v.entries c name ino := by
  cases h with
  | same h => exact Nat.le_of_eq h.entries
  | linked h => exact Nat.le_of_eq (h.entries hne)
  | moved h _ hs =>
    rw [hs.entries, ← h.entries hne]
    exact entries_unlinked_le

end Entries

end Volume

end Ext
end Usbrw
