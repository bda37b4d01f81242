import Usbrw.Base.Ancestry
import Usbrw.Ext.Links

/-!
# Ext.Ancestry

The directory tree of an ext volume under `extfsk_rename`, which nowhere asks whether a directory is
moved into itself.

* `Contains`, `IsTree` — the tree, `.` and `..` aside.
* `SameTree`           — volumes with the same one.
* `KeepsApart`         — a rename that moves no directory into itself, and removes none with
  directories in it.
* `extfskRename_isTree` — such a rename keeps the tree, whether it succeeds or fails.
-/

namespace Usbrw
namespace Ext

open Call Run Ancestry Volume

variable {σ : Type}

namespace Volume

/-- The directory `d` has an entry for the directory `c`. -/
def Contains (v : Volume) (d c : UInt32) : Prop :=
  v.Directory d ∧ v.Directory c ∧ ∃ e ∈ v.dir d, ¬ IsDots e.name ∧ e.inode = c

def IsTree (v : Volume) : Prop := Rooted EXT2_ROOT_INO v.Directory v.Contains

structure SameTree (v w : Volume) : Prop where
  directory : ∀ d, w.Directory d ↔ v.Directory d
  contains : ∀ a b, w.Contains a b ↔ v.Contains a b

section Shapes

variable {u v w : Volume} {d d' ino : UInt32} {name : List UInt8} {e : Dirent}

theorem SameTree.trans (h : SameTree u v) (h' : SameTree v w) : SameTree u w :=
  ⟨fun d => (h'.directory d).trans (h.directory d),
    fun a b => (h'.contains a b).trans (h.contains a b)⟩

theorem SameTree.isTree (h : SameTree v w) (hv : v.IsTree) : w.IsTree := by
  have hdir : w.Directory = v.Directory := funext fun d => propext (h.directory d)
  have hcontains : w.Contains = v.Contains := funext₂ fun a b => propext (h.contains a b)
  unfold IsTree
  rwa [hdir, hcontains]

/-- Where the same inodes are in use and directories, the entries decide. -/
theorem sameTree_of_entries (hdir : ∀ d, w.Directory d ↔ v.Directory d)
    (h : ∀ d x, v.Directory x.inode → ¬ IsDots x.name → (x ∈ w.dir d ↔ x ∈ v.dir d)) :
    SameTree v w := by
  refine ⟨hdir, fun a b => ?_⟩
  unfold Contains
  rw [hdir a, hdir b]
  refine and_congr_right fun _ => and_congr_right fun hb => exists_congr fun x => ?_
  constructor
  · rintro ⟨hx, hdots, rfl⟩
    exact ⟨(h a x hb hdots).mp hx, hdots, rfl⟩
  · rintro ⟨hx, hdots, rfl⟩
    exact ⟨(h a x hb hdots).mpr hx, hdots, rfl⟩

theorem SameShape.sameTree (h : SameShape v w) : SameTree v w :=
  sameTree_of_entries h.directory fun _ _ _ _ => by rw [h.dir]

theorem Linked.contains (h : Linked d e v w) {a b : UInt32} (hab : v.Contains a b) :
    w.Contains a b := by
  obtain ⟨ha, hb, x, hx, hdots, hino⟩ := hab
  exact ⟨(h.directory a).mpr ha, (h.directory b).mpr hb, x, h.mem hx, hdots, hino⟩

/-- The entry leads to nothing it is in, so the tree stays one. -/
theorem Linked.isTree (h : Linked d e v w) (hv : v.IsTree)
    (hapart : v.Directory e.inode → ¬ Below v.Contains e.inode d) : w.IsTree := by
  refine Rooted.link (p := d) (c := e.inode) hv (fun c => (h.directory c).mp) (fun _ _ hab => hab.1)
    (fun _ _ => h.contains) ?_
  rintro a b ⟨ha, hb, x, hx, hdots, rfl⟩
  rcases h.mem_iff.mp hx with hold | ⟨rfl, rfl⟩
  · exact .inl ⟨(h.directory a).mp ha, (h.directory _).mp hb, x, hold, hdots, rfl⟩
  · exact .inr ⟨rfl, rfl, hapart ((h.directory _).mp hb)⟩

theorem Linked.sameTree (h : Linked d e v w) (he : ¬ v.Directory e.inode) : SameTree v w := by
  refine sameTree_of_entries h.directory fun c x hx _ => ?_
  rw [h.mem_iff]
  refine or_iff_left ?_
  rintro ⟨_, rfl⟩
  exact he hx

theorem unlinked_directory (c : UInt32) :
    (v.unlinked d name ino).Directory c ↔ v.Directory c := Iff.rfl

theorem unlinked_contains {a b : UInt32} (h : (v.unlinked d name ino).Contains a b) :
    v.Contains a b := by
  obtain ⟨ha, hb, x, hx, hdots, hino⟩ := h
  exact ⟨ha, hb, x, mem_of_mem_unlinked hx, hdots, hino⟩

theorem contains_unlinked {a b : UInt32} (h : v.Contains a b) (hb : b ≠ ino) :
    (v.unlinked d name ino).Contains a b := by
  obtain ⟨ha, hdir, x, hx, hdots, rfl⟩ := h
  exact ⟨ha, hdir, x, mem_unlinked hx hb, hdots, rfl⟩

theorem sameTree_unlinked (hino : ¬ v.Directory ino) : SameTree v (v.unlinked d name ino) := by
  refine ⟨unlinked_directory, fun a b => ⟨unlinked_contains, fun h => contains_unlinked h ?_⟩⟩
  rintro rfl
  exact hino h.2.1

/-- One more entry for a directory, and one less. -/
theorem Linked.isTree_unlinked (h : Linked d e v w) (hv : v.IsTree) (hino : v.Directory e.inode)
    (hd : v.Directory d) (hdots : ¬ IsDots e.name) (hapart : ¬ Below v.Contains e.inode d)
    (hx : ∃ x ∈ w.dir d', x.Names name e.inode) : (w.unlinked d' name e.inode).IsTree := by
  have hw : w.IsTree := h.isTree hv fun _ => hapart
  refine Rooted.unlink (c := e.inode) hw (fun _ hc => hc) (fun _ _ hab => hab.1)
    (fun _ _ => unlinked_contains) (fun _ _ hab hb => contains_unlinked hab hb) ?_ ?_
  · intro _
    cases h.unlinked hx with
    | inl hnew =>
      exact ⟨d, (h.directory d).mpr hd, (h.directory e.inode).mpr hino, e, hnew, hdots, rfl⟩
    | inr hold =>
      -- then it still has the entry that held it before
      rcases (hv.reachable e.inode hino).cases_tail with heq | ⟨q, _, hq, hqdir, x, hxq, hxd, hxino⟩
      · rw [heq] at hapart
        exact absurd (hv.reachable d hd) hapart
      · exact ⟨q, (h.directory q).mpr hq, (h.directory _).mpr hqdir, x, hold q x hxq, hxd, hxino⟩
  · intro hno
    exact absurd ((h.directory e.inode).mpr hino) hno

/-- A directory that is removed holds none, and goes if no other directory holds it. -/
theorem isTree_removed (hv : v.IsTree) (h : Around ino (v.unlinked d name ino) w)
    (hown : w.Directory ino → SameShape (v.unlinked d name ino) w)
    (hleaf : v.Directory ino → ∀ b, ¬ v.Contains ino b)
    (hother : w.Directory ino → ∃ q, (v.unlinked d name ino).Contains q ino) : w.IsTree := by
  have hdir : ∀ c, w.Directory c → v.Directory c := by
    intro c hc
    by_cases heq : c = ino
    · rw [heq] at hc ⊢
      exact ((hown hc).directory ino).mp hc
    · exact (directory_congr (h.inUse c heq) (h.mode c)).mp hc
  have hback : ∀ c, c ≠ ino → v.Directory c → w.Directory c := fun c hne hc =>
    (directory_congr (h.inUse c hne) (h.mode c)).mpr hc
  have hempty : ∀ b, ¬ v.Contains ino b := fun b hb => hleaf hb.1 b hb
  refine Rooted.unlink (c := ino) hv hdir (fun _ _ hab => hab.1) ?_ ?_ ?_ fun _ => hempty
  · rintro a b ⟨ha, hb, x, hx, hdots, hino⟩
    have hmem : x ∈ (v.unlinked d name ino).dir a := by
      by_cases heq : a = ino
      · rw [heq] at ha hx ⊢
        rwa [(hown ha).dir] at hx
      · rwa [h.dir a heq] at hx
    exact ⟨hdir a ha, hdir b hb, x, mem_of_mem_unlinked hmem, hdots, hino⟩
  · rintro a b hab hb
    obtain ⟨ha, hbdir, x, hx, hdots, hino⟩ := hab
    have hne : a ≠ ino := by
      rintro rfl
      exact hempty b ⟨ha, hbdir, x, hx, hdots, hino⟩
    refine ⟨hback a hne ha, hback b hb hbdir, x, ?_, hdots, hino⟩
    rw [h.dir a hne]
    exact mem_unlinked hx (by rwa [hino])
  · intro hc
    obtain ⟨q, hq⟩ := hother hc
    exact ⟨q, ((hown hc).sameTree.contains q ino).mpr hq⟩

theorem mem_reparent_iff {p : UInt32} {es : List Dirent} {x : Dirent} (hx : ¬ IsDots x.name) :
    x ∈ reparent p es ↔ x ∈ es := by
  induction es with
  | nil => rfl
  | cons y es ih =>
    by_cases hy : y.name = dotdot
    · have hxy : x ≠ y := by
        rintro rfl
        exact hx (.inr hy)
      have hxp : x ≠ { y with inode := p } := by
        intro heq
        exact hx (.inr (by rw [heq]; exact hy))
      rw [reparent, if_pos hy, List.mem_cons, or_iff_right hxy]
      split
      · rfl
      · rw [List.mem_cons, or_iff_right hxp]
    · rw [reparent, if_neg hy, List.mem_cons, List.mem_cons, ih]

/-- What a directory says its parent is does not count. -/
theorem sameTree_reparent (v : Volume) (ino p : UInt32) :
    SameTree v (v.setDir ino (reparent p (v.dir ino))) := by
  refine sameTree_of_entries (fun _ => Iff.rfl) fun d x _ hdots => ?_
  rw [setDir_dir]
  by_cases hd : d = ino
  · rw [hd, Function.update_self]
    exact mem_reparent_iff hdots
  · rw [Function.update_of_ne hd]

/-- What a directory that is moved leaves: the tree there was, its new entry besides, or that and no
old one. -/
inductive DirMoved (oldDir : UInt32) (oldName : List UInt8) (newDir : UInt32) (e : Dirent)
    (v w : Volume) : Prop where
  | same (h : SameTree v w)
  | linked (h : Linked newDir e v w)
  | moved {u : Volume} (h : Linked newDir e v u) (hx : ∃ x ∈ u.dir oldDir, x.Names oldName e.inode)
      (hs : SameTree (u.unlinked oldDir oldName e.inode) w)

theorem DirMoved.isTree {oldName : List UInt8} (h : DirMoved d' oldName d e v w) (hv : v.IsTree)
    (hapart : v.Directory e.inode →
      v.Directory d ∧ ¬ IsDots e.name ∧ ¬ Below v.Contains e.inode d) : w.IsTree := by
  cases h with
  | same h => exact h.isTree hv
  | linked h => exact h.isTree hv fun hino => (hapart hino).2.2
  | @moved u h hx hs =>
    by_cases hino : v.Directory e.inode
    · obtain ⟨hd, hdots, hbelow⟩ := hapart hino
      exact hs.isTree (h.isTree_unlinked hv hino hd hdots hbelow hx)
    · have hafter : SameTree u (u.unlinked d' oldName e.inode) :=
        sameTree_unlinked fun hu => hino ((h.directory _).mp hu)
      exact (((h.sameTree hino).trans hafter).trans hs).isTree hv

/-- A file that is moved is nowhere in the tree. -/
theorem Moved.sameTree {oldName : List UInt8} (h : Moved d' oldName d e v w)
    (he : ¬ v.Directory e.inode) : SameTree v w := by
  cases h with
  | same h => exact h.sameTree
  | linked h => exact h.sameTree he
  | moved h _ hs =>
    refine ((h.sameTree he).trans (sameTree_unlinked ?_)).trans hs.sameTree
    exact fun hu => he ((h.directory _).mp hu)

end Shapes

end Volume

/-! ## `extfsk_rename` -/

section Rename

variable {fs : Ext2fs σ} {V : View σ} {oldDir newDir : UInt64} {oldName newName : List UInt8}
  {ino x : UInt32} {s s' : σ}

/-- A directory is linked into a directory that it is not and does not hold, as neither `.` nor `..`,
or not at all. -/
def MovesApart (fs : Ext2fs σ) (V : View σ) (newDir : UInt64) (newName : List UInt8) (ino : UInt32)
    (s : σ) : Prop :=
  (V.volume s).Directory ino →
    (∃ e s', fs.link newDir.toUInt32 newName ino EXT2_FT_DIR s = .error e s') ∨
    ((V.volume s).Directory newDir.toUInt32 ∧ ¬ IsDots newName ∧
      ¬ Below (V.volume s).Contains ino newDir.toUInt32)

/-- A directory whose entry is removed holds no directory, and either another directory holds it or
it is released. -/
def RemovesApart (fs : Ext2fs σ) (V : View σ) (d : UInt32) (name : List UInt8) (x : UInt32)
    (s : σ) : Prop :=
  ∀ s', fs.unlink d name x s = .ok () s' → (V.volume s).Directory x →
    (∀ b, ¬ (V.volume s).Contains x b) ∧
      ((∃ q, ((V.volume s).unlinked d name x).Contains q x) ∨ Completes fs x d s')

def KeepsApart (fs : Ext2fs σ) (V : View σ) (oldDir : UInt64) (oldName : List UInt8)
    (newDir : UInt64) (newName : List UInt8) (s : σ) : Prop :=
  ∀ ino inode s', Finds fs oldDir oldName ino inode s s' →
    if LINUX_S_ISDIR inode.iMode then MovesApart fs V newDir newName ino.toUInt32 s'
    else ∀ x s₁, Replaces fs newDir newName x s' s₁ →
      RemovesApart fs V newDir.toUInt32 newName x s₁

theorem renameDir_moved (hL : Lawful fs V) (hE : LawfulEdit fs V) (v : Volume) (ino : UInt32) :
    Spec (V.Is v) (renameDir fs oldDir oldName newDir newName ino)
      (fun _ s => DirMoved oldDir.toUInt32 oldName newDir.toUInt32 ⟨ino, newName, EXT2_FT_DIR⟩ v
        (V.volume s))
      fun _ s => DirMoved oldDir.toUInt32 oldName newDir.toUInt32 ⟨ino, newName, EXT2_FT_DIR⟩ v
        (V.volume s) := by
  unfold renameDir
  refine Spec.bind_orFail (hL.link v newDir.toUInt32 newName ino EXT2_FT_DIR)
    (fun _ _ hs => .same hs.sameShape.sameTree) fun _ s hs => ?_
  obtain ⟨l₁, l₂, hd, hs⟩ := hs
  have hlinked := linked_setDir (e := ⟨ino, newName, EXT2_FT_DIR⟩) (SameShape.refl v) hd
  generalize v.setDir newDir.toUInt32 (l₁ ++ ⟨ino, newName, EXT2_FT_DIR⟩ :: l₂) = u at hs hlinked
  refine Spec.bind_orFail (hL.unlink u oldDir.toUInt32 oldName ino) ?_ (fun _ => ?_) s hs
  · intro _ s' hs'
    rw [hs'.eq]
    exact .linked hlinked
  refine Spec.assume fun hx => ?_
  have hmoved : ∀ s', SameTree (u.unlinked oldDir.toUInt32 oldName ino) (V.volume s') →
      DirMoved oldDir.toUInt32 oldName newDir.toUInt32 ⟨ino, newName, EXT2_FT_DIR⟩ v (V.volume s') :=
    fun s' h => .moved hlinked hx h
  by_cases hsame : oldDir = newDir
  · rw [if_pos hsame]
    exact Spec.pure fun s' hs' => hmoved s' hs'.sameShape.sameTree
  · rw [if_neg hsame]
    refine Spec.bind_orFail (rewriteDotdot_spec hE _ ino newDir.toUInt32)
      (fun _ s' hs' => hmoved s' hs'.sameShape.sameTree) fun _ => ?_
    intro s' hs'
    refine hmoved _ ((sameTree_reparent _ ino newDir.toUInt32).trans ?_)
    rw [← hs'.eq]
    exact ((addParentLink_sameShape hL newDir.toUInt32 s').trans
      (removeParentLink_sameShape hL oldDir.toUInt32 _)).sameTree

theorem renameDir_isTree (hL : Lawful fs V) (hE : LawfulEdit fs V) (hv : (V.volume s).IsTree)
    (hapart : MovesApart fs V newDir newName ino s) :
    (V.volume (final (renameDir fs oldDir oldName newDir newName ino s))).IsTree := by
  by_cases hfails : ∃ e s', fs.link newDir.toUInt32 newName ino EXT2_FT_DIR s = .error e s'
  · obtain ⟨e, s', hlink⟩ := hfails
    rw [renameDir, run_bind_error (run_orFail_error hlink), final_error,
      (hL.link (V.volume s) newDir.toUInt32 newName ino EXT2_FT_DIR).error rfl hlink]
    exact hv
  · have hmoved : DirMoved oldDir.toUInt32 oldName newDir.toUInt32 ⟨ino, newName, EXT2_FT_DIR⟩
        (V.volume s) (V.volume (final (renameDir fs oldDir oldName newDir newName ino s))) :=
      Spec.final (renameDir_moved hL hE (V.volume s) ino) rfl
    exact hmoved.isTree hv fun hino => (hapart hino).resolve_left hfails

/-- An entry is removed without harm to the tree. -/
theorem extAfterUnlink_isTree (hL : Lawful fs V) {d : UInt64} {name : List UInt8} {s₁ s₂ : σ}
    (hrem : Removed fs V d name x s s₁ s₂) (hv : (V.volume s).IsTree)
    (hsafe : RemovesApart fs V d.toUInt32 name x s₁) :
    (V.volume (final (extAfterUnlink fs x true d.toUInt32 s₂))).IsTree := by
  have hset : Settled V x _ (final (extAfterUnlink fs x true d.toUInt32 s₂)) :=
    (extAfterUnlink_spec hL (V.volume s₂) x d.toUInt32).final rfl
  have haround := hset.around
  have hown : (V.volume (final (extAfterUnlink fs x true d.toUInt32 s₂))).Directory x →
      SameShape (V.volume s₂) (V.volume (final (extAfterUnlink fs x true d.toUInt32 s₂))) := by
    intro hx
    refine hset.resolve_left fun hfreed => ?_
    have huse := hx.2.1
    rw [hfreed.2] at huse
    cases huse
  have hapart := hsafe s₂ hrem.call
  rw [hrem.start] at hapart
  have hnode : (V.volume s₂).node = (V.volume s).node := by rw [hrem.volume]; rfl
  rw [hrem.volume] at haround hown
  refine isTree_removed hv haround hown (fun hx => (hapart hx).1) fun hx => ?_
  have hdir : (V.volume s).Directory x := ((hown hx).directory x).mp hx
  refine (hapart hdir).2.resolve_right fun hcompletes => ?_
  -- then it was released
  have hfreed := extAfterUnlink_frees hL hcompletes (.inl (by rw [hnode]; exact hdir.2.2))
  have huse := hx.2.1
  rw [hfreed.2] at huse
  cases huse

/-- What the new name stood for is removed without harm to the tree, and what was no directory stays
none. -/
theorem removeExisting_isTree (hL : Lawful fs V) (hv : (V.volume s).IsTree)
    (hsafe : ∀ x s₁, Replaces fs newDir newName x s s₁ →
      RemovesApart fs V newDir.toUInt32 newName x s₁) :
    (V.volume (final (removeExisting fs newDir newName s))).IsTree ∧
      ∀ c, ((V.volume s).node c).isDir = false →
        ((V.volume (final (removeExisting fs newDir newName s))).node c).isDir = false := by
  cases removeExisting_cases hL newDir newName s with
  | inl h =>
    rw [h]
    exact ⟨hv, fun _ hc => hc⟩
  | inr h =>
    obtain ⟨x, s₁, s₂, hrep, hrem, hrun⟩ := h
    rw [hrun]
    refine ⟨extAfterUnlink_isTree hL hrem hv (hsafe x s₁ hrep), fun c hc => ?_⟩
    have hset : Settled V x _ (final (extAfterUnlink fs x true newDir.toUInt32 s₂)) :=
      (extAfterUnlink_spec hL (V.volume s₂) x newDir.toUInt32).final rfl
    have hnode : (V.volume s₂).node = (V.volume s).node := by rw [hrem.volume]; rfl
    rw [isDir_congr (hset.around.mode c), hnode]
    exact hc

theorem renameFile_isTree (hL : Lawful fs V) (hv : (V.volume s).IsTree)
    (hfile : ((V.volume s).node ino).isDir = false)
    (hsafe : ∀ x s₁, Replaces fs newDir newName x s s₁ →
      RemovesApart fs V newDir.toUInt32 newName x s₁) :
    (V.volume (final (renameFile fs oldDir oldName newDir newName ino s))).IsTree := by
  obtain ⟨htree, hfiles⟩ := removeExisting_isTree hL hv hsafe
  have hino := hfiles ino hfile
  unfold renameFile
  cases hrun : removeExisting fs newDir newName s with
  | error e s₁ =>
    rw [run_bind_error hrun]
    rw [hrun] at htree
    exact htree
  | ok u s₁ =>
    rw [run_bind_ok hrun]
    rw [hrun] at htree hino
    refine SameTree.isTree
      ((moveEntry_moved hL oldDir oldName newDir newName ino s₁).sameTree ?_) htree
    intro hdir
    have htrue := hdir.2.2
    rw [show ((V.volume s₁).node ino).isDir = false from hino] at htrue
    cases htrue

theorem extfskRename_isTree (hL : Lawful fs V) (hE : LawfulEdit fs V) (hv : (V.volume s).IsTree)
    (hapart : KeepsApart fs V oldDir oldName newDir newName s) :
    (V.volume (final (extfskRename fs oldDir oldName newDir newName s))).IsTree := by
  cases extfskRename_cases hL oldDir oldName newDir newName s with
  | inl h =>
    obtain ⟨e, s', hrun, _, hs'⟩ := h
    rwa [hrun, final_error, hs']
  | inr h =>
    obtain ⟨ino, inode, s', hfinds⟩ := h
    obtain ⟨hnode, hs'⟩ := hfinds.node hL
    have hmoves := hapart ino inode s' hfinds
    rw [← hs'] at hnode hv
    by_cases hdir : LINUX_S_ISDIR inode.iMode = true
    · rw [if_pos hdir] at hmoves
      rw [hfinds.run_dir hdir]
      exact renameDir_isTree hL hE hv hmoves
    · rw [if_neg hdir] at hmoves
      have hfile : LINUX_S_ISDIR inode.iMode = false := by simpa using hdir
      rw [hfinds.run hfile]
      exact renameFile_isTree hL hv ((isDir_of_node hnode).symm.trans hfile) hmoves

end Rename

end Ext
end Usbrw
