import Usbrw.Ext.Links

/-!
# Ext.EntryTypes

The type of an inode is in its mode, and once more in every entry for it. Each call that adds an entry
gives it a type of its own choice.

* `fileTypeOf`, `TypesMatch` — the type that a mode stands for; every entry has that of its inode.
* `LawfulTypes`       — what `ext2fs_mkdir` and `ext2fs_symlink` write into entries.
* `TypesFit`          — what a call has to meet: above all, a file it renames is a regular one.
* `types_match`       — a run of successful calls that meet it keeps the types right.
* `renameFile_mistyped` — the entry of any other file is wrong once it has been renamed.
-/

namespace Usbrw
namespace Ext

open Call Run Volume

variable {σ : Type}

def LINUX_S_IFCHR : UInt16 := 0x2000
def LINUX_S_IFBLK : UInt16 := 0x6000

def EXT2_FT_UNKNOWN : UInt8 := 0
def EXT2_FT_CHRDEV : UInt8 := 3
def EXT2_FT_BLKDEV : UInt8 := 4
def EXT2_FT_FIFO : UInt8 := 5
def EXT2_FT_SOCK : UInt8 := 6

/-- The type an entry is to have for an inode of that mode. -/
def fileTypeOf (mode : UInt16) : UInt8 :=
  let fmt := mode &&& LINUX_S_IFMT
  if fmt = LINUX_S_IFREG then EXT2_FT_REG_FILE
  else if fmt = LINUX_S_IFDIR then EXT2_FT_DIR
  else if fmt = LINUX_S_IFCHR then EXT2_FT_CHRDEV
  else if fmt = LINUX_S_IFBLK then EXT2_FT_BLKDEV
  else if fmt = LINUX_S_IFIFO then EXT2_FT_FIFO
  else if fmt = LINUX_S_IFSOCK then EXT2_FT_SOCK
  else if fmt = LINUX_S_IFLNK then EXT2_FT_SYMLINK
  else EXT2_FT_UNKNOWN

theorem fileTypeOf_regular (mode : UInt32) :
    fileTypeOf (regularMode mode).toUInt16 = EXT2_FT_REG_FILE := by
  simp [fileTypeOf, regularMode_format]

theorem fileTypeOf_dir {n : Node} (h : n.isDir = true) : fileTypeOf n.mode = EXT2_FT_DIR := by
  have hfmt : n.mode &&& LINUX_S_IFMT = LINUX_S_IFDIR := by
    simpa [Node.isDir, LINUX_S_ISDIR] using h
  have hne : LINUX_S_IFDIR ≠ LINUX_S_IFREG := by decide
  simp [fileTypeOf, hfmt, hne]

namespace Volume

/-- The entry has the type of its inode. -/
def Typed (v : Volume) (e : Dirent) : Prop := e.fileType = fileTypeOf (v.node e.inode).mode

instance (v : Volume) (e : Dirent) : Decidable (v.Typed e) := by
  unfold Typed
  infer_instance

/-- Every entry of every directory has. -/
def TypesMatch (v : Volume) : Prop := ∀ d, v.Directory d → ∀ e ∈ v.dir d, v.Typed e

section Types

variable {v v' w : Volume} {d ino : UInt32} {name : List UInt8} {e : Dirent}

theorem Typed.congr (h : v.Typed e) (hmode : (v'.node e.inode).mode = (v.node e.inode).mode) :
    v'.Typed e := by
  rw [Typed, hmode]
  exact h

/-- Where all modes stay, an entry that was there keeps its type right. -/
theorem TypesMatch.of_entries (hv : v.TypesMatch)
    (hmode : ∀ i, (v'.node i).mode = (v.node i).mode)
    (h : ∀ c, v'.Directory c → ∀ e ∈ v'.dir c, (v.Directory c ∧ e ∈ v.dir c) ∨ v'.Typed e) :
    v'.TypesMatch := by
  intro c hc e he
  rcases h c hc e he with ⟨hc', he'⟩ | htyped
  · exact (hv c hc' e he').congr (hmode e.inode)
  · exact htyped

theorem SameShape.typesMatch (h : SameShape v v') (hv : v.TypesMatch) : v'.TypesMatch := by
  refine hv.of_entries h.mode ?_
  intro c hc e he
  rw [h.dir] at he
  exact .inl ⟨(h.directory c).mp hc, he⟩

theorem TypesMatch.unlinked (hv : v.TypesMatch) : (v.unlinked d name ino).TypesMatch :=
  hv.of_entries (fun _ => rfl) fun _ hc _ he => .inl ⟨hc, mem_of_mem_unlinked he⟩

/-- An entry is added that has the right type. -/
theorem Linked.typesMatch (h : Linked d e v w) (hv : v.TypesMatch) (he : v.Typed e) :
    w.TypesMatch := by
  refine hv.of_entries h.mode ?_
  intro c hc x hx
  rcases h.mem_iff.mp hx with hx | ⟨_, rfl⟩
  · exact .inl ⟨(h.directory c).mp hc, hx⟩
  · exact .inr (he.congr (h.mode x.inode))

theorem Directory.ne_of_free {child : UInt32} (hd : v.Directory d) (h : v.inUse child = false) :
    d ≠ child := by
  rintro rfl
  have huse := hd.2.1
  rw [h] at huse
  cases huse

theorem mem_reparent {p : UInt32} {es : List Dirent} {x : Dirent} (h : x ∈ reparent p es) :
    x ∈ es ∨ ∃ y ∈ es, y.name = dotdot ∧ x = { y with inode := p } := by
  induction es with
  | nil => cases h
  | cons y es ih =>
    unfold reparent at h
    by_cases hy : y.name = dotdot
    · rw [if_pos hy] at h
      by_cases hp : p = 0
      · rw [if_pos hp] at h
        exact .inl (List.mem_cons_of_mem y h)
      · rw [if_neg hp, List.mem_cons] at h
        rcases h with rfl | h
        · exact .inr ⟨y, List.mem_cons_self, hy, rfl⟩
        · exact .inl (List.mem_cons_of_mem y h)
    · rw [if_neg hy, List.mem_cons] at h
      rcases h with rfl | h
      · exact .inl List.mem_cons_self
      · rcases ih h with h | ⟨z, hz, hname, rfl⟩
        · exact .inl (List.mem_cons_of_mem y h)
        · exact .inr ⟨z, List.mem_cons_of_mem y hz, hname, rfl⟩

/-- The `..` of `ino` are typed as directories. -/
def DotdotTyped (v : Volume) (ino : UInt32) : Prop :=
  ∀ e ∈ v.dir ino, e.name = dotdot → e.fileType = EXT2_FT_DIR

theorem TypesMatch.reparent {p : UInt32} (hv : v.TypesMatch) (hdots : v.DotdotTyped ino)
    (hp : (v.node p).isDir = true) : (v.setDir ino (reparent p (v.dir ino))).TypesMatch := by
  refine hv.of_entries (fun _ => rfl) ?_
  intro c hc e he
  rw [setDir_dir] at he
  by_cases hci : c = ino
  · rw [hci, Function.update_self] at he
    rw [hci] at hc ⊢
    rcases mem_reparent he with he | ⟨y, hy, hname, rfl⟩
    · exact .inl ⟨hc, he⟩
    · exact .inr ((hdots y hy hname).trans (fileTypeOf_dir hp).symm)
  · rw [Function.update_of_ne hci] at he
    exact .inl ⟨hc, he⟩

/-- No directory has an entry for a free inode, unless it is of the type `t`. -/
def Vacant (v : Volume) (t : UInt8) : Prop :=
  ∀ d, v.Directory d → ∀ e ∈ v.dir d, v.inUse e.inode = false → e.fileType = t

/-- The inode `child`, free before, is of type `t`, and all entries that are new are for it. -/
structure Grown (child : UInt32) (t : UInt8) (v v' : Volume) : Prop where
  fresh : v.inUse child = false
  directory : ∀ c, c ≠ child → (v'.Directory c ↔ v.Directory c)
  mode : ∀ i, i ≠ child → (v'.node i).mode = (v.node i).mode
  type : fileTypeOf (v'.node child).mode = t
  entries : ∀ c, v.Directory c → ∀ e ∈ v'.dir c, e ∈ v.dir c ∨ e.inode = child ∧ e.fileType = t
  own : v'.Directory child → ∀ e ∈ v'.dir child, v'.Typed e

theorem Grown.typesMatch {child : UInt32} {t : UInt8} (h : Grown child t v v') (hv : v.TypesMatch)
    (hvacant : v.Vacant t) : v'.TypesMatch := by
  intro c hc e he
  by_cases hcc : c = child
  · rw [hcc] at hc he
    exact h.own hc e he
  · have hc' := (h.directory c hcc).mp hc
    rcases h.entries c hc' e he with hold | ⟨hi, ht⟩
    · by_cases hi : e.inode = child
      · rw [Typed, hi, h.type]
        exact hvacant c hc' e hold (by rw [hi, h.fresh])
      · exact (hv c hc' e hold).congr (h.mode e.inode hi)
    · rw [Typed, hi, h.type]
      exact ht

end Types

end Volume

/-! ## Inodes that are made -/

/-- A directory in a directory. It and its `.` and `..` are entered as such. -/
structure TypedDir (d : UInt32) (name : List UInt8) (child : UInt32) (v v' : Volume) : Prop
    extends MadeDir d name child v v' where
  parentDir : (v.node d).isDir = true
  kind : ∀ e ∈ v'.dir d, e.name = name → e.fileType = EXT2_FT_DIR
  dots : ∀ e ∈ v'.dir child, e.fileType = EXT2_FT_DIR

/-- A symbolic link, entered as one. -/
structure TypedSymlink (d : UInt32) (name : List UInt8) (child : UInt32) (v v' : Volume) : Prop
    extends MadeSymlink d name child v v' where
  type : fileTypeOf (v'.node child).mode = EXT2_FT_SYMLINK
  kind : ∀ e ∈ v'.dir d, e.name = name → e.fileType = EXT2_FT_SYMLINK

structure LawfulTypes (fs : Ext2fsNew σ) (V : View σ) : Prop where
  mkdir : ∀ v d name, Spec (V.Is v) (fs.mkdir d 0 name)
    (fun _ s => ∃ child, TypedDir d name child v (V.volume s)) fun _ => V.Is v
  symlink : ∀ v d name target, Spec (V.Is v) (fs.symlink d 0 name target)
    (fun _ s => ∃ child, TypedSymlink d name child v (V.volume s)) fun _ => V.Is v

section Made

variable {v v' : Volume} {d child : UInt32} {name : List UInt8} {t : UInt8}

/-- What a call leaves that makes an inode, if it enters it with the type `t`. -/
theorem Made.grown (h : Made d name child v v') (htype : fileTypeOf (v'.node child).mode = t)
    (hkind : ∀ e ∈ v'.dir d, e.name = name → e.fileType = t)
    (hown : v'.Directory child → ∀ e ∈ v'.dir child, v'.Typed e) : Grown child t v v' := by
  have hmode : ∀ i, i ≠ child → (v'.node i).mode = (v.node i).mode := by
    intro i hi
    by_cases hd : i = d
    · rw [hd, h.mode]
    · rw [h.nodes i hd hi]
  refine ⟨h.fresh, ?_, hmode, htype, ?_, hown⟩
  · intro c hc
    refine directory_congr ?_ (hmode c hc)
    rw [h.inUse, Function.update_of_ne hc]
  · intro c hc e he
    by_cases hcd : c = d
    · obtain ⟨l₁, l₂, t', hd, hd'⟩ := h.entry
      have hcases := he
      rw [hcd, hd', List.mem_append, List.mem_cons, or_left_comm, ← List.mem_append, ← hd] at hcases
      rw [hcd] at he ⊢
      rcases hcases with rfl | hold
      · exact .inr ⟨rfl, hkind _ he rfl⟩
      · exact .inl hold
    · rw [h.dirs c hcd (hc.ne_of_free h.fresh)] at he
      exact .inl he

theorem TypedDir.grown (h : TypedDir d name child v v') : Grown child EXT2_FT_DIR v v' := by
  refine h.toMade.grown (fileTypeOf_dir h.isDir) h.kind ?_
  intro _ e he
  have hparent : fileTypeOf (v'.node d).mode = EXT2_FT_DIR := by
    rw [h.mode]
    exact fileTypeOf_dir h.parentDir
  obtain ⟨t, hown⟩ := h.own
  have hkind := h.dots e he
  simp only [hown, List.mem_cons, List.not_mem_nil, or_false] at he
  rw [Typed, hkind]
  rcases he with rfl | rfl
  · exact (fileTypeOf_dir h.isDir).symm
  · exact hparent.symm

theorem TypedSymlink.grown (h : TypedSymlink d name child v v') :
    Grown child EXT2_FT_SYMLINK v v' := by
  refine h.toMade.grown h.type h.kind ?_
  intro hdir
  exact absurd hdir.2.2 (ne_true_of_eq_false h.isDir)

theorem FileMade.grown {mode : UInt32} (h : FileMade d name (regularMode mode) child v v') :
    Grown child EXT2_FT_REG_FILE v v' := by
  obtain ⟨w, hw, rfl⟩ := h.made
  have hnode : ((w.setNode child (newFile (regularMode mode))).setInUse child true).node child =
      newFile (regularMode mode) := Function.update_self ..
  refine ⟨h.fresh, ?_, ?_, ?_, ?_, ?_⟩
  · intro c hc
    rw [← hw.directory]
    exact directory_congr (by simp [hc]) (by simp [hc])
  · intro i hi
    simp [hi, hw.node_mode i]
  · rw [hnode]
    exact fileTypeOf_regular mode
  · intro c _ e he
    rcases hw.linked.mem_iff.mp he with hold | ⟨_, rfl⟩
    · exact .inl hold
    · exact .inr ⟨rfl, rfl⟩
  · intro hdir
    have hisdir := hdir.2.2
    rw [hnode] at hisdir
    exact absurd hisdir (ne_true_of_eq_false (regularMode_isDir mode))

end Made

/-! ## The calls -/

section Calls

variable {fs : Ext2fs σ} {V : View σ} {oldDir newDir : UInt64} {oldName newName : List UInt8}
  {ino : UInt32} {s s' : σ}

theorem Settled.typesMatch {v : Volume} (h : Settled V ino v s) (hv : v.TypesMatch) :
    (V.volume s).TypesMatch := by
  cases h with
  | inr hsame => exact hsame.typesMatch hv
  | inl hfreed =>
    obtain ⟨haround, hfree⟩ := hfreed
    refine hv.of_entries haround.mode ?_
    intro c hc e he
    have hne := hc.ne_of_free hfree
    rw [haround.dir c hne] at he
    exact .inl ⟨(directory_congr (haround.inUse c hne) (haround.mode c)).mp hc, he⟩

theorem extfskUnlink_types (hL : Lawful fs V) (hv : (V.volume s).TypesMatch) {dirIno hint : UInt64}
    {name : List UInt8} (h : extfskUnlink fs dirIno name hint s = .ok () s') :
    (V.volume s').TypesMatch := by
  obtain ⟨x, s₁, s₂, _, hrem, hafter⟩ := extfskUnlink_returns hL h
  have hset := (extAfterUnlink_spec hL (V.volume s₂) x dirIno.toUInt32).ok rfl hafter
  rw [hrem.volume] at hset
  exact hset.typesMatch hv.unlinked

/-- What is in the way is removed. All modes stay, and the directory itself, unless it is that. -/
theorem removeExisting_types (hL : Lawful fs V) (hv : (V.volume s).TypesMatch)
    (h : removeExisting fs newDir newName s = .ok () s') :
    (V.volume s').TypesMatch ∧ (∀ i, ((V.volume s').node i).mode = ((V.volume s).node i).mode) ∧
      ((V.volume s).named newDir.toUInt32 newName ≠ some newDir.toUInt32 →
        (V.volume s).Directory newDir.toUInt32 → (V.volume s').Directory newDir.toUInt32) := by
  have hcases := removeExisting_cases hL newDir newName s
  rw [h, final_ok] at hcases
  rcases hcases with hsame | ⟨x, s₁, s₂, hrep, hrem, hrun⟩
  · rw [hsame]
    exact ⟨hv, fun _ => rfl, fun _ hdir => hdir⟩
  · have hset := (extAfterUnlink_spec hL (V.volume s₂) x newDir.toUInt32).ok rfl hrun.symm
    rw [hrem.volume] at hset
    have haround := hset.around
    refine ⟨hset.typesMatch hv.unlinked, haround.mode, ?_⟩
    intro hother hdir
    obtain ⟨existing, t, hlookup, htarget⟩ := hrep
    obtain ⟨hnamed, ht⟩ := extfskLookup_named hL hlookup
    have hx : newDir.toUInt32 ≠ x := by
      rw [unlinkTarget_eq hL (by rw [ht]; exact hnamed) htarget]
      intro heq
      exact hother (hnamed.trans (by rw [heq]))
    exact (directory_congr (haround.inUse _ hx) (haround.mode _)).mpr hdir

theorem renameFile_types (hL : Lawful fs V) (hv : (V.volume s).TypesMatch)
    (hreg : fileTypeOf ((V.volume s).node ino).mode = EXT2_FT_REG_FILE)
    (h : renameFile fs oldDir oldName newDir newName ino s = .ok () s') :
    (V.volume s').TypesMatch := by
  obtain ⟨_, s₁, hrem, h⟩ := bind_ok_iff.mp h
  obtain ⟨hv₁, hmode, _⟩ := removeExisting_types hL hv hrem
  obtain ⟨u, hentered, _, hs'⟩ := moveEntry_returns hL h
  rw [hs']
  refine (hentered.linked.typesMatch hv₁ ?_).unlinked
  rw [Typed, hmode, hreg]

/-- A file of any other kind has an entry of the wrong type once it has got another name. -/
theorem renameFile_mistyped (hL : Lawful fs V) (hv : (V.volume s).TypesMatch)
    (hkind : fileTypeOf ((V.volume s).node ino).mode ≠ EXT2_FT_REG_FILE)
    (hdir : (V.volume s).Directory newDir.toUInt32)
    (hself : (V.volume s).named newDir.toUInt32 newName ≠ some newDir.toUInt32)
    (hother : ¬ (newDir.toUInt32 = oldDir.toUInt32 ∧ newName = oldName))
    (h : renameFile fs oldDir oldName newDir newName ino s = .ok () s') :
    ¬ (V.volume s').TypesMatch := by
  obtain ⟨_, s₁, hrem, h⟩ := bind_ok_iff.mp h
  obtain ⟨_, hmode, hkept⟩ := removeExisting_types hL hv hrem
  obtain ⟨u, hentered, _, hs'⟩ := moveEntry_returns hL h
  have hlinked := hentered.linked
  rw [hs']
  intro hmatch
  have hmem : (⟨ino, newName, EXT2_FT_REG_FILE⟩ : Dirent) ∈
      (u.unlinked oldDir.toUInt32 oldName ino).dir newDir.toUInt32 := by
    have hnew := hlinked.mem_iff.mpr (.inr ⟨rfl, rfl⟩)
    by_cases hd : newDir.toUInt32 = oldDir.toUInt32
    · rw [hd] at hnew ⊢
      rw [unlinked_dir_self]
      refine (List.mem_eraseP_of_neg ?_).mpr hnew
      simp only [Dirent.Names, decide_eq_true_eq]
      exact fun hnames => hother ⟨hd, hnames.1⟩
    · rwa [unlinked_dir_of_ne hd]
  have htyped : EXT2_FT_REG_FILE = fileTypeOf (u.node ino).mode :=
    hmatch _ ((hlinked.directory _).mpr (hkept hself hdir)) _ hmem
  rw [hlinked.mode, hmode] at htyped
  exact hkind htyped.symm

theorem renameDir_types (hL : Lawful fs V) (hE : LawfulEdit fs V) (hv : (V.volume s).TypesMatch)
    (hdir : ((V.volume s).node ino).isDir = true)
    (hfits : oldDir = newDir ∨
      ((V.volume s).node newDir.toUInt32).isDir = true ∧ (V.volume s).DotdotTyped ino)
    (h : renameDir fs oldDir oldName newDir newName ino s = .ok () s') :
    (V.volume s').TypesMatch := by
  obtain ⟨_, s₁, hlink, h⟩ := orFail_bind_ok_iff.mp h
  obtain ⟨_, s₂, hun, h⟩ := orFail_bind_ok_iff.mp h
  obtain ⟨l₁, l₂, hd, hs₁⟩ := (hL.link (V.volume s) newDir.toUInt32 newName ino _).ok rfl hlink
  have hlinked : Linked newDir.toUInt32 ⟨ino, newName, EXT2_FT_DIR⟩ (V.volume s) (V.volume s₁) := by
    rw [hs₁.eq]
    exact ((Resized.refl _ _).entered hd).linked
  have hs₂ := ((hL.unlink (V.volume s₁) oldDir.toUInt32 oldName ino).ok rfl hun).2
  have hv₂ : (V.volume s₂).TypesMatch := by
    rw [hs₂.eq]
    refine (hlinked.typesMatch hv ?_).unlinked
    rw [Typed, fileTypeOf_dir hdir]
  by_cases hdirs : oldDir = newDir
  · rw [if_pos hdirs] at h
    cases h
    exact hv₂
  · rw [if_neg hdirs] at h
    obtain ⟨_, s₃, hedit, h⟩ := orFail_bind_ok_iff.mp h
    have hs₃ := (rewriteDotdot_spec hE (V.volume s₂) ino newDir.toUInt32).ok rfl hedit
    have hs' : s' = removeParentLink fs oldDir.toUInt32 (addParentLink fs newDir.toUInt32 s₃) := by
      cases h
      rfl
    have hshape : SameShape (V.volume s₃) (V.volume s') := by
      rw [hs']
      exact (addParentLink_sameShape hL _ s₃).trans (removeParentLink_sameShape hL _ _)
    obtain ⟨hparent, hdots⟩ := hfits.resolve_left hdirs
    refine hshape.typesMatch ?_
    rw [hs₃.eq]
    refine hv₂.reparent ?_ ?_
    · intro e he hname
      rw [hs₂.eq] at he
      rcases hlinked.mem_iff.mp (mem_of_mem_unlinked he) with hold | ⟨_, rfl⟩
      · exact hdots e hold hname
      · rfl
    · rw [hs₂.eq]
      exact (isDir_congr (hlinked.mode _)).trans hparent

end Calls

/-- What a call has to meet: no entry was left for a free inode with another type than the inode is
to get, and a file that is renamed is a regular one. A directory that moves to another directory has
to have its `..` right. -/
def TypesFit (V : View σ) (s : σ) : Request → Prop
  | .create _ _ type _ _ _ =>
    (V.volume s).Vacant (if type = 'd' then EXT2_FT_DIR else EXT2_FT_REG_FILE)
  | .symlink _ _ _ => (V.volume s).Vacant EXT2_FT_SYMLINK
  | .unlink _ _ _ => True
  | .rename oldDir oldName newDir _ =>
    ∀ ino, (V.volume s).named oldDir.toUInt32 oldName = some ino →
      if ((V.volume s).node ino).isDir then oldDir = newDir ∨
        ((V.volume s).node newDir.toUInt32).isDir = true ∧ (V.volume s).DotdotTyped ino
      else fileTypeOf ((V.volume s).node ino).mode = EXT2_FT_REG_FILE

section Steps

variable {fs : Ext2fsNew σ} {V : View σ} {s s' : σ}

theorem lookupMade_volume (hL : LawfulNew fs V) {d : UInt32} {name : List UInt8} {r : UInt64}
    (h : lookupMade fs d name s = .ok r s') : V.volume s' = V.volume s := by
  obtain ⟨ino, t, hl, h⟩ := orFail_bind_ok_iff.mp h
  cases h
  exact ((hL.lawful.lookup (V.volume s) d name).ok rfl hl).2

theorem create_types (hL : LawfulNew fs V) (hT : LawfulTypes fs V) (hv : (V.volume s).TypesMatch)
    {dirIno : UInt64} {name : List UInt8} {type : Char} {mode uid gid : UInt32} {r : UInt64}
    (hfits : TypesFit V s (.create dirIno name type mode uid gid))
    (h : extfskCreate fs dirIno name type mode uid gid s = .ok r s') :
    (V.volume s').TypesMatch := by
  unfold extfskCreate at h
  by_cases hlen : 255 < name.length
  · rw [if_pos hlen] at h
    cases h
  simp only [if_neg hlen] at h
  simp only [TypesFit] at hfits
  by_cases htype : type = 'd'
  · rw [if_pos htype] at h hfits
    obtain ⟨_, s₁, hmk, h⟩ := orFail_bind_ok_iff.mp h
    obtain ⟨child, hmade⟩ := (hT.mkdir (V.volume s) dirIno.toUInt32 name).ok rfl hmk
    rw [lookupMade_volume hL h]
    exact hmade.grown.typesMatch hv hfits
  · rw [if_neg htype] at h hfits
    have hspec := createFile_spec hL (V.volume s) dirIno.toUInt32 name (regularMode mode) uid gid
    obtain ⟨child, _, hmade⟩ := hspec.ok rfl h
    exact hmade.grown.typesMatch hv hfits

theorem symlink_types (hL : LawfulNew fs V) (hT : LawfulTypes fs V) (hv : (V.volume s).TypesMatch)
    {dirIno : UInt64} {name target : List UInt8} {r : UInt64}
    (hfits : (V.volume s).Vacant EXT2_FT_SYMLINK)
    (h : extfskSymlink fs dirIno name target s = .ok r s') : (V.volume s').TypesMatch := by
  unfold extfskSymlink at h
  by_cases hlen : 255 < name.length ∨ 4095 < target.length
  · rw [if_pos hlen] at h
    cases h
  · rw [if_neg hlen] at h
    obtain ⟨_, s₁, hmk, h⟩ := orFail_bind_ok_iff.mp h
    obtain ⟨child, hmade⟩ := (hT.symlink (V.volume s) dirIno.toUInt32 name target).ok rfl hmk
    rw [lookupMade_volume hL h]
    exact hmade.grown.typesMatch hv hfits

theorem rename_types (hL : Lawful fs.toExt2fs V) (hE : LawfulEdit fs.toExt2fs V)
    (hv : (V.volume s).TypesMatch) {oldDir newDir : UInt64} {oldName newName : List UInt8}
    (hfits : TypesFit V s (.rename oldDir oldName newDir newName))
    (h : extfskRename fs.toExt2fs oldDir oldName newDir newName s = .ok () s') :
    (V.volume s').TypesMatch := by
  obtain ⟨ino, inode, s₁, hfinds⟩ := extfskRename_returns hL h
  obtain ⟨hnode, hs₁⟩ := hfinds.node hL
  have hisdir : LINUX_S_ISDIR inode.iMode = ((V.volume s).node ino.toUInt32).isDir := by
    rw [← hnode]
    rfl
  have hfits' := hfits ino.toUInt32 (hfinds.named hL)
  rw [← hs₁] at hv hisdir hfits'
  cases hdir : LINUX_S_ISDIR inode.iMode with
  | true =>
    rw [hfinds.run_dir hdir] at h
    rw [hdir] at hisdir
    rw [if_pos hisdir.symm] at hfits'
    exact renameDir_types hL hE hv hisdir.symm hfits' h
  | false =>
    rw [hfinds.run hdir] at h
    rw [hdir] at hisdir
    rw [if_neg (ne_true_of_eq_false hisdir.symm)] at hfits'
    exact renameFile_types hL hv hfits' h

theorem serve_types (hL : LawfulNew fs V) (hE : LawfulEdit fs.toExt2fs V) (hT : LawfulTypes fs V)
    (hv : (V.volume s).TypesMatch) {r : Request} (hok : Succeeds fs s r) (hfits : TypesFit V s r) :
    (V.volume (serve fs s r)).TypesMatch := by
  obtain ⟨s', hrun⟩ := hok
  rw [serve, hrun, final_ok]
  cases r with
  | create dirIno name type mode uid gid =>
    obtain ⟨_, hcreate⟩ := dropResult_ok_iff.mp hrun
    exact create_types hL hT hv hfits hcreate
  | symlink dirIno name target =>
    obtain ⟨_, hsymlink⟩ := dropResult_ok_iff.mp hrun
    exact symlink_types hL hT hv hfits hsymlink
  | unlink dirIno name inoHint => exact extfskUnlink_types hL.lawful hv hrun
  | rename oldDir oldName newDir newName => exact rename_types hL.lawful hE hv hfits hrun

end Steps

/-- In a run of successful calls that all meet it, every entry has the type of its inode in every
state that is reached. -/
theorem types_match {fs : Ext2fsNew σ} {V : View σ} (hL : LawfulNew fs V)
    (hE : LawfulEdit fs.toExt2fs V) (hT : LawfulTypes fs V) {s : σ} {rs : List Request}
    (hv : (V.volume s).TypesMatch)
    (hrs : Along (serve fs) (fun s r => Succeeds fs s r ∧ TypesFit V s r) s rs) (k : Nat) :
    (V.volume ((rs.take k).foldl (serve fs) s)).TypesMatch :=
  always_of_inv (I := fun s => (V.volume s).TypesMatch)
    (fun _ _ hs hr => serve_types hL hE hT hs hr.1 hr.2) hv hrs k

/-! ## A library that checks the parent -/

/-- The library of `refLibraryNew`, but a directory is made in a directory only. -/
def typedLibrary : Ext2fsNew RefState :=
  { refLibraryNew with
    mkdir := fun d p name s =>
      if (s.volume.node d).isDir then refLibraryNew.mkdir d p name s else .error (.other 2) s }

theorem typedLibrary_mkdir {v : Volume} {d : UInt32} {name : List UInt8} {Q : Volume → Prop}
    (h : ∀ child, (v.node d).isDir = true →
      ¬ ((v.dir d).any fun e => e.name = name) = true → v.firstFree d = some child →
      Q (v.madeDir d name child)) :
    Spec (RefState.view.Is v) (typedLibrary.mkdir d 0 name) (fun _ s => Q (RefState.view.volume s))
      fun _ => RefState.view.Is v := by
  intro s hs
  have hv : s.volume = v := hs
  simp only [typedLibrary, hv]
  cases hdir : (v.node d).isDir with
  | true =>
    rw [if_pos rfl]
    exact make_spec (f := fun child v => v.madeDir d name child) (Q := Q)
      (fun child => h child hdir) s hs
  | false => exact hs

theorem typedLibrary_lawful : LawfulNew typedLibrary RefState.view where
  lawful := refLibraryNew_ext2fs
  newInode := refLibraryNew_lawful.newInode
  writeNewInode := refLibraryNew_lawful.writeNewInode
  mkdir := fun v d name =>
    typedLibrary_mkdir (Q := fun w => ∃ child, MadeDir d name child v w)
      fun child _ hany hf => ⟨child, madeDir_of hany hf⟩
  symlink := refLibraryNew_lawful.symlink

theorem typedLibrary_edit : LawfulEdit typedLibrary.toExt2fs RefState.view := refLibraryNew_edit

/-- An entry is put behind all the others, none of which has its name. -/
theorem kind_appended {es : List Dirent} {e x : Dirent}
    (hany : ¬ (es.any fun x => x.name = e.name) = true) (hx : x ∈ es ++ [e])
    (hname : x.name = e.name) : x.fileType = e.fileType := by
  rw [List.mem_append, List.mem_singleton] at hx
  rcases hx with hx | rfl
  · exact absurd (List.any_eq_true.mpr ⟨x, hx, by simp [hname]⟩) hany
  · rfl

theorem typedDir_of {v : Volume} {d child : UInt32} {name : List UInt8}
    (hdir : (v.node d).isDir = true) (hany : ¬ ((v.dir d).any fun e => e.name = name) = true)
    (hf : v.firstFree d = some child) : TypedDir d name child v (v.madeDir d name child) := by
  refine ⟨madeDir_of hany hf, hdir, ?_, ?_⟩
  · intro e he hname
    have hne := (firstFree_spec hf).2.2.symm
    have happ : (v.madeDir d name child).dir d = v.dir d ++ [⟨child, name, EXT2_FT_DIR⟩] := by
      simp [madeDir, hne]
    rw [happ] at he
    exact kind_appended (e := ⟨child, name, EXT2_FT_DIR⟩) hany he hname
  · intro e he
    simp only [madeDir, setDir_dir, Function.update_self, List.mem_cons, List.not_mem_nil,
      or_false] at he
    rcases he with rfl | rfl <;> rfl

theorem typedSymlink_of {v : Volume} {d child : UInt32} {name : List UInt8}
    (hany : ¬ ((v.dir d).any fun e => e.name = name) = true) (hf : v.firstFree d = some child) :
    TypedSymlink d name child v (v.madeSymlink d name child) := by
  refine ⟨madeSymlink_of hany hf, ?_, ?_⟩
  · simp only [madeSymlink, setDir_node, setInUse_node, setNode_node, Function.update_self]
    decide
  · intro e he hname
    rw [madeSymlink, setDir_dir, Function.update_self] at he
    exact kind_appended (e := ⟨child, name, EXT2_FT_SYMLINK⟩) hany he hname

theorem typedLibrary_types : LawfulTypes typedLibrary RefState.view where
  mkdir := fun v d name =>
    typedLibrary_mkdir (Q := fun w => ∃ child, TypedDir d name child v w)
      fun child hdir hany hf => ⟨child, typedDir_of hdir hany hf⟩
  symlink := fun v d name _ =>
    make_spec (f := fun child v => v.madeSymlink d name child)
      (Q := fun w => ∃ child, TypedSymlink d name child v w)
      fun child hany hf => ⟨child, typedSymlink_of hany hf⟩

theorem bareRoot_types : bareRoot.volume.TypesMatch := by
  intro d _ e he
  obtain ⟨hino, hkind⟩ := bareRoot_entry he
  rw [Typed, hino, hkind]
  rfl

theorem bareRoot_vacant (t : UInt8) : bareRoot.volume.Vacant t := by
  intro d _ e he hfree
  rw [bareRoot_entries he] at hfree
  exact absurd hfree (by decide)

def fileRenamed : List Request := [.create 2 nameA 'f' 0 0 0, .rename 2 nameA 2 nameB]

theorem types_match_file :
    ((fileRenamed.take 2).foldl (serve typedLibrary) bareRoot).volume.TypesMatch := by
  have hstart : (RefState.view.volume bareRoot).TypesMatch := bareRoot_types
  have hrun : Along (serve typedLibrary)
      (fun s r => Succeeds typedLibrary s r ∧ TypesFit RefState.view s r) bareRoot fileRenamed := by
    refine ⟨⟨⟨_, rfl⟩, bareRoot_vacant _⟩, ⟨⟨_, rfl⟩, ?_⟩, trivial⟩
    intro ino hnamed
    cases hnamed
    rw [if_neg (by decide)]
    decide
  exact types_match typedLibrary_lawful typedLibrary_edit typedLibrary_types hstart hrun 2

def linkRenamed : List Request := [.symlink 2 nameA nameB, .rename 2 nameA 2 nameB]

/-- A symbolic link is made and renamed. Both calls return 0, and its entry says that it is a regular
file. -/
theorem renamed_link_mistyped :
    LawfulNew typedLibrary RefState.view ∧ LawfulEdit typedLibrary.toExt2fs RefState.view ∧
    LawfulTypes typedLibrary RefState.view ∧ bareRoot.volume.TypesMatch ∧
    Along (serve typedLibrary) (Succeeds typedLibrary) bareRoot linkRenamed ∧
    (linkRenamed.foldl (serve typedLibrary) bareRoot).volume.dir 2 =
      [⟨2, dot, EXT2_FT_DIR⟩, ⟨2, dotdot, EXT2_FT_DIR⟩, ⟨11, nameB, EXT2_FT_REG_FILE⟩] ∧
    ((linkRenamed.foldl (serve typedLibrary) bareRoot).volume.node 11).mode = LINUX_S_IFLNK ∧
    ¬ (linkRenamed.foldl (serve typedLibrary) bareRoot).volume.TypesMatch := by
  refine ⟨typedLibrary_lawful, typedLibrary_edit, typedLibrary_types, bareRoot_types,
    ⟨⟨_, rfl⟩, ⟨_, rfl⟩, trivial⟩, by decide, by decide, ?_⟩
  intro h
  exact absurd (h 2 (by decide) ⟨11, nameB, EXT2_FT_REG_FILE⟩ (by decide)) (by decide)

end Ext
end Usbrw
