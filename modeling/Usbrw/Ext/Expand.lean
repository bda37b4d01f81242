import Usbrw.Ext.Alias
import Usbrw.Ext.Names

/-!
# Ext.Expand

A directory that has no room for another name. `ext2fs_expand_dir` gives it some, but only a file that
is created or renamed gets it called.

* `Attempt`       — the call of the library by which an operation adds a name, and what follows.
* `FullOnly`      — the call finds the directory full; with room in it all would go well.
* `NameAdded`     — the operation returns 0 and the name is there.
* `nameAdded_iff` — in such a case a file gets its name, and nothing else does.
-/

namespace Usbrw
namespace Ext

open Call Volume

variable {σ : Type}

/-- `ext2fs_link` puts no entry into what is not a directory. -/
def LinksInDirs (fs : Ext2fs σ) (V : View σ) : Prop :=
  ∀ v d name ino t, Spec (V.Is v) (fs.link d name ino t)
    (fun _ _ => (v.node d).isDir = true) fun _ _ => True

/-! ## Operations up to the name, and from there on -/

/-- What `extfsk_rename` does with a directory that has its new name. -/
def leaveDir (fs : Ext2fs σ) (oldDir : UInt64) (oldName : List UInt8) (newDir : UInt64)
    (ino : UInt32) : EStateM Int σ Unit := do
  orFail translateErrno (fs.unlink oldDir.toUInt32 oldName ino)
  if oldDir = newDir then pure ()
  else
    orFail translateErrno (rewriteDotdot fs ino newDir.toUInt32)
    modify (addParentLink fs newDir.toUInt32)
    modify (removeParentLink fs oldDir.toUInt32)

/-- And with a file. -/
def leaveFile (fs : Ext2fs σ) (oldDir : UInt64) (oldName : List UInt8) (ino : UInt32) :
    EStateM Int σ Unit := do
  orFail translateErrno (fs.unlink oldDir.toUInt32 oldName ino)
  extAfterUnlink fs ino false 0

/-- In the state `t` the operation makes the call `add`, which adds a name to the directory `d`. From
the state that leaves, it goes on with `rest`. -/
inductive Attempt (fs : Ext2fsNew σ) (V : View σ) (s : σ) :
    Request → UInt32 → EStateM Errcode σ Unit → EStateM Int σ Unit → σ → Prop where
  | createFile {dirIno : UInt64} {name : List UInt8} {type : Char} {mode uid gid child : UInt32}
      {t : σ} (hname : name.length ≤ 255) (htype : type ≠ 'd')
      (hnew : fs.newInode dirIno.toUInt32 (regularMode mode) s = .ok child t) :
      Attempt fs V s (.create dirIno name type mode uid gid) dirIno.toUInt32
        (fs.link dirIno.toUInt32 name child EXT2_FT_REG_FILE)
        (dropResult (finishFile fs child (regularMode mode) uid gid)) t
  | createDir {dirIno : UInt64} {name : List UInt8} {mode uid gid : UInt32}
      (hname : name.length ≤ 255) :
      Attempt fs V s (.create dirIno name 'd' mode uid gid) dirIno.toUInt32
        (fs.mkdir dirIno.toUInt32 0 name) (dropResult (lookupMade fs dirIno.toUInt32 name)) s
  | symlink {dirIno : UInt64} {name target : List UInt8} (hname : name.length ≤ 255)
      (htarget : target.length ≤ 4095) :
      Attempt fs V s (.symlink dirIno name target) dirIno.toUInt32
        (fs.symlink dirIno.toUInt32 0 name target) (dropResult (lookupMade fs dirIno.toUInt32 name)) s
  | renameDir {oldDir newDir ino : UInt64} {oldName newName : List UInt8} {inode : Ext2Inode} {t : σ}
      (hfinds : Finds fs.toExt2fs oldDir oldName ino inode s t)
      (hdir : LINUX_S_ISDIR inode.iMode = true) :
      Attempt fs V s (.rename oldDir oldName newDir newName) newDir.toUInt32
        (fs.link newDir.toUInt32 newName ino.toUInt32 EXT2_FT_DIR)
        (leaveDir fs.toExt2fs oldDir oldName newDir ino.toUInt32) t
  /-- What the new name stood for was removed. Its lookup fails only if there is nothing. -/
  | renameFile {oldDir newDir ino : UInt64} {oldName newName : List UInt8} {inode : Ext2Inode}
      {t₀ t : σ} (hfinds : Finds fs.toExt2fs oldDir oldName ino inode s t₀)
      (hfile : LINUX_S_ISDIR inode.iMode = false)
      (hlookup : (V.volume s).named newDir.toUInt32 newName = none ∨
        ∃ x t₁, extfskLookup fs.toExt2fs newDir newName t₀ = .ok x t₁)
      (hremoved : removeExisting fs.toExt2fs newDir newName t₀ = .ok () t) :
      Attempt fs V s (.rename oldDir oldName newDir newName) newDir.toUInt32
        (fs.link newDir.toUInt32 newName ino.toUInt32 EXT2_FT_REG_FILE)
        (leaveFile fs.toExt2fs oldDir oldName ino.toUInt32) t

/-- The call finds the directory full, the directory can be expanded, and then the call succeeds. -/
def Full (fs : Ext2fs σ) (d : UInt32) (add : EStateM Errcode σ Unit) (t t' : σ) : Prop :=
  ∃ t₁ t₂, add t = .error .dirNoSpace t₁ ∧ fs.expandDir d t₁ = .ok () t₂ ∧ add t₂ = .ok () t'

/-- A full directory is all that is in the way of the operation. -/
def FullOnly (fs : Ext2fsNew σ) (V : View σ) (s : σ) (r : Request) : Prop :=
  ∃ d add rest t t' s', Attempt fs V s r d add rest t ∧ Full fs.toExt2fs d add t t' ∧
    rest t' = .ok () s'

/-- The operation returns 0, and the name is there, for the inode it made or moved. -/
def NameAdded (fs : Ext2fsNew σ) (V : View σ) (s : σ) : Request → Prop
  | .create dirIno name type mode uid gid =>
    ∃ ino s', extfskCreate fs dirIno name type mode uid gid s = .ok ino s' ∧
      0 < (V.volume s').entries dirIno.toUInt32 name ino.toUInt32
  | .symlink dirIno name target =>
    ∃ ino s', extfskSymlink fs dirIno name target s = .ok ino s' ∧
      0 < (V.volume s').entries dirIno.toUInt32 name ino.toUInt32
  | .unlink _ _ _ => False
  | .rename oldDir oldName newDir newName =>
    ∃ s', extfskRename fs.toExt2fs oldDir oldName newDir newName s = .ok () s' ∧
      ∀ ino, (V.volume s).named oldDir.toUInt32 oldName = some ino →
        0 < (V.volume s').entries newDir.toUInt32 newName ino

/-- The operation creates a file, or renames one: onto itself only if it has its name twice. -/
def Expands (v : Volume) : Request → Prop
  | .create _ _ type _ _ _ => type ≠ 'd'
  | .symlink _ _ _ => False
  | .unlink _ _ _ => False
  | .rename oldDir oldName newDir newName =>
    ∀ ino, v.named oldDir.toUInt32 oldName = some ino → (v.node ino).isDir = false ∧
      (newDir.toUInt32 = oldDir.toUInt32 → newName = oldName →
        2 ≤ v.entries newDir.toUInt32 newName ino)

namespace Volume

section Entries

variable {v w : Volume} {d ino : UInt32} {name : List UInt8} {e : Dirent}

theorem Linked.entries_self (h : Linked d e v w) :
    w.entries d e.name e.inode = v.entries d e.name e.inode + 1 := by
  obtain ⟨l₁, l₂, hd, hw⟩ := h.dir
  have he : decide (e.Names e.name e.inode) = true := decide_eq_true ⟨rfl, rfl⟩
  unfold Volume.entries
  rw [hw, Function.update_self, hd, List.countP_append, List.countP_append, List.countP_cons,
    if_pos he]
  omega

theorem entries_unlinked_of_ne {d' x : UInt32} {old : List UInt8} (h : ¬ (d = d' ∧ name = old)) :
    (v.unlinked d' old x).entries d name ino = v.entries d name ino := by
  unfold Volume.entries
  by_cases hd : d = d'
  · have hne : ∀ y : Dirent, y.Names old x → ¬ (decide (y.Names name ino) = true) := by
      intro y hy hy'
      exact h ⟨hd, (of_decide_eq_true hy').1.symm.trans hy.1⟩
    rw [hd, unlinked_dir_self]
    rcases List.exists_or_eq_self_of_eraseP (fun y : Dirent => decide (y.Names old x)) (v.dir d')
      with hsame | ⟨a, l₁, l₂, _, ha, hcut, herase⟩
    · rw [hsame]
    · rw [herase, hcut, List.countP_append, List.countP_append, List.countP_cons,
        if_neg (hne a (of_decide_eq_true ha)), Nat.add_zero]
  · rw [unlinked_dir_of_ne hd]

end Entries

end Volume

section Operations

variable {fs : Ext2fsNew σ} {V : View σ} {s t t' : σ}

theorem linkExpanding_full {fs : Ext2fs σ} {d ino : UInt32} {name : List UInt8} {k : UInt8}
    (h : Full fs d (fs.link d name ino k) t t') : linkExpanding fs d name ino k t = .ok () t' := by
  obtain ⟨t₁, t₂, hfull, hexpand, hretry⟩ := h
  rw [linkExpanding, run_bind_ok (run_attempt_error hfull)]
  simp only [if_true]
  rw [run_bind_ok hexpand, hretry]

/-- Where nothing expands the directory, its being full is the end of the operation. -/
theorem full_fails {α : Type} {d : UInt32} {add : EStateM Errcode σ Unit}
    {rest : Unit → EStateM Int σ α} (h : Full fs.toExt2fs d add t t') (a : α) (s' : σ) :
    (orFail translateErrno add >>= rest) t ≠ .ok a s' := by
  obtain ⟨t₁, _, hfull, _⟩ := h
  rw [run_bind_error (run_orFail_error hfull)]
  intro heq
  cases heq

theorem createDir_full {dirIno : UInt64} {name : List UInt8} {mode uid gid : UInt32}
    (hname : name.length ≤ 255)
    (h : Full fs.toExt2fs dirIno.toUInt32 (fs.mkdir dirIno.toUInt32 0 name) s t') :
    ¬ NameAdded fs V s (.create dirIno name 'd' mode uid gid) := by
  rintro ⟨ino, s', hrun, _⟩
  rw [extfskCreate, if_neg (Nat.not_lt.mpr hname), if_pos rfl] at hrun
  exact full_fails h ino s' hrun

theorem symlink_full {dirIno : UInt64} {name target : List UInt8} (hname : name.length ≤ 255)
    (htarget : target.length ≤ 4095)
    (h : Full fs.toExt2fs dirIno.toUInt32 (fs.symlink dirIno.toUInt32 0 name target) s t') :
    ¬ NameAdded fs V s (.symlink dirIno name target) := by
  rintro ⟨ino, s', hrun, _⟩
  rw [extfskSymlink, if_neg (not_or.mpr ⟨Nat.not_lt.mpr hname, Nat.not_lt.mpr htarget⟩)] at hrun
  exact full_fails h ino s' hrun

theorem createFile_added (hL : LawfulNew fs V) {dirIno : UInt64} {name : List UInt8} {type : Char}
    {mode uid gid child : UInt32} {s' : σ} (hname : name.length ≤ 255) (htype : type ≠ 'd')
    (hnew : fs.newInode dirIno.toUInt32 (regularMode mode) s = .ok child t)
    (hfull : Full fs.toExt2fs dirIno.toUInt32 (fs.link dirIno.toUInt32 name child EXT2_FT_REG_FILE)
      t t')
    (hrest : dropResult (finishFile fs child (regularMode mode) uid gid) t' = .ok () s') :
    NameAdded fs V s (.create dirIno name type mode uid gid) := by
  obtain ⟨ino, hfinish⟩ := dropResult_ok_iff.mp hrest
  obtain ⟨rfl, hs'⟩ := (finishFile_spec hL (V.volume t') child _ uid gid).ok rfl hfinish
  have hlink := linkExpanding_full hfull
  have hentered := (linkExpanding_enters hL.lawful (V.volume t) dirIno.toUInt32 name child _).ok
    rfl hlink
  refine ⟨child.toUInt64, s', ?_, ?_⟩
  · rw [extfskCreate, if_neg (Nat.not_lt.mpr hname), if_neg htype, createFile,
      run_bind_ok (run_orFail_ok hnew), run_bind_ok (run_orFail_ok hlink)]
    exact hfinish
  · rw [hs'.eq, UInt32.toUInt32_toUInt64]
    have hadd : (V.volume t').entries dirIno.toUInt32 name child =
        (V.volume t).entries dirIno.toUInt32 name child + 1 := hentered.linked.entries_self
    show 0 < (V.volume t').entries dirIno.toUInt32 name child
    rw [hadd]
    exact Nat.succ_pos _

/-- The entry for the new name is added, and the one for the old name goes. -/
theorem moveEntry_counts {fs : Ext2fs σ} (hL : Lawful fs V) {oldDir newDir : UInt64}
    {oldName newName : List UInt8} {ino : UInt32}
    (h : moveEntry fs oldDir oldName newDir newName ino s = .ok () t) :
    (V.volume t).entries newDir.toUInt32 newName ino =
      (V.volume s).entries newDir.toUInt32 newName ino +
        if newDir.toUInt32 = oldDir.toUInt32 ∧ newName = oldName then 0 else 1 := by
  obtain ⟨u, hentered, hx, ht⟩ := moveEntry_returns hL h
  have hadd := hentered.linked.entries_self
  simp only at hadd
  rw [ht]
  by_cases hself : newDir.toUInt32 = oldDir.toUInt32 ∧ newName = oldName
  · have hgone := entries_unlinked hx
    rw [if_pos hself]
    rw [hself.1, hself.2] at hadd ⊢
    omega
  · rw [if_neg hself, entries_unlinked_of_ne hself, hadd]

/-- What `ext2fs_link` puts an entry into after all is a directory. -/
theorem Full.isDir {fs : Ext2fs σ} (hL : Lawful fs V) (hD : LinksInDirs fs V) {d ino : UInt32}
    {name : List UInt8} {k : UInt8} (h : Full fs d (fs.link d name ino k) t t') :
    ((V.volume t).node d).isDir = true := by
  obtain ⟨t₁, t₂, hfull, hexpand, hretry⟩ := h
  have ht₁ := (hL.link (V.volume t) d name ino k).error rfl hfull
  obtain ⟨size, ht₂⟩ := (hL.expandDir (V.volume t) d).ok ht₁ hexpand
  have hdir := (hD (V.volume t₂) d name ino k).ok rfl hretry
  rw [ht₂.eq] at hdir
  exact (isDir_congr ((resized_resize d (V.volume t) size).sameShape.mode d)).symm.trans hdir

/-- A file that is renamed onto itself is unlinked before it gets its name again. -/
theorem removed_counts {fs : Ext2fs σ} (hL : Lawful fs V) (hD : LinksInDirs fs V) {newDir : UInt64}
    {newName : List UInt8} {ino : UInt32} {k : UInt8}
    (hnamed : (V.volume s).named newDir.toUInt32 newName = some ino)
    (hfile : ((V.volume s).node ino).isDir = false)
    (hlookup : ∃ x t₁, extfskLookup fs newDir newName s = .ok x t₁)
    (hremoved : removeExisting fs newDir newName s = .ok () t)
    (hfull : Full fs newDir.toUInt32 (fs.link newDir.toUInt32 newName ino k) t t') :
    (V.volume t).entries newDir.toUInt32 newName ino + 1 =
      (V.volume s).entries newDir.toUInt32 newName ino := by
  obtain ⟨x, t₁, hfound⟩ := hlookup
  have hx : x.toUInt32 = ino :=
    Option.some.inj ((extfskLookup_named hL hfound).1.symm.trans hnamed)
  obtain ⟨hentry, haround⟩ := removeExisting_around hL hfound hremoved
  rw [hx] at hentry haround
  have hmode : ((V.volume t).node newDir.toUInt32).mode =
      ((V.volume s).node newDir.toUInt32).mode := haround.mode _
  have hne : newDir.toUInt32 ≠ ino := by
    intro heq
    have hdir := (isDir_congr hmode).symm.trans (hfull.isDir hL hD)
    rw [heq, hfile] at hdir
    cases hdir
  rw [← entries_unlinked hentry, Volume.entries, haround.dir _ hne, Volume.entries]

theorem renameFile_added (hL : LawfulNew fs V) (hD : LinksInDirs fs.toExt2fs V)
    {oldDir newDir ino : UInt64} {oldName newName : List UInt8} {inode : Ext2Inode} {t₀ s' : σ}
    (hfinds : Finds fs.toExt2fs oldDir oldName ino inode s t₀)
    (hfile : LINUX_S_ISDIR inode.iMode = false)
    (hlookup : (V.volume s).named newDir.toUInt32 newName = none ∨
      ∃ x t₁, extfskLookup fs.toExt2fs newDir newName t₀ = .ok x t₁)
    (hremoved : removeExisting fs.toExt2fs newDir newName t₀ = .ok () t)
    (hfull : Full fs.toExt2fs newDir.toUInt32
      (fs.link newDir.toUInt32 newName ino.toUInt32 EXT2_FT_REG_FILE) t t')
    (hrest : leaveFile fs.toExt2fs oldDir oldName ino.toUInt32 t' = .ok () s') :
    NameAdded fs V s (.rename oldDir oldName newDir newName) ↔
      Expands (V.volume s) (.rename oldDir oldName newDir newName) := by
  obtain ⟨hnode, ht₀⟩ := hfinds.node hL.lawful
  have hnamed := hfinds.named hL.lawful
  have hnotdir : ((V.volume s).node ino.toUInt32).isDir = false := by
    rw [← hnode]
    exact hfile
  have hmove : moveEntry fs.toExt2fs oldDir oldName newDir newName ino.toUInt32 t = .ok () s' := by
    rw [moveEntry, run_bind_ok (run_orFail_ok (linkExpanding_full hfull))]
    exact hrest
  have hrun : extfskRename fs.toExt2fs oldDir oldName newDir newName s = .ok () s' := by
    rw [hfinds.run hfile, renameFile, run_bind_ok hremoved]
    exact hmove
  have hadded : NameAdded fs V s (.rename oldDir oldName newDir newName) ↔
      0 < (V.volume s').entries newDir.toUInt32 newName ino.toUInt32 := by
    simp only [NameAdded, hrun, hnamed]
    constructor
    · rintro ⟨_, heq, h⟩
      cases heq
      exact h _ rfl
    · intro h
      refine ⟨s', rfl, ?_⟩
      rintro _ ⟨⟩
      exact h
  have hexpands : Expands (V.volume s) (.rename oldDir oldName newDir newName) ↔
      (newDir.toUInt32 = oldDir.toUInt32 → newName = oldName →
        2 ≤ (V.volume s).entries newDir.toUInt32 newName ino.toUInt32) := by
    simp only [Expands, hnamed, Option.some.injEq, forall_eq', hnotdir, true_and]
  rw [hadded, hexpands, moveEntry_counts hL.lawful hmove]
  by_cases hself : newDir.toUInt32 = oldDir.toUInt32 ∧ newName = oldName
  · have hsame : (V.volume t₀).named newDir.toUInt32 newName = some ino.toUInt32 := by
      rw [hself.1, hself.2, ht₀]
      exact hnamed
    have hfound := hlookup.resolve_left (by rw [← ht₀, hsame]; exact Option.some_ne_none _)
    have hless := removed_counts hL.lawful hD hsame (by rw [ht₀]; exact hnotdir) hfound hremoved hfull
    rw [ht₀] at hless
    rw [if_pos hself, ← hless]
    constructor
    · intro hpos _ _
      exact Nat.succ_le_succ hpos
    · intro htwo
      exact Nat.lt_of_succ_le (Nat.le_of_succ_le_succ (htwo hself.1 hself.2))
  · rw [if_neg hself]
    exact iff_of_true (Nat.succ_pos _) fun hd hname => absurd ⟨hd, hname⟩ hself

theorem nameAdded_iff (hL : LawfulNew fs V) (hD : LinksInDirs fs.toExt2fs V) (r : Request)
    (h : FullOnly fs V s r) : NameAdded fs V s r ↔ Expands (V.volume s) r := by
  obtain ⟨d, add, rest, t, t', s', hattempt, hfull, hrest⟩ := h
  cases hattempt with
  | createFile hname htype hnew =>
    exact iff_of_true (createFile_added hL hname htype hnew hfull hrest) htype
  | createDir hname =>
    exact iff_of_false (createDir_full hname hfull) fun htype => htype rfl
  | symlink hname htarget => exact iff_of_false (symlink_full hname htarget hfull) id
  | renameDir hfinds hdir =>
    refine iff_of_false ?_ ?_
    · rintro ⟨s'', hrun, _⟩
      rw [hfinds.run_dir hdir] at hrun
      exact full_fails hfull () s'' hrun
    · intro hexpands
      have hfile := (hexpands _ (hfinds.named hL.lawful)).1
      rw [← (hfinds.node hL.lawful).1] at hfile
      exact absurd hdir (ne_true_of_eq_false hfile)
  | renameFile hfinds hfile hlookup hremoved =>
    exact renameFile_added hL hD hfinds hfile hlookup hremoved hfull hrest

end Operations

/-! ## A library with directories that fill up -/

/-- An entry takes 512 bytes, and the directory has less left. -/
def Volume.crowded (v : Volume) (d : UInt32) : Bool :=
  (v.node d).size.toNat < 512 * ((v.dir d).length + 1)

/-- The call, unless `p` holds. -/
def RefState.refuse (p : RefState → Bool) (e : Errcode) (call : EStateM Errcode RefState Unit) :
    EStateM Errcode RefState Unit := fun s =>
  if p s then .error e s else call s

theorem refuse_holds {p : RefState → Bool} {e : Errcode} {call : EStateM Errcode RefState Unit}
    {s : RefState} (h : p s = true) : RefState.refuse p e call s = .error e s := by
  rw [RefState.refuse, if_pos h]

theorem refuse_not {p : RefState → Bool} {e : Errcode} {call : EStateM Errcode RefState Unit}
    {s : RefState} (h : p s = false) : RefState.refuse p e call s = call s := by
  rw [RefState.refuse, if_neg (ne_true_of_eq_false h)]

theorem refuse_spec {P : RefState → Prop} {call : EStateM Errcode RefState Unit}
    {Q : Unit → RefState → Prop} (h : Spec P call Q fun _ => P) (p : RefState → Bool) (e : Errcode) :
    Spec P (RefState.refuse p e call) Q fun _ => P := by
  intro s hs
  cases hp : p s with
  | true =>
    rw [refuse_holds hp]
    exact hs
  | false =>
    rw [refuse_not hp]
    exact h s hs

/-- The library of `refLibraryNew`, but entries go into directories only and only while there is
room. `ext2fs_expand_dir` adds a block of 1024 bytes. -/
def crowdedLibrary : Ext2fsNew RefState :=
  { refLibraryNew with
    link := fun d name ino t =>
      RefState.refuse (fun s => s.volume.crowded d) .dirNoSpace
        (RefState.refuse (fun s => !(s.volume.node d).isDir) (.other 2)
          (refLibraryNew.link d name ino t))
    mkdir := fun d p name =>
      RefState.refuse (fun s => s.volume.crowded d) .dirNoSpace (refLibraryNew.mkdir d p name)
    symlink := fun d p name target =>
      RefState.refuse (fun s => s.volume.crowded d) .dirNoSpace
        (refLibraryNew.symlink d p name target)
    expandDir := fun d s =>
      .ok () { s with volume := s.volume.resize d ((s.volume.node d).size + 1024) } }

theorem crowdedLibrary_ext2fs : Lawful crowdedLibrary.toExt2fs RefState.view where
  fileOpen := refLibraryNew_ext2fs.fileOpen
  fileLseek := refLibraryNew_ext2fs.fileLseek
  fileRead := refLibraryNew_ext2fs.fileRead
  fileWrite := refLibraryNew_ext2fs.fileWrite
  fileFlush := refLibraryNew_ext2fs.fileFlush
  fileClose := refLibraryNew_ext2fs.fileClose
  readInode := refLibraryNew_ext2fs.readInode
  writeInode := refLibraryNew_ext2fs.writeInode
  inodeSizeSet := refLibraryNew_ext2fs.inodeSizeSet
  inodeAllocStats2 := refLibraryNew_ext2fs.inodeAllocStats2
  punch := refLibraryNew_ext2fs.punch
  lookup := refLibraryNew_ext2fs.lookup
  link := fun v d name ino t =>
    refuse_spec (refuse_spec (refLibraryNew_ext2fs.link v d name ino t) _ _) _ _
  unlink := refLibraryNew_ext2fs.unlink
  expandDir := by
    intro v d s hs
    rw [← show s.volume = v from hs]
    exact ⟨(s.volume.node d).size + 1024, rfl⟩

theorem crowdedLibrary_lawful : LawfulNew crowdedLibrary RefState.view where
  lawful := crowdedLibrary_ext2fs
  newInode := refLibraryNew_lawful.newInode
  writeNewInode := refLibraryNew_lawful.writeNewInode
  mkdir := fun v d name => refuse_spec (refLibraryNew_lawful.mkdir v d name) _ _
  symlink := fun v d name target => refuse_spec (refLibraryNew_lawful.symlink v d name target) _ _

theorem crowdedLibrary_links : LinksInDirs crowdedLibrary.toExt2fs RefState.view := by
  intro v d name ino t s hs
  have hv : s.volume = v := hs
  simp only [crowdedLibrary, RefState.refuse, hv]
  cases hfull : v.crowded d with
  | true => trivial
  | false =>
    cases hdir : (v.node d).isDir with
    | false => trivial
    | true => exact rfl

/-- A bare root after `ext2fs_expand_dir`. -/
def roomyRoot : RefState := { bareRoot with volume := bareRoot.volume.resize 2 2048 }

theorem full_root {call : EStateM Errcode RefState Unit} {s' : RefState}
    (h : call roomyRoot = .ok () s') :
    Full crowdedLibrary.toExt2fs 2
      (RefState.refuse (fun s => s.volume.crowded 2) .dirNoSpace call) bareRoot s' :=
  ⟨bareRoot, roomyRoot, refuse_holds (by decide), rfl, (refuse_not (by decide)).trans h⟩

/-- The root is full: a file can be made in it all the same. -/
theorem createFile_expands :
    NameAdded crowdedLibrary RefState.view bareRoot (.create 2 nameA 'f' 0 0 0) :=
  (nameAdded_iff crowdedLibrary_lawful crowdedLibrary_links (.create 2 nameA 'f' 0 0 0)
    ⟨_, _, _, _, _, _, .createFile (by decide) (by decide) rfl,
      full_root ((refuse_not (by decide)).trans rfl), rfl⟩).mpr (show 'f' ≠ 'd' by decide)

/-- A directory and a symbolic link cannot, although there would be room after
`ext2fs_expand_dir`. -/
theorem full_root_refuses :
    LawfulNew crowdedLibrary RefState.view ∧ LinksInDirs crowdedLibrary.toExt2fs RefState.view ∧
    (FullOnly crowdedLibrary RefState.view bareRoot (.create 2 nameA 'd' 0 0 0) ∧
      ¬ NameAdded crowdedLibrary RefState.view bareRoot (.create 2 nameA 'd' 0 0 0)) ∧
    (FullOnly crowdedLibrary RefState.view bareRoot (.symlink 2 nameA nameB) ∧
      ¬ NameAdded crowdedLibrary RefState.view bareRoot (.symlink 2 nameA nameB)) := by
  have hdir : Full crowdedLibrary.toExt2fs 2 (crowdedLibrary.mkdir 2 0 nameA) bareRoot _ :=
    full_root rfl
  have hlink : Full crowdedLibrary.toExt2fs 2 (crowdedLibrary.symlink 2 0 nameA nameB) bareRoot _ :=
    full_root rfl
  exact ⟨crowdedLibrary_lawful, crowdedLibrary_links,
    ⟨⟨_, _, _, _, _, _, .createDir (by decide), hdir, rfl⟩, createDir_full (by decide) hdir⟩,
    ⟨_, _, _, _, _, _, .symlink (by decide) (by decide), hlink, rfl⟩,
    symlink_full (by decide) (by decide) hlink⟩

end Ext
end Usbrw
