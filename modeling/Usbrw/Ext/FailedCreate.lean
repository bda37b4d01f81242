import Usbrw.Ext.Names

/-!
# Ext.FailedCreate

What a failed `extfsk_create` leaves in the volume. A file has its entry before its inode is written
and marked used, a directory is made first and looked up afterwards.

* `Volume.Live` — an inode that is allocated and has links.
* `NoTrace`     — the entries of the directory are what they were, none refers to an inode that is not
  live, and no inode became allocated.
* `FailsEarly`  — the call that fails comes before there is an entry.
* `noTrace_iff` — a failed create leaves no trace exactly then.
-/

namespace Usbrw
namespace Ext

open Call Volume

variable {σ : Type}

def Volume.Live (v : Volume) (i : UInt32) : Prop := v.inUse i = true ∧ (v.node i).links ≠ 0

/-- What was wrong before may still be wrong. -/
structure NoTrace (d : UInt32) (v v' : Volume) : Prop where
  entries : v'.dir d = v.dir d
  references : ∀ c, ∀ e ∈ v'.dir c, v'.Live e.inode ∨ e ∈ v.dir c ∧ ¬ v.Live e.inode
  allocated : ∀ i, v'.inUse i = true → v.inUse i = true

/-- The name is too long, or the call that fails is the first one, or for a file the linking. -/
def FailsEarly (fs : Ext2fsNew σ) (d : UInt32) (name : List UInt8) (type : Char) (mode : UInt32)
    (s : σ) : Prop :=
  255 < name.length ∨
    if type = 'd' then ∃ e s', fs.mkdir d 0 name s = .error e s'
    else (∃ e s', fs.newInode d mode s = .error e s') ∨
      ∃ child s₁ e s', fs.newInode d mode s = .ok child s₁ ∧
        linkExpanding fs.toExt2fs d name child EXT2_FT_REG_FILE s₁ = .error e s'

section Traces

variable {v w : Volume} {d : UInt32}

/-- A directory that was expanded has no entry more. -/
theorem NoTrace.of_resized (h : Resized d v w) : NoTrace d v w where
  entries := by rw [h.dir]
  references := by
    intro c e he
    rw [h.dir] at he
    by_cases hlive : v.Live e.inode
    · refine Or.inl ⟨by rw [h.inUse]; exact hlive.1, ?_⟩
      by_cases hd : e.inode = d
      · rw [hd, h.links, ← hd]
        exact hlive.2
      · rw [h.nodes _ hd]
        exact hlive.2
    · exact Or.inr ⟨he, hlive⟩
  allocated := fun i hi => by rwa [h.inUse] at hi

theorem NoTrace.not_inserted {l₁ l₂ : List Dirent} {e : Dirent} (hv : v.dir d = l₁ ++ l₂)
    (hw : w.dir d = l₁ ++ e :: l₂) : ¬ NoTrace d v w := by
  intro h
  have hlen := congrArg List.length h.entries
  rw [hv, hw, List.length_append, List.length_append, List.length_cons] at hlen
  omega

end Traces

section Create

variable {fs : Ext2fsNew σ} {V : View σ} {s s' : σ} {e : Int}

theorem createDir_noTrace_iff (hL : LawfulNew fs V) {d : UInt32} {name : List UInt8}
    (hrun : createDir fs d name s = .error e s') :
    NoTrace d (V.volume s) (V.volume s') ↔ ∃ e s', fs.mkdir d 0 name s = .error e s' := by
  unfold createDir at hrun
  cases hmkdir : fs.mkdir d 0 name s with
  | error err s₁ =>
    rw [run_bind_error (run_orFail_error hmkdir)] at hrun
    have hs₁ : V.volume s₁ = V.volume s := (hL.mkdir (V.volume s) d name).error rfl hmkdir
    cases hrun
    refine iff_of_true ?_ ⟨err, _, rfl⟩
    rw [hs₁]
    exact NoTrace.of_resized (Resized.refl d _)
  | ok u s₁ =>
    -- the directory is there, and it is the lookup that failed
    rw [run_bind_ok (run_orFail_ok hmkdir)] at hrun
    obtain ⟨child, hmade⟩ := (hL.mkdir (V.volume s) d name).ok rfl hmkdir
    obtain ⟨l₁, l₂, t, hv, hw⟩ := hmade.entry
    have hlookup : V.volume s' = V.volume s₁ := by
      unfold lookupMade at hrun
      cases hlook : fs.lookup d name s₁ with
      | ok ino s₂ =>
        rw [run_bind_ok (run_orFail_ok hlook)] at hrun
        cases hrun
      | error err s₂ =>
        rw [run_bind_error (run_orFail_error hlook)] at hrun
        cases hrun
        exact ((hL.lawful.lookup (V.volume s₁) d name).error rfl hlook).2
    refine iff_of_false ?_ ?_
    · rw [hlookup]
      exact NoTrace.not_inserted hv hw
    · rintro ⟨_, _, h⟩
      cases h

theorem createFile_noTrace_iff (hL : LawfulNew fs V) {d mode uid gid : UInt32} {name : List UInt8}
    (hrun : createFile fs d name mode uid gid s = .error e s') :
    NoTrace d (V.volume s) (V.volume s') ↔
      (∃ e s', fs.newInode d mode s = .error e s') ∨
        ∃ child s₁ e s', fs.newInode d mode s = .ok child s₁ ∧
          linkExpanding fs.toExt2fs d name child EXT2_FT_REG_FILE s₁ = .error e s' := by
  unfold createFile at hrun
  cases hnew : fs.newInode d mode s with
  | error err s₁ =>
    rw [run_bind_error (run_orFail_error hnew)] at hrun
    have hs₁ : V.volume s₁ = V.volume s := (hL.newInode (V.volume s) d mode).error rfl hnew
    cases hrun
    refine iff_of_true ?_ (Or.inl ⟨err, _, rfl⟩)
    rw [hs₁]
    exact NoTrace.of_resized (Resized.refl d _)
  | ok child s₁ =>
    rw [run_bind_ok (run_orFail_ok hnew)] at hrun
    have hs₁ : V.volume s₁ = V.volume s := ((hL.newInode (V.volume s) d mode).ok rfl hnew).2
    have hlinks := linkExpanding_enters hL.lawful (V.volume s₁) d name child EXT2_FT_REG_FILE
    cases hlink : linkExpanding fs.toExt2fs d name child EXT2_FT_REG_FILE s₁ with
    | error err s₂ =>
      rw [run_bind_error (run_orFail_error hlink)] at hrun
      cases hrun
      have hresized := hlinks.error rfl hlink
      rw [hs₁] at hresized
      exact iff_of_true (NoTrace.of_resized hresized) (Or.inr ⟨child, s₁, err, _, rfl, hlink⟩)
    | ok u s₂ =>
      -- the file has its entry, and it is the writing of its inode that failed
      rw [run_bind_ok (run_orFail_ok hlink)] at hrun
      have hs' : V.volume s' = V.volume s₂ :=
        (finishFile_spec hL (V.volume s₂) child mode uid gid).error rfl hrun
      have hentered := hlinks.ok rfl hlink
      obtain ⟨l₁, l₂, hv, hw⟩ := hentered.dir
      have hdir : (V.volume s').dir d = l₁ ++ ⟨child, name, EXT2_FT_REG_FILE⟩ :: l₂ := by
        rw [hs', hw, Function.update_self]
      refine iff_of_false ?_ ?_
      · rw [hs₁] at hv
        exact NoTrace.not_inserted hv hdir
      · rintro (⟨_, _, h⟩ | ⟨child', s₁', _, _, h, hfail⟩)
        · cases h
        · cases h
          cases hlink.symm.trans hfail

/-- A failed create leaves no trace exactly if the call that failed came before the entry. -/
theorem noTrace_iff (hL : LawfulNew fs V) {dirIno : UInt64} {name : List UInt8} {type : Char}
    {mode uid gid : UInt32} (hrun : extfskCreate fs dirIno name type mode uid gid s = .error e s') :
    NoTrace dirIno.toUInt32 (V.volume s) (V.volume s') ↔
      FailsEarly fs dirIno.toUInt32 name type (regularMode mode) s := by
  unfold extfskCreate at hrun
  unfold FailsEarly
  by_cases hlong : 255 < name.length
  · rw [if_pos hlong] at hrun
    cases hrun
    exact iff_of_true (NoTrace.of_resized (Resized.refl _ _)) (Or.inl hlong)
  rw [if_neg hlong] at hrun
  rw [or_iff_right hlong]
  by_cases htype : type = 'd'
  · rw [if_pos htype] at hrun ⊢
    exact createDir_noTrace_iff hL hrun
  · rw [if_neg htype] at hrun ⊢
    exact createFile_noTrace_iff hL hrun

end Create

/-! ## Libraries that fail once -/

/-- No inode table can be written. -/
def unwritable : Ext2fsNew RefState :=
  { refLibraryNew with writeNewInode := fun _ _ s => .error (.other 1) s }

/-- No name can be looked up. -/
def unsearchable : Ext2fsNew RefState :=
  { refLibraryNew with
    toExt2fs := { refLibraryNew.toExt2fs with lookup := fun _ _ s => .error (.other 1) s } }

theorem unwritable_lawful : LawfulNew unwritable RefState.view :=
  { refLibraryNew_lawful with writeNewInode := fun _ _ _ _ hs => hs }

theorem unsearchable_lawful : LawfulNew unsearchable RefState.view :=
  { refLibraryNew_lawful with
    lawful := { refLibraryNew_ext2fs with lookup := fun _ _ _ _ hs => ⟨(fun h => nomatch h), hs⟩ } }

/-- A name that is there already is refused. -/
theorem noTrace_existing :
    NoTrace 2 bareRoot.volume
      (final (extfskCreate refLibraryNew 2 dot 'd' 0 0 0 bareRoot)).volume := by
  have hmkdir : refLibraryNew.mkdir 2 0 dot bareRoot = .error (.other 1) bareRoot := rfl
  have hrun : extfskCreate refLibraryNew 2 dot 'd' 0 0 0 bareRoot = .error (- EIO) bareRoot := rfl
  exact (noTrace_iff refLibraryNew_lawful hrun).mpr (Or.inr ⟨_, _, hmkdir⟩)

/-- A file whose inode cannot be written stays in its directory, with an inode that is free; a
directory that is not found once it is made stays there too. -/
theorem entry_left :
    LawfulNew unwritable RefState.view ∧ LawfulNew unsearchable RefState.view ∧
    (∃ s', extfskCreate unwritable 2 nameA 'f' 0 0 0 bareRoot = .error (- EIO) s' ∧
      s'.volume.named 2 nameA = some 11 ∧ s'.volume.inUse 11 = false ∧
      ¬ NoTrace 2 bareRoot.volume s'.volume) ∧
    ∃ s', extfskCreate unsearchable 2 nameA 'd' 0 0 0 bareRoot = .error (- EIO) s' ∧
      s'.volume.named 2 nameA = some 11 ∧ s'.volume.inUse 11 = true ∧
      ¬ NoTrace 2 bareRoot.volume s'.volume := by
  have hdir : bareRoot.volume.dir 2 = [⟨2, dot, EXT2_FT_DIR⟩, ⟨2, dotdot, EXT2_FT_DIR⟩] ++ [] := rfl
  refine ⟨unwritable_lawful, unsearchable_lawful, ⟨_, rfl, by decide, by decide, ?_⟩, _, rfl,
    by decide, by decide, ?_⟩
  · exact NoTrace.not_inserted hdir rfl
  · exact NoTrace.not_inserted hdir rfl

end Ext
end Usbrw
