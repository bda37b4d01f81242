import Usbrw.Base.Run
import Usbrw.Ext.Files
import Usbrw.Ext.Parents
import Usbrw.Ext.ReferenceNew

/-!
# Ext.Names

Whether the names in a directory stay different.

* `UniqueNames`  — no directory holds two live entries of one name.
* `Fits`         — linking a name leaves no second entry of that name.
* `NamesFit`     — the calls that rely on their caller, and where they may.
* `unique_names` — a run of calls that meet the condition keeps the names different.

`ext2fs_mkdir` and `ext2fs_symlink` look for the name themselves. `ext2fs_link` does not: a new file
and a renamed directory get their entry whatever there is, and a renamed file does when the lookup
of its new name failed.
-/

namespace Usbrw
namespace Ext

open Call Run Volume

variable {σ : Type}

namespace Volume

def names (v : Volume) (d : UInt32) : List (List UInt8) := (v.dir d).map Dirent.name

def UniqueNames (v : Volume) : Prop := ∀ d, (v.names d).Nodup

def Free (v : Volume) (d : UInt32) (name : List UInt8) : Prop := ∀ e ∈ v.dir d, e.name ≠ name

instance (v : Volume) (d : UInt32) (name : List UInt8) : Decidable (v.Free d name) := by
  unfold Free
  infer_instance

section Unique

variable {v v' w : Volume} {d d' ino : UInt32} {name : List UInt8}

theorem free_iff : v.Free d name ↔ name ∉ v.names d := by
  simp [Free, names]

theorem UniqueNames.of_dir (hv : v.UniqueNames) (h : v'.dir = v.dir) : v'.UniqueNames := by
  intro c
  rw [names, h]
  exact hv c

theorem UniqueNames.around (hv : v.UniqueNames) (h : Around ino v v') : v'.UniqueNames := by
  intro c
  by_cases hc : c = ino
  · rw [hc, names]
    cases h.own with
    | inl heq => rw [heq]; exact hv ino
    | inr hnil => rw [hnil]; exact List.nodup_nil
  · rw [names, h.dir c hc]
    exact hv c

theorem UniqueNames.setDir {es : List Dirent} (hv : v.UniqueNames)
    (h : (es.map Dirent.name).Nodup) : (v.setDir d es).UniqueNames := by
  intro c
  rw [names, setDir_dir]
  by_cases hc : c = d
  · rw [hc, Function.update_self]
    exact h
  · rw [Function.update_of_ne hc]
    exact hv c

theorem UniqueNames.unlinked (hv : v.UniqueNames) : (v.unlinked d name ino).UniqueNames :=
  hv.setDir ((hv d).sublist (List.eraseP_sublist.map Dirent.name))

theorem names_insert {l₁ l₂ : List Dirent} {e : Dirent} (hd : v.dir d = l₁ ++ l₂)
    (hd' : v'.dir d = l₁ ++ e :: l₂) : (v'.names d).Perm (e.name :: v.names d) := by
  rw [names, names, hd, hd', List.map_append, List.map_append, List.map_cons]
  exact List.perm_middle

theorem Linked.names {e : Dirent} (h : Linked d e v w) : (w.names d).Perm (e.name :: v.names d) := by
  obtain ⟨l₁, l₂, hd, hw⟩ := h.dir
  exact names_insert hd (by rw [hw, Function.update_self])

theorem Linked.names_of_ne {e : Dirent} {c : UInt32} (h : Linked d e v w) (hc : c ≠ d) :
    w.names c = v.names c := by
  obtain ⟨l₁, l₂, _, hw⟩ := h.dir
  rw [Volume.names, hw, Function.update_of_ne hc, Volume.names]

theorem Linked.uniqueNames {e : Dirent} (h : Linked d e v w) (hv : v.UniqueNames)
    (hfree : v.Free d e.name) : w.UniqueNames := by
  intro c
  by_cases hc : c = d
  · rw [hc]
    refine h.names.nodup_iff.mpr (List.nodup_cons.mpr ⟨?_, hv d⟩)
    exact free_iff.mp hfree
  · rw [h.names_of_ne hc]
    exact hv c

theorem unlinked_names (hx : ∃ x ∈ v.dir d, x.Names name ino) :
    (v.names d).Perm (name :: (v.unlinked d name ino).names d) := by
  obtain ⟨x, hx, hp⟩ := hx
  obtain ⟨a, l₁, l₂, _, ha, hcut, herase⟩ := List.exists_of_eraseP
    (p := fun y : Dirent => decide (y.Names name ino)) hx (decide_eq_true hp)
  have hname : a.name = name := (of_decide_eq_true ha).1
  rw [names, names, unlinked_dir_self, herase, hcut, List.map_append, List.map_append,
    List.map_cons, hname]
  exact List.perm_middle

/-- An entry that is linked a second time and then unlinked is there once. -/
theorem Linked.uniqueNames_again {e : Dirent} (h : Linked d e v w) (hv : v.UniqueNames)
    (hx : ∃ x ∈ w.dir d, x.Names e.name ino) : (w.unlinked d e.name ino).UniqueNames := by
  intro c
  by_cases hc : c = d
  · rw [hc]
    have hperm : (v.names d).Perm ((w.unlinked d e.name ino).names d) :=
      (h.names.symm.trans (unlinked_names hx)).cons_inv
    exact hperm.nodup_iff.mp (hv d)
  · have hnames := h.names_of_ne hc
    rw [Volume.names] at hnames
    rw [Volume.names, unlinked_dir_of_ne hc, hnames]
    exact hv c

/-- Where the names are different, none is left of one whose entry went. -/
theorem UniqueNames.free_unlinked (hv : v.UniqueNames) (hx : ∃ x ∈ v.dir d, x.Names name ino) :
    (v.unlinked d name ino).Free d name := by
  have hnodup := (unlinked_names hx).nodup_iff.mp (hv d)
  exact free_iff.mpr (List.nodup_cons.mp hnodup).1

theorem Free.around (h : v.Free d name) (ha : Around ino v v') : v'.Free d name := by
  intro e he
  by_cases hd : d = ino
  · subst hd
    cases ha.own with
    | inl heq => exact h e (by rwa [heq] at he)
    | inr hnil => rw [hnil] at he; cases he
  · exact h e (by rwa [ha.dir d hd] at he)

theorem reparent_names (p : UInt32) (es : List Dirent) :
    ((reparent p es).map Dirent.name).Sublist (es.map Dirent.name) := by
  induction es with
  | nil => exact List.Sublist.refl _
  | cons e es ih =>
    rw [reparent]
    by_cases hname : e.name = dotdot
    · rw [if_pos hname]
      by_cases hp : p = 0
      · rw [if_pos hp]
        exact List.sublist_cons_self _ _
      · rw [if_neg hp]
        exact List.Sublist.refl _
    · rw [if_neg hname]
      exact ih.cons_cons _

end Unique

end Volume

theorem Made.uniqueNames {v v' : Volume} {d child : UInt32} {name : List UInt8}
    (h : Made d name child v v') (hv : v.UniqueNames)
    (hown : (v'.names child).Nodup) :
    v'.UniqueNames := by
  intro c
  by_cases hd : c = d
  · obtain ⟨l₁, l₂, t, hl, hl'⟩ := h.entry
    rw [hd]
    refine (names_insert hl hl').nodup_iff.mpr (List.nodup_cons.mpr ⟨?_, hv d⟩)
    exact free_iff.mp h.free
  · by_cases hc : c = child
    · rw [hc]
      exact hown
    · rw [names, h.dirs c hd hc]
      exact hv c

/-! ## The calls -/

section Calls

variable {fs : Ext2fs σ} {V : View σ} {oldDir newDir : UInt64} {oldName newName : List UInt8}
  {ino : UInt32} {s : σ}

/-- The names are different in the state `s` of the library. -/
def Different (V : View σ) (s : σ) : Prop := (V.volume s).UniqueNames

theorem different_of_is {v : Volume} (hv : v.UniqueNames) (h : V.Is v s) : Different V s := by
  rw [Different, h.eq]
  exact hv

theorem different_of_sameShape {v : Volume} (hv : v.UniqueNames) (h : SameShape v (V.volume s)) :
    Different V s :=
  hv.of_dir h.dir

/-- `link` leaves no second entry of the new name: it fails, the name is free, or the entry is the
very one that is unlinked next. -/
def Fits (fs : Ext2fs σ) (V : View σ) (link : EStateM Errcode σ Unit) (oldDir : UInt32)
    (oldName : List UInt8) (newDir : UInt32) (newName : List UInt8) (ino : UInt32) (s : σ) : Prop :=
  ∀ s₁, link s = .ok () s₁ → (V.volume s).Free newDir newName ∨
    oldDir = newDir ∧ oldName = newName ∧ ∃ s₂, fs.unlink oldDir oldName ino s₁ = .ok () s₂

theorem unlink_different (hL : Lawful fs V) {link : EStateM Errcode σ Unit} {d d' : UInt32}
    {t : UInt8} {s₁ : σ} (hv : Different V s) (hfits : Fits fs V link d oldName d' newName ino s)
    (hlink : link s = .ok () s₁) (hlinked : Linked d' ⟨ino, newName, t⟩ (V.volume s) (V.volume s₁)) :
    Spec (Eq s₁) (fs.unlink d oldName ino) (fun _ => Different V) fun _ => Different V := by
  intro s' hs'
  rw [← hs']
  have hunlink := hL.unlink (V.volume s₁) d oldName ino
  cases hu : fs.unlink d oldName ino s₁ with
  | ok u s₂ =>
    obtain ⟨hx, hs₂⟩ := hunlink.ok rfl hu
    refine different_of_is ?_ hs₂
    cases hfits _ hlink with
    | inl hfree => exact (hlinked.uniqueNames hv hfree).unlinked
    | inr hsame =>
      obtain ⟨hd, hname, _⟩ := hsame
      rw [hd, hname] at hx ⊢
      exact hlinked.uniqueNames_again hv hx
  | error e s₂ =>
    have hs₂ := hunlink.error rfl hu
    cases hfits _ hlink with
    | inl hfree => exact different_of_is (hlinked.uniqueNames hv hfree) hs₂
    | inr hsame =>
      obtain ⟨_, _, s₃, hok⟩ := hsame
      rw [hu] at hok
      cases hok

theorem moveEntry_different (hL : Lawful fs V) (hv : Different V s)
    (hfits : Fits fs V (linkExpanding fs newDir.toUInt32 newName ino EXT2_FT_REG_FILE)
      oldDir.toUInt32 oldName newDir.toUInt32 newName ino s) :
    Different V (final (moveEntry fs oldDir oldName newDir newName ino s)) := by
  have hlinks := linkExpanding_enters hL (V.volume s) newDir.toUInt32 newName ino EXT2_FT_REG_FILE
  unfold moveEntry
  cases hlink : linkExpanding fs newDir.toUInt32 newName ino EXT2_FT_REG_FILE s with
  | error e s₁ =>
    rw [run_bind_error (run_orFail_error hlink)]
    exact different_of_sameShape hv (hlinks.error rfl hlink).sameShape
  | ok u s₁ =>
    rw [run_bind_ok (run_orFail_ok hlink)]
    have hunlink := unlink_different hL hv hfits hlink (hlinks.ok rfl hlink).linked
    refine (Spec.bind_orFail (R := fun _ => Different V) (D := fun _ => Different V) hunlink
      (fun _ _ h => h) ?_).final rfl
    intro _ s₂ hs₂
    exact Spec.conseq (extAfterUnlink_same hL (V.volume s₂) ino 0)
      (fun _ _ h => different_of_is hs₂ h) (fun _ _ h => different_of_is hs₂ h) s₂ rfl

/-- What the new name stood for is gone, or could not be looked up. -/
theorem removeExisting_different (hL : Lawful fs V) (hv : Different V s) :
    Different V (final (removeExisting fs newDir newName s)) := by
  cases removeExisting_cases hL newDir newName s with
  | inl h => exact different_of_is hv h
  | inr h =>
    obtain ⟨x, s₁, s₂, _, hrem, hrun⟩ := h
    rw [hrun]
    have hset : Settled V x _ (final (extAfterUnlink fs x true newDir.toUInt32 s₂)) :=
      (extAfterUnlink_spec hL (V.volume s₂) x newDir.toUInt32).final rfl
    have haround := hset.around
    rw [hrem.volume] at haround
    exact hv.unlinked.around haround

/-- Where the new name could be looked up, it is free afterwards. -/
theorem removeExisting_free (hL : Lawful fs V) (hv : Different V s) {existing : UInt64} {s₁ s₂ : σ}
    (hl : extfskLookup fs newDir newName s = .ok existing s₁)
    (hrun : removeExisting fs newDir newName s = .ok () s₂) :
    (V.volume s₂).Free newDir.toUInt32 newName := by
  have hs₁ : V.volume s₁ = V.volume s :=
    (extfskLookup_spec hL (V.volume s) newDir newName).ok rfl hl
  rw [removeExisting_found hl] at hrun
  obtain ⟨x, t₁, t₂, _, hrem, hafter⟩ := extfskUnlink_returns hL hrun
  have hset := (extAfterUnlink_spec hL (V.volume t₂) x newDir.toUInt32).ok rfl hafter
  have haround := hset.around
  rw [hrem.volume] at haround
  have hentry := hrem.entry
  rw [hs₁] at hentry haround
  exact Free.around (hv.free_unlinked hentry) haround

theorem renameFile_different (hL : Lawful fs V) (hv : Different V s)
    (hfits : ∀ e s₁, extfskLookup fs newDir newName s = .error e s₁ →
      Fits fs V (linkExpanding fs newDir.toUInt32 newName ino EXT2_FT_REG_FILE)
        oldDir.toUInt32 oldName newDir.toUInt32 newName ino s₁) :
    Different V (final (renameFile fs oldDir oldName newDir newName ino s)) := by
  have hrem : Different V (final (removeExisting fs newDir newName s)) :=
    removeExisting_different hL hv
  unfold renameFile
  cases hrun : removeExisting fs newDir newName s with
  | error e s₁ =>
    rw [run_bind_error hrun]
    rwa [hrun] at hrem
  | ok u s₁ =>
    rw [run_bind_ok hrun]
    rw [hrun] at hrem
    refine moveEntry_different hL hrem ?_
    cases hl : extfskLookup fs newDir newName s with
    | ok existing t => exact fun _ _ => Or.inl (removeExisting_free hL hv hl hrun)
    | error e t =>
      rw [removeExisting, run_bind_ok (run_attempt_error hl)] at hrun
      cases hrun
      exact hfits e s₁ hl

theorem renameDir_different (hL : Lawful fs V) (hE : LawfulEdit fs V) (hv : Different V s)
    (hfits : Fits fs V (fs.link newDir.toUInt32 newName ino EXT2_FT_DIR)
      oldDir.toUInt32 oldName newDir.toUInt32 newName ino s) :
    Different V (final (renameDir fs oldDir oldName newDir newName ino s)) := by
  have hlinks := hL.link (V.volume s) newDir.toUInt32 newName ino EXT2_FT_DIR
  unfold renameDir
  cases hlink : fs.link newDir.toUInt32 newName ino EXT2_FT_DIR s with
  | error e s₁ =>
    rw [run_bind_error (run_orFail_error hlink)]
    exact different_of_is hv (hlinks.error rfl hlink)
  | ok u s₁ =>
    rw [run_bind_ok (run_orFail_ok hlink)]
    obtain ⟨l₁, l₂, hd, hs₁⟩ := hlinks.ok rfl hlink
    have hlinked : Linked newDir.toUInt32 ⟨ino, newName, EXT2_FT_DIR⟩ (V.volume s) (V.volume s₁) := by
      rw [hs₁.eq]
      exact linked_setDir (SameShape.refl _) hd
    have hunlink := unlink_different hL hv hfits hlink hlinked
    refine (Spec.bind_orFail (R := fun _ => Different V) (D := fun _ => Different V) hunlink
      (fun _ _ h => h) ?_).final rfl
    intro _
    by_cases hdirs : oldDir = newDir
    · rw [if_pos hdirs]
      exact Spec.pure fun _ h => h
    · rw [if_neg hdirs]
      intro s₂ hs₂
      have hdots := rewriteDotdot_spec hE (V.volume s₂) ino newDir.toUInt32
      refine Spec.bind_orFail (R := fun _ => Different V) (D := fun _ => Different V)
        (Q := fun _ => Different V) (Spec.conseq hdots ?_ ?_) (fun _ _ h => h) ?_ s₂ rfl
      · intro _ s₃ hs₃
        exact different_of_is (hs₂.setDir ((hs₂ ino).sublist (reparent_names _ _))) hs₃
      · exact fun _ s₃ hs₃ => different_of_is hs₂ hs₃
      · intro _
        refine Spec.bind (Q := fun _ => Different V) (Spec.modify ?_) fun _ => Spec.modify ?_
        · exact fun s₃ hs₃ => different_of_sameShape hs₃ (addParentLink_sameShape hL _ s₃)
        · exact fun s₃ hs₃ => different_of_sameShape hs₃ (removeParentLink_sameShape hL _ s₃)

theorem extfskUnlink_different (hL : Lawful fs V) (hv : Different V s) (dirIno hint : UInt64)
    (name : List UInt8) : Different V (final (extfskUnlink fs dirIno name hint s)) := by
  cases extfskUnlink_cases hL dirIno hint name s with
  | inl h =>
    obtain ⟨e, s', hrun, _, hs'⟩ := h
    rw [hrun]
    exact different_of_is hv hs'
  | inr h =>
    obtain ⟨x, s₁, s₂, _, hrem, hrun⟩ := h
    rw [hrun]
    have hset : Settled V x _ (final (extAfterUnlink fs x true dirIno.toUInt32 s₂)) :=
      (extAfterUnlink_spec hL (V.volume s₂) x dirIno.toUInt32).final rfl
    have haround := hset.around
    rw [hrem.volume] at haround
    exact hv.unlinked.around haround

theorem extfskRename_different (hL : Lawful fs V) (hE : LawfulEdit fs V) (hv : Different V s)
    (hfits : ∀ ino inode s', Finds fs oldDir oldName ino inode s s' →
      (LINUX_S_ISDIR inode.iMode = true →
        Fits fs V (fs.link newDir.toUInt32 newName ino.toUInt32 EXT2_FT_DIR)
          oldDir.toUInt32 oldName newDir.toUInt32 newName ino.toUInt32 s') ∧
      (LINUX_S_ISDIR inode.iMode = false →
        ∀ e s₁, extfskLookup fs newDir newName s' = .error e s₁ →
          Fits fs V (linkExpanding fs newDir.toUInt32 newName ino.toUInt32 EXT2_FT_REG_FILE)
            oldDir.toUInt32 oldName newDir.toUInt32 newName ino.toUInt32 s₁)) :
    Different V (final (extfskRename fs oldDir oldName newDir newName s)) := by
  cases extfskRename_cases hL oldDir oldName newDir newName s with
  | inl h =>
    obtain ⟨e, s', hrun, _, hs'⟩ := h
    rw [hrun]
    exact different_of_is hv hs'
  | inr h =>
    obtain ⟨ino, inode, s', hfinds⟩ := h
    obtain ⟨hdir, hfile⟩ := hfits ino inode s' hfinds
    have hs' : Different V s' := different_of_is hv (hfinds.node hL).2
    cases hisdir : LINUX_S_ISDIR inode.iMode with
    | true =>
      rw [hfinds.run_dir hisdir]
      exact renameDir_different hL hE hs' (hdir hisdir)
    | false =>
      rw [hfinds.run hisdir]
      exact renameFile_different hL hs' (hfile hisdir)

end Calls

section New

variable {fs : Ext2fsNew σ} {V : View σ} {name : List UInt8} {d mode uid gid : UInt32} {s : σ}

theorem finishFile_dir (hL : LawfulNew fs V) (child mode uid gid : UInt32) (s : σ) :
    (V.volume (final (finishFile fs child mode uid gid s))).dir = (V.volume s).dir := by
  have hspec := finishFile_spec hL (V.volume s) child mode uid gid
  cases hrun : finishFile fs child mode uid gid s with
  | ok r s₁ =>
    have hs₁ := (hspec.ok rfl hrun).2
    rw [final_ok, hs₁.eq]
    rfl
  | error e s₁ =>
    have hs₁ := hspec.error rfl hrun
    rw [final_error, hs₁.eq]

theorem createFile_different (hL : LawfulNew fs V) (hv : Different V s)
    (hfree : ∀ child s₁ s₂, fs.newInode d mode s = .ok child s₁ →
      linkExpanding fs.toExt2fs d name child EXT2_FT_REG_FILE s₁ = .ok () s₂ →
      (V.volume s).Free d name) :
    Different V (final (createFile fs d name mode uid gid s)) := by
  have hpick := hL.newInode (V.volume s) d mode
  unfold createFile
  cases hnew : fs.newInode d mode s with
  | error e s₁ =>
    rw [run_bind_error (run_orFail_error hnew)]
    exact different_of_is hv (hpick.error rfl hnew)
  | ok child s₁ =>
    rw [run_bind_ok (run_orFail_ok hnew)]
    have hs₁ : V.volume s₁ = V.volume s := (hpick.ok rfl hnew).2
    have hlinks := linkExpanding_enters hL.lawful (V.volume s) d name child EXT2_FT_REG_FILE
    cases hlink : linkExpanding fs.toExt2fs d name child EXT2_FT_REG_FILE s₁ with
    | error e s₂ =>
      rw [run_bind_error (run_orFail_error hlink)]
      exact different_of_sameShape hv (hlinks.error hs₁ hlink).sameShape
    | ok u s₂ =>
      rw [run_bind_ok (run_orFail_ok hlink)]
      have hs₂ := (hlinks.ok hs₁ hlink).linked.uniqueNames hv (hfree child s₁ s₂ hnew hlink)
      exact hs₂.of_dir (finishFile_dir hL child mode uid gid s₂)

theorem lookupMade_different (hL : LawfulNew fs V) (d : UInt32) (name : List UInt8) :
    Spec (Different V) (lookupMade fs d name) (fun _ => Different V) fun _ => Different V := by
  intro s hv
  have hlook := hL.lawful.lookup (V.volume s) d name
  unfold lookupMade
  refine Spec.bind_orFail (R := fun _ => Different V) (D := fun _ => Different V)
    (Q := fun _ => Different V) (Spec.conseq hlook ?_ ?_) (fun _ _ h => h)
    (fun _ => Spec.pure fun _ h => h) s rfl
  · exact fun _ s₁ hs₁ => different_of_is hv hs₁.2
  · exact fun _ s₁ hs₁ => different_of_is hv hs₁.2

theorem createDir_different (hL : LawfulNew fs V) (hv : Different V s) :
    Different V (final (createDir fs d name s)) := by
  have hmkdir := hL.mkdir (V.volume s) d name
  have hmade : Spec (V.Is (V.volume s)) (fs.mkdir d 0 name) (fun _ => Different V)
      fun _ => Different V := by
    refine Spec.conseq hmkdir ?_ fun _ s₁ hs₁ => different_of_is hv hs₁
    rintro _ s₁ ⟨child, hchild⟩
    refine hchild.toMade.uniqueNames hv ?_
    obtain ⟨t, hown⟩ := hchild.own
    rw [names, hown]
    exact (by decide : [dot, dotdot].Nodup)
  exact (Spec.bind_orFail (R := fun _ => Different V) (D := fun _ => Different V) hmade
    (fun _ _ h => h) fun _ => lookupMade_different hL d name).final rfl

theorem extfskSymlink_different (hL : LawfulNew fs V) (hv : Different V s) (dirIno : UInt64)
    (name target : List UInt8) :
    Different V (final (extfskSymlink fs dirIno name target s)) := by
  unfold extfskSymlink
  by_cases hlen : 255 < name.length ∨ 4095 < target.length
  · rw [if_pos hlen]
    exact hv
  · rw [if_neg hlen]
    have hmade : Spec (V.Is (V.volume s)) (fs.symlink dirIno.toUInt32 0 name target)
        (fun _ => Different V) fun _ => Different V := by
      refine Spec.conseq (hL.symlink (V.volume s) dirIno.toUInt32 name target) ?_
        fun _ s₁ hs₁ => different_of_is hv hs₁
      rintro _ s₁ ⟨child, hchild⟩
      refine hchild.toMade.uniqueNames hv ?_
      cases hchild.own with
      | inl heq =>
        rw [names, heq]
        exact hv child
      | inr hnil =>
        rw [names, hnil]
        exact List.nodup_nil
    exact (Spec.bind_orFail (R := fun _ => Different V) (D := fun _ => Different V) hmade
      (fun _ _ h => h) fun _ => lookupMade_different hL _ name).final rfl

/-- Where the bridge links a name without looking for it, that is no second entry of the name: the
entry of a new file, and those of `extfsk_rename` but where the new name has been looked up. -/
def NamesFit (fs : Ext2fsNew σ) (V : View σ) (s : σ) : Request → Prop
  | .create dirIno name type mode _ _ => name.length ≤ 255 → type ≠ 'd' → ∀ child s₁ s₂,
      fs.newInode dirIno.toUInt32 (regularMode mode) s = .ok child s₁ →
      linkExpanding fs.toExt2fs dirIno.toUInt32 name child EXT2_FT_REG_FILE s₁ = .ok () s₂ →
      (V.volume s).Free dirIno.toUInt32 name
  | .symlink _ _ _ => True
  | .unlink _ _ _ => True
  | .rename oldDir oldName newDir newName =>
    ∀ ino inode s', Finds fs.toExt2fs oldDir oldName ino inode s s' →
      (LINUX_S_ISDIR inode.iMode = true →
        Fits fs.toExt2fs V (fs.link newDir.toUInt32 newName ino.toUInt32 EXT2_FT_DIR)
          oldDir.toUInt32 oldName newDir.toUInt32 newName ino.toUInt32 s') ∧
      (LINUX_S_ISDIR inode.iMode = false →
        ∀ e s₁, extfskLookup fs.toExt2fs newDir newName s' = .error e s₁ →
          Fits fs.toExt2fs V
            (linkExpanding fs.toExt2fs newDir.toUInt32 newName ino.toUInt32 EXT2_FT_REG_FILE)
            oldDir.toUInt32 oldName newDir.toUInt32 newName ino.toUInt32 s₁)

theorem extfskCreate_different (hL : LawfulNew fs V) (hv : Different V s) {dirIno : UInt64}
    {type : Char} (hmeets : NamesFit fs V s (.create dirIno name type mode uid gid)) :
    Different V (final (extfskCreate fs dirIno name type mode uid gid s)) := by
  unfold extfskCreate
  by_cases hlen : 255 < name.length
  · rw [if_pos hlen]
    exact hv
  · rw [if_neg hlen]
    by_cases htype : type = 'd'
    · rw [if_pos htype]
      exact createDir_different hL hv
    · rw [if_neg htype]
      exact createFile_different hL hv (hmeets (by omega) htype)

theorem serve_different (hL : LawfulNew fs V) (hE : LawfulEdit fs.toExt2fs V) (hv : Different V s)
    (r : Request) (hr : NamesFit fs V s r) : Different V (serve fs s r) := by
  cases r with
  | create dirIno name type mode uid gid =>
    have h := extfskCreate_different hL hv hr
    rwa [← final_dropResult] at h
  | symlink dirIno name target =>
    have h := extfskSymlink_different hL hv dirIno name target
    rwa [← final_dropResult] at h
  | unlink dirIno name inoHint => exact extfskUnlink_different hL.lawful hv dirIno inoHint name
  | rename oldDir oldName newDir newName => exact extfskRename_different hL.lawful hE hv hr

/-- In a run of calls that meet the condition the names stay different at every point. -/
theorem unique_names (hL : LawfulNew fs V) (hE : LawfulEdit fs.toExt2fs V) {rs : List Request}
    (hv : (V.volume s).UniqueNames) (hrs : Along (serve fs) (NamesFit fs V) s rs) :
    Along (serve fs) (fun s _ => (V.volume s).UniqueNames) s rs ∧
      (V.volume (rs.foldl (serve fs) s)).UniqueNames := by
  refine along_of_inv (I := Different V) ?_ hv hrs
  intro s r hs hr
  exact ⟨hs, serve_different hL hE hs r hr⟩

end New

/-! ## A file made twice -/

def nameA : List UInt8 := [0x61]
def nameB : List UInt8 := [0x62]

/-- Only a root, with nothing in it but `.` and `..`. -/
def bareRoot : RefState where
  volume :=
    { node := fun _ => ⟨LINUX_S_IFDIR, 2, 1024⟩
      inUse := fun i => i < 11
      data := fun _ _ => 0
      dir := fun i => if i = 2 then [⟨2, dot, EXT2_FT_DIR⟩, ⟨2, dotdot, EXT2_FT_DIR⟩] else [] }
  handles := []

theorem bareRoot_unique : bareRoot.volume.UniqueNames := by
  intro d
  by_cases hd : d = 2
  · rw [hd]
    decide
  · have hnil : bareRoot.volume.dir d = [] := if_neg hd
    rw [names, hnil]
    exact List.nodup_nil

/-- A file is made, a directory beside it, and the file gets another name. -/
theorem unique_names_three :
    Along (serve refLibraryNew) (fun s _ => s.volume.UniqueNames) bareRoot
        [.create 2 nameA 'f' 0 0 0, .create 2 nameB 'd' 0 0 0, .rename 2 nameA 12 nameA] ∧
      ([Request.create 2 nameA 'f' 0 0 0, .create 2 nameB 'd' 0 0 0,
        .rename 2 nameA 12 nameA].foldl (serve refLibraryNew) bareRoot).volume.UniqueNames := by
  refine unique_names refLibraryNew_lawful refLibraryNew_edit bareRoot_unique
    ⟨?_, ?_, ?_, trivial⟩
  · intro _ _ child s₁ s₂ _ _
    decide
  · intro _ htype
    exact absurd rfl htype
  · intro ino inode s' hfinds
    obtain ⟨s₁, hlookup, hread⟩ := hfinds
    cases hlookup
    cases hread
    refine ⟨fun hdir => absurd hdir (by decide), ?_⟩
    intro _ e t hl
    cases hl
    exact fun _ _ => Or.inl (by decide)

/-- The second `extfsk_create` of a name returns 0 as well, and then there are two entries of it. -/
theorem created_twice :
    LawfulNew refLibraryNew RefState.view ∧ LawfulEdit refLibraryNew.toExt2fs RefState.view ∧
    bareRoot.volume.UniqueNames ∧
    ¬ ([Request.create 2 nameA 'f' 0 0 0, .create 2 nameA 'f' 0 0 0].foldl (serve refLibraryNew)
        bareRoot).volume.UniqueNames := by
  refine ⟨refLibraryNew_lawful, refLibraryNew_edit, bareRoot_unique, ?_⟩
  intro h
  exact absurd (h 2) (by decide)

end Ext
end Usbrw
