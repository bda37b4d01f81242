import Usbrw.Ext.Subdirs
import Usbrw.Trees

/-!
# Ext.TreeRuns

The directory tree of an ext volume under all the calls that change names, and the way up to the
root.

* `serve_isTree`    — one call keeps the tree, whether it succeeds or fails.
* `calls_keep_tree` — so does a run that moves no directory into itself and removes none that holds
  others.
* `climbs_of_sound` — in a sound tree the `..` entries lead from every directory to the root.
* `climbs_to_root`  — runs of calls on directories keep it so.
-/

namespace Usbrw
namespace Ext

open Call Run Ancestry Volume Relation

variable {σ : Type}

/-! ## A new inode -/

section Made

variable {v w : Volume} {d child : UInt32} {name : List UInt8}

theorem contains_iff {a b : UInt32} : v.Contains a b ↔ v.Holds a b ∧ v.Directory b := by
  unfold Contains Holds Dirent.Places
  simp only [mem_held]
  constructor
  · rintro ⟨ha, hb, e, he, hdots, hino⟩
    exact ⟨⟨e, ⟨ha, he⟩, hino, hdots⟩, hb⟩
  · rintro ⟨⟨e, ⟨ha, he⟩, hino, hdots⟩, hb⟩
    exact ⟨ha, hb, e, he, hdots, hino⟩

/-- A new directory is in `d`, and nothing is in it. -/
theorem MadeDir.isTree (h : MadeDir d name child v w) (hv : v.IsTree) (hd : v.Directory d)
    (hname : ¬ IsDots name) : w.IsTree := by
  have hnew : w.Directory child :=
    ⟨h.ne_zero.1, by rw [h.inUse, Function.update_self], h.isDir⟩
  refine Rooted.create (c := child) hv ?_ (fun _ _ hab => hab.1) ?_ ?_ ?_
  · intro x hx
    by_cases hc : x = child
    · exact .inr ⟨hc, d, hd, contains_iff.mpr ⟨(h.holds hd hname).mpr (.inr ⟨rfl, rfl⟩), hnew⟩⟩
    · exact .inl ((h.directory hc).mp hx)
  · intro a b hab
    obtain ⟨hholds, hb⟩ := contains_iff.mp hab
    have hne : b ≠ child := by
      rintro rfl
      exact h.not_directory hb
    exact contains_iff.mpr ⟨(h.holds hd hname).mpr (.inl hholds), (h.directory hne).mpr hb⟩
  · intro a b hab
    obtain ⟨hholds, hb⟩ := contains_iff.mp hab
    by_cases hne : b = child
    · exact .inr hne
    · refine .inl (contains_iff.mpr ⟨?_, (h.directory hne).mp hb⟩)
      exact ((h.holds hd hname).mp hholds).resolve_right fun heq => hne heq.2.symm
  · intro b hb
    rcases (h.holds hd hname).mp (contains_iff.mp hb).1 with ⟨e, he, _⟩ | ⟨heq, _⟩
    · exact h.not_directory (mem_held.mp he).1
    · exact h.ne heq

/-- What is made and is no directory is nowhere in the tree. -/
theorem Made.sameTree (h : Made d name child v w) (hfile : (w.node child).isDir = false) :
    SameTree v w := by
  have hbefore : ¬ v.Directory child := fun hc => ne_true_of_eq_false h.fresh hc.2.1
  have hafter : ¬ w.Directory child := fun hc => ne_true_of_eq_false hfile hc.2.2
  have hdir : ∀ c, w.Directory c ↔ v.Directory c := by
    intro c
    by_cases hc : c = child
    · rw [hc]
      exact iff_of_false hafter hbefore
    · refine directory_congr (by rw [h.inUse, Function.update_of_ne hc]) ?_
      by_cases hcd : c = d
      · rw [hcd, h.mode]
      · rw [h.nodes c hcd hc]
  refine ⟨hdir, fun a b => ?_⟩
  unfold Contains
  rw [hdir a, hdir b]
  refine and_congr_right fun ha => and_congr_right fun hb => exists_congr fun e =>
    and_congr_left fun hino => ?_
  have hne : a ≠ child := by
    rintro rfl
    exact hbefore ha
  by_cases had : a = d
  · obtain ⟨l₁, l₂, t, hv, hw⟩ := h.entry
    have hother : e ≠ ⟨child, name, t⟩ := by
      rintro rfl
      exact hbefore (by rwa [← hino.2] at hb)
    rw [had, hv, hw]
    simp [hother]
  · rw [h.dirs a had hne]

/-- A node is written and marked used that is no directory, where none was. -/
theorem sameTree_newNode (v : Volume) {n : Node} (hbefore : ¬ v.Directory child)
    (hfile : n.isDir = false) : SameTree v ((v.setNode child n).setInUse child true) := by
  refine sameTree_of_entries (fun c => ?_) fun _ _ _ _ => Iff.rfl
  by_cases hc : c = child
  · rw [hc]
    refine iff_of_false (fun h => ?_) hbefore
    refine ne_true_of_eq_false hfile ?_
    simpa using h.2.2
  · exact directory_congr (by simp [hc]) (by simp [hc])

end Made

/-! ## The calls -/

section Calls

variable {fs : Ext2fsNew σ} {V : View σ} {v : Volume} {s s' : σ}

/-- The new directory is made in a directory, as neither `.` nor `..`, or not at all. -/
def MakesApart (fs : Ext2fsNew σ) (V : View σ) (d : UInt32) (name : List UInt8) (s : σ) : Prop :=
  (∃ e s', fs.mkdir d 0 name s = .error e s') ∨ (V.volume s).Directory d ∧ ¬ IsDots name

theorem createDir_isTree (hL : LawfulNew fs V) {d : UInt32} {name : List UInt8}
    (hv : (V.volume s).IsTree) (hapart : MakesApart fs V d name s) :
    (V.volume (final (createDir fs d name s))).IsTree := by
  unfold createDir
  cases hmk : fs.mkdir d 0 name s with
  | error e s₁ =>
    rw [run_bind_error (run_orFail_error hmk), final_error,
      (hL.mkdir (V.volume s) d name).error rfl hmk]
    exact hv
  | ok u s₁ =>
    obtain ⟨child, hmade⟩ := (hL.mkdir (V.volume s) d name).ok rfl hmk
    have htree : (V.volume s₁).IsTree := by
      rcases hapart with ⟨e, s₂, hfails⟩ | ⟨hd, hname⟩
      · rw [hmk] at hfails
        cases hfails
      · exact hmade.isTree hv hd hname
    rw [run_bind_ok (run_orFail_ok hmk),
      Spec.final (lookupMade_same hL (V.volume s₁) d name) rfl]
    exact htree

theorem finishFile_isTree (hL : LawfulNew fs V) {child mode uid gid : UInt32} (hv : v.IsTree)
    (hbefore : ¬ v.Directory child) (hfile : (newFile mode).isDir = false) :
    Spec (V.Is v) (finishFile fs child mode uid gid) (fun _ s => (V.volume s).IsTree)
      fun _ s => (V.volume s).IsTree := by
  refine Spec.conseq (finishFile_spec hL v child mode uid gid) ?_ ?_
  · rintro _ s ⟨_, hs⟩
    rw [hs.eq]
    exact (sameTree_newNode v hbefore hfile).isTree hv
  · intro _ s hs
    rwa [hs.eq]

/-- A regular file is made, or it is not and then perhaps has an entry. -/
theorem createFile_isTree (hL : LawfulNew fs V) (hv : v.IsTree) (d : UInt32) (name : List UInt8)
    {mode : UInt32} (hfile : (newFile mode).isDir = false) (uid gid : UInt32) :
    Spec (V.Is v) (createFile fs d name mode uid gid) (fun _ s => (V.volume s).IsTree)
      fun _ s => (V.volume s).IsTree := by
  unfold createFile
  refine Spec.bind_orFail (hL.newInode v d mode) (fun _ s hs => by rwa [hs.eq]) fun child => ?_
  refine Spec.assume fun hchild => ?_
  have hbefore : ¬ v.Directory child := fun hc => ne_true_of_eq_false hchild.1 hc.2.1
  refine Spec.bind_orFail (linkExpanding_enters hL.lawful v d name child EXT2_FT_REG_FILE)
    (fun _ _ hs => hs.sameShape.sameTree.isTree hv) fun _ => ?_
  intro s hs
  refine finishFile_isTree hL ((hs.linked.sameTree hbefore).isTree hv) ?_ hfile s rfl
  rwa [hs.linked.directory]

theorem extfskSymlink_isTree (hL : LawfulNew fs V) (hv : v.IsTree) (dirIno : UInt64)
    (name target : List UInt8) :
    Spec (V.Is v) (extfskSymlink fs dirIno name target) (fun _ s => (V.volume s).IsTree)
      fun _ s => (V.volume s).IsTree := by
  unfold extfskSymlink
  refine Spec.guard (fun _ s hs => by rwa [hs.eq]) fun _ => ?_
  refine Spec.bind_orFail (hL.symlink v dirIno.toUInt32 name target)
    (fun _ s hs => by rwa [hs.eq]) fun _ => ?_
  rintro s ⟨child, hmade⟩
  have htree := (hmade.toMade.sameTree hmade.isDir).isTree hv
  refine Spec.conseq (lookupMade_same hL (V.volume s) dirIno.toUInt32 name) ?_ ?_ s rfl
  · intro _ s' hs'
    rwa [hs'.eq]
  · intro _ s' hs'
    rwa [hs'.eq]

theorem extfskUnlink_isTree {fs : Ext2fs σ} (hL : Lawful fs V) {dirIno hint : UInt64}
    {name : List UInt8} (hv : (V.volume s).IsTree)
    (hsafe : ∀ x s₁, unlinkTarget fs dirIno name hint s = .ok x s₁ →
      RemovesApart fs V dirIno.toUInt32 name x s₁) :
    (V.volume (final (extfskUnlink fs dirIno name hint s))).IsTree := by
  cases extfskUnlink_cases hL dirIno hint name s with
  | inl h =>
    obtain ⟨e, s', hrun, _, hs'⟩ := h
    rwa [hrun, final_error, hs']
  | inr h =>
    obtain ⟨x, s₁, s₂, htarget, hrem, hrun⟩ := h
    rw [hrun]
    exact extAfterUnlink_isTree hL hrem hv (hsafe x s₁ htarget)

end Calls

/-! ## Runs -/

section Runs

variable {fs : Ext2fsNew σ} {V : View σ} {v : Volume} {s s' : σ}

/-- The call makes no directory outside the tree, removes none that holds others, and moves none into
itself. -/
def TreeCall (fs : Ext2fsNew σ) (V : View σ) (s : σ) : Request → Prop
  | .create dirIno name type _ _ _ => type = 'd' → MakesApart fs V dirIno.toUInt32 name s
  | .symlink _ _ _ => True
  | .unlink dirIno name inoHint => ∀ x s₁,
    unlinkTarget fs.toExt2fs dirIno name inoHint s = .ok x s₁ →
      RemovesApart fs.toExt2fs V dirIno.toUInt32 name x s₁
  | .rename oldDir oldName newDir newName => KeepsApart fs.toExt2fs V oldDir oldName newDir newName s

theorem serve_isTree (hL : LawfulNew fs V) (hE : LawfulEdit fs.toExt2fs V)
    (hv : (V.volume s).IsTree) (r : Request) (hr : TreeCall fs V s r) :
    (V.volume (serve fs s r)).IsTree := by
  unfold serve
  cases r with
  | create dirIno name type mode uid gid =>
    rw [answer, final_dropResult, extfskCreate]
    by_cases hlen : 255 < name.length
    · rw [if_pos hlen]
      exact hv
    · rw [if_neg hlen]
      by_cases htype : type = 'd'
      · rw [if_pos htype]
        exact createDir_isTree hL hv (hr htype)
      · rw [if_neg htype]
        exact Spec.final (createFile_isTree hL hv dirIno.toUInt32 name
          (regularMode_isDir mode) uid gid) rfl
  | symlink dirIno name target =>
    rw [answer, final_dropResult]
    exact Spec.final (extfskSymlink_isTree hL hv dirIno name target) rfl
  | unlink dirIno name inoHint => exact extfskUnlink_isTree hL.lawful hv hr
  | rename oldDir oldName newDir newName => exact extfskRename_isTree hL.lawful hE hv hr

/-- After any part of such a run the directories are a tree, whether the calls succeed or fail, and
every name is in a directory below the root. -/
theorem calls_keep_tree (hL : LawfulNew fs V) (hE : LawfulEdit fs.toExt2fs V) {rs : List Request}
    (hs : (V.volume s).IsTree) (hrs : Along (serve fs) (TreeCall fs V) s rs) (i : Nat) :
    (V.volume ((rs.take i).foldl (serve fs) s)).IsTree ∧
      ∀ d x, (V.volume ((rs.take i).foldl (serve fs) s)).Holds d x →
        Below (V.volume ((rs.take i).foldl (serve fs) s)).Contains EXT2_ROOT_INO d := by
  have htree : (V.volume ((rs.take i).foldl (serve fs) s)).IsTree := by
    refine always_of_inv (I := fun s => (V.volume s).IsTree) ?_ hs hrs i
    exact fun s r hv hr => serve_isTree hL hE hv r hr
  refine ⟨htree, ?_⟩
  rintro d x ⟨e, he, _⟩
  exact htree.reachable d (mem_held.mp he).1

theorem refLibraryNew_completes (x p : UInt32) (s : RefState) :
    Completes refLibraryNew.toExt2fs x p s := ⟨_, _, rfl, fun _ => ⟨_, _, rfl⟩⟩

/-- The directory `e` leaves `d` and gets a directory `d`, and the old one goes. -/
theorem calls_keep_tree_out_of :
    ([.rename 12 dirE 2 dirE, .create 13 dirD 'd' 0 0 0, .unlink 2 dirD 12].foldl
      (serve refLibraryNew) dirInDir).volume.IsTree := by
  have hruns : Along (serve refLibraryNew) (TreeCall refLibraryNew RefState.view) dirInDir
      [.rename 12 dirE 2 dirE, .create 13 dirD 'd' 0 0 0, .unlink 2 dirD 12] := by
    refine ⟨outOf_apart, fun _ => .inr ⟨by decide, by decide⟩, ?_, trivial⟩
    intro x s₁ htarget s₂ _ _
    cases htarget
    refine ⟨?_, .inr (refLibraryNew_completes _ _ _)⟩
    rintro b ⟨_, _, e, he, hdots, _⟩
    cases List.mem_singleton.mp he
    exact hdots (.inr rfl)
  exact (calls_keep_tree (s := dirInDir) refLibraryNew_lawful refLibraryNew_edit dirInDir_isTree
    hruns 3).1

/-! ## The way up -/

/-- The `..` entries lead from `d` to the root. -/
def Climbs (v : Volume) (d : UInt32) : Prop :=
  ReflTransGen (fun a b => v.up a = some b) d EXT2_ROOT_INO

theorem climbs_of_sound (hv : v.Sound) (ht : v.IsTree) {d : UInt32} (hd : v.Directory d) :
    Climbs v d := by
  have hpath : Below v.Contains EXT2_ROOT_INO d := ht.reachable d hd
  clear hd
  induction hpath with
  | refl => exact .refl
  | @tail p d _ hp ih =>
    obtain ⟨hholds, hd⟩ := contains_iff.mp hp
    by_cases hroot : d = EXT2_ROOT_INO
    · rw [hroot]
      exact .refl
    · exact .head (hv.up p d hholds hd hroot) ih

/-- A directory other than the root is held by one directory, the one its `..` names. -/
theorem parent_of_sound (hv : v.Sound) (ht : v.IsTree) {d : UInt32} (hd : v.Directory d)
    (hroot : d ≠ EXT2_ROOT_INO) :
    ∃ p, v.up d = some p ∧ v.Holds p d ∧ ∀ q, v.Holds q d → q = p := by
  rcases (ht.reachable d hd).cases_tail with heq | ⟨p, _, hp⟩
  · exact absurd heq hroot
  · have hholds := (contains_iff.mp hp).1
    have hup := hv.up p d hholds hd hroot
    refine ⟨p, hup, hholds, fun q hq => ?_⟩
    have huq := hv.up q d hq hd hroot
    rw [hup] at huq
    exact (Option.some.inj huq).symm

/-- The call is no rename that moves a directory into itself. -/
def MovesOut (fs : Ext2fsNew σ) (V : View σ) (s : σ) : Request → Prop
  | .rename oldDir oldName newDir _ => ∀ ino inode s₁,
    Finds fs.toExt2fs oldDir oldName ino inode s s₁ →
      ¬ Below (V.volume s).Contains ino.toUInt32 newDir.toUInt32
  | _ => True

/-- A directory whose removal returns 0 was released. -/
theorem completes_of_ok {fs : Ext2fs σ} (hL : Lawful fs V) {x p : UInt32}
    (hdir : ((V.volume s).node x).isDir = true) (h : extAfterUnlink fs x true p s = .ok () s') :
    Completes fs x p s := by
  obtain ⟨inode, s₁, hread, _⟩ := orFail_bind_ok_iff.mp h
  rw [extAfterUnlink_run hread] at h
  have hisdir : LINUX_S_ISDIR inode.iMode = true :=
    (isDir_of_node ((hL.readInode (V.volume s) x).ok rfl hread).1).trans hdir
  rw [if_pos hisdir] at h
  refine ⟨inode, s₁, hread, fun hvalid => ?_⟩
  rw [if_pos hisdir]
  rw [releaseInode, if_pos hvalid] at h
  obtain ⟨inode', s₂, hpunch, _⟩ := orFail_bind_ok_iff.mp h
  exact ⟨inode', s₂, hpunch⟩

theorem treeCall_of_dirCall (hL : LawfulNew fs V) (r : Request) (hcall : DirCall fs V s r)
    (hok : Succeeds fs s r) (hout : MovesOut fs V s r) : TreeCall fs V s r := by
  obtain ⟨s', hrun⟩ := hok
  cases r with
  | create dirIno name type mode uid gid => exact fun _ => .inr ⟨hcall.2.2.1, hcall.2.1⟩
  | symlink dirIno name target => trivial
  | unlink dirIno name inoHint =>
    intro x s₁ htarget s₂ hunlink hx
    have hs₁ : V.volume s₁ = V.volume s :=
      (unlinkTarget_spec hL.lawful (V.volume s) dirIno inoHint name).ok rfl htarget
    have hrem := removed_of_unlink hL.lawful hs₁ hunlink
    rw [hs₁] at hx ⊢
    refine ⟨?_, .inr ?_⟩
    · rintro b ⟨_, _, e, he, hdots, _⟩
      exact hdots ((hcall.2.2 x s₁ htarget).2 e he)
    · have hafter : extAfterUnlink fs.toExt2fs x true dirIno.toUInt32 s₂ = .ok () s' := by
        rw [answer, extfskUnlink, run_bind_ok htarget, run_bind_ok (run_orFail_ok hunlink)] at hrun
        exact hrun
      refine completes_of_ok hL.lawful ?_ hafter
      rw [hrem.volume]
      exact hx.2.2
  | rename oldDir oldName newDir newName =>
    obtain ⟨_, hnewName, _, hnew, _, hdirs⟩ := hcall
    intro ino inode s₁ hfinds
    obtain ⟨hnode, hs₁⟩ := hfinds.node hL.lawful
    have hisdir : LINUX_S_ISDIR inode.iMode = true :=
      (isDir_of_node hnode).trans (hdirs ino inode s₁ hfinds).2.2
    rw [if_pos hisdir]
    intro _
    rw [hs₁]
    exact .inr ⟨hnew, hnewName, hout ino inode s₁ hfinds⟩

/-- After any part of a run of calls on directories that return 0, of which none moves a directory
into itself, the `..` entries lead from every directory to the root, each to the one directory that
holds it. -/
theorem climbs_to_root (hL : LawfulNew fs V) (hE : LawfulEdit fs.toExt2fs V) {rs : List Request}
    (hv : (V.volume s).Sound) (ht : (V.volume s).IsTree)
    (hrs : Along (serve fs) (fun s r => DirCall fs V s r ∧ Undisturbed fs s r ∧ Succeeds fs s r ∧
      MovesOut fs V s r) s rs) (i : Nat) {d : UInt32}
    (hd : (V.volume ((rs.take i).foldl (serve fs) s)).Directory d) :
    Climbs (V.volume ((rs.take i).foldl (serve fs) s)) d ∧
      (d ≠ EXT2_ROOT_INO → ∃ p, (V.volume ((rs.take i).foldl (serve fs) s)).up d = some p ∧
        (V.volume ((rs.take i).foldl (serve fs) s)).Holds p d ∧
        ∀ q, (V.volume ((rs.take i).foldl (serve fs) s)).Holds q d → q = p) := by
  have hinv : (V.volume ((rs.take i).foldl (serve fs) s)).Sound ∧
      (V.volume ((rs.take i).foldl (serve fs) s)).IsTree := by
    refine always_of_inv (I := fun s => (V.volume s).Sound ∧ (V.volume s).IsTree) ?_ ⟨hv, ht⟩ hrs i
    rintro s r ⟨hv, ht⟩ ⟨hcall, hund, hok, hout⟩
    exact ⟨serve_sound hL hE hv r hcall hund hok,
      serve_isTree hL hE ht r (treeCall_of_dirCall hL r hcall hok hout)⟩
  exact ⟨climbs_of_sound hinv.1 hinv.2 hd, parent_of_sound hinv.1 hinv.2 hd⟩

end Runs

theorem plainRoot_isTree : plainRoot.volume.IsTree := by
  have hnone : ∀ a b, ¬ plainRoot.volume.Contains a b :=
    fun a b h => plainRoot_bare a b (contains_iff.mp h).1
  refine ⟨fun _ _ hab => hab.1, fun d hd => ?_, fun d hd => ?_⟩
  · have hroot : d = EXT2_ROOT_INO := List.mem_singleton.mp (mem_keys_of_directory hd)
    rw [hroot]
  · obtain ⟨b, hb, _⟩ := TransGen.head'_iff.mp hd
    exact hnone d b hb

/-- Two directories are made in the root, and one is moved into the other. -/
theorem climbs_to_root_moved :
    Climbs ([Request.create 2 nameA 'd' 0 0 0, .create 2 nameB 'd' 0 0 0,
      .rename 2 nameA 12 nameA].foldl (serve refLibraryNew) plainRoot).volume 11 := by
  have hempty : ∀ e ∈ ([Request.create 2 nameA 'd' 0 0 0, .create 2 nameB 'd' 0 0 0].foldl
      (serve refLibraryNew) plainRoot).volume.dir 11, IsDots e.name := by decide
  have hruns : Along (serve refLibraryNew) (fun s r => DirCall refLibraryNew RefState.view s r ∧
      Undisturbed refLibraryNew s r ∧ Succeeds refLibraryNew s r ∧
      MovesOut refLibraryNew RefState.view s r) plainRoot
      [.create 2 nameA 'd' 0 0 0, .create 2 nameB 'd' 0 0 0, .rename 2 nameA 12 nameA] := by
    refine ⟨⟨⟨rfl, by decide, by decide, by decide⟩, trivial, ⟨_, rfl⟩, trivial⟩,
      ⟨⟨rfl, by decide, by decide, by decide⟩, trivial, ⟨_, rfl⟩, trivial⟩,
      ⟨⟨by decide, by decide, by decide, by decide, by decide, ?_⟩, ?_, ⟨_, rfl⟩, ?_⟩, trivial⟩
    · intro ino inode s₁ hfinds
      obtain ⟨s₂, hlookup, hread⟩ := hfinds
      cases hlookup
      decide
    · intro ino inode s₁ s₂ s₃ s₄ _ _ _ _
      exact ⟨refLibraryNew_rewritable _ _, refLibraryNew_rewritable _ _⟩
    · intro ino inode s₁ hfinds
      obtain ⟨s₂, hlookup, hread⟩ := hfinds
      cases hlookup
      intro hbelow
      rcases hbelow.cases_head with heq | ⟨b, ⟨_, _, e, he, hdots, _⟩, _⟩
      · exact absurd heq (by decide)
      · exact hdots (hempty e he)
  exact (climbs_to_root (V := RefState.view) (s := plainRoot) refLibraryNew_lawful refLibraryNew_edit
    plainRoot_sound plainRoot_isTree hruns 3 (by decide)).1

end Ext
end Usbrw
