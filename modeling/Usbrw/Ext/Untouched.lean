import Usbrw.Ext.Files
import Usbrw.Ext.FlatFiles
import Usbrw.Ext.Intact

/-!
# Ext.Untouched

What the calls leave alone: the name of a file in its directory, and what the file holds.

* `LeftAlone`  — as long as the directory and the file are in use, both are as they were.
* `Confined`   — library calls that keep to the inode they are given.
* `Action`     — a call on names or on the contents of a file, and what it is about.
* `act_leftAlone` — a call that is about neither leaves them alone, wherever it fails.
* `untouched_files_stay` — and so does a run of such calls.
-/

namespace Usbrw
namespace Ext

open Call Run Volume

variable {σ : Type}

/-! ## What is left alone -/

/-- The name `name` in `d` and the contents of `x`. -/
structure SameFile (d : UInt32) (name : List UInt8) (x : UInt32) (v w : Volume) : Prop where
  named : w.named d name = v.named d name
  data : w.data x = v.data x
  size : (w.node x).size = (v.node x).size

/-- An inode that is in use in `w` was so in `v`, and both being in use nothing has changed. -/
def LeftAlone (d : UInt32) (name : List UInt8) (x : UInt32) (v w : Volume) : Prop :=
  w.inUse d = true → w.inUse x = true →
    (v.inUse d = true ∧ v.inUse x = true) ∧ SameFile d name x v w

/-- Nothing but the inode `i` differs. -/
structure Elsewhere (i : UInt32) (v w : Volume) : Prop where
  dirs : ∀ c, c ≠ i → w.dir c = v.dir c
  inUse : ∀ c, c ≠ i → w.inUse c = v.inUse c
  nodes : ∀ c, c ≠ i → w.node c = v.node c
  datas : ∀ c, c ≠ i → w.data c = v.data c

section Relations

variable {u v w : Volume} {d x i p : UInt32} {name : List UInt8} {e : Dirent}

theorem LeftAlone.refl (v : Volume) : LeftAlone d name x v v :=
  fun hd hx => ⟨⟨hd, hx⟩, rfl, rfl, rfl⟩

theorem LeftAlone.trans (h : LeftAlone d name x u v) (h' : LeftAlone d name x v w) :
    LeftAlone d name x u w := by
  intro hd hx
  obtain ⟨⟨hd', hx'⟩, hlast⟩ := h' hd hx
  obtain ⟨huse, hfirst⟩ := h hd' hx'
  exact ⟨huse, hlast.named.trans hfirst.named, hlast.data.trans hfirst.data,
    hlast.size.trans hfirst.size⟩

/-- The same inodes are in use. -/
theorem LeftAlone.of_same (huse : w.inUse = v.inUse) (h : SameFile d name x v w) :
    LeftAlone d name x v w := by
  intro hd hx
  rw [huse] at hd hx
  exact ⟨⟨hd, hx⟩, h⟩

theorem Elsewhere.trans (h : Elsewhere i u v) (h' : Elsewhere i v w) : Elsewhere i u w :=
  ⟨fun c hc => (h'.dirs c hc).trans (h.dirs c hc), fun c hc => (h'.inUse c hc).trans (h.inUse c hc),
    fun c hc => (h'.nodes c hc).trans (h.nodes c hc),
    fun c hc => (h'.datas c hc).trans (h.datas c hc)⟩

theorem Elsewhere.refl (i : UInt32) (v : Volume) : Elsewhere i v v :=
  ⟨fun _ _ => rfl, fun _ _ => rfl, fun _ _ => rfl, fun _ _ => rfl⟩

theorem elsewhere_setNode (v : Volume) (i : UInt32) (n : Node) : Elsewhere i v (v.setNode i n) :=
  ⟨fun _ _ => rfl, fun _ _ => rfl, fun c hc => by simp [hc], fun _ _ => rfl⟩

theorem elsewhere_setInUse (v : Volume) (i : UInt32) (b : Bool) :
    Elsewhere i v (v.setInUse i b) :=
  ⟨fun _ _ => rfl, fun c hc => by simp [hc], fun _ _ => rfl, fun _ _ => rfl⟩

theorem elsewhere_clear (v : Volume) (i : UInt32) : Elsewhere i v (v.clear i) :=
  ⟨fun c hc => by simp [hc], fun _ _ => rfl, fun _ _ => rfl,
    fun c hc => by simp [clear, setData, setDir, hc]⟩

theorem elsewhere_store (v : Volume) (i : UInt32) (pos : Nat) (bytes : List UInt8) :
    Elsewhere i v (v.store i pos bytes) :=
  ⟨fun _ _ => rfl, fun _ _ => rfl, fun _ _ => rfl, fun c hc => by simp [hc]⟩

theorem elsewhere_write (v : Volume) (i : UInt32) (pos : Nat) (bytes : List UInt8) :
    Elsewhere i v (v.write i pos bytes) := by
  unfold write
  split
  · exact (elsewhere_store v i pos bytes).trans (elsewhere_setNode _ i _)
  · exact elsewhere_store v i pos bytes

theorem Elsewhere.sameFile (h : Elsewhere i v w) (hd : d ≠ i) (hx : x ≠ i) :
    SameFile d name x v w := by
  refine ⟨?_, h.datas x hx, by rw [h.nodes x hx]⟩
  rw [named, named, h.dirs d hd]

theorem Elsewhere.leftAlone (h : Elsewhere i v w) (hd : d ≠ i) (hx : x ≠ i) :
    LeftAlone d name x v w := by
  intro huse huse'
  rw [h.inUse d hd] at huse
  rw [h.inUse x hx] at huse'
  exact ⟨⟨huse, huse'⟩, h.sameFile hd hx⟩

/-- An inode that is free now can be neither of them. -/
theorem Elsewhere.leftAlone_of_free (h : Elsewhere i v w) (hfree : w.inUse i = false) :
    LeftAlone d name x v w := by
  have hne : ∀ c, w.inUse c = true → c ≠ i := by
    rintro c hc rfl
    rw [hfree] at hc
    cases hc
  exact fun hd hx => h.leftAlone (hne d hd) (hne x hx) hd hx

theorem OnlyNode.leftAlone (h : OnlyNode p v w)
    (hsize : x = p → (w.node p).size = (v.node p).size) :
    LeftAlone d name x v w := by
  refine .of_same h.inUse ⟨named_congr h.dir d name, by rw [h.data], ?_⟩
  by_cases hx : x = p
  · rw [hx, hsize hx]
  · rw [h.nodes x hx]

theorem leftAlone_relinked (v : Volume) (p : UInt32) (links : UInt16) :
    LeftAlone d name x v (v.relinked p links) := by
  refine OnlyNode.leftAlone (p := p) ⟨rfl, rfl, rfl, fun i hi => ?_⟩ fun _ => ?_
  · exact relinked_node_of_ne v links hi
  · simp [relinked]

theorem named_insert {l₁ l₂ : List Dirent} (hv : v.dir i = l₁ ++ l₂)
    (hw : w.dir i = l₁ ++ e :: l₂) (hne : e.name ≠ name) : w.named i name = v.named i name := by
  rw [named, named, hv, hw, List.find?_append, List.find?_append,
    List.find?_cons_of_neg (by simpa using hne)]

theorem Entered.leftAlone (h : Entered i e v w) (hx : x ≠ i) (hname : d = i → e.name ≠ name) :
    LeftAlone d name x v w := by
  refine .of_same h.inUse ⟨?_, by rw [h.data], by rw [h.nodes x hx]⟩
  obtain ⟨l₁, l₂, hv, hw⟩ := h.dir
  by_cases hd : d = i
  · rw [hd]
    exact named_insert hv (by rw [hw, Function.update_self]) (hname hd)
  · rw [named, named, hw, Function.update_of_ne hd]

theorem find?_eraseP_of_not {q r : Dirent → Bool} (h : ∀ y, q y = true → r y = false)
    (es : List Dirent) : (es.eraseP q).find? r = es.find? r := by
  induction es with
  | nil => rfl
  | cons y es ih =>
    by_cases hy : q y = true
    · rw [List.eraseP_cons_of_pos hy, List.find?_cons_of_neg (by simp [h y hy])]
    · rw [List.eraseP_cons_of_neg hy, List.find?_cons, List.find?_cons, ih]

theorem find?_reparent (hname : ¬ IsDots name) (es : List Dirent) :
    (reparent p es).find? (fun y => y.name = name) = es.find? fun y => y.name = name := by
  have hne : dotdot ≠ name := fun heq => hname (.inr heq.symm)
  induction es with
  | nil => rfl
  | cons y es ih =>
    unfold reparent
    by_cases hy : y.name = dotdot
    · rw [if_pos hy, List.find?_cons_of_neg (by simp [hy, hne])]
      split
      · rfl
      · rw [List.find?_cons_of_neg (by simp [hy, hne])]
    · rw [if_neg hy, List.find?_cons, List.find?_cons, ih]

theorem leftAlone_unlinked (v : Volume) {old : List UInt8} (hname : d = i → old ≠ name) :
    LeftAlone d name x v (v.unlinked i old p) := by
  refine .of_same rfl ⟨?_, rfl, rfl⟩
  by_cases hd : d = i
  · rw [hd, named, named, unlinked_dir_self]
    refine congrArg _ (find?_eraseP_of_not (fun y hy => ?_) _)
    exact decide_eq_false fun hyn => hname hd ((of_decide_eq_true hy).1.symm.trans hyn)
  · rw [named, named, unlinked_dir_of_ne hd]

theorem leftAlone_reparent (v : Volume) (hname : ¬ IsDots name) :
    LeftAlone d name x v (v.setDir i (reparent p (v.dir i))) := by
  refine .of_same rfl ⟨?_, rfl, rfl⟩
  by_cases hd : d = i
  · rw [hd, named, named, setDir_dir, Function.update_self]
    exact congrArg _ (find?_reparent hname _)
  · rw [named, named, setDir_dir, Function.update_of_ne hd]

end Relations

/-! ## Calls on names -/

/-- The volume is one in which nothing was touched since `v`. -/
def View.LeftAlone (V : View σ) (d : UInt32) (name : List UInt8) (x : UInt32) (v : Volume) (s : σ) :
    Prop :=
  Ext.LeftAlone d name x v (V.volume s)

section Calls

variable {fs : Ext2fs σ} {V : View σ} {v v₀ : Volume} {d x i p : UInt32} {name : List UInt8}
  {ε α : Type} {y : EStateM ε σ α}

theorem View.Is.leftAlone {s : σ} (h : V.Is v s) : V.LeftAlone d name x v s := by
  unfold View.LeftAlone
  rw [h.eq]
  exact .refl v

/-- A call that leaves them alone in any volume does so in one where they are so. -/
theorem keeps_leftAlone (h : ∀ v, Spec (V.Is v) y (fun _ => V.LeftAlone d name x v)
    fun _ => V.LeftAlone d name x v) : Keeps (V.LeftAlone d name x v₀) y := by
  intro s hs
  exact Spec.conseq (h (V.volume s)) (fun _ _ hnext => LeftAlone.trans hs hnext)
    (fun _ _ hnext => LeftAlone.trans hs hnext) s rfl

theorem spec_leftAlone (h : Keeps (V.LeftAlone d name x v) y) :
    Spec (V.Is v) y (fun _ => V.LeftAlone d name x v) fun _ => V.LeftAlone d name x v :=
  fun s hs => h s hs.leftAlone

/-- What follows the punch. -/
theorem markFree_leftAlone (hL : Lawful fs V) {w : Volume} {inode : Ext2Inode} (isdir : Bool)
    (h : Elsewhere i v w) :
    Spec (V.Is w) (do
        modify (fs.inodeAllocStats2 i (-1) isdir)
        orFail translateErrno (fs.writeInode i inode))
      (fun _ => V.LeftAlone d name x v) fun _ => V.LeftAlone d name x v := by
  have hfree : Elsewhere i v (w.setInUse i (0 < (-1 : Int))) :=
    h.trans (elsewhere_setInUse w i _)
  refine Spec.bind (Spec.modify fun s hs => hL.inodeAllocStats2 w i (-1) isdir s hs) fun _ => ?_
  refine Spec.orFail (Spec.conseq (hL.writeInode _ i inode) ?_ ?_) fun _ _ h => h
  · intro _ s hs
    unfold View.LeftAlone
    rw [hs.eq]
    exact (hfree.trans (elsewhere_setNode _ i _)).leftAlone_of_free (by simp)
  · intro _ s hs
    unfold View.LeftAlone
    rw [hs.eq]
    exact hfree.leftAlone_of_free (by simp)

theorem releaseInode_leftAlone (hL : Lawful fs V) (inode : Ext2Inode) (isdir : Bool) :
    Keeps (V.LeftAlone d name x v₀) (releaseInode fs i inode isdir) := by
  refine keeps_leftAlone fun v => ?_
  unfold releaseInode
  by_cases hvalid : fs.inodeHasValidBlocks2 inode = true
  · simp only [if_pos hvalid]
    refine Spec.bind_orFail (hL.punch v i inode) (fun _ _ hs => hs.leftAlone) fun inode' => ?_
    rintro s ⟨_, n, _, hs⟩
    exact markFree_leftAlone hL isdir ((elsewhere_setNode v i n).trans (elsewhere_clear _ i)) s hs
  · simp only [if_neg hvalid]
    exact markFree_leftAlone hL isdir (Elsewhere.refl i v)

theorem relink_leftAlone (hL : Lawful fs V) {c : UInt16 → Bool} {g : Ext2Inode → σ → Ext2Inode}
    {h : UInt16 → UInt16} (hg : Sets g h) {s : σ} (hs : V.LeftAlone d name x v₀ s) :
    V.LeftAlone d name x v₀ (relink fs p c g s) := by
  refine LeftAlone.trans hs ?_
  cases relink_cases (c := c) hL hg p s with
  | inl heq =>
    rw [heq]
    exact .refl _
  | inr heq =>
    rw [heq]
    exact leftAlone_relinked _ p _

theorem dropParentLink_leftAlone (hL : Lawful fs V) {s : σ} (hs : V.LeftAlone d name x v₀ s) :
    V.LeftAlone d name x v₀ (dropParentLink fs p s) := by
  by_cases hp : p = 0
  · rwa [dropParentLink, if_pos hp]
  · rw [dropParentLink_eq fs hp]
    exact relink_leftAlone (h := fun n => n - 1) hL (fun _ _ => rfl) hs

/-- An inode is written back with other links or times. -/
theorem writeInode_leftAlone (hL : Lawful fs V) {inode : Ext2Inode}
    (hsize : inode.iSize = (v.node i).size) :
    Spec (V.Is v) (orFail translateErrno (fs.writeInode i inode))
      (fun _ => V.LeftAlone d name x v) fun _ => V.LeftAlone d name x v := by
  refine Spec.orFail (Spec.conseq (hL.writeInode v i inode) ?_ fun _ _ hs => hs.leftAlone)
    fun _ _ h => h
  intro _ s hs
  unfold View.LeftAlone
  rw [hs.eq]
  refine OnlyNode.leftAlone (p := i) ⟨rfl, rfl, rfl, fun c hc => ?_⟩ fun _ => ?_
  · simp [hc]
  · simp [Ext2Inode.node, hsize]

/-- Whatever inode loses an entry, the others do not. -/
theorem extAfterUnlink_leftAlone (hL : Lawful fs V) (i : UInt32) (kill : Bool) (p : UInt32) :
    Keeps (V.LeftAlone d name x v₀) (extAfterUnlink fs i kill p) := by
  refine keeps_leftAlone fun v => ?_
  unfold extAfterUnlink
  refine Spec.bind_orFail (hL.readInode v i) (fun _ _ hs => hs.leftAlone) fun inode => ?_
  refine Spec.assume fun hnode => ?_
  have hsize : inode.iSize = (v.node i).size := congrArg Node.size hnode
  refine Spec.bind (Q := fun _ => V.Is v) (fun s hs => hs) fun s₀ => ?_
  by_cases hkill : kill = true
  · simp only [hkill, not_true_eq_false, if_false]
    by_cases hdir : LINUX_S_ISDIR inode.iMode = true
    · rw [if_pos hdir]
      refine spec_leftAlone (Keeps.bind (Keeps.modify fun s hs => ?_) fun _ => ?_)
      · exact dropParentLink_leftAlone hL hs
      · exact releaseInode_leftAlone hL _ true
    · rw [if_neg hdir]
      by_cases h0 : inode.iLinksCount = 0
      · rw [if_pos h0]
        exact Spec.pure fun _ hs => hs.leftAlone
      · rw [if_neg h0]
        by_cases h1 : inode.iLinksCount - 1 = 0
        · rw [if_pos h1]
          exact spec_leftAlone (releaseInode_leftAlone hL _ false)
        · rw [if_neg h1]
          exact writeInode_leftAlone hL hsize
  · simp only [hkill, Bool.false_eq_true, not_false_eq_true, if_true]
    exact writeInode_leftAlone hL hsize

theorem unlink_leftAlone (hL : Lawful fs V) {old : List UInt8} (hname : d = p → old ≠ name)
    (i : UInt32) : Keeps (V.LeftAlone d name x v₀) (fs.unlink p old i) := by
  refine keeps_leftAlone fun v => Spec.conseq (hL.unlink v p old i) ?_ fun _ _ hs => hs.leftAlone
  rintro _ s ⟨_, hs⟩
  unfold View.LeftAlone
  rw [hs.eq]
  exact leftAlone_unlinked v hname

theorem linkExpanding_leftAlone (hL : Lawful fs V) {new : List UInt8} (hx : x ≠ p)
    (hname : d = p → new ≠ name) (i : UInt32) (t : UInt8) :
    Keeps (V.LeftAlone d name x v₀) (linkExpanding fs p new i t) := by
  refine keeps_leftAlone fun v => Spec.conseq (linkExpanding_enters hL v p new i t) ?_ ?_
  · intro _ s hs
    exact hs.leftAlone hx hname
  · intro _ s hs
    exact hs.onlyNode.leftAlone fun heq => absurd heq hx

theorem unlinkTarget_leftAlone (hL : Lawful fs V) (dirIno hint : UInt64) (old : List UInt8) :
    Keeps (V.LeftAlone d name x v₀) (unlinkTarget fs dirIno old hint) := by
  refine keeps_leftAlone fun v => Spec.conseq (unlinkTarget_spec hL v dirIno hint old) ?_ ?_
  · exact fun _ _ hs => hs.leftAlone
  · exact fun _ _ hs => hs.2.leftAlone

theorem extfskUnlink_leftAlone (hL : Lawful fs V) {dirIno : UInt64} {old : List UInt8}
    (hname : d = dirIno.toUInt32 → old ≠ name) (hint : UInt64) :
    Keeps (V.LeftAlone d name x v₀) (extfskUnlink fs dirIno old hint) := by
  refine (unlinkTarget_leftAlone hL dirIno hint old).bind fun i => ?_
  refine ((unlink_leftAlone hL hname i).orFail translateErrno).bind fun _ => ?_
  exact extAfterUnlink_leftAlone hL i true dirIno.toUInt32

theorem extfskLookup_leftAlone (hL : Lawful fs V) (dirIno : UInt64) (old : List UInt8) :
    Keeps (V.LeftAlone d name x v₀) (extfskLookup fs dirIno old) := by
  refine keeps_leftAlone fun v => Spec.conseq (extfskLookup_spec hL v dirIno old) ?_ ?_
  · exact fun _ _ hs => hs.leftAlone
  · exact fun _ _ hs => hs.2.leftAlone

section Rename

variable {oldDir newDir : UInt64} {oldName newName : List UInt8}

theorem removeExisting_leftAlone (hL : Lawful fs V) (hnew : d = newDir.toUInt32 → newName ≠ name) :
    Keeps (V.LeftAlone d name x v₀) (removeExisting fs newDir newName) := by
  refine (extfskLookup_leftAlone hL newDir newName).attempt.bind fun r => ?_
  cases r with
  | ok existing => exact extfskUnlink_leftAlone hL hnew existing
  | error e => exact Keeps.pure ()

theorem renameFile_leftAlone (hL : Lawful fs V) (hx : x ≠ newDir.toUInt32)
    (hold : d = oldDir.toUInt32 → oldName ≠ name) (hnew : d = newDir.toUInt32 → newName ≠ name) :
    Keeps (V.LeftAlone d name x v₀) (renameFile fs oldDir oldName newDir newName i) := by
  refine (removeExisting_leftAlone hL hnew).bind fun _ => ?_
  refine ((linkExpanding_leftAlone hL hx hnew i _).orFail translateErrno).bind fun _ => ?_
  refine ((unlink_leftAlone hL hold i).orFail translateErrno).bind fun _ => ?_
  exact extAfterUnlink_leftAlone hL i false 0

theorem renameDir_leftAlone (hL : Lawful fs V) (hE : LawfulEdit fs V) (hx : x ≠ newDir.toUInt32)
    (hdots : ¬ IsDots name) (hold : d = oldDir.toUInt32 → oldName ≠ name)
    (hnew : d = newDir.toUInt32 → newName ≠ name) :
    Keeps (V.LeftAlone d name x v₀) (renameDir fs oldDir oldName newDir newName i) := by
  have hlink : Keeps (V.LeftAlone d name x v₀) (fs.link newDir.toUInt32 newName i EXT2_FT_DIR) := by
    refine keeps_leftAlone fun v => Spec.conseq (hL.link v newDir.toUInt32 newName i _) ?_
      fun _ _ hs => hs.leftAlone
    rintro _ s ⟨l₁, l₂, hd, hs⟩
    unfold View.LeftAlone
    rw [hs.eq]
    exact ((Resized.refl _ v).entered hd).leftAlone hx hnew
  have hedit : Keeps (V.LeftAlone d name x v₀) (rewriteDotdot fs i newDir.toUInt32) := by
    refine keeps_leftAlone fun v => Spec.conseq (rewriteDotdot_spec hE v i newDir.toUInt32) ?_
      fun _ _ hs => hs.leftAlone
    intro _ s hs
    unfold View.LeftAlone
    rw [hs.eq]
    exact leftAlone_reparent v hdots
  refine (hlink.orFail translateErrno).bind fun _ => ?_
  refine ((unlink_leftAlone hL hold i).orFail translateErrno).bind fun _ => ?_
  refine Keeps.ite (fun _ => Keeps.pure ()) fun _ => ?_
  refine (hedit.orFail translateErrno).bind fun _ => ?_
  refine (Keeps.modify fun s hs => ?_).bind fun _ => Keeps.modify fun s hs => ?_
  · rw [addParentLink_eq]
    exact relink_leftAlone (h := fun n => n + 1) hL (fun _ _ => rfl) hs
  · rw [removeParentLink_eq]
    exact relink_leftAlone (h := fun n => n - 1) hL (fun _ _ => rfl) hs

theorem extfskRename_leftAlone (hL : Lawful fs V) (hE : LawfulEdit fs V)
    (hx : x ≠ newDir.toUInt32) (hdots : ¬ IsDots name) (hold : d = oldDir.toUInt32 → oldName ≠ name)
    (hnew : d = newDir.toUInt32 → newName ≠ name) :
    Keeps (V.LeftAlone d name x v₀) (extfskRename fs oldDir oldName newDir newName) := by
  refine (extfskLookup_leftAlone hL oldDir oldName).bind fun i => ?_
  refine Keeps.bind (Keeps.orFail (keeps_leftAlone fun v => ?_) translateErrno) fun inode => ?_
  · exact Spec.conseq (hL.readInode v i.toUInt32) (fun _ _ hs => hs.2.leftAlone)
      fun _ _ hs => hs.leftAlone
  · refine Keeps.ite (fun _ => ?_) fun _ => ?_
    · exact renameDir_leftAlone hL hE hx hdots hold hnew
    · exact renameFile_leftAlone hL hx hold hnew

end Rename

end Calls

/-! ## Calls that make something -/

/-- Punching changes one inode, and making a directory or a symbolic link does not change what
another inode in use holds. -/
structure Confined (fs : Ext2fsNew σ) (V : View σ) : Prop where
  punch : ∀ v ino inode start, Spec (V.Is v) (fs.punch ino inode start (-1))
    (fun _ s => Elsewhere ino v (V.volume s)) fun _ s => Elsewhere ino v (V.volume s)
  mkdir : ∀ v d name, Spec (V.Is v) (fs.mkdir d 0 name)
    (fun _ s => ∀ i, i ≠ d → v.inUse i = true → (V.volume s).data i = v.data i) fun _ _ => True
  symlink : ∀ v d name target, Spec (V.Is v) (fs.symlink d 0 name target)
    (fun _ s => ∀ i, i ≠ d → v.inUse i = true → (V.volume s).data i = v.data i) fun _ _ => True

section Making

variable {fs : Ext2fsNew σ} {V : View σ} {v w : Volume} {d x p child : UInt32}
  {name new : List UInt8}

theorem ne_of_fresh (hfree : v.inUse child = false) (huse : v.inUse x = true) : x ≠ child := by
  rintro rfl
  rw [hfree] at huse
  cases huse

theorem Made.leftAlone (h : Made p new child v w) (hd : v.inUse d = true) (hx : v.inUse x = true)
    (hxp : x ≠ p) (hname : d = p → new ≠ name) (hdata : w.data x = v.data x) :
    LeftAlone d name x v w := by
  refine fun _ _ => ⟨⟨hd, hx⟩, ?_, hdata, by rw [h.nodes x hxp (ne_of_fresh h.fresh hx)]⟩
  by_cases hdp : d = p
  · obtain ⟨l₁, l₂, t, hv, hw⟩ := h.entry
    rw [hdp]
    exact named_insert hv hw (hname hdp)
  · rw [named, named, h.dirs d hdp (ne_of_fresh h.fresh hd)]

theorem createFile_leftAlone (hL : LawfulNew fs V) (hd : v.inUse d = true) (hx : v.inUse x = true)
    (hxp : x ≠ p) (hname : d = p → new ≠ name) (mode uid gid : UInt32) :
    Spec (V.Is v) (createFile fs p new mode uid gid) (fun _ => V.LeftAlone d name x v)
      fun _ => V.LeftAlone d name x v := by
  unfold createFile
  refine Spec.bind_orFail (hL.newInode v p mode) (fun _ _ hs => hs.leftAlone) fun child => ?_
  refine Spec.assume fun hchild => ?_
  refine Spec.bind_orFail (linkExpanding_enters hL.lawful v p new child EXT2_FT_REG_FILE) ?_ ?_
  · exact fun _ _ hs => hs.onlyNode.leftAlone fun heq => absurd heq hxp
  · intro _ s hs
    have hlinked : LeftAlone d name x v (V.volume s) := hs.leftAlone hxp hname
    refine Spec.conseq (finishFile_spec hL (V.volume s) child mode uid gid) ?_ ?_ s rfl
    · rintro _ s' ⟨_, hs'⟩
      refine hlinked.trans ?_
      rw [hs'.eq]
      exact ((elsewhere_setNode _ child _).trans (elsewhere_setInUse _ child true)).leftAlone
        (ne_of_fresh hchild.1 hd) (ne_of_fresh hchild.1 hx)
    · intro _ s' hs'
      unfold View.LeftAlone
      rwa [hs'.eq]

theorem lookupMade_leftAlone (hL : LawfulNew fs V) (p : UInt32) (new : List UInt8) :
    Keeps (V.LeftAlone d name x v) (lookupMade fs p new) :=
  keeps_leftAlone fun v => Spec.conseq (lookupMade_same hL v p new) (fun _ _ hs => hs.leftAlone)
    fun _ _ hs => hs.leftAlone

/-- A call of the library that makes an inode with its entry, and what follows it. -/
theorem make_leftAlone {y : EStateM Errcode σ Unit} (hL : LawfulNew fs V) (hd : v.inUse d = true)
    (hx : v.inUse x = true) (hxp : x ≠ p) (hname : d = p → new ≠ name)
    (hmade : Spec (V.Is v) y (fun _ s => ∃ child, Made p new child v (V.volume s)) fun _ => V.Is v)
    (hdata : Spec (V.Is v) y
      (fun _ s => ∀ i, i ≠ p → v.inUse i = true → (V.volume s).data i = v.data i) fun _ _ => True) :
    Spec (V.Is v) (orFail translateErrno y >>= fun _ => lookupMade fs p new)
      (fun _ => V.LeftAlone d name x v) fun _ => V.LeftAlone d name x v := by
  have hy : Spec (V.Is v) y (fun _ => V.LeftAlone d name x v) fun _ => V.LeftAlone d name x v := by
    intro s hs
    have hm := hmade s hs
    have hk := hdata s hs
    cases hrun : y s with
    | ok _ s' =>
      rw [hrun] at hm hk
      obtain ⟨child, hm⟩ := hm
      exact hm.leftAlone hd hx hxp hname (hk x hxp hx)
    | error _ s' =>
      rw [hrun] at hm
      exact hm.leftAlone
  exact Spec.bind_orFail hy (fun _ _ h => h) fun _ => lookupMade_leftAlone hL p new

end Making

/-! ## Calls on the contents of a file -/

section Contents

variable {fs : Ext2fsNew σ} {V : View σ} {v : Volume} {i : UInt32}

theorem View.Is.elsewhere {s : σ} (h : V.Is v s) : Elsewhere i v (V.volume s) := by
  rw [h.eq]
  exact Elsewhere.refl i v

theorem fileWriteFlush_elsewhere {fs : Ext2fs σ} (hL : Lawful fs V) {f : Nat} {pos : Nat}
    {buf : List UInt8} {n : UInt32} (hn : n.toNat ≤ buf.length) (hpos : pos + n.toNat < 2 ^ 64) :
    Spec (V.At v f i pos) (fileWriteFlush fs f buf n) (fun _ s => Elsewhere i v (V.volume s))
      fun _ s => Elsewhere i v (V.volume s) := by
  unfold fileWriteFlush
  refine Spec.bind (Spec.conseq_error (hL.fileWrite v f i pos buf n hn hpos) ?_) fun m => ?_
  · rintro _ s ⟨k, size, _, hs⟩
    rw [hs.eq]
    exact (elsewhere_store v i pos _).trans (elsewhere_setNode _ i _)
  · refine Spec.assume fun _ => ?_
    have hwrite := elsewhere_write v i pos (buf.take n.toNat)
    refine Spec.bind (Spec.conseq_error (hL.fileFlush (v.write i pos (buf.take n.toNat)) f) ?_) ?_
    · intro _ s hs
      rwa [hs.eq]
    · exact fun _ => Spec.pure fun s hs => by rwa [hs.eq]

/-- The inode is read, and written with another size. -/
theorem setSize_elsewhere {fs : Ext2fs σ} (hL : Lawful fs V) {w : Volume} (h : Elsewhere i v w)
    {f g : Errcode → Int} (inode : Ext2Inode) (size : UInt64) (e : Ext2Inode → UInt32 → Ext2Inode) :
    Spec (V.Is w) (do
      let inode ← orFail f (fs.inodeSizeSet inode size)
      let now := fs.time (← get)
      orFail g (fs.writeInode i (e inode now)))
      (fun _ s => Elsewhere i v (V.volume s)) fun _ s => Elsewhere i v (V.volume s) := by
  have hsame : ∀ s, V.Is w s → Elsewhere i v (V.volume s) := fun s hs => by rwa [hs.eq]
  refine Spec.bind_orFail (hL.inodeSizeSet w inode size) (fun _ => hsame) fun inode' => ?_
  refine Spec.assume fun _ => Spec.bind (Q := fun _ => V.Is w) (fun s hs => hs) fun s₀ => ?_
  refine Spec.orFail (Spec.conseq (hL.writeInode w i _) ?_ fun _ => hsame) fun _ _ h => h
  intro _ s hs
  rw [hs.eq]
  exact h.trans (elsewhere_setNode w i _)

theorem extUpdateInodeSize_elsewhere {fs : Ext2fs σ} (hL : Lawful fs V) {w : Volume}
    (h : Elsewhere i v w) (size : UInt64) :
    Spec (V.Is w) (extUpdateInodeSize fs i size) (fun _ s => Elsewhere i v (V.volume s))
      fun _ s => Elsewhere i v (V.volume s) := by
  unfold extUpdateInodeSize
  refine Spec.bind_orFail (hL.readInode w i) (fun _ s hs => by rwa [hs.eq]) fun inode => ?_
  refine Spec.assume fun _ => ?_
  exact setSize_elsewhere hL h inode size fun inode now =>
    { inode with iMtime := now, iCtime := now, iAtime := now }

theorem extfskWrite_elsewhere {fs : Ext2fs σ} (hL : Lawful fs V) (ino offset : UInt64)
    (buf : List UInt8) :
    Spec (V.Is v) (extfskWrite fs ino offset buf)
      (fun _ s => Elsewhere ino.toUInt32 v (V.volume s))
      fun _ s => Elsewhere ino.toUInt32 v (V.volume s) := by
  have hn : (UInt32.ofNat buf.length).toNat ≤ buf.length := by
    rw [UInt32.toNat_ofNat']
    exact Nat.mod_le _ _
  have hpos : offset.toUInt32.toNat + (UInt32.ofNat buf.length).toNat < 2 ^ 64 := by
    have hoff := offset.toUInt32.toNat_lt
    have hlen := (UInt32.ofNat buf.length).toNat_lt
    omega
  unfold extfskWrite
  refine Spec.bind_orFail (hL.fileOpen v ino.toUInt32 true) (fun _ _ hs => hs.elsewhere) fun f => ?_
  have hseek := hL.fileLseek v f ino.toUInt32 0 offset.toUInt32
  refine Spec.bind_attempt hseek (fun _ => ?_) fun _ => ?_
  · refine Spec.bind_attempt (fileWriteFlush_elsewhere hL hn hpos) (fun n => ?_) fun _ => ?_
    · refine Spec.close (Elsewhere ino.toUInt32 v) hL fun _ => ?_
      refine Spec.bind (Q := fun _ s => Elsewhere ino.toUInt32 v (V.volume s)) ?_ fun _ => ?_
      · exact fun s hs => extUpdateInodeSize_elsewhere hL hs (offset + n.toUInt64) s rfl
      · exact Spec.pure fun _ hs => hs
    · exact Spec.close (Elsewhere ino.toUInt32 v) hL fun _ => Spec.throw fun _ hs => hs
  · refine Spec.close (· = v) hL fun _ => Spec.throw fun s hs => ?_
    exact View.Is.elsewhere hs

theorem extfskTruncate_elsewhere (hL : Lawful fs.toExt2fs V) (hC : Confined fs V)
    (blocksize : UInt32) (ino newsize : UInt64) :
    Spec (V.Is v) (extfskTruncate fs.toExt2fs blocksize ino newsize)
      (fun _ s => Elsewhere ino.toUInt32 v (V.volume s))
      fun _ s => Elsewhere ino.toUInt32 v (V.volume s) := by
  unfold extfskTruncate
  refine Spec.bind_orFail (hL.readInode v ino.toUInt32) (fun _ _ hs => hs.elsewhere) fun inode => ?_
  refine Spec.assume fun _ => ?_
  simp only
  by_cases hcut : newsize < inode.iSize ∧ fs.inodeHasValidBlocks2 inode = true
  · rw [if_pos hcut]
    refine Spec.bind_orFail (hC.punch v ino.toUInt32 inode _) (fun _ _ h => h) fun inode' => ?_
    exact fun s hs => setSize_elsewhere hL hs inode' newsize
      (fun inode now => { inode with iMtime := now, iCtime := now }) s rfl
  · rw [if_neg hcut]
    exact setSize_elsewhere hL (Elsewhere.refl _ v) inode newsize
      fun inode now => { inode with iMtime := now, iCtime := now }

end Contents

/-! ## Runs -/

inductive Action where
  | names (r : Request)
  | contents (c : DataRequest)

def act (fs : Ext2fsNew σ) (blocksize : UInt32) (s : σ) : Action → σ
  | .names r => serve fs s r
  | .contents c => (dataStep fs.toExt2fs blocksize s c).1

/-- The call is to make, remove or move an entry of that name. -/
def Request.Mentions (d : UInt32) (name : List UInt8) : Request → Prop
  | .create dirIno new _ _ _ _ => d = dirIno.toUInt32 ∧ new = name
  | .symlink dirIno new _ => d = dirIno.toUInt32 ∧ new = name
  | .unlink dirIno old _ => d = dirIno.toUInt32 ∧ old = name
  | .rename oldDir old newDir new =>
    (d = oldDir.toUInt32 ∧ old = name) ∨ (d = newDir.toUInt32 ∧ new = name)

/-- The call takes `x` for a directory that is to get an entry. -/
def Request.Fills (x : UInt32) : Request → Prop
  | .create dirIno _ _ _ _ _ => x = dirIno.toUInt32
  | .symlink dirIno _ _ => x = dirIno.toUInt32
  | .unlink _ _ _ => False
  | .rename _ _ newDir _ => x = newDir.toUInt32

instance (d : UInt32) (name : List UInt8) : (r : Request) → Decidable (r.Mentions d name)
  | .create .. => inferInstanceAs (Decidable (_ ∧ _))
  | .symlink .. => inferInstanceAs (Decidable (_ ∧ _))
  | .unlink .. => inferInstanceAs (Decidable (_ ∧ _))
  | .rename .. => inferInstanceAs (Decidable (_ ∨ _))

instance (x : UInt32) : (r : Request) → Decidable (r.Fills x)
  | .create .. => inferInstanceAs (Decidable (_ = _))
  | .symlink .. => inferInstanceAs (Decidable (_ = _))
  | .unlink .. => inferInstanceAs (Decidable False)
  | .rename .. => inferInstanceAs (Decidable (_ = _))

/-- The inode whose contents the call changes. -/
def DataRequest.target : DataRequest → Option UInt32
  | .read _ _ _ => none
  | .write ino _ _ => some ino
  | .truncate ino _ => some ino

/-- The call is about the name, the directory's own contents, or the file. -/
def Action.Concerns (d : UInt32) (name : List UInt8) (x : UInt32) : Action → Prop
  | .names r => r.Mentions d name ∨ r.Fills x
  | .contents c => c.target = some d ∨ c.target = some x

instance (d : UInt32) (name : List UInt8) (x : UInt32) :
    (a : Action) → Decidable (a.Concerns d name x)
  | .names _ => inferInstanceAs (Decidable (_ ∨ _))
  | .contents _ => inferInstanceAs (Decidable (_ ∨ _))

section Runs

variable {fs : Ext2fsNew σ} {V : View σ} {blocksize d x : UInt32} {name : List UInt8} {s : σ}

theorem serve_leftAlone (hL : LawfulNew fs V) (hE : LawfulEdit fs.toExt2fs V) (hC : Confined fs V)
    (hdots : ¬ IsDots name) (hd : (V.volume s).inUse d = true) (hx : (V.volume s).inUse x = true)
    {r : Request} (hr : ¬ r.Mentions d name) (hfills : ¬ r.Fills x) :
    LeftAlone d name x (V.volume s) (V.volume (serve fs s r)) := by
  have hrun : Spec (V.Is (V.volume s)) (answer fs r) (fun _ => V.LeftAlone d name x (V.volume s))
      fun _ => V.LeftAlone d name x (V.volume s) := by
    cases r with
    | create dirIno new type mode uid gid =>
      have hname : d = dirIno.toUInt32 → new ≠ name := fun hd hn => hr ⟨hd, hn⟩
      refine Spec.bind ?_ fun _ => Spec.pure fun _ h => h
      refine Spec.guard (fun _ _ hs => hs.leftAlone) fun _ => ?_
      by_cases htype : type = 'd'
      · rw [if_pos htype]
        exact make_leftAlone hL hd hx hfills hname
          ((hL.mkdir _ _ new).conseq_ok fun _ _ ⟨child, h⟩ => ⟨child, h.toMade⟩) (hC.mkdir _ _ new)
      · rw [if_neg htype]
        exact createFile_leftAlone hL hd hx hfills hname _ uid gid
    | symlink dirIno new target =>
      have hname : d = dirIno.toUInt32 → new ≠ name := fun hd hn => hr ⟨hd, hn⟩
      refine Spec.bind ?_ fun _ => Spec.pure fun _ h => h
      refine Spec.guard (fun _ _ hs => hs.leftAlone) fun _ => ?_
      exact make_leftAlone hL hd hx hfills hname
        ((hL.symlink _ _ new target).conseq_ok fun _ _ ⟨child, h⟩ => ⟨child, h.toMade⟩)
        (hC.symlink _ _ new target)
    | unlink dirIno old inoHint =>
      exact spec_leftAlone (extfskUnlink_leftAlone hL.lawful (fun hd hn => hr ⟨hd, hn⟩) inoHint)
    | rename oldDir old newDir new =>
      exact spec_leftAlone (extfskRename_leftAlone hL.lawful hE hfills hdots
        (fun hd hn => hr (.inl ⟨hd, hn⟩)) fun hd hn => hr (.inr ⟨hd, hn⟩))
  exact hrun.final rfl

theorem dataStep_leftAlone (hL : LawfulNew fs V) (hC : Confined fs V) {c : DataRequest}
    (hd : c.target ≠ some d) (hx : c.target ≠ some x) :
    LeftAlone d name x (V.volume s) (V.volume (dataStep fs.toExt2fs blocksize s c).1) := by
  have hne : ∀ ino i : UInt32, some ino ≠ some i → i ≠ ino := fun _ _ h heq => h (heq ▸ rfl)
  cases c with
  | read ino offset len =>
    have hspec := extfskRead_spec hL.lawful (V.volume s) ino.toUInt64 offset len
    cases hrun : extfskRead fs.toExt2fs ino.toUInt64 offset len s with
    | ok bs s' =>
      simp only [dataStep, hrun]
      exact View.Is.leftAlone (hspec.ok rfl hrun).2
    | error e s' =>
      simp only [dataStep, hrun]
      exact View.Is.leftAlone (hspec.error rfl hrun)
  | write ino offset buf =>
    have hspec := extfskWrite_elsewhere (v := V.volume s) hL.lawful ino.toUInt64 offset buf
    rw [UInt32.toUInt32_toUInt64] at hspec
    cases hrun : extfskWrite fs.toExt2fs ino.toUInt64 offset buf s with
    | ok n s' =>
      simp only [dataStep, hrun]
      exact (hspec.ok rfl hrun).leftAlone (hne ino d hd) (hne ino x hx)
    | error e s' =>
      simp only [dataStep, hrun]
      exact (hspec.error rfl hrun).leftAlone (hne ino d hd) (hne ino x hx)
  | truncate ino newsize =>
    have hspec := extfskTruncate_elsewhere (v := V.volume s) hL.lawful hC blocksize ino.toUInt64
      newsize
    rw [UInt32.toUInt32_toUInt64] at hspec
    cases hrun : extfskTruncate fs.toExt2fs blocksize ino.toUInt64 newsize s with
    | ok n s' =>
      simp only [dataStep, hrun]
      exact (hspec.ok rfl hrun).leftAlone (hne ino d hd) (hne ino x hx)
    | error e s' =>
      simp only [dataStep, hrun]
      exact (hspec.error rfl hrun).leftAlone (hne ino d hd) (hne ino x hx)

theorem act_leftAlone (hL : LawfulNew fs V) (hE : LawfulEdit fs.toExt2fs V) (hC : Confined fs V)
    (hdots : ¬ IsDots name) (hd : (V.volume s).inUse d = true) (hx : (V.volume s).inUse x = true)
    {a : Action} (ha : ¬ a.Concerns d name x) :
    LeftAlone d name x (V.volume s) (V.volume (act fs blocksize s a)) := by
  cases a with
  | names r =>
    exact serve_leftAlone hL hE hC hdots hd hx (fun h => ha (.inl h)) fun h => ha (.inr h)
  | contents c => exact dataStep_leftAlone hL hC (fun h => ha (.inl h)) fun h => ha (.inr h)

/-- A run of any calls, each of which may fail at any point, that are not about the name `name` in
`d` nor about the file `x`, leaves both alone: the name stands for what it stood for, and the file
reads as before. -/
theorem untouched_files_stay (hL : LawfulNew fs V) (hE : LawfulEdit fs.toExt2fs V)
    (hC : Confined fs V) (hdots : ¬ IsDots name) {actions : List Action}
    (hrun : Along (act fs blocksize) (fun s a => ((V.volume s).inUse d = true ∧
      (V.volume s).inUse x = true) ∧ ¬ a.Concerns d name x) s actions)
    (hd : (V.volume (actions.foldl (act fs blocksize) s)).inUse d = true)
    (hx : (V.volume (actions.foldl (act fs blocksize) s)).inUse x = true) :
    (V.volume (actions.foldl (act fs blocksize) s)).named d name = (V.volume s).named d name ∧
      ∀ pos len, (V.volume (actions.foldl (act fs blocksize) s)).bytesAt x pos len =
        (V.volume s).bytesAt x pos len := by
  have hsame : V.LeftAlone d name x (V.volume s) (actions.foldl (act fs blocksize) s) := by
    have hstep : ∀ t a, V.LeftAlone d name x (V.volume s) t →
        (((V.volume t).inUse d = true ∧ (V.volume t).inUse x = true) ∧ ¬ a.Concerns d name x) →
        True ∧ V.LeftAlone d name x (V.volume s) (act fs blocksize t a) := by
      rintro t a ht ⟨⟨hd, hx⟩, ha⟩
      exact ⟨trivial, LeftAlone.trans ht (act_leftAlone hL hE hC hdots hd hx ha)⟩
    exact (along_of_inv (I := V.LeftAlone d name x (V.volume s)) hstep (LeftAlone.refl _) hrun).2
  obtain ⟨_, hfile⟩ := hsame hd hx
  refine ⟨hfile.named, fun pos len => ?_⟩
  rw [bytesAt, bytesAt, hfile.data, hfile.size]

end Runs

theorem refLibraryNew_confined : Confined refLibraryNew RefState.view where
  punch := by
    intro v ino inode start s hs
    rw [← show s.volume = v from hs]
    exact elsewhere_clear s.volume ino
  mkdir := fun v d name =>
    (make_spec (f := fun child v => v.madeDir d name child)
      (Q := fun w => ∀ i, i ≠ d → v.inUse i = true → w.data i = v.data i)
      fun _ _ _ _ _ _ => rfl).conseq_error fun _ _ _ => trivial
  symlink := fun v d name _ =>
    (make_spec (f := fun child v => v.madeSymlink d name child)
      (Q := fun w => ∀ i, i ≠ d → v.inUse i = true → w.data i = v.data i)
      fun _ _ _ _ _ _ => rfl).conseq_error fun _ _ _ => trivial

/-- Beside the file `a` the file `b` is renamed, written, cut and removed, and a new `b` is made. -/
def aroundA : List Action :=
  [.names (.rename 2 nameB 2 nameF), .contents (.write 13 1 [9, 9, 9, 9]),
    .contents (.truncate 13 2), .names (.create 2 nameB 'f' 0 0 0), .names (.unlink 2 nameF 13)]

theorem untouched_files_stay_around :
    (aroundA.foldl (act refLibraryNew 1024) twoFiles).volume.named 2 nameA = some 12 ∧
      ∀ pos len, (aroundA.foldl (act refLibraryNew 1024) twoFiles).volume.bytesAt 12 pos len =
        twoFiles.volume.bytesAt 12 pos len := by
  have hrun : Along (act refLibraryNew 1024) (fun s a => (s.volume.inUse 2 = true ∧
      s.volume.inUse 12 = true) ∧ ¬ a.Concerns 2 nameA 12) twoFiles aroundA :=
    ⟨⟨by decide, by decide⟩, ⟨by decide, by decide⟩, ⟨by decide, by decide⟩,
      ⟨by decide, by decide⟩, ⟨by decide, by decide⟩, trivial⟩
  exact untouched_files_stay (V := RefState.view) (s := twoFiles) refLibraryNew_lawful
    refLibraryNew_edit refLibraryNew_confined (by decide) hrun (by decide) (by decide)

end Ext
end Usbrw
