import Usbrw.Ext.Links

/-!
# Ext.Subdirs

Where directories are named, what their `..` says, and their link counts.

* `places`, `Holds` — the entries that name an inode, `.` and `..` aside, and where one is.
* `subdirs`, `up`   — the directories an entry of `d` names, and what `..` names in it.
* `WellFormed`      — a directory is named once, by the directory its `..` says, and has two links
  and one for each directory in it.
* `Sound`           — besides, no entry names a free inode, and the root is named at most once.
* `DirCall`         — directories are made, removed when empty, and moved.
* `subdirs_sound`   — runs of such calls keep the tree sound.
-/

namespace Usbrw
namespace Ext

open Call Run Tally Volume

variable {σ : Type}

/-- An entry for `i` other than `.` and `..`. -/
def Dirent.Places (i : UInt32) (e : Dirent) : Prop := e.inode = i ∧ ¬ IsDots e.name

instance (i : UInt32) : DecidablePred (Dirent.Places i) := by
  intro e
  unfold Dirent.Places
  infer_instance

namespace Volume

noncomputable def places (v : Volume) (i : UInt32) : Nat := tally v.held fun e => e.Places i

def Holds (v : Volume) (d i : UInt32) : Prop := ∃ e ∈ v.held d, e.Places i

/-- An entry, other than `.` and `..`, for an allocated directory. -/
def IsSubdir (v : Volume) (e : Dirent) : Prop := ¬ IsDots e.name ∧ v.Directory e.inode

instance (v : Volume) : DecidablePred v.IsSubdir := by
  intro e
  unfold IsSubdir
  infer_instance

def subdirs (v : Volume) (d : UInt32) : Nat := (v.held d).countP fun e => v.IsSubdir e

def up (v : Volume) (d : UInt32) : Option UInt32 := v.named d dotdot

structure WellFormed (v : Volume) : Prop where
  once : ∀ i, v.Directory i → i ≠ EXT2_ROOT_INO → v.places i = 1
  up : ∀ d i, v.Holds d i → v.Directory i → i ≠ EXT2_ROOT_INO → v.up i = some d
  links : ∀ d, v.Directory d → (v.node d).links.toNat = 2 + v.subdirs d

structure Sound (v : Volume) : Prop extends WellFormed v where
  allocated : ∀ d i, v.Holds d i → v.inUse i = true
  root : v.places EXT2_ROOT_INO ≤ 1

section Tree

variable {v w : Volume} {c d d' i p x : UInt32} {e : Dirent} {name : List UInt8}

theorem holds_iff_places : 0 < v.places i ↔ ∃ d, v.Holds d i := by
  unfold places
  rw [tally_pos_iff]
  simp [Holds]

theorem holds_iff : v.Holds d i ↔ 0 < (v.held d).countP fun e => e.Places i := by
  rw [List.countP_pos_iff]
  simp [Holds]

/-- Where a directory is named at most once, it is held by one directory only. -/
theorem holds_unique (h : v.places i ≤ 1) (hd : v.Holds d i) (hd' : v.Holds d' i) : d = d' := by
  obtain ⟨y, hy, hyp⟩ := hd
  obtain ⟨z, hz, hzp⟩ := hd'
  exact unique_of_tally_le_one h hy (decide_eq_true hyp) hz (decide_eq_true hzp)

/-- A sound directory that is named at all is named once. -/
theorem Sound.places_le (h : v.Sound) (hi : v.Directory i) : v.places i ≤ 1 := by
  by_cases hroot : i = EXT2_ROOT_INO
  · rw [hroot]
    exact h.root
  · exact Nat.le_of_eq (h.once i hi hroot)

theorem Sound.places_free (h : v.Sound) (hfree : v.inUse i = false) : v.places i = 0 := by
  by_contra hne
  obtain ⟨d, hd⟩ := holds_iff_places.mp (Nat.pos_of_ne_zero hne)
  exact absurd (h.allocated d i hd) (ne_true_of_eq_false hfree)

end Tree
end Volume

section Inserted

variable {v w : Volume} {c d i : UInt32} {e : Dirent}

theorem Inserted.countP (h : Inserted d e v w) (hd : v.Directory d) (q : Dirent → Bool)
    (c : UInt32) : (w.held c).countP q = (v.held c).countP q + if c = d ∧ q e then 1 else 0 := by
  by_cases hc : c = d
  · subst hc
    obtain ⟨l₁, l₂, hv, hw⟩ := h.held hd
    rw [hv, hw, List.countP_append, List.countP_append, List.countP_cons]
    simp only [true_and]
    omega
  · rw [h.held_of_ne hc]
    simp [hc]

theorem Inserted.places (h : Inserted d e v w) (hd : v.Directory d) (hdots : ¬ IsDots e.name)
    (i : UInt32) : w.places i = v.places i + if e.inode = i then 1 else 0 := by
  have htally := h.tally hd fun e => decide (e.Places i)
  simpa [Volume.places, Dirent.Places, hdots] using htally

theorem Inserted.holds (h : Inserted d e v w) (hd : v.Directory d) (hdots : ¬ IsDots e.name) :
    w.Holds c i ↔ v.Holds c i ∨ c = d ∧ e.inode = i := by
  rw [holds_iff, holds_iff, h.countP hd]
  by_cases hc : c = d ∧ e.inode = i
  · rw [if_pos ⟨hc.1, decide_eq_true ⟨hc.2, hdots⟩⟩]
    simp [hc]
  · rw [if_neg fun hq => hc ⟨hq.1, (of_decide_eq_true hq.2).1⟩]
    simp [hc]

theorem Inserted.subdirs (h : Inserted d e v w) (hd : v.Directory d) (hdots : ¬ IsDots e.name)
    (c : UInt32) : w.subdirs c = v.subdirs c + if c = d ∧ v.Directory e.inode then 1 else 0 := by
  have hpred : (fun y => decide (w.IsSubdir y)) = fun y => decide (v.IsSubdir y) := by
    funext y
    simp only [IsSubdir, h.directory]
  unfold Volume.subdirs
  rw [hpred, h.countP hd]
  simp [IsSubdir, hdots]

theorem Inserted.up (h : Inserted d e v w) (hdots : ¬ IsDots e.name) (c : UInt32) :
    w.up c = v.up c := by
  have hne : e.name ≠ dotdot := fun hname => hdots (Or.inr hname)
  unfold Volume.up named
  by_cases hc : c = d
  · subst hc
    obtain ⟨l₁, l₂, hv, hw⟩ := h.own
    rw [hv, hw, List.find?_append, List.find?_append, List.find?_cons_of_neg (by simp [hne])]
  · rw [h.dirs c hc]

end Inserted

/-! ## Entries of a directory that do not matter -/

/-- At most entries called `.` and `..` and link counts differ. -/
structure SameChildren (v w : Volume) : Prop where
  directory : ∀ c, w.Directory c ↔ v.Directory c
  inUse : w.inUse = v.inUse
  count : ∀ c (q : Dirent → Bool), (∀ e, IsDots e.name → q e = false) →
    (w.held c).countP q = (v.held c).countP q

section SameChildren

variable {v w : Volume} {c d i p x : UInt32}

theorem places_dots (i : UInt32) (e : Dirent) (h : IsDots e.name) : decide (e.Places i) = false :=
  decide_eq_false fun hp => hp.2 h

theorem SameChildren.places (h : SameChildren v w) (i : UInt32) : w.places i = v.places i :=
  tally_congr fun c => h.count c _ (places_dots i)

theorem SameChildren.holds (h : SameChildren v w) : w.Holds c i ↔ v.Holds c i := by
  rw [holds_iff, holds_iff, h.count c _ (places_dots i)]

theorem SameChildren.subdirs (h : SameChildren v w) (c : UInt32) : w.subdirs c = v.subdirs c := by
  have hpred : (fun y => decide (w.IsSubdir y)) = fun y => decide (v.IsSubdir y) := by
    funext y
    simp only [IsSubdir, h.directory]
  unfold Volume.subdirs
  rw [hpred]
  exact h.count c _ fun e hdots => decide_eq_false fun hsub => hsub.1 hdots

theorem sameChildren_relinked (v : Volume) (p : UInt32) (n : UInt16) :
    SameChildren v (v.relinked p n) := by
  have hdir : ∀ c, (v.relinked p n).Directory c ↔ v.Directory c := fun c =>
    directory_congr rfl ((sameShape_relinked v p n).mode c)
  refine ⟨hdir, rfl, ?_⟩
  intro c q _
  rw [held_congr (hdir c) fun _ => rfl]

theorem countP_reparent (p : UInt32) {q : Dirent → Bool}
    (hq : ∀ e : Dirent, IsDots e.name → q e = false) (es : List Dirent) :
    (reparent p es).countP q = es.countP q := by
  induction es with
  | nil => rfl
  | cons e es ih =>
    rw [reparent]
    by_cases hname : e.name = dotdot
    · have he : q e = false := hq e (Or.inr hname)
      have he' : q { e with inode := p } = false := hq _ (Or.inr hname)
      rw [if_pos hname]
      by_cases hp : p = 0
      · rw [if_pos hp, List.countP_cons, he]
        simp
      · rw [if_neg hp, List.countP_cons, List.countP_cons, he, he']
    · rw [if_neg hname, List.countP_cons, List.countP_cons, ih]

theorem sameChildren_reparent (v : Volume) (x p : UInt32) :
    SameChildren v (v.setDir x (reparent p (v.dir x))) := by
  have hdir : ∀ c, (v.setDir x (reparent p (v.dir x))).Directory c ↔ v.Directory c :=
    fun c => Iff.rfl
  refine ⟨hdir, rfl, ?_⟩
  intro c q hq
  by_cases hc : c = x
  · subst hc
    by_cases h : v.Directory c
    · rw [held_of_directory ((hdir c).mpr h), held_of_directory h, setDir_dir,
        Function.update_self, countP_reparent p hq]
    · rw [Volume.held, Volume.held, if_neg h, if_neg fun hdir' => h ((hdir c).mp hdir')]
  · rw [held_congr (hdir c) fun _ => by rw [setDir_dir, Function.update_of_ne hc]]

theorem find_reparent {es : List Dirent} (hp : p ≠ 0)
    (h : ∃ q, (es.find? fun e => e.name = dotdot).map Dirent.inode = some q) :
    ((reparent p es).find? fun e => e.name = dotdot).map Dirent.inode = some p := by
  induction es with
  | nil =>
    obtain ⟨q, hq⟩ := h
    cases hq
  | cons e es ih =>
    rw [reparent]
    by_cases hname : e.name = dotdot
    · simp [hname, hp]
    · rw [if_neg hname]
      simp only [List.find?_cons, hname, decide_false] at h ⊢
      exact ih h

end SameChildren

/-! ## A directory with nothing in it comes or goes -/

/-- The directory `x` of `v`, which holds nothing but `.` and `..`, is none of `w`. -/
structure DirGone (x : UInt32) (v w : Volume) : Prop where
  was : v.Directory x
  bare : ∀ e ∈ v.dir x, IsDots e.name
  directory : ∀ c, w.Directory c ↔ v.Directory c ∧ c ≠ x
  dirs : ∀ c, c ≠ x → w.dir c = v.dir c

section DirGone

variable {v w : Volume} {c i x : UInt32}

theorem DirGone.held (h : DirGone x v w) (hc : c ≠ x) : w.held c = v.held c :=
  held_congr ((h.directory c).trans (and_iff_left hc)) fun _ => h.dirs c hc

theorem DirGone.held_self (h : DirGone x v w) : w.held x = [] :=
  if_neg fun hx => ((h.directory x).mp hx).2 rfl

theorem DirGone.count_self (h : DirGone x v w) {q : Dirent → Bool}
    (hq : ∀ e, IsDots e.name → q e = false) : (v.held x).countP q = 0 := by
  rw [held_of_directory h.was, List.countP_eq_zero]
  intro e he
  rw [hq e (h.bare e he)]
  decide

theorem DirGone.places (h : DirGone x v w) (i : UInt32) : w.places i = v.places i := by
  have hswap := tally_swap (p := fun e : Dirent => decide (e.Places i)) fun c hc => h.held (c := c) hc
  rw [h.held_self, h.count_self (places_dots i)] at hswap
  simpa [Volume.places] using hswap

theorem DirGone.holds (h : DirGone x v w) : w.Holds c i ↔ v.Holds c i := by
  rw [holds_iff, holds_iff]
  by_cases hc : c = x
  · rw [hc, h.held_self, h.count_self (places_dots i)]
    rfl
  · rw [h.held hc]

theorem DirGone.subdirs (h : DirGone x v w) (hc : c ≠ x) :
    v.subdirs c = w.subdirs c + (v.held c).countP fun e => e.Places x := by
  unfold Volume.subdirs
  rw [h.held hc]
  refine countP_split ?_ ?_ _
  · intro e
    simp only [IsSubdir, Dirent.Places, h.directory]
    by_cases hx : e.inode = x
    · simp [hx, h.was]
    · by_cases hn : IsDots e.name <;> simp [hx, hn]
  · intro e hsub
    have hne := ((h.directory _).mp (of_decide_eq_true hsub).2).2
    exact decide_eq_false fun hp => hne hp.1

theorem DirGone.up (h : DirGone x v w) (hc : c ≠ x) : w.up c = v.up c := by
  unfold Volume.up named
  rw [h.dirs c hc]

end DirGone

/-! ## What the calls do to a sound tree -/

theorem toNat_succ {n : UInt16} (h : n.toNat < 65535) : (n + 1).toNat = n.toNat + 1 := by
  rw [UInt16.toNat_add, UInt16.toNat_one]
  omega

theorem toNat_pred {n : UInt16} (h : 0 < n.toNat) : (n - 1).toNat = n.toNat - 1 := by
  have hle : (1 : UInt16) ≤ n := by
    rw [UInt16.le_iff_toNat_le]
    exact h
  rw [UInt16.toNat_sub_of_le _ _ hle, UInt16.toNat_one]

section Sound

variable {v w : Volume} {c d i x p child : UInt32} {name : List UInt8}

/-- The entry of a new directory, without the directory. -/
def withoutChild (v w : Volume) (child : UInt32) : Volume :=
  (w.setInUse child false).setDir child (v.dir child)

theorem MadeDir.ne_zero (h : MadeDir d name child v w) : child ≠ 0 ∧ child ≠ EXT2_ROOT_INO := by
  have hle := h.unreserved
  constructor
  · rintro rfl
    exact absurd hle (by decide)
  · rintro rfl
    exact absurd hle (by decide)

theorem MadeDir.directory (h : MadeDir d name child v w) (hc : c ≠ child) :
    w.Directory c ↔ v.Directory c := by
  refine directory_congr ?_ ?_
  · rw [h.inUse, Function.update_of_ne hc]
  · by_cases hd : c = d
    · rw [hd, h.mode]
    · rw [h.nodes c hd hc]

theorem MadeDir.not_directory (h : MadeDir d name child v w) : ¬ v.Directory child := by
  intro hdir
  exact absurd hdir.2.1 (ne_true_of_eq_false h.fresh)

theorem MadeDir.child_gone (h : MadeDir d name child v w) :
    DirGone child w (withoutChild v w child) := by
  obtain ⟨t, hown⟩ := h.own
  refine ⟨⟨h.ne_zero.1, by rw [h.inUse, Function.update_self], h.isDir⟩, ?_, ?_, ?_⟩
  · rw [hown]
    intro e he
    simp only [List.mem_cons, List.not_mem_nil, or_false] at he
    obtain rfl | rfl := he
    · exact Or.inl rfl
    · exact Or.inr rfl
  · intro c
    by_cases hc : c = child
    · simp [hc, Directory, withoutChild]
    · rw [and_iff_left hc]
      exact directory_congr (by simp [withoutChild, hc]) rfl
  · intro c hc
    simp [withoutChild, hc]

theorem MadeDir.inserted (h : MadeDir d name child v w) :
    ∃ e : Dirent, e.name = name ∧ e.inode = child ∧ Inserted d e v (withoutChild v w child) := by
  obtain ⟨l₁, l₂, t, hv, hw⟩ := h.entry
  refine ⟨⟨child, name, t⟩, rfl, rfl, ?_, ?_, l₁, l₂, hv, ?_⟩
  · intro c
    by_cases hc : c = child
    · refine iff_of_false ?_ ?_
      · simp [hc, Directory, withoutChild]
      · rw [hc]
        exact h.not_directory
    · rw [h.child_gone.directory, and_iff_left hc, h.directory hc]
  · intro c hd
    by_cases hc : c = child
    · simp [withoutChild, hc]
    · simp [withoutChild, hc, h.dirs c hd hc]
  · simp [withoutChild, h.ne.symm, hw]

theorem MadeDir.places (h : MadeDir d name child v w) (hd : v.Directory d) (hname : ¬ IsDots name)
    (i : UInt32) : w.places i = v.places i + if child = i then 1 else 0 := by
  obtain ⟨e, hen, hei, hins⟩ := h.inserted
  rw [← h.child_gone.places, hins.places hd (by rwa [hen]), hei]

theorem MadeDir.holds (h : MadeDir d name child v w) (hd : v.Directory d) (hname : ¬ IsDots name) :
    w.Holds c i ↔ v.Holds c i ∨ c = d ∧ child = i := by
  obtain ⟨e, hen, hei, hins⟩ := h.inserted
  rw [← h.child_gone.holds, hins.holds hd (by rwa [hen]), hei]

/-- The new directory is no subdirectory before the call: nothing names a free inode. -/
theorem MadeDir.subdirs (h : MadeDir d name child v w) (hd : v.Directory d) (hname : ¬ IsDots name)
    (hnone : ¬ v.Holds c child) (hc : c ≠ child) :
    w.subdirs c = v.subdirs c + if c = d then 1 else 0 := by
  obtain ⟨e, hen, hei, hins⟩ := h.inserted
  have hgone := h.child_gone
  have hdots : ¬ IsDots e.name := by rwa [hen]
  have hcount : (v.held c).countP (fun e => e.Places child) = 0 := by
    by_contra hne
    exact hnone (holds_iff.mpr (Nat.pos_of_ne_zero hne))
  rw [hgone.subdirs hc, hins.subdirs hd hdots, ← hgone.held hc, hins.countP hd, hcount]
  simp [h.not_directory, Dirent.Places, hei, hdots]

theorem MadeDir.up (h : MadeDir d name child v w) (hname : ¬ IsDots name) (hc : c ≠ child) :
    w.up c = v.up c := by
  obtain ⟨e, hen, _, hins⟩ := h.inserted
  rw [← h.child_gone.up hc, hins.up (by rwa [hen])]

theorem MadeDir.up_self (h : MadeDir d name child v w) : w.up child = some d := by
  obtain ⟨t, hown⟩ := h.own
  simp [Volume.up, named, hown, dot, dotdot]

theorem MadeDir.subdirs_self (h : MadeDir d name child v w) : w.subdirs child = 0 :=
  h.child_gone.count_self fun _ hdots => decide_eq_false fun hsub => hsub.1 hdots

theorem MadeDir.sound (h : MadeDir d name child v w) (hv : v.Sound) (hd : v.Directory d)
    (hname : ¬ IsDots name) (hroom : v.subdirs d < 65000) : w.Sound := by
  have hfree : v.places child = 0 := hv.places_free h.fresh
  have hnone : ∀ c, ¬ v.Holds c child := by
    intro c hc
    exact absurd (holds_iff_places.mpr ⟨c, hc⟩) (by omega)
  refine ⟨⟨?_, ?_, ?_⟩, ?_, ?_⟩
  · intro i hi hroot
    rw [h.places hd hname]
    by_cases hc : child = i
    · rw [if_pos hc, ← hc, hfree]
    · rw [if_neg hc]
      exact hv.once i ((h.directory fun heq => hc heq.symm).mp hi) hroot
  · intro c i hc hi hroot
    obtain hold | ⟨rfl, rfl⟩ := (h.holds hd hname).mp hc
    · have hne : i ≠ child := by
        rintro rfl
        exact hnone c hold
      rw [h.up hname hne]
      exact hv.up c i hold ((h.directory hne).mp hi) hroot
    · exact h.up_self
  · intro c hc
    by_cases hcc : c = child
    · rw [hcc, h.links, h.subdirs_self]
      rfl
    · have hlinks := hv.links c ((h.directory hcc).mp hc)
      rw [h.subdirs hd hname (hnone c) hcc]
      by_cases hcd : c = d
      · subst hcd
        have hsucc : ((v.node c).links + 1).toNat = (v.node c).links.toNat + 1 :=
          toNat_succ (by omega)
        rw [if_pos rfl, h.parent, hsucc]
        omega
      · rw [if_neg hcd, h.nodes c hcd hcc]
        exact hlinks
  · intro c i hc
    rw [h.inUse]
    by_cases hi : i = child
    · rw [hi, Function.update_self]
    · rw [Function.update_of_ne hi]
      obtain hold | ⟨_, rfl⟩ := (h.holds hd hname).mp hc
      · exact hv.allocated c i hold
      · exact absurd rfl hi
  · rw [h.places hd hname, if_neg h.ne_zero.2, Nat.add_zero]
    exact hv.root

/-- An empty directory `x` is released, and its parent `p` has one link less. -/
structure DirRemoved (p x : UInt32) (u w : Volume) : Prop where
  gone : DirGone x u w
  inUse : ∀ c, c ≠ x → w.inUse c = u.inUse c
  others : ∀ c, c ≠ x → c ≠ p → (w.node c).links = (u.node c).links
  parent : 1 < (u.node p).links → (w.node p).links = (u.node p).links - 1

section DirRemoved

variable (h : DirRemoved p x (v.unlinked p name x) w) (hx : ∃ e ∈ v.dir p, e.Names name x)
  (hname : ¬ IsDots name) (hp : v.Directory p)

include h hx hname

theorem DirRemoved.up (hc : c ≠ x) : w.up c = v.up c := by
  obtain ⟨e, ⟨hen, _⟩, hins⟩ := unlinked_inserted hx
  rw [h.gone.up hc, hins.up (by rwa [hen])]

include hp

theorem DirRemoved.places (i : UInt32) : v.places i = w.places i + if x = i then 1 else 0 := by
  obtain ⟨e, ⟨hen, hei⟩, hins⟩ := unlinked_inserted hx
  rw [hins.places (w := v) hp (by rwa [hen]), h.gone.places, hei]

theorem DirRemoved.holds (hc : w.Holds c i) : v.Holds c i := by
  obtain ⟨e, ⟨hen, hei⟩, hins⟩ := unlinked_inserted hx
  rw [hins.holds (w := v) hp (by rwa [hen]), ← h.gone.holds]
  exact Or.inl hc

/-- A sound tree has no second entry for the directory. -/
theorem DirRemoved.not_holds (hv : v.Sound) (c : UInt32) : ¬ w.Holds c x := by
  intro hc
  have hpos := holds_iff_places.mpr ⟨c, hc⟩
  have hle := hv.places_le h.gone.was
  rw [h.places hx hname hp, if_pos rfl] at hle
  omega

theorem DirRemoved.subdirs (hv : v.Sound) (hc : c ≠ x) :
    v.subdirs c = w.subdirs c + if c = p then 1 else 0 := by
  obtain ⟨e, ⟨hen, hei⟩, hins⟩ := unlinked_inserted hx
  have hcount : ((v.unlinked p name x).held c).countP (fun e => e.Places x) = 0 := by
    by_contra hne
    exact h.not_holds hx hname hp hv c (h.gone.holds.mpr (holds_iff.mpr (Nat.pos_of_ne_zero hne)))
  have hdir : (v.unlinked p name x).Directory e.inode := by
    rw [hei]
    exact h.gone.was
  rw [hins.subdirs (w := v) hp (by rwa [hen]), h.gone.subdirs hc, hcount]
  simp [hdir]

theorem DirRemoved.sound (hv : v.Sound) : w.Sound := by
  have hplaces := h.places hx hname hp
  have hholds : ∀ c i, w.Holds c i → i ≠ x ∧ v.Holds c i := fun c i hc =>
    ⟨fun hi => h.not_holds hx hname hp hv c (hi ▸ hc), h.holds hx hname hp hc⟩
  refine ⟨⟨?_, ?_, ?_⟩, ?_, ?_⟩
  · intro i hi hroot
    obtain ⟨hi', hix⟩ := (h.gone.directory i).mp hi
    rw [← hv.once i hi' hroot, hplaces i, if_neg fun heq => hix heq.symm, Nat.add_zero]
  · intro c i hc hi hroot
    obtain ⟨hi', hix⟩ := (h.gone.directory i).mp hi
    rw [h.up hx hname hix]
    exact hv.up c i (hholds c i hc).2 hi' hroot
  · intro c hc
    obtain ⟨hc', hcx⟩ := (h.gone.directory c).mp hc
    have hlinks := hv.links c hc'
    rw [h.subdirs hx hname hp hv hcx] at hlinks
    by_cases hcp : c = p
    · subst hcp
      rw [if_pos rfl] at hlinks
      have hmore : 1 < ((v.unlinked c name x).node c).links := by
        rw [UInt16.lt_iff_toNat_lt, UInt16.toNat_one]
        show 1 < (v.node c).links.toNat
        omega
      rw [h.parent hmore, toNat_pred (by show 0 < (v.node c).links.toNat; omega)]
      show (v.node c).links.toNat - 1 = _
      omega
    · rw [if_neg hcp, Nat.add_zero] at hlinks
      rw [h.others c hcx hcp]
      exact hlinks
  · intro c i hc
    obtain ⟨hix, hold⟩ := hholds c i hc
    rw [h.inUse i hix]
    exact hv.allocated c i hold
  · have hle := hv.root
    rw [hplaces] at hle
    omega

end DirRemoved

/-- The directory `x` was named by `old` and is named by `new`; no inode has changed. -/
structure Rehung (old new x : UInt32) (v u : Volume) : Prop where
  directory : ∀ c, u.Directory c ↔ v.Directory c
  inUse : u.inUse = v.inUse
  links : ∀ c, (u.node c).links = (v.node c).links
  places : ∀ i, u.places i = v.places i
  held : u.Holds new x
  holds : ∀ c i, u.Holds c i → i ≠ x → v.Holds c i
  subdirs : ∀ c, u.subdirs c + (if c = old then 1 else 0) = v.subdirs c + if c = new then 1 else 0
  up : ∀ c, u.up c = v.up c

theorem rehung_of_moved {old new : UInt32} {oldName newName : List UInt8} {t : UInt8} {u : Volume}
    (hx : v.Directory x) (hold : v.Directory old) (hnew : v.Directory new)
    (holdName : ¬ IsDots oldName) (hnewName : ¬ IsDots newName)
    (hheld : v.Holds old x) (hin : Entered new ⟨x, newName, t⟩ v w)
    (hout : ∃ e ∈ w.dir old, e.Names oldName x) (hu : u = w.unlinked old oldName x) :
    Rehung old new x v u := by
  have hi := hin.inserted
  obtain ⟨e, ⟨hen, hei⟩, ho⟩ := unlinked_inserted hout
  rw [← hu] at ho
  have hdots : ¬ IsDots e.name := by rwa [hen]
  have hdir : ∀ c, u.Directory c ↔ v.Directory c := fun c => (ho.directory c).symm.trans (hi.directory c)
  have hold' : u.Directory old := (hdir old).mpr hold
  have hcount : ∀ c i, (u.held c).countP (fun e => e.Places i) + (if c = old ∧ i = x then 1 else 0) =
      (v.held c).countP (fun e => e.Places i) + if c = new ∧ i = x then 1 else 0 := by
    intro c i
    have h₁ := hi.countP hnew (fun e => e.Places i) c
    have h₂ := ho.countP hold' (fun e => e.Places i) c
    simp only [Dirent.Places, hei, hdots, hnewName, not_false_eq_true, and_true,
      decide_eq_true_eq, eq_comm (a := x)] at h₁ h₂ ⊢
    omega
  refine ⟨hdir, ?_, ?_, ?_, ?_, ?_, ?_, ?_⟩
  · rw [hu]
    exact hin.inUse
  · intro c
    rw [hu]
    exact hin.node_links c
  · intro i
    have h₁ : w.places i = v.places i + if x = i then 1 else 0 := hi.places hnew hnewName i
    have h₂ := ho.places hold' hdots i
    rw [hei] at h₂
    omega
  · rw [holds_iff]
    have hc := hcount new x
    by_cases hsame : new = old
    · have hpos := holds_iff.mp hheld
      simp only [hsame, and_self, if_true] at hc ⊢
      omega
    · rw [if_neg fun h => hsame h.1, if_pos ⟨rfl, rfl⟩] at hc
      omega
  · intro c i hc hne
    rw [holds_iff] at hc ⊢
    have hsame := hcount c i
    rw [if_neg fun h => hne h.2, if_neg fun h => hne h.2] at hsame
    omega
  · intro c
    have h₁ := hi.subdirs hnew hnewName c
    have h₂ := ho.subdirs hold' hdots c
    have hux : u.Directory e.inode := by rw [hei]; exact (hdir x).mpr hx
    simp only [hux, hx, and_true] at h₁ h₂
    omega
  · intro c
    rw [← ho.up hdots, hi.up hnewName]

/-- The tree is sound again once the `..` of the directory and the link counts of both parents are
right. -/
theorem Rehung.sound {old new : UInt32} {u : Volume} (h : Rehung old new x v u) (hv : v.Sound)
    (hx : v.Directory x) (hsame : SameChildren u w) (hup : ∀ c, c ≠ x → w.up c = u.up c)
    (hself : x ≠ EXT2_ROOT_INO → w.up x = some new)
    (hlinks : ∀ c, v.Directory c → (w.node c).links.toNat = 2 + u.subdirs c) : w.Sound := by
  have hdir : ∀ c, w.Directory c ↔ v.Directory c := fun c =>
    (hsame.directory c).trans (h.directory c)
  have hplaces : ∀ i, w.places i = v.places i := fun i => (hsame.places i).trans (h.places i)
  have honly : ∀ c, w.Holds c x → c = new := by
    intro c hc
    have hle : w.places x ≤ 1 := by
      rw [hplaces]
      exact hv.places_le hx
    exact holds_unique hle hc (hsame.holds.mpr h.held)
  refine ⟨⟨?_, ?_, ?_⟩, ?_, ?_⟩
  · intro i hi hroot
    rw [hplaces]
    exact hv.once i ((hdir i).mp hi) hroot
  · intro c i hc hi hroot
    by_cases hix : i = x
    · rw [hix] at hc hroot ⊢
      rw [honly c hc]
      exact hself hroot
    · rw [hup i hix, h.up]
      exact hv.up c i (h.holds c i (hsame.holds.mp hc) hix) ((hdir i).mp hi) hroot
  · intro c hc
    rw [hsame.subdirs]
    exact hlinks c ((hdir c).mp hc)
  · intro c i hc
    rw [hsame.inUse, h.inUse]
    by_cases hix : i = x
    · rw [hix]
      exact hx.2.1
    · exact hv.allocated c i (h.holds c i (hsame.holds.mp hc) hix)
  · rw [hplaces]
    exact hv.root

/-- After a move to another directory: `..` rewritten, a link more for the new parent, and one less
for the old one. -/
def crossed (u : Volume) (old new x : UInt32) : Volume :=
  let a := u.setDir x (reparent new (u.dir x))
  let b := a.relinked new ((a.node new).links + 1)
  if 1 < (b.node old).links then b.relinked old ((b.node old).links - 1) else b

theorem SameChildren.trans {u : Volume} (h : SameChildren u v) (h' : SameChildren v w) :
    SameChildren u w :=
  ⟨fun c => (h'.directory c).trans (h.directory c), h'.inUse.trans h.inUse,
    fun c q hq => (h'.count c q hq).trans (h.count c q hq)⟩

theorem sameChildren_crossed (u : Volume) (old new x : UInt32) :
    SameChildren u (crossed u old new x) := by
  have hb := (sameChildren_reparent u x new).trans (sameChildren_relinked _ new
    (((u.setDir x (reparent new (u.dir x))).node new).links + 1))
  unfold crossed
  simp only
  split
  · exact hb.trans (sameChildren_relinked _ old _)
  · exact hb

theorem crossed_dir (u : Volume) (old new x : UInt32) :
    (crossed u old new x).dir = Function.update u.dir x (reparent new (u.dir x)) := by
  unfold crossed
  simp only
  split <;> rfl

theorem crossed_up_of_ne {u : Volume} {old new : UInt32} (hc : c ≠ x) :
    (crossed u old new x).up c = u.up c := by
  unfold Volume.up named
  rw [crossed_dir, Function.update_of_ne hc]

theorem crossed_up {u : Volume} {old new : UInt32} (hnew : new ≠ 0) (h : ∃ q, u.up x = some q) :
    (crossed u old new x).up x = some new := by
  unfold Volume.up named
  rw [crossed_dir, Function.update_self]
  exact find_reparent hnew h

theorem crossed_node {u : Volume} {old new : UInt32} {b : Volume}
    (hb : (u.setDir x (reparent new (u.dir x))).relinked new ((u.node new).links + 1) = b)
    (hmore : 1 < (b.node old).links) (c : UInt32) :
    (crossed u old new x).node c = (b.relinked old ((b.node old).links - 1)).node c := by
  have hcrossed : crossed u old new x = b.relinked old ((b.node old).links - 1) := by
    rw [← hb] at hmore ⊢
    exact if_pos hmore
  rw [hcrossed]

theorem crossed_links {u : Volume} {old new : UInt32} (h : Rehung old new x v u) (hv : v.Sound)
    (hroom : v.subdirs new < 65000) (hold : v.Directory old) (hnew : v.Directory new)
    (hc : v.Directory c) :
    ((crossed u old new x).node c).links.toNat = 2 + u.subdirs c := by
  have hlinks : ∀ c, v.Directory c → (u.node c).links.toNat = 2 + v.subdirs c := by
    intro c hc
    rw [h.links]
    exact hv.links c hc
  have hsub := h.subdirs c
  have hcount := hlinks c hc
  have hcold := hlinks old hold
  have hcnew := hlinks new hnew
  have hsubold := h.subdirs old
  have hinc : ((u.node new).links + 1).toNat = (u.node new).links.toNat + 1 :=
    toNat_succ (by omega)
  generalize hb : (u.setDir x (reparent new (u.dir x))).relinked new ((u.node new).links + 1) = b
  have hbnew : (b.node new).links = (u.node new).links + 1 := by
    rw [← hb]
    exact relinked_links_self _ _ _
  have hbother : ∀ c, c ≠ new → b.node c = u.node c := by
    intro c hc
    rw [← hb]
    exact relinked_node_of_ne _ _ hc
  have hmore : 1 < (b.node old).links := by
    rw [UInt16.lt_iff_toNat_lt, UInt16.toNat_one]
    by_cases hsame : old = new
    · rw [hsame, hbnew]
      omega
    · rw [if_pos rfl, if_neg hsame] at hsubold
      rw [hbother old hsame]
      omega
  rw [crossed_node hb hmore]
  by_cases hco : c = old
  · rw [hco, relinked_links_self, toNat_pred (by
      rw [UInt16.lt_iff_toNat_lt, UInt16.toNat_one] at hmore
      omega)]
    rw [hco] at hsub hcount
    by_cases hsame : old = new
    · rw [hsame, hbnew]
      rw [hsame] at hsub hcount
      omega
    · rw [if_pos rfl, if_neg hsame] at hsub
      rw [hbother old hsame]
      omega
  · rw [relinked_node_of_ne _ _ hco]
    rw [if_neg hco] at hsub
    by_cases hcn : c = new
    · rw [hcn, hbnew]
      rw [hcn, if_pos rfl] at hsub
      omega
    · rw [if_neg hcn] at hsub
      rw [hbother c hcn]
      omega

end Sound

/-! ## The calls -/

section Calls

variable {fs : Ext2fs σ} {V : View σ} {dirIno hint oldDir newDir : UInt64}
  {name oldName newName : List UInt8} {s s' : σ} {x p : UInt32}

theorem dropParentLink_volume (hL : Lawful fs V) (hp : p ≠ 0) (hrw : Rewritable fs p s) :
    V.volume (dropParentLink fs p s) =
      if 1 < ((V.volume s).node p).links then
        (V.volume s).relinked p (((V.volume s).node p).links - 1)
      else V.volume s := by
  rw [dropParentLink_eq fs hp, relink_volume (h := fun n => n - 1) hL (fun _ _ => rfl) hrw]
  simp only [decide_eq_true_eq]

theorem extAfterUnlink_dir (hL : Lawful fs V) (hx : (V.volume s).Directory x) (hp : p ≠ 0)
    (hpx : p ≠ x) (hbare : ∀ e ∈ (V.volume s).dir x, IsDots e.name)
    (hrw : ∀ inode s₁, fs.readInode x s = .ok inode s₁ → Rewritable fs p s₁)
    (h : extAfterUnlink fs x true p s = .ok () s') :
    DirRemoved p x (V.volume s) (V.volume s') := by
  obtain ⟨inode, s₁, hr, _⟩ := orFail_bind_ok_iff.mp h
  obtain ⟨hnode, hs₁⟩ := (hL.readInode (V.volume s) x).ok rfl hr
  have hisdir : LINUX_S_ISDIR inode.iMode = true := (isDir_of_node hnode).trans hx.2.2
  rw [extAfterUnlink_run hr, if_pos hisdir] at h
  have hparent := dropParentLink_volume hL hp (hrw inode s₁ hr)
  have hshape := dropParentLink_sameShape hL p s₁
  have honly := dropParentLink_onlyNode hL p s₁
  rw [hs₁.eq] at hparent hshape honly
  generalize hu : V.volume s = u at hnode hx hbare hparent hshape honly
  generalize hb : V.volume (dropParentLink fs p s₁) = b at hparent hshape honly
  have hdead : (inode.dead (fs.time s₁)).node = { b.node x with links := 0 } := by
    rw [honly.nodes x hpx.symm, ← hnode]
    rfl
  have hfreed := (releaseInode_freed hL true hdead).ok hb h
  have hbeside := hfreed.beside
  refine ⟨⟨hx, hbare, ?_, ?_⟩, ?_, ?_, ?_⟩
  · intro c
    by_cases hc : c = x
    · rw [hc]
      refine iff_of_false ?_ fun hand => hand.2 rfl
      exact fun hdir => absurd hdir.2.1 (ne_true_of_eq_false hfreed.inUse)
    · rw [and_iff_left hc]
      refine directory_congr ?_ ?_
      · rw [hbeside.inUse c hc, hshape.inUse]
      · rw [hbeside.node_mode, hshape.mode]
  · intro c hc
    rw [hbeside.dirs c hc, hshape.dir]
  · intro c hc
    rw [hbeside.inUse c hc, hshape.inUse]
  · intro c hcx hcp
    rw [hbeside.nodes c hcx, honly.nodes c hcp]
  · intro hmore
    rw [hbeside.nodes p hpx, hparent, if_pos hmore, relinked_links_self]

/-- The directories `extfsk_unlink` may remove: empty ones. -/
def BareDirectory (v : Volume) (x : UInt32) : Prop :=
  v.Directory x ∧ ∀ e ∈ v.dir x, IsDots e.name

theorem extfskUnlink_sound (hL : Lawful fs V) (hv : (V.volume s).Sound)
    (hdir : (V.volume s).Directory dirIno.toUInt32) (hname : ¬ IsDots name)
    (hbare : ∀ x s₁, unlinkTarget fs dirIno name hint s = .ok x s₁ → BareDirectory (V.volume s) x)
    (hrw : ∀ x s₁ s₂ inode s₃, unlinkTarget fs dirIno name hint s = .ok x s₁ →
      fs.unlink dirIno.toUInt32 name x s₁ = .ok () s₂ → fs.readInode x s₂ = .ok inode s₃ →
      Rewritable fs dirIno.toUInt32 s₃)
    (h : extfskUnlink fs dirIno name hint s = .ok () s') : (V.volume s').Sound := by
  obtain ⟨x, s₁, s₂, htarget, hrem, h⟩ := extfskUnlink_returns hL h
  obtain ⟨hx, hempty⟩ := hbare x s₁ htarget
  have hpx : dirIno.toUInt32 ≠ x := by
    intro heq
    obtain ⟨e, he, hen, _⟩ := hrem.entry
    exact hname (hen ▸ hempty e (heq ▸ he))
  have hremoved := extAfterUnlink_dir hL (x := x) (p := dirIno.toUInt32) (s := s₂)
    (by rw [hrem.volume]; exact hx) hdir.1 hpx
    (by rw [hrem.volume, unlinked_dir_of_ne hpx.symm]; exact hempty)
    (fun inode s₃ hread => hrw x s₁ s₂ inode s₃ htarget hrem.call hread) h
  rw [hrem.volume] at hremoved
  exact hremoved.sound hrem.entry hname hdir hv

/-- The volume after the two changes of link counts, where neither fails. -/
theorem parents_volume (hL : Lawful fs V) {old new : UInt32} (hnew : Rewritable fs new s)
    (hold : Rewritable fs old (addParentLink fs new s)) {u : Volume}
    (hs : V.volume s = u.setDir x (reparent new (u.dir x))) :
    V.volume (removeParentLink fs old (addParentLink fs new s)) = crossed u old new x := by
  have hadd : V.volume (addParentLink fs new s) =
      (V.volume s).relinked new (((V.volume s).node new).links + 1) := by
    rw [addParentLink_eq, relink_volume (h := fun n => n + 1) hL (fun _ _ => rfl) hnew, if_pos rfl]
  rw [removeParentLink_eq, relink_volume (h := fun n => n - 1) hL (fun _ _ => rfl) hold, hadd, hs]
  unfold crossed
  simp only [decide_eq_true_eq]

theorem renameDir_sound (hL : Lawful fs V) (hE : LawfulEdit fs V) (hv : (V.volume s).Sound)
    (hold : (V.volume s).Directory oldDir.toUInt32)
    (hnew : (V.volume s).Directory newDir.toUInt32) (hx : (V.volume s).Directory x)
    (holdName : ¬ IsDots oldName) (hnewName : ¬ IsDots newName)
    (hheld : (V.volume s).Holds oldDir.toUInt32 x)
    (hroom : (V.volume s).subdirs newDir.toUInt32 < 65000)
    (hrw : ∀ s₁ s₂ s₃, fs.link newDir.toUInt32 newName x EXT2_FT_DIR s = .ok () s₁ →
      fs.unlink oldDir.toUInt32 oldName x s₁ = .ok () s₂ →
      rewriteDotdot fs x newDir.toUInt32 s₂ = .ok () s₃ → Rewritable fs newDir.toUInt32 s₃ ∧
        Rewritable fs oldDir.toUInt32 (addParentLink fs newDir.toUInt32 s₃))
    (h : renameDir fs oldDir oldName newDir newName x s = .ok () s') : (V.volume s').Sound := by
  obtain ⟨_, s₁, hlink, h⟩ := orFail_bind_ok_iff.mp h
  obtain ⟨_, s₂, hun, h⟩ := orFail_bind_ok_iff.mp h
  obtain ⟨l₁, l₂, hd, hs₁⟩ := (hL.link (V.volume s) newDir.toUInt32 newName x _).ok rfl hlink
  have hin : Entered newDir.toUInt32 ⟨x, newName, EXT2_FT_DIR⟩ (V.volume s) (V.volume s₁) := by
    rw [hs₁.eq]
    exact (Resized.refl _ _).entered hd
  obtain ⟨hout, hs₂⟩ := (hL.unlink (V.volume s₁) oldDir.toUInt32 oldName x).ok rfl hun
  have hre := rehung_of_moved hx hold hnew holdName hnewName hheld hin hout hs₂
  have hup : x ≠ EXT2_ROOT_INO → (V.volume s₂).up x = some oldDir.toUInt32 := by
    intro hroot
    rw [hre.up, hv.up _ _ hheld hx hroot]
  by_cases hdirs : oldDir = newDir
  · -- the same directory: only the name has changed
    rw [if_pos hdirs] at h
    cases h
    have hsame : SameChildren (V.volume s') (V.volume s') :=
      ⟨fun _ => Iff.rfl, rfl, fun _ _ _ => rfl⟩
    refine hre.sound hv hx hsame (fun _ _ => rfl) (fun hroot => hdirs ▸ hup hroot) ?_
    intro c hc
    have hsub := hre.subdirs c
    rw [hdirs] at hsub
    rw [hre.links, hv.links c hc]
    omega
  · rw [if_neg hdirs] at h
    obtain ⟨_, s₃, hedit, h⟩ := orFail_bind_ok_iff.mp h
    obtain ⟨hrwNew, hrwOld⟩ := hrw s₁ s₂ s₃ hlink hun hedit
    have hdots := (rewriteDotdot_spec hE (V.volume s₂) x newDir.toUInt32).ok rfl hedit
    have hs' : s' = removeParentLink fs oldDir.toUInt32 (addParentLink fs newDir.toUInt32 s₃) := by
      cases h
      rfl
    rw [hs', parents_volume hL hrwNew hrwOld hdots]
    exact hre.sound hv hx (sameChildren_crossed _ _ _ _) (fun _ hc => crossed_up_of_ne hc)
      (fun hroot => crossed_up hnew.1 ⟨_, hup hroot⟩)
      fun c hc => crossed_links hre hv hroom hold hnew hc

end Calls

/-- A directory is made, an empty one is removed, or one is moved, in directories that are allocated
and not full. -/
def DirCall (fs : Ext2fsNew σ) (V : View σ) (s : σ) : Request → Prop
  | .create dirIno name type _ _ _ => type = 'd' ∧ ¬ IsDots name ∧
    (V.volume s).Directory dirIno.toUInt32 ∧ (V.volume s).subdirs dirIno.toUInt32 < 65000
  | .symlink _ _ _ => False
  | .unlink dirIno name inoHint => ¬ IsDots name ∧ (V.volume s).Directory dirIno.toUInt32 ∧
    ∀ x s₁, unlinkTarget fs.toExt2fs dirIno name inoHint s = .ok x s₁ →
      BareDirectory (V.volume s) x
  | .rename oldDir oldName newDir newName => ¬ IsDots oldName ∧ ¬ IsDots newName ∧
    (V.volume s).Directory oldDir.toUInt32 ∧ (V.volume s).Directory newDir.toUInt32 ∧
    (V.volume s).subdirs newDir.toUInt32 < 65000 ∧
    ∀ ino inode s₁, Finds fs.toExt2fs oldDir oldName ino inode s s₁ →
      (V.volume s).Directory ino.toUInt32

/-- The calls of the library whose failure the bridge ignores do not fail. -/
def Undisturbed (fs : Ext2fsNew σ) (s : σ) : Request → Prop
  | .create _ _ _ _ _ _ => True
  | .symlink _ _ _ => True
  | .unlink dirIno name inoHint => ∀ x s₁ s₂ inode s₃,
    unlinkTarget fs.toExt2fs dirIno name inoHint s = .ok x s₁ →
    fs.unlink dirIno.toUInt32 name x s₁ = .ok () s₂ → fs.readInode x s₂ = .ok inode s₃ →
    Rewritable fs.toExt2fs dirIno.toUInt32 s₃
  | .rename oldDir oldName newDir newName => ∀ ino inode s₁ s₂ s₃ s₄,
    Finds fs.toExt2fs oldDir oldName ino inode s s₁ →
    fs.link newDir.toUInt32 newName ino.toUInt32 EXT2_FT_DIR s₁ = .ok () s₂ →
    fs.unlink oldDir.toUInt32 oldName ino.toUInt32 s₂ = .ok () s₃ →
    rewriteDotdot fs.toExt2fs ino.toUInt32 newDir.toUInt32 s₃ = .ok () s₄ →
    Rewritable fs.toExt2fs newDir.toUInt32 s₄ ∧
      Rewritable fs.toExt2fs oldDir.toUInt32 (addParentLink fs.toExt2fs newDir.toUInt32 s₄)

section Steps

variable {fs : Ext2fsNew σ} {V : View σ} {s s' : σ}

theorem createDir_sound (hL : LawfulNew fs V) {d : UInt32} {name : List UInt8} {r : UInt64}
    (hv : (V.volume s).Sound) (hd : (V.volume s).Directory d) (hname : ¬ IsDots name)
    (hroom : (V.volume s).subdirs d < 65000) (h : createDir fs d name s = .ok r s') :
    (V.volume s').Sound := by
  obtain ⟨_, s₁, hmk, h⟩ := orFail_bind_ok_iff.mp h
  obtain ⟨child, hmade⟩ := (hL.mkdir (V.volume s) d name).ok rfl hmk
  obtain ⟨ino, s₂, hl, h⟩ := orFail_bind_ok_iff.mp h
  cases h
  rw [((hL.lawful.lookup (V.volume s₁) d name).ok rfl hl).2.eq]
  exact hmade.sound hv hd hname hroom

theorem holds_of_named {v : Volume} {d i : UInt32} {name : List UInt8} (hd : v.Directory d)
    (hname : ¬ IsDots name) (h : v.named d name = some i) : v.Holds d i := by
  obtain ⟨e, he, hi⟩ := Option.map_eq_some_iff.mp h
  have hen : e.name = name := by simpa using List.find?_some he
  refine ⟨e, ?_, hi, by rwa [hen]⟩
  rw [held_of_directory hd]
  exact List.mem_of_find?_eq_some he

theorem extfskRename_sound (hL : Lawful fs.toExt2fs V) (hE : LawfulEdit fs.toExt2fs V)
    {oldDir newDir : UInt64} {oldName newName : List UInt8} (hv : (V.volume s).Sound)
    (hcall : DirCall fs V s (.rename oldDir oldName newDir newName))
    (hund : Undisturbed fs s (.rename oldDir oldName newDir newName))
    (h : extfskRename fs.toExt2fs oldDir oldName newDir newName s = .ok () s') :
    (V.volume s').Sound := by
  obtain ⟨holdName, hnewName, hold, hnew, hroom, hdirs⟩ := hcall
  obtain ⟨ino, inode, s₁, hfinds⟩ := extfskRename_returns hL h
  have hx := hdirs ino inode s₁ hfinds
  obtain ⟨hnode, hs₁⟩ := hfinds.node hL
  have hisdir : LINUX_S_ISDIR inode.iMode = true := (isDir_of_node hnode).trans hx.2.2
  have hheld : (V.volume s).Holds oldDir.toUInt32 ino.toUInt32 := by
    obtain ⟨t, hlookup, _⟩ := hfinds
    exact holds_of_named hold holdName (extfskLookup_named hL hlookup).1
  rw [hfinds.run_dir hisdir] at h
  rw [← hs₁] at hv hold hnew hroom hx hheld
  refine renameDir_sound hL hE hv hold hnew hx holdName hnewName hheld hroom ?_ h
  exact fun s₂ s₃ s₄ hlink hunlink hedit =>
    hund ino inode s₁ s₂ s₃ s₄ hfinds hlink hunlink hedit

theorem serve_sound (hL : LawfulNew fs V) (hE : LawfulEdit fs.toExt2fs V)
    (hv : (V.volume s).Sound) (r : Request) (hcall : DirCall fs V s r) (hund : Undisturbed fs s r)
    (hok : Succeeds fs s r) : (V.volume (serve fs s r)).Sound := by
  obtain ⟨s', hrun⟩ := hok
  rw [serve, hrun, final_ok]
  cases r with
  | create dirIno name type mode uid gid =>
    obtain ⟨htype, hname, hd, hroom⟩ := hcall
    obtain ⟨ino, hcreate⟩ := dropResult_ok_iff.mp hrun
    unfold extfskCreate at hcreate
    by_cases hlen : 255 < name.length
    · rw [if_pos hlen] at hcreate
      cases hcreate
    · rw [if_neg hlen, if_pos htype] at hcreate
      exact createDir_sound hL hv hd hname hroom hcreate
  | symlink dirIno name target => exact hcall.elim
  | unlink dirIno name inoHint =>
    obtain ⟨hname, hd, hbare⟩ := hcall
    exact extfskUnlink_sound hL.lawful hv hd hname hbare hund hrun
  | rename oldDir oldName newDir newName => exact extfskRename_sound hL.lawful hE hv hcall hund hrun

/-- In a run of such calls the tree is sound at every point. -/
theorem subdirs_sound (hL : LawfulNew fs V) (hE : LawfulEdit fs.toExt2fs V) {rs : List Request}
    (hv : (V.volume s).Sound)
    (hrs : Along (serve fs) (fun s r => DirCall fs V s r ∧ Undisturbed fs s r ∧ Succeeds fs s r)
      s rs) :
    Along (serve fs) (fun s _ => (V.volume s).Sound) s rs ∧
      (V.volume (rs.foldl (serve fs) s)).Sound := by
  refine along_of_inv (I := fun s => (V.volume s).Sound) ?_ hv hrs
  intro s r hs hr
  obtain ⟨hcall, hund, hok⟩ := hr
  exact ⟨hs, serve_sound hL hE hs r hcall hund hok⟩

end Steps

/-! ## Calls on small trees -/

/-- A tree that has only `dirs` for directories, the reserved inodes being in use. The free inodes
have kept the mode of a directory. -/
def tree (dirs : List (UInt32 × UInt16 × List Dirent)) : RefState where
  volume :=
    { node := fun i =>
        match dirs.find? fun x => x.1 = i with
        | some x => ⟨LINUX_S_IFDIR, x.2.1, 1024⟩
        | none => ⟨if i < 11 then 0 else LINUX_S_IFDIR, 0, 1024⟩
      inUse := fun i => i < 11 || dirs.any fun x => x.1 = i
      data := fun _ _ => 0
      dir := fun i =>
        match dirs.find? fun x => x.1 = i with
        | some x => x.2.2
        | none => [] }
  handles := []

section Small

variable (dirs : List (UInt32 × UInt16 × List Dirent))

def keys : List UInt32 := dirs.map Prod.fst

variable {dirs} {d i : UInt32}

theorem tree_find (h : d ∉ keys dirs) : dirs.find? (fun x => decide (x.1 = d)) = none := by
  refine List.find?_eq_none.mpr fun x hx => ?_
  simp only [decide_eq_true_eq]
  rintro rfl
  exact h (List.mem_map_of_mem hx)

theorem tree_held (h : d ∉ keys dirs) : (tree dirs).volume.held d = [] := by
  have hdir : (tree dirs).volume.dir d = [] := by simp only [tree, tree_find h]
  unfold held
  split
  · exact hdir
  · rfl

theorem mem_keys_of_directory (h : (tree dirs).volume.Directory d) : d ∈ keys dirs := by
  by_contra hnot
  obtain ⟨_, huse, hdir⟩ := h
  simp only [tree, tree_find hnot] at huse hdir
  have hany : (dirs.any fun x => decide (x.1 = d)) = false :=
    List.any_eq_false.mpr (List.find?_eq_none.mp (tree_find hnot))
  rw [hany, Bool.or_false, decide_eq_true_iff] at huse
  rw [if_pos huse] at hdir
  exact absurd hdir (by decide)

theorem tree_places (i : UInt32) : (tree dirs).volume.places i =
    ∑ c ∈ (keys dirs).toFinset, ((tree dirs).volume.held c).countP fun e => e.Places i :=
  tally_of_support _ fun _ hc => tree_held fun h => hc (List.mem_toFinset.mpr h)

theorem mem_keys_of_holds (h : (tree dirs).volume.Holds d i) : d ∈ keys dirs := by
  by_contra hnot
  obtain ⟨e, he, _⟩ := h
  rw [tree_held hnot] at he
  cases he

instance (v : Volume) (d i : UInt32) : Decidable (v.Holds d i) := by
  unfold Holds
  infer_instance

theorem listed_of_directory (h : (tree dirs).volume.Directory d) : ∃ x ∈ dirs, x.1 = d :=
  List.mem_map.mp (mem_keys_of_directory h)

theorem listed_of_holds (h : (tree dirs).volume.Holds d i) : ∃ x ∈ dirs, x.1 = d :=
  List.mem_map.mp (mem_keys_of_holds h)

/-- To be well-formed is something about the directories of the tree. -/
theorem tree_wellFormed
    (honce : ∀ x ∈ dirs, x.1 ≠ EXT2_ROOT_INO → ∑ c ∈ (keys dirs).toFinset,
      ((tree dirs).volume.held c).countP (fun e => e.Places x.1) = 1)
    (hup : ∀ x ∈ dirs, ∀ y ∈ dirs, (tree dirs).volume.Holds x.1 y.1 → y.1 ≠ EXT2_ROOT_INO →
      (tree dirs).volume.up y.1 = some x.1)
    (hlinks : ∀ x ∈ dirs,
      ((tree dirs).volume.node x.1).links.toNat = 2 + (tree dirs).volume.subdirs x.1) :
    (tree dirs).volume.WellFormed := by
  refine ⟨?_, ?_, ?_⟩
  · intro i hi hroot
    obtain ⟨x, hx, rfl⟩ := listed_of_directory hi
    rw [tree_places]
    exact honce x hx hroot
  · intro d i hd hi hroot
    obtain ⟨x, hx, rfl⟩ := listed_of_holds hd
    obtain ⟨y, hy, rfl⟩ := listed_of_directory hi
    exact hup x hx y hy hd hroot
  · intro d hd
    obtain ⟨x, hx, rfl⟩ := listed_of_directory hd
    exact hlinks x hx

end Small

def dots (d parent : UInt32) : List Dirent := [⟨d, dot, EXT2_FT_DIR⟩, ⟨parent, dotdot, EXT2_FT_DIR⟩]

/-- Only an empty root. -/
def plainRoot : RefState := tree [(2, 2, dots 2 2)]

theorem plainRoot_dir {d : UInt32} {e : Dirent} (he : e ∈ plainRoot.volume.dir d) :
    IsDots e.name := by
  by_cases hd : d = 2
  · rw [hd] at he
    exact (by decide : ∀ e ∈ plainRoot.volume.dir 2, IsDots e.name) e he
  · have hfind : ([(2, 2, dots 2 2)] : List (UInt32 × UInt16 × List Dirent)).find?
        (fun x => decide (x.1 = d)) = none := tree_find fun h => hd (List.mem_singleton.mp h)
    simp only [plainRoot, tree, hfind] at he
    cases he

theorem plainRoot_bare (d i : UInt32) : ¬ plainRoot.volume.Holds d i := by
  rintro ⟨e, he, _, hdots⟩
  exact hdots (plainRoot_dir (mem_held.mp he).2)

theorem plainRoot_sound : plainRoot.volume.Sound := by
  have hwf : (tree [(2, 2, dots 2 2)]).volume.WellFormed :=
    tree_wellFormed (by decide) (by decide) (by decide)
  refine ⟨hwf, fun d i h => (plainRoot_bare d i h).elim, ?_⟩
  by_contra hmore
  obtain ⟨d, hd⟩ := holds_iff_places.mp (by omega : 0 < plainRoot.volume.places EXT2_ROOT_INO)
  exact plainRoot_bare d _ hd

theorem refLibraryNew_rewritable (p : UInt32) (s : RefState) :
    Rewritable refLibraryNew.toExt2fs p s :=
  ⟨_, _, rfl, fun _ => ⟨_, rfl⟩⟩

/-- Two directories are made, one is moved into the other, and removed there. -/
theorem subdirs_sound_moved :
    Along (serve refLibraryNew) (fun s _ => s.volume.Sound) plainRoot
        [.create 2 nameA 'd' 0 0 0, .create 2 nameB 'd' 0 0 0, .rename 2 nameA 12 nameA,
          .unlink 12 nameA 11] ∧
      ([Request.create 2 nameA 'd' 0 0 0, .create 2 nameB 'd' 0 0 0, .rename 2 nameA 12 nameA,
        .unlink 12 nameA 11].foldl (serve refLibraryNew) plainRoot).volume.Sound := by
  refine subdirs_sound refLibraryNew_lawful refLibraryNew_edit plainRoot_sound
    ⟨⟨⟨rfl, by decide, by decide, by decide⟩, trivial, _, rfl⟩,
      ⟨⟨rfl, by decide, by decide, by decide⟩, trivial, _, rfl⟩,
      ⟨⟨by decide, by decide, by decide, by decide, by decide, ?_⟩, ?_, _, rfl⟩,
      ⟨⟨by decide, by decide, ?_⟩, ?_, _, rfl⟩, trivial⟩
  · intro ino inode s₁ hfinds
    obtain ⟨s₂, hlookup, hread⟩ := hfinds
    cases hlookup
    decide
  · intro ino inode s₁ s₂ s₃ s₄ _ _ _ _
    exact ⟨refLibraryNew_rewritable _ _, refLibraryNew_rewritable _ _⟩
  · intro x s₁ htarget
    cases htarget
    exact ⟨by decide, by decide⟩
  · intro x s₁ s₂ inode s₃ _ _ _
    exact refLibraryNew_rewritable _ _

/-- An entry of the root names inode 11, which is free. -/
def strayEntry : RefState := tree [(2, 2, dots 2 2 ++ [⟨11, nameB, EXT2_FT_DIR⟩])]

/-- Two directories name each other, and both name the root. -/
def rootTwice : RefState :=
  tree [(2, 2, dots 2 2),
    (12, 4, dots 12 13 ++ [⟨13, nameA, EXT2_FT_DIR⟩, ⟨2, nameB, EXT2_FT_DIR⟩]),
    (13, 4, dots 13 12 ++ [⟨12, nameA, EXT2_FT_DIR⟩, ⟨2, nameB, EXT2_FT_DIR⟩])]

theorem strayEntry_wellFormed : strayEntry.volume.WellFormed :=
  tree_wellFormed (by decide) (by decide) (by decide)

theorem rootTwice_wellFormed : rootTwice.volume.WellFormed :=
  tree_wellFormed (by decide) (by decide) (by decide)

/-- The new directory takes the inode that has an entry already. -/
theorem strayEntry_made : ¬ (serve refLibraryNew strayEntry
    (.create 2 nameA 'd' 0 0 0)).volume.WellFormed := by
  intro h
  have honce := h.once 11 (by decide) (by decide)
  have hle := countP_le_tally (f := (serve refLibraryNew strayEntry
    (.create 2 nameA 'd' 0 0 0)).volume.held) (p := fun e => decide (e.Places 11)) 2
  rw [Volume.places] at honce
  rw [honce] at hle
  exact absurd hle (by decide)

/-- The other entry for the root outlives it. -/
theorem rootTwice_removed : ¬ (serve refLibraryNew rootTwice
    (.unlink 12 nameB 2)).volume.WellFormed := by
  intro h
  exact absurd (h.links 13 (by decide)) (by decide)

/-- A directory that is not allocated holds the only entry. -/
theorem plainRoot_made : ¬ (serve refLibraryNew plainRoot
    (.create 13 nameA 'd' 0 0 0)).volume.WellFormed := by
  intro h
  have honce := h.once 11 (by decide) (by decide)
  obtain ⟨d, e, he, hplaces, hdots⟩ := holds_iff_places.mp (by rw [honce]; exact Nat.one_pos)
  obtain ⟨hdir, hmem⟩ := mem_held.mp he
  by_cases h13 : d = 13
  · rw [h13] at hdir
    exact absurd hdir (by decide)
  · by_cases h11 : d = 11
    · rw [h11] at hmem
      exact hdots ((by decide : ∀ e ∈ (serve refLibraryNew plainRoot
        (.create 13 nameA 'd' 0 0 0)).volume.dir 11, IsDots e.name) e hmem)
    · have hrest : (serve refLibraryNew plainRoot (.create 13 nameA 'd' 0 0 0)).volume.dir d =
          plainRoot.volume.dir d := by
        show Function.update (Function.update plainRoot.volume.dir 13 _) 11 _ d = _
        rw [Function.update_of_ne h11, Function.update_of_ne h13]
      exact hdots (plainRoot_dir (hrest ▸ hmem))

/-- Where an entry names a free inode, where the root is named twice, and in a directory that is not
allocated, one call that returns 0 leaves a tree that is not well-formed. -/
theorem not_wellFormed_after :
    LawfulNew refLibraryNew RefState.view ∧ LawfulEdit refLibraryNew.toExt2fs RefState.view ∧
    (strayEntry.volume.WellFormed ∧
      Succeeds refLibraryNew strayEntry (.create 2 nameA 'd' 0 0 0) ∧
      ¬ (serve refLibraryNew strayEntry (.create 2 nameA 'd' 0 0 0)).volume.WellFormed) ∧
    (rootTwice.volume.WellFormed ∧ Succeeds refLibraryNew rootTwice (.unlink 12 nameB 2) ∧
      ¬ (serve refLibraryNew rootTwice (.unlink 12 nameB 2)).volume.WellFormed) ∧
    (plainRoot.volume.WellFormed ∧
      Succeeds refLibraryNew plainRoot (.create 13 nameA 'd' 0 0 0) ∧
      ¬ (serve refLibraryNew plainRoot (.create 13 nameA 'd' 0 0 0)).volume.WellFormed) :=
  ⟨refLibraryNew_lawful, refLibraryNew_edit,
    ⟨strayEntry_wellFormed, ⟨_, rfl⟩, strayEntry_made⟩,
    ⟨rootTwice_wellFormed, ⟨_, rfl⟩, rootTwice_removed⟩,
    plainRoot_sound.toWellFormed, ⟨_, rfl⟩, plainRoot_made⟩

end Ext
end Usbrw
