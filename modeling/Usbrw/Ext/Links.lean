import Mathlib.Data.FinEnum
import Usbrw.Base.Tally
import Usbrw.Ext.Names

/-!
# Ext.Links

Link counts of files, and when a file is released.

* `namings`     — how many entries of allocated directories name an inode.
* `LinkExact`   — a file has as many links as entries, a free inode has none.
* `Accounted`   — a file is released in a call exactly when the call removes its last entry.
* `FileCall`    — calls on files, in directories that are allocated.
* `link_counts` — runs of such calls that return 0 keep every link count exact.
-/

namespace Usbrw
namespace Ext

open Call Run Tally Volume

variable {σ : Type}

namespace Volume

/-- An allocated directory. There is no inode 0. -/
def Directory (v : Volume) (d : UInt32) : Prop :=
  d ≠ 0 ∧ v.inUse d = true ∧ (v.node d).isDir = true

instance (v : Volume) (d : UInt32) : Decidable (v.Directory d) := by
  unfold Directory
  infer_instance

/-- The entries `d` holds if it is an allocated directory. -/
def held (v : Volume) (d : UInt32) : List Dirent := if v.Directory d then v.dir d else []

noncomputable def namings (v : Volume) (ino : UInt32) : Nat := tally v.held fun e => e.inode = ino

/-- An allocated file has as many links as entries, a free inode has no entry. -/
structure LinkExact (v : Volume) (ino : UInt32) : Prop where
  links : v.inUse ino = true → (v.node ino).isDir = false →
    (v.node ino).links.toNat = v.namings ino
  free : v.inUse ino = false → v.namings ino = 0

def LinkCounts (v : Volume) : Prop := ∀ ino, v.LinkExact ino

section Namings

variable {v w : Volume} {d : UInt32}

theorem held_of_directory (h : v.Directory d) : v.held d = v.dir d := if_pos h

theorem mem_held {e : Dirent} : e ∈ v.held d ↔ v.Directory d ∧ e ∈ v.dir d := by
  unfold held
  by_cases h : v.Directory d <;> simp [h]

theorem held_congr (hdir : w.Directory d ↔ v.Directory d)
    (hes : v.Directory d → w.dir d = v.dir d) : w.held d = v.held d := by
  unfold held
  by_cases h : v.Directory d
  · rw [if_pos h, if_pos (hdir.mpr h), hes h]
  · rw [if_neg h, if_neg fun h' => h (hdir.mp h')]

theorem directory_congr (huse : w.inUse d = v.inUse d)
    (hmode : (w.node d).mode = (v.node d).mode) : w.Directory d ↔ v.Directory d := by
  rw [Directory, Directory, huse, isDir_congr hmode]

theorem SameShape.directory (h : SameShape v w) (d : UInt32) : w.Directory d ↔ v.Directory d :=
  directory_congr (by rw [h.inUse]) (h.mode d)

theorem Linked.directory {e : Dirent} (h : Linked d e v w) (c : UInt32) :
    w.Directory c ↔ v.Directory c :=
  directory_congr (by rw [h.inUse]) (h.mode c)

theorem Linked.mem_iff {e x : Dirent} (h : Linked d e v w) {c : UInt32} :
    x ∈ w.dir c ↔ x ∈ v.dir c ∨ (c = d ∧ x = e) := by
  obtain ⟨l₁, l₂, hd, hw⟩ := h.dir
  rw [hw]
  by_cases hc : c = d
  · rw [hc, hd, Function.update_self]
    simp only [List.mem_append, List.mem_cons, true_and]
    tauto
  · rw [Function.update_of_ne hc]
    simp [hc]

end Namings

end Volume

section Namings

variable {v w : Volume} {d x i : UInt32} {name : List UInt8} {e : Dirent}

/-- `w` has the entry `e` in `d` beside those of `v`; the directories are the same. -/
structure Inserted (d : UInt32) (e : Dirent) (v w : Volume) : Prop where
  directory : ∀ c, w.Directory c ↔ v.Directory c
  dirs : ∀ c, c ≠ d → w.dir c = v.dir c
  own : ∃ l₁ l₂, v.dir d = l₁ ++ l₂ ∧ w.dir d = l₁ ++ e :: l₂

theorem Inserted.held_of_ne (h : Inserted d e v w) {c : UInt32} (hc : c ≠ d) :
    w.held c = v.held c :=
  held_congr (h.directory c) fun _ => h.dirs c hc

theorem Inserted.held (h : Inserted d e v w) (hd : v.Directory d) :
    ∃ l₁ l₂, v.held d = l₁ ++ l₂ ∧ w.held d = l₁ ++ e :: l₂ := by
  rw [held_of_directory hd, held_of_directory ((h.directory d).mpr hd)]
  exact h.own

theorem Inserted.tally (h : Inserted d e v w) (hd : v.Directory d) (p : Dirent → Bool) :
    tally w.held p = tally v.held p + if p e then 1 else 0 := by
  obtain ⟨l₁, l₂, hv, hw⟩ := h.held hd
  exact tally_insert (fun c hc => h.held_of_ne hc) hv hw

theorem Inserted.namings (h : Inserted d e v w) (hd : v.Directory d) (i : UInt32) :
    w.namings i = v.namings i + if e.inode = i then 1 else 0 := by
  have htally := h.tally hd fun e => decide (e.inode = i)
  simpa [Volume.namings] using htally

theorem Entered.directory (h : Entered d e v w) : w.Directory i ↔ v.Directory i :=
  directory_congr (by rw [h.inUse]) (h.node_mode i)

theorem Entered.inserted (h : Entered d e v w) : Inserted d e v w := by
  obtain ⟨l₁, l₂, hv, hw⟩ := h.dir
  refine ⟨fun _ => h.directory, ?_, l₁, l₂, hv, by rw [hw, Function.update_self]⟩
  intro c hc
  rw [hw, Function.update_of_ne hc]

/-- With an entry unlinked, it is the volume before that has one more. -/
theorem unlinked_inserted (hx : ∃ e ∈ v.dir d, e.Names name x) :
    ∃ a : Dirent, a.Names name x ∧ Inserted d a (v.unlinked d name x) v := by
  obtain ⟨e, he, hnames⟩ := hx
  obtain ⟨a, l₁, l₂, _, ha, hcut, herase⟩ := List.exists_of_eraseP
    (p := fun y : Dirent => decide (y.Names name x)) he (decide_eq_true hnames)
  refine ⟨a, of_decide_eq_true ha, fun _ => Iff.rfl, ?_, l₁, l₂, ?_, hcut⟩
  · exact fun c hc => (unlinked_dir_of_ne hc).symm
  · rw [unlinked_dir_self, herase]

theorem unlinked_namings (hd : v.Directory d) (hx : ∃ e ∈ v.dir d, e.Names name x) (i : UInt32) :
    (v.unlinked d name x).namings i + (if x = i then 1 else 0) = v.namings i := by
  obtain ⟨a, ⟨_, hino⟩, hins⟩ := unlinked_inserted hx
  have hcount := hins.namings (v := v.unlinked d name x) hd i
  rw [hino] at hcount
  exact hcount.symm

theorem Beside.directory (h : Beside x v w) (hfile : (v.node x).isDir = false) :
    w.Directory i ↔ v.Directory i := by
  by_cases hi : i = x
  · rw [hi, Directory, Directory, isDir_congr h.mode, hfile]
    simp
  · exact directory_congr (h.inUse i hi) (h.node_mode i)

theorem Beside.namings (h : Beside x v w) (hfile : (v.node x).isDir = false) (i : UInt32) :
    w.namings i = v.namings i := by
  have hheld : w.held = v.held := by
    funext c
    refine held_congr (h.directory hfile) fun hc => h.dirs c ?_
    rintro rfl
    rw [hc.2.2] at hfile
    cases hfile
  rw [Volume.namings, hheld, Volume.namings]

end Namings

/-! ## An entry of a file removed -/

/-- What a call may do to a file in use. It is released exactly when its last entry goes, and then
its blocks are as well. -/
structure Accounted (fs : Ext2fs σ) (v w : Volume) (i : UInt32) : Prop where
  released : w.inUse i = false ↔ 0 < v.namings i ∧ w.namings i = 0
  blocks : w.inUse i = false →
    w.data i = (fun _ => 0) ∨ Blockless fs { v.node i with links := 0 }
  kept : w.inUse i = true → w.data i = v.data i

/-- An entry for the file `x` went from the directory `d`, and its inode was given one link less. -/
structure EntryGone (fs : Ext2fs σ) (d x : UInt32) (v w : Volume) : Prop where
  directory : v.Directory d
  file : (v.node x).isDir = false
  gone : ∃ name, (∃ e ∈ v.dir d, e.Names name x) ∧ LinkDropped fs x (v.unlinked d name x) w

section Gone

variable {fs : Ext2fs σ} {v w : Volume} {d x i : UInt32}

theorem EntryGone.namings (h : EntryGone fs d x v w) (i : UInt32) :
    w.namings i + (if x = i then 1 else 0) = v.namings i := by
  obtain ⟨name, hx, hdrop⟩ := h.gone
  rw [← unlinked_namings h.directory hx i, hdrop.beside.namings h.file]

theorem EntryGone.is_directory (h : EntryGone fs d x v w) {c : UInt32} :
    w.Directory c ↔ v.Directory c := by
  obtain ⟨name, _, hdrop⟩ := h.gone
  exact hdrop.beside.directory h.file

/-- The file that lost an entry was in use, and had as many links as entries. -/
theorem EntryGone.links (h : EntryGone fs d x v w) (hx : v.LinkExact x) :
    v.inUse x = true ∧ (v.node x).links.toNat = w.namings x + 1 := by
  have hcount := h.namings x
  rw [if_pos rfl] at hcount
  have huse : v.inUse x = true := by
    by_contra hfree
    have hzero := hx.free (by simpa using hfree)
    omega
  exact ⟨huse, by rw [hx.links huse h.file, hcount]⟩

/-- It was the last entry exactly if there was one link. -/
theorem EntryGone.last_iff (h : EntryGone fs d x v w) (hx : v.LinkExact x) :
    (v.node x).links = 1 ↔ w.namings x = 0 := by
  obtain ⟨_, hlinks⟩ := h.links hx
  rw [← UInt16.toNat_inj, hlinks, UInt16.toNat_one]
  omega

theorem EntryGone.linkExact (h : EntryGone fs d x v w) (hi : v.LinkExact i) : w.LinkExact i := by
  have hcount := h.namings i
  obtain ⟨name, _, hdrop⟩ := h.gone
  by_cases hxi : x = i
  · subst hxi
    obtain ⟨huse, hlinks⟩ := h.links hi
    by_cases hone : (v.node x).links = 1
    · have hfree := (hdrop.freed hone).1
      exact ⟨fun hused => absurd hused (ne_true_of_eq_false hfree),
        fun _ => (h.last_iff hi).mp hone⟩
    · have hused : w.inUse x = true := (hdrop.kept hone).1.trans huse
      refine ⟨fun _ _ => ?_, fun hfree => absurd hused (ne_true_of_eq_false hfree)⟩
      have hne : (v.node x).links ≠ 0 := by
        intro h0
        rw [h0] at hlinks
        exact absurd hlinks (by simp)
      have hle : (1 : UInt16) ≤ (v.node x).links := by
        rw [UInt16.le_iff_toNat_le, hlinks]
        exact Nat.le_add_left 1 _
      rw [hdrop.links hne]
      show ((v.node x).links - 1).toNat = _
      rw [UInt16.toNat_sub_of_le _ _ hle, hlinks, UInt16.toNat_one, Nat.add_sub_cancel]
  · rw [if_neg hxi, Nat.add_zero] at hcount
    have hi' : i ≠ x := fun heq => hxi heq.symm
    have huse : w.inUse i = v.inUse i := hdrop.beside.inUse i hi'
    have hnode : w.node i = v.node i := hdrop.beside.nodes i hi'
    refine ⟨?_, ?_⟩
    · rw [huse, hnode, hcount]
      exact hi.links
    · rw [huse, hcount]
      exact hi.free

theorem EntryGone.accounted (h : EntryGone fs d x v w) (hx : v.LinkExact x)
    (huse : v.inUse i = true) : Accounted fs v w i := by
  have hcount := h.namings i
  obtain ⟨name, _, hdrop⟩ := h.gone
  by_cases hxi : x = i
  · subst hxi
    have hlast := h.last_iff hx
    rw [if_pos rfl] at hcount
    by_cases hone : (v.node x).links = 1
    · obtain ⟨hfree, hblocks⟩ := hdrop.freed hone
      exact ⟨iff_of_true hfree ⟨by omega, hlast.mp hone⟩, fun _ => hblocks,
        fun hused => absurd hused (ne_true_of_eq_false hfree)⟩
    · obtain ⟨hkept, hdata⟩ := hdrop.kept hone
      have hused : w.inUse x = true := hkept.trans huse
      refine ⟨iff_of_false ?_ fun hz => hone (hlast.mpr hz.2), fun hfree => ?_, fun _ => hdata⟩
      · rw [hused]
        decide
      · exact absurd hused (ne_true_of_eq_false hfree)
  · rw [if_neg hxi, Nat.add_zero] at hcount
    have hi' : i ≠ x := fun heq => hxi heq.symm
    have hused : w.inUse i = true := (hdrop.beside.inUse i hi').trans huse
    refine ⟨iff_of_false ?_ fun hz => ?_, fun hfree => ?_, fun _ => hdrop.beside.datas i hi'⟩
    · rw [hused]
      decide
    · omega
    · exact absurd hused (ne_true_of_eq_false hfree)

end Gone

/-! ## The other changes -/

/-- The files and their links are as they were: at most sizes and entries differ, and of the entries
as many name each inode. -/
structure Steady (v w : Volume) : Prop where
  namings : ∀ i, w.namings i = v.namings i
  inUse : w.inUse = v.inUse
  data : w.data = v.data
  mode : ∀ i, (w.node i).mode = (v.node i).mode
  links : ∀ i, (w.node i).links = (v.node i).links

section Steady

variable {fs : Ext2fs σ} {v w u : Volume} {i : UInt32}

theorem Steady.linkExact (h : Steady v w) (hi : v.LinkExact i) : w.LinkExact i := by
  refine ⟨?_, ?_⟩
  · rw [h.inUse, isDir_congr (h.mode i), h.links, h.namings]
    exact hi.links
  · rw [h.inUse, h.namings]
    exact hi.free

theorem Accounted.steady (ha : Accounted fs v w i) (h : Steady w u) : Accounted fs v u i := by
  refine ⟨?_, ?_, ?_⟩
  · rw [h.inUse, h.namings]
    exact ha.released
  · rw [h.inUse, h.data]
    exact ha.blocks
  · rw [h.inUse, h.data]
    exact ha.kept

theorem accounted_refl (huse : v.inUse i = true) : Accounted fs v v i := by
  refine ⟨iff_of_false ?_ ?_, ?_, fun _ => rfl⟩
  · rw [huse]
    decide
  · rintro ⟨hpos, hzero⟩
    omega
  · exact fun hfree => absurd huse (ne_true_of_eq_false hfree)

/-- One entry was added to a directory and one of the same inode went. -/
theorem steady_moved {d d' : UInt32} {old : List UInt8} {e : Dirent} (hd : v.Directory d)
    (hd' : v.Directory d') (h : Entered d e v w) (hx : ∃ x ∈ w.dir d', x.Names old e.inode) :
    Steady v (w.unlinked d' old e.inode) := by
  refine ⟨?_, h.inUse, h.data, h.node_mode, h.node_links⟩
  intro i
  have hadd := h.inserted.namings hd i
  have hsub := unlinked_namings (h.directory.mpr hd') hx i
  omega

/-- A file was made of a free inode that no entry named. -/
theorem FileMade.namings {d mode child : UInt32} {name : List UInt8}
    (h : FileMade d name mode child v w) (hmode : (newFile mode).isDir = false)
    (hd : v.Directory d) (i : UInt32) :
    w.namings i = v.namings i + if child = i then 1 else 0 := by
  obtain ⟨u, hu, rfl⟩ := h.made
  rw [← hu.inserted.namings hd i]
  have hheld : ((u.setNode child (newFile mode)).setInUse child true).held = u.held := by
    funext c
    by_cases hc : c = child
    · -- it was not allocated before, and is no directory now
      have hbefore : ¬ u.Directory c := by
        rintro ⟨_, huse, _⟩
        rw [hc, hu.inUse, h.fresh] at huse
        cases huse
      refine held_congr (iff_of_false ?_ hbefore) fun hdir => absurd hdir hbefore
      rintro ⟨_, _, hdir⟩
      rw [hc, setInUse_node, setNode_node, Function.update_self, hmode] at hdir
      cases hdir
    · refine held_congr (directory_congr ?_ ?_) fun _ => rfl
      · simp [hc]
      · simp [hc]
  rw [Volume.namings, hheld, Volume.namings]

theorem FileMade.linkExact {d mode child : UInt32} {name : List UInt8}
    (h : FileMade d name mode child v w) (hmode : (newFile mode).isDir = false)
    (hd : v.Directory d) (hi : v.LinkExact i) : w.LinkExact i := by
  have hcount := h.namings hmode hd i
  obtain ⟨u, hu, rfl⟩ := h.made
  by_cases hc : child = i
  · subst hc
    rw [if_pos rfl, hi.free h.fresh] at hcount
    refine ⟨?_, ?_⟩
    · intro _ _
      rw [hcount, setInUse_node, setNode_node, Function.update_self]
      rfl
    · intro hfree
      rw [setInUse_inUse, Function.update_self] at hfree
      cases hfree
  · rw [if_neg hc, Nat.add_zero] at hcount
    have hc' : i ≠ child := fun heq => hc heq.symm
    have hlinks : (u.node i).links = (v.node i).links := hu.node_links i
    have hdir := isDir_congr (hu.node_mode i)
    refine ⟨?_, ?_⟩
    · rw [hcount, setInUse_inUse, Function.update_of_ne hc', setInUse_node, setNode_node,
        Function.update_of_ne hc', setNode_inUse, hu.inUse, hlinks, hdir]
      exact hi.links
    · rw [hcount, setInUse_inUse, Function.update_of_ne hc', setNode_inUse, hu.inUse]
      exact hi.free

theorem FileMade.accounted {d mode child : UInt32} {name : List UInt8}
    (h : FileMade d name mode child v w) (hmode : (newFile mode).isDir = false)
    (hd : v.Directory d) (huse : v.inUse i = true) : Accounted fs v w i := by
  have hcount := h.namings hmode hd i
  obtain ⟨u, hu, rfl⟩ := h.made
  have hc : child ≠ i := by
    rintro rfl
    rw [h.fresh] at huse
    cases huse
  rw [if_neg hc, Nat.add_zero] at hcount
  have hused : ((u.setNode child (newFile mode)).setInUse child true).inUse i = true := by
    rw [setInUse_inUse, Function.update_of_ne fun heq => hc heq.symm, setNode_inUse, hu.inUse, huse]
  refine ⟨iff_of_false ?_ ?_, ?_, ?_⟩
  · rw [hused]
    decide
  · rintro ⟨hpos, hzero⟩
    omega
  · exact fun hfree => absurd hused (ne_true_of_eq_false hfree)
  · intro _
    show u.data i = v.data i
    rw [hu.data]

end Steady

/-! ## The calls -/

section Calls

variable {fs : Ext2fs σ} {V : View σ} {oldDir newDir dirIno hint : UInt64}
  {oldName newName name : List UInt8} {s s' : σ}

theorem entryGone_of_removed (hL : Lawful fs V) {x : UInt32} {s₁ s₂ : σ}
    (hdir : (V.volume s).Directory dirIno.toUInt32) (hfile : ((V.volume s).node x).isDir = false)
    (hr : Removed fs V dirIno name x s s₁ s₂)
    (h : extAfterUnlink fs x true dirIno.toUInt32 s₂ = .ok () s') :
    EntryGone fs dirIno.toUInt32 x (V.volume s) (V.volume s') := by
  have hdrop := extAfterUnlink_file hL (v := (V.volume s).unlinked dirIno.toUInt32 name x)
    (x := x) hfile dirIno.toUInt32
  exact ⟨hdir, hfile, name, hr.entry, hdrop.ok hr.volume h⟩

theorem extfskUnlink_gone (hL : Lawful fs V) (hdir : (V.volume s).Directory dirIno.toUInt32)
    (hfile : ∀ x s₁, unlinkTarget fs dirIno name hint s = .ok x s₁ →
      ((V.volume s).node x).isDir = false)
    (h : extfskUnlink fs dirIno name hint s = .ok () s') :
    ∃ x, EntryGone fs dirIno.toUInt32 x (V.volume s) (V.volume s') := by
  obtain ⟨x, s₁, s₂, htarget, hrem, h⟩ := extfskUnlink_returns hL h
  exact ⟨x, entryGone_of_removed hL hdir (hfile x s₁ htarget) hrem h⟩

theorem removeExisting_gone (hL : Lawful fs V) (hdir : (V.volume s).Directory newDir.toUInt32)
    (hfile : ∀ x s₁, Replaces fs newDir newName x s s₁ → ((V.volume s).node x).isDir = false)
    (h : removeExisting fs newDir newName s = .ok () s') :
    V.volume s' = V.volume s ∨
      ∃ x, EntryGone fs newDir.toUInt32 x (V.volume s) (V.volume s') := by
  cases removeExisting_cases hL newDir newName s with
  | inl hsame =>
    rw [h] at hsame
    exact Or.inl hsame
  | inr hdone =>
    obtain ⟨x, s₁, s₂, hrep, hrem, hrun⟩ := hdone
    rw [hrun] at h
    exact Or.inr ⟨x, entryGone_of_removed hL hdir (hfile x s₁ hrep) hrem h⟩

theorem moveEntry_steady (hL : Lawful fs V) {ino : UInt32}
    (hnew : (V.volume s).Directory newDir.toUInt32)
    (hold : (V.volume s).Directory oldDir.toUInt32)
    (h : moveEntry fs oldDir oldName newDir newName ino s = .ok () s') :
    Steady (V.volume s) (V.volume s') := by
  obtain ⟨u, hentered, hx, hs'⟩ := moveEntry_returns hL h
  rw [hs']
  exact steady_moved hnew hold hentered hx

end Calls

/-- A call on files: what it makes, removes, renames or replaces is none but a file, and it works in
directories that are allocated. -/
def FileCall (fs : Ext2fsNew σ) (V : View σ) (s : σ) : Request → Prop
  | .create dirIno _ type _ _ _ => type ≠ 'd' ∧ (V.volume s).Directory dirIno.toUInt32
  | .symlink _ _ _ => False
  | .unlink dirIno name inoHint => (V.volume s).Directory dirIno.toUInt32 ∧
    ∀ x s₁, unlinkTarget fs.toExt2fs dirIno name inoHint s = .ok x s₁ →
      ((V.volume s).node x).isDir = false
  | .rename oldDir oldName newDir newName => (V.volume s).Directory oldDir.toUInt32 ∧
    (V.volume s).Directory newDir.toUInt32 ∧
    ∀ ino inode s', Finds fs.toExt2fs oldDir oldName ino inode s s' →
      LINUX_S_ISDIR inode.iMode = false ∧ ∀ x s₁, Replaces fs.toExt2fs newDir newName x s' s₁ →
        ((V.volume s).node x).isDir = false

/-- The call returns 0. -/
def Succeeds (fs : Ext2fsNew σ) (s : σ) (r : Request) : Prop := ∃ s', answer fs r s = .ok () s'

/-- Every link count is exact, and every file in use is accounted for. -/
def CallExact (fs : Ext2fsNew σ) (V : View σ) (s : σ) (r : Request) : Prop :=
  (V.volume s).LinkCounts ∧ ∀ i, (V.volume s).inUse i = true →
    ((V.volume s).node i).isDir = false →
    Accounted fs.toExt2fs (V.volume s) (V.volume (serve fs s r)) i

section Steps

variable {fs : Ext2fsNew σ} {V : View σ} {s : σ}

theorem create_exact (hL : LawfulNew fs V) {dirIno : UInt64} {name : List UInt8} {type : Char}
    {mode uid gid : UInt32} {s' : σ} (hv : (V.volume s).LinkCounts) (htype : type ≠ 'd')
    (hdir : (V.volume s).Directory dirIno.toUInt32) {r : UInt64}
    (h : extfskCreate fs dirIno name type mode uid gid s = .ok r s') :
    (V.volume s').LinkCounts ∧ ∀ i, (V.volume s).inUse i = true →
      Accounted fs.toExt2fs (V.volume s) (V.volume s') i := by
  unfold extfskCreate at h
  by_cases hlen : 255 < name.length
  · rw [if_pos hlen] at h
    cases h
  · rw [if_neg hlen, if_neg htype] at h
    have hmade := createFile_spec hL (V.volume s) dirIno.toUInt32 name (regularMode mode) uid gid
    obtain ⟨child, _, hchild⟩ := hmade.ok rfl h
    have hmode : (newFile (regularMode mode)).isDir = false := regularMode_isDir mode
    exact ⟨fun i => hchild.linkExact hmode hdir (hv i),
      fun i huse => hchild.accounted hmode hdir huse⟩

theorem rename_exact (hL : Lawful fs.toExt2fs V) {oldDir newDir : UInt64}
    {oldName newName : List UInt8} {s' : σ} (hv : (V.volume s).LinkCounts)
    (hcall : FileCall fs V s (.rename oldDir oldName newDir newName))
    (h : extfskRename fs.toExt2fs oldDir oldName newDir newName s = .ok () s') :
    (V.volume s').LinkCounts ∧ ∀ i, (V.volume s).inUse i = true →
      Accounted fs.toExt2fs (V.volume s) (V.volume s') i := by
  obtain ⟨hold, hnew, hfiles⟩ := hcall
  obtain ⟨ino, inode, s₁, hfinds⟩ := extfskRename_returns hL h
  obtain ⟨hfile, hreplaced⟩ := hfiles ino inode s₁ hfinds
  have hs₁ : V.volume s₁ = V.volume s := (hfinds.node hL).2
  rw [hfinds.run hfile, renameFile] at h
  obtain ⟨_, t, hrem, h⟩ := bind_ok_iff.mp h
  have hgone := removeExisting_gone hL (by rw [hs₁]; exact hnew)
    (fun x s₂ hrep => by rw [hs₁]; exact hreplaced x s₂ hrep) hrem
  rw [hs₁] at hgone
  cases hgone with
  | inl hsame =>
    have hsteady := moveEntry_steady hL (by rwa [hsame]) (by rwa [hsame]) h
    rw [hsame] at hsteady
    exact ⟨fun i => hsteady.linkExact (hv i),
      fun i huse => (accounted_refl huse).steady hsteady⟩
  | inr hx =>
    obtain ⟨x, hx⟩ := hx
    have hsteady := moveEntry_steady hL (hx.is_directory.mpr hnew)
      (hx.is_directory.mpr hold) h
    exact ⟨fun i => hsteady.linkExact (hx.linkExact (hv i)),
      fun i huse => (hx.accounted (hv x) huse).steady hsteady⟩

theorem call_exact (hL : LawfulNew fs V) (hv : (V.volume s).LinkCounts) (r : Request)
    (hcall : FileCall fs V s r) (hok : Succeeds fs s r) :
    CallExact fs V s r ∧ (V.volume (serve fs s r)).LinkCounts := by
  obtain ⟨s', hrun⟩ := hok
  have hserve : serve fs s r = s' := by rw [serve, hrun, final_ok]
  suffices h : (V.volume s').LinkCounts ∧ ∀ i, (V.volume s).inUse i = true →
      Accounted fs.toExt2fs (V.volume s) (V.volume s') i by
    rw [CallExact, hserve]
    exact ⟨⟨hv, fun i huse _ => h.2 i huse⟩, h.1⟩
  cases r with
  | create dirIno name type mode uid gid =>
    obtain ⟨ino, hcreate⟩ := dropResult_ok_iff.mp hrun
    exact create_exact hL hv hcall.1 hcall.2 hcreate
  | symlink dirIno name target => exact hcall.elim
  | unlink dirIno name inoHint =>
    obtain ⟨x, hx⟩ := extfskUnlink_gone hL.lawful hcall.1 hcall.2 hrun
    exact ⟨fun i => hx.linkExact (hv i), fun i huse => hx.accounted (hv x) huse⟩
  | rename oldDir oldName newDir newName => exact rename_exact hL.lawful hv hcall hrun

/-- In a run of such calls every link count stays exact, and every file is released in the very call
that takes its last entry. -/
theorem link_counts (hL : LawfulNew fs V) {rs : List Request} (hv : (V.volume s).LinkCounts)
    (hrs : Along (serve fs) (fun s r => FileCall fs V s r ∧ Succeeds fs s r) s rs) :
    Along (serve fs) (CallExact fs V) s rs ∧ (V.volume (rs.foldl (serve fs) s)).LinkCounts := by
  refine along_of_inv (I := fun s => (V.volume s).LinkCounts) ?_ hv hrs
  intro s r hs hr
  exact call_exact hL hs r hr.1 hr.2

end Steps

/-! ## Calls on a bare root -/

theorem bareRoot_entry {c : UInt32} {e : Dirent} (he : e ∈ bareRoot.volume.dir c) :
    e.inode = 2 ∧ e.fileType = EXT2_FT_DIR := by
  by_cases hc : c = 2
  · have hdir : bareRoot.volume.dir c = [⟨2, dot, EXT2_FT_DIR⟩, ⟨2, dotdot, EXT2_FT_DIR⟩] :=
      if_pos hc
    simp only [hdir, List.mem_cons, List.not_mem_nil, or_false] at he
    obtain rfl | rfl := he <;> exact ⟨rfl, rfl⟩
  · have hdir : bareRoot.volume.dir c = [] := if_neg hc
    rw [hdir] at he
    cases he

theorem bareRoot_entries {c : UInt32} {e : Dirent} (he : e ∈ bareRoot.volume.dir c) : e.inode = 2 :=
  (bareRoot_entry he).1

theorem bareRoot_counts : bareRoot.volume.LinkCounts := by
  intro i
  have hdirs : ¬ (bareRoot.volume.node i).isDir = false :=
    (by decide : ¬ Node.isDir ⟨LINUX_S_IFDIR, 2, 1024⟩ = false)
  refine ⟨fun _ hfile => absurd hfile hdirs, ?_⟩
  intro hfree
  refine tally_eq_zero_iff.mpr ?_
  intro c e he hi
  rw [← of_decide_eq_true hi, bareRoot_entries (mem_held.mp he).2] at hfree
  exact absurd hfree (by decide)

/-- A file is made, renamed onto itself, which releases it, and made again. -/
theorem link_counts_onto_itself :
    Along (serve refLibraryNew) (CallExact refLibraryNew RefState.view) bareRoot
        [.create 2 nameA 'f' 0 0 0, .rename 2 nameA 2 nameA, .create 2 nameB 'f' 0 0 0] ∧
      ([Request.create 2 nameA 'f' 0 0 0, .rename 2 nameA 2 nameA,
        .create 2 nameB 'f' 0 0 0].foldl (serve refLibraryNew) bareRoot).volume.LinkCounts := by
  refine link_counts refLibraryNew_lawful bareRoot_counts ⟨⟨⟨by decide, by decide⟩, _, rfl⟩,
    ⟨⟨by decide, by decide, ?_⟩, _, rfl⟩, ⟨⟨by decide, by decide⟩, _, rfl⟩, trivial⟩
  intro ino inode s' hfinds
  obtain ⟨s₁, hlookup, hread⟩ := hfinds
  cases hlookup
  cases hread
  refine ⟨by decide, ?_⟩
  intro x s₂ hrep
  obtain ⟨existing, s₃, hl, ht⟩ := hrep
  cases hl
  cases ht
  decide

/-- After a file was made in inode 11, which is free, and then one in the root. -/
def takenOver : RefState :=
  [Request.create 11 nameA 'f' 0 0 0, .create 2 nameB 'f' 0 0 0].foldl (serve refLibraryNew) bareRoot

theorem takenOver_namings : takenOver.volume.namings 12 = 0 := by
  refine tally_eq_zero_iff.mpr ?_
  intro c e he hi
  obtain ⟨hdir, hmem⟩ := mem_held.mp he
  have hino := of_decide_eq_true hi
  by_cases hroot : c = 2
  · rw [hroot] at hmem
    exact absurd hino ((by decide : ∀ e ∈ takenOver.volume.dir 2, e.inode ≠ 12) e hmem)
  · by_cases hold : c = 11
    · -- it is a file now
      rw [hold] at hdir
      exact absurd hdir (by decide)
    · have hrest : takenOver.volume.dir c = bareRoot.volume.dir c := by
        show Function.update (Function.update bareRoot.volume.dir 11 _) 2 _ c = _
        rw [Function.update_of_ne hroot, Function.update_of_ne hold]
      rw [hrest] at hmem
      exact absurd ((bareRoot_entries hmem).symm.trans hino) (by decide)

/-- A file made in a directory that is not allocated has a link and no entry in any directory: the
next file that is made takes the inode of the directory. -/
theorem made_in_free_directory :
    LawfulNew refLibraryNew RefState.view ∧ bareRoot.volume.LinkCounts ∧
    (∃ s₁, answer refLibraryNew (.create 11 nameA 'f' 0 0 0) bareRoot = .ok () s₁ ∧
      answer refLibraryNew (.create 2 nameB 'f' 0 0 0) s₁ = .ok () takenOver) ∧
    takenOver.volume.inUse 12 = true ∧ (takenOver.volume.node 12).links = 1 ∧
    takenOver.volume.namings 12 = 0 ∧ ¬ takenOver.volume.LinkCounts := by
  refine ⟨refLibraryNew_lawful, bareRoot_counts, ⟨_, rfl, rfl⟩, by decide, by decide,
    takenOver_namings, ?_⟩
  intro h
  have hlinks := (h 12).links (by decide) (by decide)
  rw [takenOver_namings] at hlinks
  exact absurd hlinks (by decide)

end Ext
end Usbrw
