import Usbrw.Ext.Create
import Usbrw.Ext.Dotdot

/-!
# Ext.ReferenceNew

A library that obeys the laws of `Ext.Create` and `Ext.Dotdot` as well: directories of one block and
an inode table of 64.

* `refLibraryNew`        — it fails only where there is nothing to find, no inode left, the name is
  taken, or an entry does not fit an on-disk one.
* `refLibraryNew_lawful` — its calls obey the laws.
-/

namespace Usbrw
namespace Ext

open Call Volume

/-! ## Entries on disk -/

def Dirent.onDisk (e : Dirent) : DirEntry where
  inode := e.inode
  recLen := 264
  nameLen := UInt16.ofNat (e.name.length + 256 * e.fileType.toNat)
  name := e.name
  recLen_pos := by decide

def Dirent.Storable (e : Dirent) : Prop := e.inode ≠ 0 ∧ e.name.length ≤ 255

instance (e : Dirent) : Decidable e.Storable := by
  unfold Dirent.Storable
  infer_instance

theorem Dirent.onDisk_nameLen {e : Dirent} (h : e.Storable) :
    (e.onDisk.nameLen &&& 0xFF).toNat = e.name.length := by
  have ht := e.fileType.toNat_lt
  have hlen := h.2
  have hmod : (e.name.length + 256 * e.fileType.toNat) % 2 ^ 16 =
      e.name.length + 256 * e.fileType.toNat := Nat.mod_eq_of_lt (by omega)
  show ((UInt16.ofNat (e.name.length + 256 * e.fileType.toNat)) &&& 0xFF).toNat = _
  rw [UInt16.toNat_and, UInt16.toNat_ofNat', hmod]
  show (e.name.length + 256 * e.fileType.toNat) &&& (2 ^ 8 - 1) = _
  rw [Nat.and_two_pow_sub_one_eq_mod]
  omega

theorem Dirent.onDisk_dirent {e : Dirent} (h : e.Storable) : e.onDisk.dirent = e := by
  have ht := e.fileType.toNat_lt
  have hlen := h.2
  have hmod : (e.name.length + 256 * e.fileType.toNat) % 2 ^ 16 =
      e.name.length + 256 * e.fileType.toNat := Nat.mod_eq_of_lt (by omega)
  have hname : e.onDisk.bytes = e.name := by
    unfold DirEntry.bytes
    rw [Dirent.onDisk_nameLen h]
    exact List.take_length
  have htype : (e.onDisk.nameLen >>> 8).toUInt8 = e.fileType := by
    refine UInt8.toNat_inj.mp ?_
    show ((UInt16.ofNat (e.name.length + 256 * e.fileType.toNat)) >>> 8).toUInt8.toNat = _
    rw [UInt16.toNat_toUInt8, UInt16.toNat_shiftRight, UInt16.toNat_ofNat', hmod]
    show (e.name.length + 256 * e.fileType.toNat) >>> 8 % 2 ^ 8 = _
    rw [Nat.shiftRight_eq_div_pow]
    omega
  unfold DirEntry.dirent
  rw [hname, htype]
  rfl

theorem liveDirents_onDisk {es : List Dirent} (h : ∀ e ∈ es, e.Storable) :
    liveDirents (es.map Dirent.onDisk) = es := by
  induction es with
  | nil => rfl
  | cons e es ih =>
    have he := h e (by simp)
    have hino : e.onDisk.inode ≠ 0 := he.1
    rw [List.map_cons, liveDirents_cons, if_pos hino, Dirent.onDisk_dirent he,
      ih fun x hx => h x (by simp [hx])]

/-! ## The calls -/

section Visit

variable {σ κ : Type}

/-- The entries of a block after a callback has visited them. -/
def visitEdit (proc : DirentProc σ κ) : Nat → List DirEntry → σ × κ → List DirEntry × (σ × κ)
  | _, [], st => ([], st)
  | offset, e :: es, st =>
    match proc e offset st with
    | (r, st) =>
      if r.abort then (r.changed.getD e :: es, st)
      else
        let q := visitEdit proc (offset + e.recLen.toNat) es st
        (r.changed.getD e :: q.1, q.2)

theorem visitEdit_eq {proc : DirentProc σ κ} {f : DirEntry → Nat → DirentRet}
    (hproc : ∀ e offset st, proc e offset st = (f e offset, st)) {es : List DirEntry}
    (h : ∀ e ∈ es, e.inode ≠ 0) (offset : Nat) (st : σ × κ) :
    visitEdit proc offset es st = ((editBlock f offset es).2, st) := by
  induction es generalizing offset with
  | nil => rfl
  | cons e es ih =>
    have hrest := ih (fun x hx => h x (by simp [hx])) (offset + e.recLen.toNat)
    rw [editBlock, if_pos (h e (by simp)), visitEdit, hproc]
    by_cases ha : (f e offset).abort = true
    · simp [ha]
    · simp [ha, hrest]

end Visit

namespace Volume

/-- The first free inode that is not reserved, `d` aside. -/
def firstFree (v : Volume) (d : UInt32) : Option UInt32 :=
  ((List.range' 11 54).map UInt32.ofNat).find? fun i => !v.inUse i && i ≠ d

def madeDir (v : Volume) (d : UInt32) (name : List UInt8) (child : UInt32) : Volume :=
  ((((v.setNode d { v.node d with links := (v.node d).links + 1 }).setNode child
    ⟨LINUX_S_IFDIR, 2, 1024⟩).setInUse child true).setDir d
      (v.dir d ++ [⟨child, name, EXT2_FT_DIR⟩])).setDir child
        [⟨child, dot, EXT2_FT_DIR⟩, ⟨d, dotdot, EXT2_FT_DIR⟩]

def madeSymlink (v : Volume) (d : UInt32) (name : List UInt8) (child : UInt32) : Volume :=
  ((v.setNode child ⟨LINUX_S_IFLNK, 1, 0⟩).setInUse child true).setDir d
    (v.dir d ++ [⟨child, name, EXT2_FT_SYMLINK⟩])

end Volume

/-- Make an inode where the name is free. -/
def RefState.make (d : UInt32) (name : List UInt8) (f : UInt32 → Volume → Volume) :
    EStateM Errcode RefState Unit := fun s =>
  if (s.volume.dir d).any fun e => e.name = name then .error (.other 1) s
  else
    match s.volume.firstFree d with
    | none => .error .inodeAllocFail s
    | some child => .ok () { s with volume := f child s.volume }

def RefState.iterate {κ : Type} (d : UInt32) (proc : DirentProc RefState κ) :
    EStateM Errcode (RefState × κ) Unit := fun st =>
  if ∀ e ∈ st.1.volume.dir d, e.Storable then
    match visitEdit proc 0 ((st.1.volume.dir d).map Dirent.onDisk) st with
    | (es, s, k) => .ok () ({ s with volume := s.volume.setDir d (liveDirents es) }, k)
  else .error (.other 0) st

def refLibraryNew : Ext2fsNew RefState where
  toExt2fs := { refLibrary fun _ => [] with dirIterate2 := RefState.iterate }
  newInode d _ := fun s =>
    match s.volume.firstFree d with
    | none => .error .inodeAllocFail s
    | some ino => .ok ino s
  writeNewInode ino inode := fun s =>
    .ok () { s with volume := s.volume.setNode ino inode.node }
  mkdir d _ name := RefState.make d name fun child v => v.madeDir d name child
  symlink d _ name _ := RefState.make d name fun child v => v.madeSymlink d name child

/-! ## Their laws -/

section Lawful

theorem refLibraryNew_ext2fs : Lawful refLibraryNew.toExt2fs RefState.view :=
  have L := refLibrary_lawful fun _ => []
  ⟨L.fileOpen, L.fileLseek, L.fileRead, L.fileWrite, L.fileFlush, L.fileClose, L.readInode,
    L.writeInode, L.inodeSizeSet, L.inodeAllocStats2, L.punch, L.lookup, L.link, L.unlink,
    L.expandDir⟩

theorem iterate_spec {κ : Type} (v : Volume) (d : UInt32) {proc : DirentProc RefState κ}
    {f : DirEntry → Nat → DirentRet} (hproc : ∀ e offset st, proc e offset st = (f e offset, st)) :
    Spec (fun st => RefState.view.Is v st.1) (RefState.iterate d proc)
      (fun _ st => ∃ blocks, WellSized blocks ∧ v.dir d = dirents blocks ∧
        RefState.view.Is (v.setDir d (dirents (editBlocks f blocks))) st.1)
      fun _ st => RefState.view.Is v st.1 := by
  intro st hst
  have hv : st.1.volume = v := hst
  unfold RefState.iterate
  by_cases h : ∀ e ∈ st.1.volume.dir d, e.Storable
  · have hlive : ∀ e ∈ (st.1.volume.dir d).map Dirent.onDisk, e.inode ≠ 0 := by
      intro e he
      obtain ⟨x, hx, rfl⟩ := List.mem_map.mp he
      exact (h x hx).1
    rw [if_pos h, visitEdit_eq hproc hlive]
    refine ⟨[(st.1.volume.dir d).map Dirent.onDisk], ?_, ?_, ?_⟩
    · intro b hb e he
      rw [List.mem_singleton.mp hb] at he
      obtain ⟨x, hx, rfl⟩ := List.mem_map.mp he
      exact Nat.le_of_eq (Dirent.onDisk_nameLen (h x hx))
    · rw [← hv, dirents, List.flatMap_singleton, liveDirents_onDisk h]
    · rw [← hv]
      simp only [editBlocks, dirents]
      split <;> simp [View.Is, RefState.view]
  · rw [if_neg h]
    exact hst

theorem refLibraryNew_edit : LawfulEdit refLibraryNew.toExt2fs RefState.view where
  dirIterate2 := fun v d _ _ hproc => iterate_spec v d hproc

theorem firstFree_spec {v : Volume} {d child : UInt32} (h : v.firstFree d = some child) :
    v.inUse child = false ∧ EXT2_GOOD_OLD_FIRST_INO ≤ child ∧ child ≠ d := by
  have hp := List.find?_some h
  have hmem := List.mem_of_find?_eq_some h
  simp only [Bool.and_eq_true, Bool.not_eq_true', decide_eq_true_eq] at hp
  refine ⟨hp.1, ?_, hp.2⟩
  obtain ⟨k, hk, rfl⟩ := List.mem_map.mp hmem
  have hrange := List.mem_range'_1.mp hk
  show (11 : UInt32) ≤ UInt32.ofNat k
  rw [UInt32.le_iff_toNat_le, UInt32.toNat_ofNat']
  show 11 ≤ k % 2 ^ 32
  rw [Nat.mod_eq_of_lt (by omega)]
  exact hrange.1

theorem made_of {v : Volume} {d child : UInt32} {name : List UInt8}
    (hfree : ¬ ((v.dir d).any fun e => e.name = name) = true) (h : v.firstFree d = some child) :
    (∀ e ∈ v.dir d, e.name ≠ name) ∧ v.inUse child = false ∧
      EXT2_GOOD_OLD_FIRST_INO ≤ child ∧ child ≠ d := by
  refine ⟨?_, firstFree_spec h⟩
  intro e he hname
  exact hfree (List.any_eq_true.mpr ⟨e, he, by simp [hname]⟩)

theorem madeDir_of {v : Volume} {d child : UInt32} {name : List UInt8}
    (hfree : ¬ ((v.dir d).any fun e => e.name = name) = true) (h : v.firstFree d = some child) :
    MadeDir d name child v (v.madeDir d name child) := by
  obtain ⟨hnames, hfresh, hres, hne⟩ := made_of hfree h
  have hne' := hne.symm
  refine ⟨⟨hfresh, hres, hne, hnames, ?_, ⟨v.dir d, [], EXT2_FT_DIR, ?_, ?_⟩, ?_, ?_, ?_⟩, ?_, ?_,
    ⟨EXT2_FT_DIR, ?_⟩, ?_⟩
  · rfl
  · simp
  · simp [madeDir, hne']
  · intro c hd hc
    simp [madeDir, hd, hc]
  · intro i hd hc
    simp [madeDir, hd, hc]
  · simp [madeDir, hne']
  · simp only [madeDir, setDir_node, setInUse_node, setNode_node, Function.update_self]
    decide
  · simp [madeDir]
  · simp [madeDir]
  · simp [madeDir, hne']

theorem madeSymlink_of {v : Volume} {d child : UInt32} {name : List UInt8}
    (hfree : ¬ ((v.dir d).any fun e => e.name = name) = true) (h : v.firstFree d = some child) :
    MadeSymlink d name child v (v.madeSymlink d name child) := by
  obtain ⟨hnames, hfresh, hres, hne⟩ := made_of hfree h
  have hne' := hne.symm
  refine ⟨⟨hfresh, hres, hne, hnames, ?_, ⟨v.dir d, [], EXT2_FT_SYMLINK, ?_, ?_⟩, ?_, ?_, ?_⟩,
    ?_, ?_, Or.inl ?_, ?_⟩
  · rfl
  · simp
  · simp [madeSymlink]
  · intro c hd hc
    simp [madeSymlink, hd]
  · intro i hd hc
    simp [madeSymlink, hc]
  · simp [madeSymlink, hne']
  · simp only [madeSymlink, setDir_node, setInUse_node, setNode_node, Function.update_self]
    decide
  · simp [madeSymlink]
  · simp [madeSymlink, hne]
  · simp [madeSymlink, hne']

theorem make_spec {v : Volume} {d : UInt32} {name : List UInt8} {f : UInt32 → Volume → Volume}
    {Q : Volume → Prop}
    (h : ∀ child, ¬ ((v.dir d).any fun e => e.name = name) = true → v.firstFree d = some child →
      Q (f child v)) :
    Spec (RefState.view.Is v) (RefState.make d name f) (fun _ s => Q (RefState.view.volume s))
      fun _ => RefState.view.Is v := by
  intro s hs
  have hv : s.volume = v := hs
  unfold RefState.make
  rw [hv]
  by_cases hany : ((v.dir d).any fun e => e.name = name) = true
  · rw [if_pos hany]
    exact hs
  · rw [if_neg hany]
    cases hf : v.firstFree d with
    | none => exact hs
    | some child => exact h child hany hf

theorem refLibraryNew_lawful : LawfulNew refLibraryNew RefState.view where
  lawful := refLibraryNew_ext2fs
  newInode := by
    intro v d mode s hs
    have hv : s.volume = v := hs
    simp only [refLibraryNew, hv]
    cases hf : v.firstFree d with
    | none => exact hs
    | some ino =>
      have hfree := firstFree_spec hf
      exact ⟨⟨hfree.1, hfree.2.1⟩, hs⟩
  writeNewInode := by
    intro v ino inode s hs
    rw [← show s.volume = v from hs]
    rfl
  mkdir := by
    intro v d name
    refine make_spec (f := fun child v => v.madeDir d name child)
      (Q := fun w => ∃ child, MadeDir d name child v w) ?_
    exact fun child hany hf => ⟨child, madeDir_of hany hf⟩
  symlink := by
    intro v d name _
    refine make_spec (f := fun child v => v.madeSymlink d name child)
      (Q := fun w => ∃ child, MadeSymlink d name child v w) ?_
    exact fun child hany hf => ⟨child, madeSymlink_of hany hf⟩

end Lawful

end Ext
end Usbrw
