import Usbrw.Ext.Library

/-!
# Ext.Reference

A library that obeys the laws: a volume with a list of open files. It fails only where libext2fs
must (no such name, no such open file).
-/

namespace Usbrw
namespace Ext

open Call Region

/-- A volume with the inode and position of every file opened so far. -/
structure RefState where
  volume : Volume
  handles : List (UInt32 × Nat)

namespace RefState

def view : View RefState where
  volume := RefState.volume
  handle s f := s.handles[f]?

def inode (s : RefState) (ino : UInt32) : Ext2Inode where
  iMode := (s.volume.node ino).mode
  iLinksCount := (s.volume.node ino).links
  iUid := 0
  iGid := 0
  iSize := (s.volume.node ino).size
  iBlocks := 0
  iBlock := []
  iAtime := 0
  iMtime := 0
  iCtime := 0
  iDtime := 0

end RefState

open RefState

/-- `blocks` is what `dir_iterate2` finds on the disk. -/
def refLibrary (blocks : UInt32 → List (List DirEntry)) : Ext2fs RefState where
  fileOpen ino _ := fun s =>
    .ok s.handles.length { s with handles := s.handles ++ [(ino, 0)] }
  fileLseek f off := fun s =>
    match s.handles[f]? with
    | none => .error (.other 0) s
    | some (ino, _) => .ok () { s with handles := s.handles.set f (ino, off.toNat) }
  fileRead f len := fun s =>
    match s.handles[f]? with
    | none => .error (.other 0, []) s
    | some (ino, pos) => .ok (s.volume.bytesAt ino pos len.toNat) s
  fileWrite f buf n := fun s =>
    match s.handles[f]? with
    | none => .error (.other 0) s
    | some (ino, pos) => .ok n { s with volume := s.volume.write ino pos (buf.take n.toNat) }
  fileFlush _ := fun s => .ok () s
  fileClose _ := fun s => .ok () s
  readInode ino := fun s => .ok (s.inode ino) s
  writeInode ino inode := fun s => .ok () { s with volume := s.volume.setNode ino inode.node }
  inodeSizeSet inode size := fun s => .ok { inode with iSize := size } s
  inodeHasValidBlocks2 inode := LINUX_S_ISDIR inode.iMode || inode.iMode &&& LINUX_S_IFMT = LINUX_S_IFREG
  inodeAllocStats2 ino inuse _ s := { s with volume := s.volume.setInUse ino (0 < inuse) }
  punch ino inode _ _ := fun s => .ok inode { s with volume := s.volume.clear ino }
  lookup d name := fun s =>
    match s.volume.named d name with
    | none => .error .fileNotFound s
    | some ino => .ok ino s
  link d name ino t := fun s =>
    .ok () { s with volume := s.volume.setDir d (s.volume.dir d ++ [⟨ino, name, t⟩]) }
  unlink d name ino := fun s =>
    if (s.volume.dir d).any fun e => e.Names name ino then
      .ok () { s with volume := s.volume.unlinked d name ino }
    else .error .dirNoSpace s
  expandDir _ := fun s => .ok () s
  dirIterate2 d proc := fun st => .ok () (visitBlocks proc false (blocks d) st)
  time _ := 0

section Lawful

variable (blocks : UInt32 → List (List DirEntry))

theorem refLibrary_lawful : Lawful (refLibrary blocks) view where
  fileOpen := by
    intro v ino w s hs
    refine ⟨hs, ?_⟩
    simp [view]
  fileLseek := by
    rintro v f ino pos off s ⟨hs, hh⟩
    have hf : s.handles[f]? = some (ino, pos) := hh
    obtain ⟨hlt, _⟩ := List.getElem?_eq_some_iff.mp hf
    simp only [refLibrary, hf]
    refine ⟨hs, ?_⟩
    simp [view, hlt]
  fileRead := by
    rintro v f ino pos len s ⟨hs, hh⟩
    have hf : s.handles[f]? = some (ino, pos) := hh
    simp only [refLibrary, hf]
    exact ⟨by rw [← show s.volume = v from hs], hs⟩
  fileWrite := by
    rintro v f ino pos buf n _ _ s ⟨hs, hh⟩
    have hf : s.handles[f]? = some (ino, pos) := hh
    simp only [refLibrary, hf]
    exact ⟨trivial, by rw [← show s.volume = v from hs]; rfl⟩
  fileFlush := fun _ _ _ hs => hs
  fileClose := fun _ _ _ hs => hs
  readInode := by
    intro v ino s hs
    refine ⟨?_, hs⟩
    rw [← show s.volume = v from hs]
    rfl
  writeInode := by
    intro v ino inode s hs
    rw [← show s.volume = v from hs]
    rfl
  inodeSizeSet := fun _ _ _ _ hs => ⟨rfl, hs⟩
  inodeAllocStats2 := by
    intro v ino inuse isdir s hs
    rw [← show s.volume = v from hs]
    rfl
  punch := by
    intro v ino inode s hs
    refine ⟨rfl, v.node ino, Or.inl rfl, ?_⟩
    rw [← show s.volume = v from hs]
    simp [View.Is, view, Volume.setNode]
  lookup := by
    intro v d name s hs
    have hv : s.volume = v := hs
    simp only [refLibrary, hv]
    cases hn : v.named d name with
    | none => exact ⟨fun _ => rfl, hs⟩
    | some ino => exact ⟨rfl, hs⟩
  link := by
    intro v d name ino t s hs
    rw [← show s.volume = v from hs]
    exact ⟨s.volume.dir d, [], by simp, rfl⟩
  unlink := by
    intro v d name ino s hs
    rw [← show s.volume = v from hs]
    simp only [refLibrary]
    by_cases hany : ((s.volume.dir d).any fun e => e.Names name ino) = true
    · rw [if_pos hany]
      exact ⟨by simpa using hany, rfl⟩
    · rw [if_neg hany]
      rfl
  expandDir := by
    intro v d s hs
    refine ⟨(v.node d).size, ?_⟩
    simpa [Volume.resize, Volume.setNode, View.Is, view] using hs

end Lawful

/-- A library over a volume whose only inode in use is the regular file `ino`. -/
def oneFile (ino : UInt32) (size : UInt64) (bytes : Nat → UInt8) : RefState where
  volume :=
    { node := fun _ => ⟨LINUX_S_IFREG, 1, size⟩
      inUse := fun i => i = ino
      data := fun _ => bytes
      dir := fun _ => [] }
  handles := []

end Ext
end Usbrw
