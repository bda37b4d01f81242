import Usbrw.Ext.Unlink

/-!
# Ext.Create

`extfsk_create` and `extfsk_symlink`. A directory and a symbolic link are made by one call of the
library, a regular file step by step: an inode is picked, linked, written and only then marked used.

* `Ext2fsNew`     — the library with the calls that make inodes.
* `extfskCreate`, `extfskSymlink` — the two entry points.
* `Request`, `serve` — the calls that change names, and the state one of them leaves.
* `Made`          — what a call that makes an inode with its entry leaves.
* `LawfulNew`     — the laws of those calls. As elsewhere, a failing call changes nothing.
-/

namespace Usbrw
namespace Ext

open Call Volume

variable {σ : Type}

/-- The first inode that is not reserved. -/
def EXT2_GOOD_OLD_FIRST_INO : UInt32 := 11
def EXT2_GOOD_OLD_INODE_SIZE : UInt16 := 128

/-- `struct ext2_inode_large`, 160 bytes. -/
structure Ext2InodeLarge extends Ext2Inode where
  iExtraIsize : UInt16
  iCrtime : UInt32

structure Ext2fsNew (σ : Type) extends Ext2fs σ where
  newInode : UInt32 → UInt32 → EStateM Errcode σ UInt32
  writeNewInode : UInt32 → Ext2InodeLarge → EStateM Errcode σ Unit
  mkdir : UInt32 → UInt32 → List UInt8 → EStateM Errcode σ Unit
  symlink : UInt32 → UInt32 → List UInt8 → List UInt8 → EStateM Errcode σ Unit

/-! ## The entry points -/

/-- The inode a new file gets. -/
def newFileInode (mode uid gid now : UInt32) : Ext2InodeLarge where
  iMode := mode.toUInt16
  iLinksCount := 1
  iUid := (uid &&& 0xFFFF).toUInt16
  iGid := (gid &&& 0xFFFF).toUInt16
  iSize := 0
  iBlocks := 0
  iBlock := []
  iAtime := now
  iMtime := now
  iCtime := now
  iDtime := 0
  iExtraIsize := 160 - EXT2_GOOD_OLD_INODE_SIZE
  iCrtime := now

/-- The mode of a new file, whatever type the caller asked for. -/
def regularMode (mode : UInt32) : UInt32 := (mode &&& 0o7777) ||| LINUX_S_IFREG.toUInt32

/-- What is written of a file once it has its entry. -/
def finishFile (fs : Ext2fsNew σ) (child mode uid gid : UInt32) : EStateM Int σ UInt64 := do
  let now := fs.time (← get)
  orFail translateErrno (fs.writeNewInode child (newFileInode mode uid gid now))
  modify (fs.inodeAllocStats2 child 1 false)
  pure child.toUInt64

def createFile (fs : Ext2fsNew σ) (d : UInt32) (name : List UInt8) (mode uid gid : UInt32) :
    EStateM Int σ UInt64 := do
  let child ← orFail translateErrno (fs.newInode d mode)
  orFail translateErrno (linkExpanding fs.toExt2fs d name child EXT2_FT_REG_FILE)
  finishFile fs child mode uid gid

/-- The inode of a name that has just been made. -/
def lookupMade (fs : Ext2fsNew σ) (d : UInt32) (name : List UInt8) : EStateM Int σ UInt64 := do
  let child ← orFail translateErrno (fs.lookup d name)
  pure child.toUInt64

def createDir (fs : Ext2fsNew σ) (d : UInt32) (name : List UInt8) : EStateM Int σ UInt64 := do
  orFail translateErrno (fs.mkdir d 0 name)
  lookupMade fs d name

def extfskCreate (fs : Ext2fsNew σ) (dirIno : UInt64) (name : List UInt8) (type : Char)
    (mode uid gid : UInt32) : EStateM Int σ UInt64 :=
  if 255 < name.length then throw (-ENAMETOOLONG)
  else if type = 'd' then createDir fs dirIno.toUInt32 name
  else createFile fs dirIno.toUInt32 name (regularMode mode) uid gid

def extfskSymlink (fs : Ext2fsNew σ) (dirIno : UInt64) (name target : List UInt8) :
    EStateM Int σ UInt64 := do
  if 255 < name.length ∨ 4095 < target.length then throw (-ENAMETOOLONG)
  else
    orFail translateErrno (fs.symlink dirIno.toUInt32 0 name target)
    lookupMade fs dirIno.toUInt32 name

inductive Request where
  | create (dirIno : UInt64) (name : List UInt8) (type : Char) (mode uid gid : UInt32)
  | symlink (dirIno : UInt64) (name target : List UInt8)
  | unlink (dirIno : UInt64) (name : List UInt8) (inoHint : UInt64)
  | rename (oldDir : UInt64) (oldName : List UInt8) (newDir : UInt64) (newName : List UInt8)

/-- The call, its result aside. -/
def answer (fs : Ext2fsNew σ) : Request → EStateM Int σ Unit
  | .create dirIno name type mode uid gid =>
    dropResult (extfskCreate fs dirIno name type mode uid gid)
  | .symlink dirIno name target => dropResult (extfskSymlink fs dirIno name target)
  | .unlink dirIno name inoHint => extfskUnlink fs.toExt2fs dirIno name inoHint
  | .rename oldDir oldName newDir newName =>
    extfskRename fs.toExt2fs oldDir oldName newDir newName

def serve (fs : Ext2fsNew σ) (s : σ) (r : Request) : σ := final (answer fs r s)

/-! ## What the calls of the library do -/

/-- The inode `child`, free before, is used and has an entry in `d`, where there was none of that
name. -/
structure Made (d : UInt32) (name : List UInt8) (child : UInt32) (v v' : Volume) : Prop where
  fresh : v.inUse child = false
  unreserved : EXT2_GOOD_OLD_FIRST_INO ≤ child
  ne : child ≠ d
  free : ∀ e ∈ v.dir d, e.name ≠ name
  inUse : v'.inUse = Function.update v.inUse child true
  entry : ∃ l₁ l₂ t, v.dir d = l₁ ++ l₂ ∧ v'.dir d = l₁ ++ ⟨child, name, t⟩ :: l₂
  dirs : ∀ c, c ≠ d → c ≠ child → v'.dir c = v.dir c
  nodes : ∀ i, i ≠ d → i ≠ child → v'.node i = v.node i
  mode : (v'.node d).mode = (v.node d).mode

/-- A directory with `.` and `..` and two links, and a link more for its parent. -/
structure MadeDir (d : UInt32) (name : List UInt8) (child : UInt32) (v v' : Volume) : Prop
    extends Made d name child v v' where
  isDir : (v'.node child).isDir = true
  links : (v'.node child).links = 2
  own : ∃ t, v'.dir child = [⟨child, dot, t⟩, ⟨d, dotdot, t⟩]
  parent : (v'.node d).links = (v.node d).links + 1

/-- A symbolic link. -/
structure MadeSymlink (d : UInt32) (name : List UInt8) (child : UInt32) (v v' : Volume) : Prop
    extends Made d name child v v' where
  isDir : (v'.node child).isDir = false
  links : (v'.node child).links = 1
  own : v'.dir child = v.dir child ∨ v'.dir child = []
  parent : (v'.node d).links = (v.node d).links

structure LawfulNew (fs : Ext2fsNew σ) (V : View σ) : Prop where
  lawful : Lawful fs.toExt2fs V
  /-- A free inode is picked, and stays free. -/
  newInode : ∀ v d mode, Spec (V.Is v) (fs.newInode d mode)
    (fun ino s => (v.inUse ino = false ∧ EXT2_GOOD_OLD_FIRST_INO ≤ ino) ∧ V.Is v s)
    fun _ => V.Is v
  writeNewInode : ∀ v ino inode, Spec (V.Is v) (fs.writeNewInode ino inode)
    (fun _ => V.Is (v.setNode ino inode.node)) fun _ => V.Is v
  /-- An existing name is refused. -/
  mkdir : ∀ v d name, Spec (V.Is v) (fs.mkdir d 0 name)
    (fun _ s => ∃ child, MadeDir d name child v (V.volume s)) fun _ => V.Is v
  symlink : ∀ v d name target, Spec (V.Is v) (fs.symlink d 0 name target)
    (fun _ s => ∃ child, MadeSymlink d name child v (V.volume s)) fun _ => V.Is v

theorem lookupMade_same {fs : Ext2fsNew σ} {V : View σ} (hL : LawfulNew fs V) (v : Volume)
    (d : UInt32) (name : List UInt8) :
    Spec (V.Is v) (lookupMade fs d name) (fun _ => V.Is v) fun _ => V.Is v := by
  unfold lookupMade
  refine Spec.bind_orFail (hL.lawful.lookup v d name) (fun _ _ h => h.2) fun _ => ?_
  exact Spec.pure fun _ h => h.2

end Ext
end Usbrw
