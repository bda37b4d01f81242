import Usbrw.Ext.Library

/-!
# Ext.Remove

`extfsk_unlink` and `extfsk_rename`: entries are added and removed by the library, and what happens
to an inode whose entry is gone is decided by `ext_after_unlink`.

* `extAfterUnlink` — a directory is released at once, any other inode with its last link.
* `extfskUnlink`   — remove an entry, whatever the inode is.
* `extfskRename`   — a directory is linked under the new name and unlinked under the old one; any
  other inode replaces what the new name stood for.
-/

namespace Usbrw
namespace Ext

open Call

variable {σ : Type}

def EXT2_FT_REG_FILE : UInt8 := 1
def EXT2_FT_DIR : UInt8 := 2
def EXT2_FT_SYMLINK : UInt8 := 7

/-- `extfsk_lookup` without `out_stat`. -/
def extfskLookup (fs : Ext2fs σ) (dirIno : UInt64) (name : List UInt8) : EStateM Int σ UInt64 := do
  let ino ← orFail (fun e => if e = .fileNotFound then - ENOENT else - EIO)
    (fs.lookup dirIno.toUInt32 name)
  pure ino.toUInt64

/-! ## `ext_after_unlink` -/

/-- Take the link away that the `..` of a removed directory gave its parent. Failures are ignored. -/
def dropParentLink (fs : Ext2fs σ) (parentIno : UInt32) (s : σ) : σ :=
  if parentIno = 0 then s
  else
    match fs.readInode parentIno s with
    | .error _ s => s
    | .ok pinode s =>
      if 1 < pinode.iLinksCount then
        match fs.writeInode parentIno
            { pinode with iLinksCount := pinode.iLinksCount - 1, iMtime := fs.time s } s with
        | .ok () s => s
        | .error _ s => s
      else s

/-- Punch the blocks of an inode that has any, mark it free and write it back. -/
def releaseInode (fs : Ext2fs σ) (ino : UInt32) (inode : Ext2Inode) (isdir : Bool) :
    EStateM Int σ Unit := do
  let inode ← if fs.inodeHasValidBlocks2 inode then
      orFail translateErrno (fs.punch ino inode 0 (-1))
    else pure inode
  modify (fs.inodeAllocStats2 ino (-1) isdir)
  orFail translateErrno (fs.writeInode ino inode)

/-- The inode with no link left, deleted at `now`. -/
def Ext2Inode.dead (inode : Ext2Inode) (now : UInt32) : Ext2Inode :=
  { inode with iLinksCount := 0, iDtime := now }

def extAfterUnlink (fs : Ext2fs σ) (ino : UInt32) (kill : Bool) (parentIno : UInt32) :
    EStateM Int σ Unit := do
  let inode ← orFail translateErrno (fs.readInode ino)
  let now := fs.time (← get)
  if ¬ kill then
    orFail translateErrno (fs.writeInode ino { inode with iCtime := now })
  else if LINUX_S_ISDIR inode.iMode then
    modify (dropParentLink fs parentIno)
    releaseInode fs ino (inode.dead now) true
  else if inode.iLinksCount = 0 then pure ()
  else if inode.iLinksCount - 1 = 0 then releaseInode fs ino (inode.dead now) false
  else
    orFail translateErrno
      (fs.writeInode ino { inode with iLinksCount := inode.iLinksCount - 1, iCtime := now })

/-! ## `extfsk_unlink` -/

/-- The inode `extfsk_unlink` is to remove: the caller's, or the one the name stands for. -/
def unlinkTarget (fs : Ext2fs σ) (dirIno : UInt64) (name : List UInt8) (inoHint : UInt64) :
    EStateM Int σ UInt32 :=
  if inoHint.toUInt32 = 0 then
    orFail (fun e => if e = .fileNotFound then - ENOENT else translateErrno e)
      (fs.lookup dirIno.toUInt32 name)
  else pure inoHint.toUInt32

def extfskUnlink (fs : Ext2fs σ) (dirIno : UInt64) (name : List UInt8) (inoHint : UInt64) :
    EStateM Int σ Unit := do
  let ino ← unlinkTarget fs dirIno name inoHint
  orFail translateErrno (fs.unlink dirIno.toUInt32 name ino)
  extAfterUnlink fs ino true dirIno.toUInt32

/-! ## `extfsk_rename` -/

def dotdotHelper (newParent : UInt32) : DirentProc σ Unit := fun dirent _ st =>
  if (dirent.nameLen &&& 0xFF) = 2 ∧ dirent.name.take 2 = dotdot then
    (⟨some { dirent with inode := newParent }, true⟩, st)
  else (⟨none, false⟩, st)

/-- `ext2fs_dir_iterate2` with `dotdot_helper`. -/
def rewriteDotdot (fs : Ext2fs σ) (ino newParent : UInt32) : EStateM Errcode σ Unit := fun s =>
  match fs.dirIterate2 ino (dotdotHelper newParent) (s, ()) with
  | .ok () (s, _) => .ok () s
  | .error e (s, _) => .error e s

/-- The link a moved directory's `..` gives its new parent. Failures are ignored. -/
def addParentLink (fs : Ext2fs σ) (parentIno : UInt32) (s : σ) : σ :=
  match fs.readInode parentIno s with
  | .error _ s => s
  | .ok pinode s =>
    match fs.writeInode parentIno { pinode with iLinksCount := pinode.iLinksCount + 1 } s with
    | .ok () s => s
    | .error _ s => s

/-- The link it gave its old one. -/
def removeParentLink (fs : Ext2fs σ) (parentIno : UInt32) (s : σ) : σ :=
  match fs.readInode parentIno s with
  | .error _ s => s
  | .ok pinode s =>
    if 1 < pinode.iLinksCount then
      match fs.writeInode parentIno { pinode with iLinksCount := pinode.iLinksCount - 1 } s with
      | .ok () s => s
      | .error _ s => s
    else s

def renameDir (fs : Ext2fs σ) (oldDir : UInt64) (oldName : List UInt8) (newDir : UInt64)
    (newName : List UInt8) (ino : UInt32) : EStateM Int σ Unit := do
  orFail translateErrno (fs.link newDir.toUInt32 newName ino EXT2_FT_DIR)
  orFail translateErrno (fs.unlink oldDir.toUInt32 oldName ino)
  if oldDir = newDir then pure ()
  else
    orFail translateErrno (rewriteDotdot fs ino newDir.toUInt32)
    modify (addParentLink fs newDir.toUInt32)
    modify (removeParentLink fs oldDir.toUInt32)

/-- `ext2fs_link`, once more after `ext2fs_expand_dir` when the directory is full. -/
def linkExpanding (fs : Ext2fs σ) (d : UInt32) (name : List UInt8) (ino : UInt32) (t : UInt8) :
    EStateM Errcode σ Unit := do
  match ← attempt (fs.link d name ino t) with
  | .ok () => pure ()
  | .error err =>
    if err = .dirNoSpace then
      fs.expandDir d
      fs.link d name ino t
    else throw err

/-- Remove what the new name stands for. A failed lookup counts as nothing there. -/
def removeExisting (fs : Ext2fs σ) (newDir : UInt64) (newName : List UInt8) :
    EStateM Int σ Unit := do
  match ← attempt (extfskLookup fs newDir newName) with
  | .ok existing => extfskUnlink fs newDir newName existing
  | .error (_ : Int) => pure ()

/-- Link the inode under the new name, unlink it under the old one; its link count stays. -/
def moveEntry (fs : Ext2fs σ) (oldDir : UInt64) (oldName : List UInt8) (newDir : UInt64)
    (newName : List UInt8) (ino : UInt32) : EStateM Int σ Unit := do
  orFail translateErrno (linkExpanding fs newDir.toUInt32 newName ino EXT2_FT_REG_FILE)
  orFail translateErrno (fs.unlink oldDir.toUInt32 oldName ino)
  extAfterUnlink fs ino false 0

def renameFile (fs : Ext2fs σ) (oldDir : UInt64) (oldName : List UInt8) (newDir : UInt64)
    (newName : List UInt8) (ino : UInt32) : EStateM Int σ Unit := do
  removeExisting fs newDir newName
  moveEntry fs oldDir oldName newDir newName ino

def extfskRename (fs : Ext2fs σ) (oldDir : UInt64) (oldName : List UInt8) (newDir : UInt64)
    (newName : List UInt8) : EStateM Int σ Unit := do
  let ino ← extfskLookup fs oldDir oldName
  let inode ← orFail translateErrno (fs.readInode ino.toUInt32)
  if LINUX_S_ISDIR inode.iMode then renameDir fs oldDir oldName newDir newName ino.toUInt32
  else renameFile fs oldDir oldName newDir newName ino.toUInt32

end Ext
end Usbrw
