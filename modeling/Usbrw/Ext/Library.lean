import Mathlib.Algebra.Group.Nat.Defs
import Usbrw.Errno
import Usbrw.Base.Call
import Usbrw.Ext.Volume

/-!
# Ext.Library

The libext2fs calls that `ext_fskit.c` makes, over a state `σ` of the library.

* `Ext2fs`  — the calls. Each returns its result or an `errcode_t` other than 0.
* `View`    — the volume and the open files in a state of the library.
* `Lawful`  — what each call does to them. Except for a failing write, a failing call changes
  nothing.
-/

namespace Usbrw
namespace Ext

open Call Region

/-- The error codes `ext_fskit.c` tells apart. -/
inductive Errcode where
  | fileNotFound
  | noMemory
  | inodeAllocFail
  | blockAllocFail
  | dirNoSpace
  | other (code : Int)
  deriving DecidableEq

def translateErrno : Errcode → Int
  | .fileNotFound => -ENOENT
  | .noMemory => -ENOMEM
  | .inodeAllocFail => -ENOSPC
  | .blockAllocFail => -ENOSPC
  | _ => - EIO

/-- `struct ext2_inode`; `iSize` is `EXT2_I_SIZE`. -/
structure Ext2Inode where
  iMode : UInt16
  iLinksCount : UInt16
  iUid : UInt16
  iGid : UInt16
  iSize : UInt64
  iBlocks : UInt32
  iBlock : List UInt32
  iAtime : UInt32
  iMtime : UInt32
  iCtime : UInt32
  iDtime : UInt32

def Ext2Inode.node (i : Ext2Inode) : Node := ⟨i.iMode, i.iLinksCount, i.iSize⟩

/-- What the bridge tests is what the volume says. -/
theorem isDir_of_node {i : Ext2Inode} {n : Node} (h : i.node = n) :
    LINUX_S_ISDIR i.iMode = n.isDir :=
  congrArg Node.isDir h

/-- `struct ext2_dir_entry`: an entry in its block. The low byte of `nameLen` is the length of the
name, the high byte its file type; an entry is never empty. -/
structure DirEntry where
  inode : UInt32
  recLen : UInt16
  nameLen : UInt16
  name : List UInt8
  recLen_pos : 0 < recLen.toNat

/-- What a `dir_iterate2` callback returns: `DIRENT_CHANGED` with the entry, `DIRENT_ABORT`. -/
structure DirentRet where
  changed : Option DirEntry
  abort : Bool

/-- A `dir_iterate2` callback on the entry at `offset`; `κ` is its private data. -/
abbrev DirentProc (σ κ : Type) : Type := DirEntry → Nat → σ × κ → DirentRet × (σ × κ)

/-- A read that fails also says what it had read, a write that fails says nothing. -/
structure Ext2fs (σ : Type) : Type 1 where
  fileOpen : UInt32 → Bool → EStateM Errcode σ Nat
  fileLseek : Nat → UInt32 → EStateM Errcode σ Unit
  fileRead : Nat → UInt32 → EStateM (Errcode × List UInt8) σ (List UInt8)
  fileWrite : Nat → List UInt8 → UInt32 → EStateM Errcode σ UInt32
  fileFlush : Nat → EStateM Errcode σ Unit
  fileClose : Nat → EStateM Errcode σ Unit
  readInode : UInt32 → EStateM Errcode σ Ext2Inode
  writeInode : UInt32 → Ext2Inode → EStateM Errcode σ Unit
  inodeSizeSet : Ext2Inode → UInt64 → EStateM Errcode σ Ext2Inode
  inodeHasValidBlocks2 : Ext2Inode → Bool
  inodeAllocStats2 : UInt32 → Int → Bool → σ → σ
  punch : UInt32 → Ext2Inode → UInt64 → UInt64 → EStateM Errcode σ Ext2Inode
  lookup : UInt32 → List UInt8 → EStateM Errcode σ UInt32
  link : UInt32 → List UInt8 → UInt32 → UInt8 → EStateM Errcode σ Unit
  unlink : UInt32 → List UInt8 → UInt32 → EStateM Errcode σ Unit
  expandDir : UInt32 → EStateM Errcode σ Unit
  dirIterate2 : {κ : Type} → UInt32 → DirentProc σ κ → EStateM Errcode (σ × κ) Unit
  time : σ → UInt32

variable {σ : Type}

section Iterate

variable {κ : Type} (proc : DirentProc σ κ) (deleted : Bool)

/-- Visit the entries of a block from the one at `offset` on, deleted ones only if `deleted`. -/
def visitBlock : Nat → List DirEntry → σ × κ → Bool × (σ × κ)
  | _, [], st => (false, st)
  | offset, e :: es, st =>
    if e.inode ≠ 0 ∨ deleted then
      match proc e offset st with
      | (r, st) => if r.abort then (true, st) else visitBlock (offset + e.recLen.toNat) es st
    else visitBlock (offset + e.recLen.toNat) es st

/-- Visit block after block; every block starts at offset 0 again. -/
def visitBlocks : List (List DirEntry) → σ × κ → σ × κ
  | [], st => st
  | b :: bs, st =>
    match visitBlock proc deleted 0 b st with
    | (true, st) => st
    | (false, st) => visitBlocks bs st

end Iterate

/-- `handle` gives an open file's inode and its position. -/
structure View (σ : Type) where
  volume : σ → Volume
  handle : σ → Nat → Option (UInt32 × Nat)

namespace View

def Is (V : View σ) (v : Volume) (s : σ) : Prop := V.volume s = v

theorem Is.eq {V : View σ} {v : Volume} {s : σ} (h : V.Is v s) : V.volume s = v := h

def At (V : View σ) (v : Volume) (f : Nat) (ino : UInt32) (pos : Nat) (s : σ) : Prop :=
  V.volume s = v ∧ V.handle s f = some (ino, pos)

end View

structure Lawful (fs : Ext2fs σ) (V : View σ) : Prop where
  fileOpen : ∀ v ino w, Spec (V.Is v) (fs.fileOpen ino w) (fun f => V.At v f ino 0) fun _ => V.Is v
  fileLseek : ∀ v f ino pos off, Spec (V.At v f ino pos) (fs.fileLseek f off)
    (fun _ => V.At v f ino off.toNat) fun _ => V.Is v
  fileRead : ∀ v f ino pos len, Spec (V.At v f ino pos) (fs.fileRead f len)
    (fun bs s => bs = v.bytesAt ino pos len.toNat ∧ V.Is v s)
    fun r s => (r.1 ≠ .fileNotFound ∧ r.1 ≠ .blockAllocFail) ∧ V.Is v s
  fileWrite : ∀ v f ino pos buf n, n.toNat ≤ buf.length → pos + n.toNat < 2 ^ 64 →
    Spec (V.At v f ino pos) (fs.fileWrite f buf n)
      (fun m s => m = n ∧ V.Is (v.write ino pos (buf.take n.toNat)) s)
      fun _ s => ∃ k size, k ≤ n.toNat ∧ V.Is ((v.store ino pos (buf.take k)).resize ino size) s
  fileFlush : ∀ v f, Spec (V.Is v) (fs.fileFlush f) (fun _ => V.Is v) fun _ => V.Is v
  fileClose : ∀ v f, Spec (V.Is v) (fs.fileClose f) (fun _ => V.Is v) fun _ => V.Is v
  readInode : ∀ v ino, Spec (V.Is v) (fs.readInode ino)
    (fun inode s => inode.node = v.node ino ∧ V.Is v s) fun _ => V.Is v
  writeInode : ∀ v ino inode, Spec (V.Is v) (fs.writeInode ino inode)
    (fun _ => V.Is (v.setNode ino inode.node)) fun _ => V.Is v
  inodeSizeSet : ∀ v inode size, Spec (V.Is v) (fs.inodeSizeSet inode size)
    (fun inode' s => inode' = { inode with iSize := size } ∧ V.Is v s) fun _ => V.Is v
  inodeAllocStats2 : ∀ v ino inuse isdir s, V.Is v s →
    V.Is (v.setInUse ino (0 < inuse)) (fs.inodeAllocStats2 ino inuse isdir s)
  /-- Punching from block 0 to the end. -/
  punch : ∀ v ino inode, Spec (V.Is v) (fs.punch ino inode 0 (-1))
    (fun inode' s => inode'.node = inode.node ∧
      ∃ n, (n = v.node ino ∨ n = inode.node) ∧ V.Is ((v.setNode ino n).clear ino) s)
    fun _ => V.Is v
  lookup : ∀ v d name, Spec (V.Is v) (fs.lookup d name)
    (fun ino s => v.named d name = some ino ∧ V.Is v s)
    fun e s => (e = .fileNotFound → v.named d name = none) ∧ V.Is v s
  /-- An entry is added, whatever entries there are. -/
  link : ∀ v d name ino t, Spec (V.Is v) (fs.link d name ino t)
    (fun _ s => ∃ l₁ l₂, v.dir d = l₁ ++ l₂ ∧ V.Is (v.setDir d (l₁ ++ ⟨ino, name, t⟩ :: l₂)) s)
    fun _ => V.Is v
  /-- The first entry of that name and inode is removed. -/
  unlink : ∀ v d name ino, Spec (V.Is v) (fs.unlink d name ino)
    (fun _ s => (∃ e ∈ v.dir d, e.Names name ino) ∧ V.Is (v.unlinked d name ino) s)
    fun _ => V.Is v
  expandDir : ∀ v d, Spec (V.Is v) (fs.expandDir d)
    (fun _ s => ∃ size, V.Is (v.resize d size) s) fun _ => V.Is v

end Ext
end Usbrw
