import Usbrw.Ext.Create
import Usbrw.Ext.File
import Usbrw.Ext.Readdir
import Usbrw.Ext.Truncate
import Usbrw.Ntfs.Items

/-!
# Ext.Items

`EXTVolume` and its items. There is no cache as for NTFS: every call makes a new item, which knows
its inode and the directory it was made for.

* `EXTItem`, `FSItem`          — the items.
* `stringOf`                   — `String(cString:)`.
* `attributes`, `attributesOf`, `setAttributes` — what is reported of an item.
* `lookupItem`, `enumerateDirectory`, `createItem`, `removeItem`, `renameItem`, `read`, `write`,
  `readSymbolicLink`, `createSymbolicLink` — the code.
* `VolumeCall`                 — a call that a run is made of.
-/

namespace Usbrw
namespace Ext

open Call
open Ntfs (FSFileName Identifier ItemType clamping itemType parentOfRoot)

variable {σ κ α : Type}

/-- All calls a volume makes. -/
structure Ext2fsVolume (σ : Type) : Type 1 extends Ext2fsNew σ where
  isFastSymlink : Ext2Inode → Bool

def rootIno : UInt64 := 2

structure EXTItem where
  ino : UInt64
  parentIno : UInt64
  deriving DecidableEq

/-- An item that comes back from the kernel; `as? EXTItem` may fail. -/
inductive FSItem where
  | ext (item : EXTItem)
  | other

/-- A call of the bridge that throws `posixError(-rc)` if it fails. -/
def thrown (x : EStateM Int σ α) : EStateM Int σ α := orFail (fun rc => - rc) x

/-! ## Strings -/

/-- The ranges of the bytes that may follow a byte at the head of a character. -/
def continuations (b : UInt8) : Option (List (UInt8 × UInt8)) :=
  if 0xC2 ≤ b ∧ b ≤ 0xDF then some [(0x80, 0xBF)]
  else if b = 0xE0 then some [(0xA0, 0xBF), (0x80, 0xBF)]
  else if b = 0xED then some [(0x80, 0x9F), (0x80, 0xBF)]
  else if 0xE1 ≤ b ∧ b ≤ 0xEF then some [(0x80, 0xBF), (0x80, 0xBF)]
  else if b = 0xF0 then some [(0x90, 0xBF), (0x80, 0xBF), (0x80, 0xBF)]
  else if b = 0xF4 then some [(0x80, 0x8F), (0x80, 0xBF), (0x80, 0xBF)]
  else if 0xF1 ≤ b ∧ b ≤ 0xF3 then some [(0x80, 0xBF), (0x80, 0xBF), (0x80, 0xBF)]
  else none

/-- How many bytes follow as they may. -/
def continued : List (UInt8 × UInt8) → List UInt8 → Nat
  | r :: rs, b :: bs => if r.1 ≤ b ∧ b ≤ r.2 then continued rs bs + 1 else 0
  | _, _ => 0

/-- U+FFFD for every byte that begins no character, and for every character that is cut short. -/
def repairUTF8 : List UInt8 → List UInt8
  | [] => []
  | b :: bs =>
    if b < 0x80 then b :: repairUTF8 bs
    else
      match continuations b with
      | none => [0xEF, 0xBF, 0xBD] ++ repairUTF8 bs
      | some rs =>
        let n := continued rs bs
        let head := if n = rs.length then b :: bs.take n else [0xEF, 0xBF, 0xBD]
        head ++ repairUTF8 (bs.drop n)
termination_by bs => bs.length
decreasing_by all_goals (simp only [List.length_cons, List.length_drop]; omega)

/-- `String(cString:)`: what is no UTF-8 is repaired. -/
def stringOf (bytes : List UInt8) : List UInt8 :=
  if bytes.toByteArray.utf8Decode?.isSome then bytes else repairUTF8 bytes

/-! ## Attributes -/

/-- Past the reserved identifiers. Inode numbers have 32 bits, so that the sum does not trap. -/
def itemID (ino : UInt64) : Identifier := ino + 3

/-- Of the times only `tv_sec`; `tv_nsec` is 0. -/
structure FSItemAttributes where
  type : ItemType
  fileID : Identifier
  parentID : Identifier
  mode : UInt32
  uid : UInt32
  gid : UInt32
  size : UInt64
  allocSize : UInt64
  linkCount : UInt32
  accessTime : Int64
  modifyTime : Int64
  changeTime : Int64
  addedTime : Int64
  deriving DecidableEq

/-- `attributes(from:parentIno:)` -/
def attributes (st : NfskStat) (parentIno : UInt64) : FSItemAttributes where
  type := itemType st.mode
  fileID := itemID st.mft
  parentID := if st.mft = rootIno then parentOfRoot else itemID parentIno
  mode := st.mode
  uid := st.uid
  gid := st.gid
  size := st.size
  allocSize := st.allocSize
  linkCount := clamping st.links
  accessTime := st.atime
  modifyTime := st.mtime
  changeTime := st.ctime
  addedTime := st.btime

section Calls

variable (fs : Ext2fsVolume σ)

/-- `attributes(of:)` -/
def attributesOf (item : FSItem) : EStateM Int σ FSItemAttributes :=
  match item with
  | .ext item => do
    let st ← thrown (extfskGetattr fs.toExt2fs item.ino)
    pure (attributes st item.parentIno)
  | .other => throw EINVAL

/-- `extfsk_getattr` into `old`, the result ignored. -/
def statInto (old : NfskStat) (ino : UInt64) : EStateM Int σ NfskStat := fun s =>
  match extfskGetattr fs.toExt2fs ino s with
  | .ok st s => .ok st s
  | .error _ s => .ok old s

/-- `size` is that of the request, if it has one; all else in it is accepted and dropped. -/
def setAttributes (blocksize : UInt32) (size : Option UInt64) (item : FSItem) :
    EStateM Int σ FSItemAttributes :=
  match item with
  | .ext item => do
    let old ← statInto fs NfskStat.zero item.ino
    match size with
    | some size => thrown (extfskTruncate fs.toExt2fs blocksize item.ino size)
    | none => pure ()
    let st ← statInto fs old item.ino
    pure (attributes st item.parentIno)
  | .other => throw EINVAL

/-! ## Directories -/

def lookupItem (name : FSFileName) (directory : FSItem) : EStateM Int σ (FSItem × FSFileName) :=
  match directory, name.string with
  | .ext dir, some cname => do
    let ino ← thrown (extfskLookup fs.toExt2fs dir.ino (cstr cname))
    pure (.ext ⟨ino, dir.ino⟩, name)
  | _, _ => throw EINVAL

structure PackedEntry where
  name : FSFileName
  itemType : ItemType
  itemID : Identifier
  attributes : FSItemAttributes

/-- `packEntry` with the cookie of the next entry: whether the packer took the entry. -/
abbrev Packer (κ : Type) : Type := κ → PackedEntry → Nat → Bool × κ

/-- The attributes are always there: `rd_proc` passes a `nfsk_stat` even if it could not fill it. -/
def packedEntry (dirIno ino : UInt64) (name : List UInt8) (st : NfskStat) : PackedEntry where
  name := ⟨some (stringOf name)⟩
  itemType := itemType st.mode
  itemID := itemID ino
  attributes := attributes st dirIno

/-- The callback of `enumerateDirectory`. -/
def packing (packer : Packer κ) (dirIno : UInt64) : ExtfskDirentCb κ := fun k ino name st next =>
  match packer k (packedEntry dirIno ino name st) next with
  | (packed, k) => (if packed then 0 else 1, k)

def enumerateDirectory (directory : FSItem) (cookie : Nat) (packer : Packer κ) :
    EStateM Int (σ × κ) Unit :=
  match directory with
  | .ext dir =>
    dropResult (thrown (extfskReaddir fs.toExt2fs dir.ino cookie (packing packer dir.ino)))
  | .other => throw EINVAL

/-! ## Making, removing and renaming -/

def createItem (name : FSFileName) (type : ItemType) (directory : FSItem) (mode uid gid : UInt32) :
    EStateM Int σ (FSItem × FSFileName) :=
  match directory, name.string with
  | .ext dir, some cname => do
    let kind := if type = .directory then 'd' else 'f'
    let ino ← thrown (extfskCreate fs.toExt2fsNew dir.ino (cstr cname) kind mode uid gid)
    pure (.ext ⟨ino, dir.ino⟩, name)
  | _, _ => throw EINVAL

def createSymbolicLink (name : FSFileName) (directory : FSItem) (contents : FSFileName) :
    EStateM Int σ (FSItem × FSFileName) :=
  match directory, name.string, contents.string with
  | .ext dir, some cname, some ctarget => do
    let ino ← thrown (extfskSymlink fs.toExt2fsNew dir.ino (cstr cname) (cstr ctarget))
    pure (.ext ⟨ino, dir.ino⟩, name)
  | _, _, _ => throw EINVAL

def removeItem (item : FSItem) (name : FSFileName) (directory : FSItem) : EStateM Int σ Unit :=
  match item, directory, name.string with
  | .ext it, .ext dir, some cname =>
    thrown (extfskUnlink fs.toExt2fs dir.ino (cstr cname) it.ino)
  | _, _, _ => throw EINVAL

/-- The items for what is renamed and what is replaced are not used. -/
def renameItem (sourceDirectory : FSItem) (sourceName destinationName : FSFileName)
    (destinationDirectory : FSItem) : EStateM Int σ FSFileName :=
  match sourceDirectory, destinationDirectory, sourceName.string, destinationName.string with
  | .ext srcDir, .ext dstDir, some cold, some cnew => do
    thrown (extfskRename fs.toExt2fs srcDir.ino (cstr cold) dstDir.ino (cstr cnew))
    pure destinationName
  | _, _, _, _ => throw EINVAL

/-! ## Contents -/

/-- `room` is the length of the buffer, none when it has no address. Offsets are not negative, which
`UInt64(offset)` would trap on. -/
def read (item : FSItem) (offset length : UInt64) (room : Option UInt64) :
    EStateM Int σ (List UInt8) :=
  match item, room with
  | .ext it, some room => thrown (extfskRead fs.toExt2fs it.ino offset (min length room))
  | _, _ => throw EINVAL

/-- `contents` is none when it has no address. -/
def write (writable : Bool) (contents : Option (List UInt8)) (item : FSItem) (offset : UInt64) :
    EStateM Int σ UInt32 :=
  if ¬ writable then throw EROFS
  else
    match item, contents with
    | .ext it, some bytes => thrown (extfskWrite fs.toExt2fs it.ino offset bytes)
    | _, _ => throw EINVAL

/-- The bytes of `i_block`, which a fast symbolic link keeps its target in. -/
def blockBytes (i : Ext2Inode) : List UInt8 :=
  i.iBlock.flatMap fun n : UInt32 =>
    [n.toUInt8, (n >>> 8).toUInt8, (n >>> 16).toUInt8, (n >>> 24).toUInt8]

def LINUX_S_ISLNK (mode : UInt16) : Bool := mode &&& LINUX_S_IFMT = LINUX_S_IFLNK

/-- What is in `buf` before the zero that ends it. -/
def extfskReadlink (ino buflen : UInt64) : EStateM Int σ (List UInt8) := do
  let inode ← orFail translateErrno (fs.readInode ino.toUInt32)
  if ¬ LINUX_S_ISLNK inode.iMode then throw (-EINVAL)
  else if fs.isFastSymlink inode then
    pure ((cstr ((blockBytes inode).take 60)).take (buflen.toNat - 1))
  else extfskRead fs.toExt2fs ino 0 (buflen - 1)

def readSymbolicLink (item : FSItem) : EStateM Int σ FSFileName :=
  match item with
  | .ext it => do
    let bytes ← thrown (extfskReadlink fs it.ino 4096)
    pure ⟨some (stringOf (cstr bytes))⟩
  | .other => throw EINVAL

end Calls

/-! ## Runs -/

/-- `limit` is how many entries the packer of an enumeration takes. -/
inductive VolumeCall where
  | attributes (item : FSItem)
  | setAttributes (size : Option UInt64) (item : FSItem)
  | lookupItem (name : FSFileName) (directory : FSItem)
  | enumerateDirectory (directory : FSItem) (cookie limit : Nat)
  | createItem (name : FSFileName) (type : ItemType) (directory : FSItem) (mode uid gid : UInt32)
  | createSymbolicLink (name : FSFileName) (directory : FSItem) (contents : FSFileName)
  | removeItem (item : FSItem) (name : FSFileName) (directory : FSItem)
  | renameItem (sourceDirectory : FSItem) (sourceName destinationName : FSFileName)
      (destinationDirectory : FSItem)
  | read (item : FSItem) (offset length : UInt64) (room : Option UInt64)
  | write (contents : Option (List UInt8)) (item : FSItem) (offset : UInt64)
  | readSymbolicLink (item : FSItem)

/-- Take entries until there are `limit`, then report the packer full. -/
def packUpTo (limit : Nat) : Packer (List PackedEntry) := fun got e _ =>
  if got.length < limit then (true, got ++ [e]) else (false, got)

/-- The volume after a call, which may have failed. -/
def perform (fs : Ext2fsVolume σ) (blocksize : UInt32) (writable : Bool) (s : σ) : VolumeCall → σ
  | .attributes item => final (attributesOf fs item s)
  | .setAttributes size item => final (setAttributes fs blocksize size item s)
  | .lookupItem name directory => final (lookupItem fs name directory s)
  | .enumerateDirectory directory cookie limit =>
    (final (enumerateDirectory fs directory cookie (packUpTo limit) (s, []))).1
  | .createItem name type directory mode uid gid =>
    final (createItem fs name type directory mode uid gid s)
  | .createSymbolicLink name directory contents =>
    final (createSymbolicLink fs name directory contents s)
  | .removeItem item name directory => final (removeItem fs item name directory s)
  | .renameItem sourceDirectory sourceName destinationName destinationDirectory =>
    final (renameItem fs sourceDirectory sourceName destinationName destinationDirectory s)
  | .read item offset length room => final (read fs item offset length room s)
  | .write contents item offset => final (write fs writable contents item offset s)
  | .readSymbolicLink item => final (readSymbolicLink fs item s)

end Ext
end Usbrw
