import Usbrw.Ntfs.Create
import Usbrw.Ntfs.Lookup

/-!
# Ntfs.Items

`NTFSVolume` and its items. A volume keeps an item for every record it has come across and never
changes or drops it; the item remembers the directory it was made for.

* `NTFSVolume`, `NTFSItem`     — the volume over a state of the library, and its items.
* `attributes`, `attributesOf` — what is reported of an item.
* `lookupItem`, `createItem`, `createSymbolicLink`, `removeItem`, `renameItem`, `enumerateDirectory` —
  the code.
* `VolumeCall`                 — a call that a run is made of.
-/

namespace Usbrw
namespace Ntfs

open Call

variable {σ κ α : Type}

/-- All calls a volume makes. -/
structure Libvolume (σ : Type) : Type 1 extends Libcreate σ, Libdir σ

def rootMFT : UInt64 := 5

structure NTFSItem where
  mft : UInt64
  parentMFT : UInt64

/-- An item that comes back from the kernel; `as? NTFSItem` may fail. -/
inductive FSItem where
  | ntfs (item : NTFSItem)
  | other

/-- `string` is nil for a name that is no UTF-8. -/
structure FSFileName where
  string : Option (List UInt8)

/-- What C reads of `utf8CString`. -/
def cString (bytes : List UInt8) : List UInt8 := bytes.takeWhile (· ≠ 0)

structure NTFSVolume (σ : Type) where
  raw : σ
  itemCache : UInt64 → Option NTFSItem

/-- `item(forMFT:parent:)` -/
def NTFSVolume.item (v : NTFSVolume σ) (mft parent : UInt64) : NTFSItem × NTFSVolume σ :=
  match v.itemCache mft with
  | some it => (it, v)
  | none =>
    let it : NTFSItem := ⟨mft, parent⟩
    (it, { v with itemCache := Function.update v.itemCache mft (some it) })

def itemFor (mft parent : UInt64) : EStateM Int (NTFSVolume σ) NTFSItem := fun v =>
  match v.item mft parent with
  | (it, v) => .ok it v

/-- A call of the bridge that throws `posixError(-rc)` if it fails. -/
def bridged (x : EStateM Int σ α) : EStateM Int (NTFSVolume σ) α := fun v =>
  match x v.raw with
  | .ok a s => .ok a { v with raw := s }
  | .error rc s => .error (- rc) { v with raw := s }

theorem bridged_ok_iff {x : EStateM Int σ α} {v v' : NTFSVolume σ} {a : α} :
    bridged x v = .ok a v' ↔ ∃ s, x v.raw = .ok a s ∧ v' = { v with raw := s } := by
  unfold bridged
  cases hx : x v.raw with
  | error rc s =>
    refine iff_of_false (fun h => nomatch h) ?_
    rintro ⟨_, h, _⟩
    cases h
  | ok b s =>
    constructor
    · rintro ⟨⟩
      exact ⟨s, rfl, rfl⟩
    · rintro ⟨_, h, rfl⟩
      cases h
      rfl

/-! ## Attributes -/

inductive ItemType where
  | unknown
  | file
  | directory
  | symlink
  | fifo
  | charDevice
  | blockDevice
  | socket
  deriving DecidableEq

/-- `FSItem.Identifier`, by its raw value. -/
abbrev Identifier : Type := UInt64

def parentOfRoot : Identifier := 1

/-- Past the reserved identifiers. Record numbers have 48 bits, so that the sum does not trap. -/
def itemID (mft : UInt64) : Identifier := mft + 3

/-- Of the times only `tv_sec`; `tv_nsec` is 0. -/
structure FSItemAttributes where
  type : ItemType
  fileID : Identifier
  parentID : Identifier
  mode : UInt32
  uid : UInt32
  gid : UInt32
  size : UInt64
  allocSize : UInt64
  linkCount : UInt32
  accessTime : Int64
  modifyTime : Int64
  changeTime : Int64
  birthTime : Int64
  flags : UInt32
  deriving DecidableEq

/-- `itemType(fromMode:)` -/
def itemType (mode : UInt32) : ItemType :=
  let type := mode &&& 0xF000
  if type = S_IFDIR then .directory
  else if type = S_IFREG then .file
  else if type = S_IFLNK then .symlink
  else if type = S_IFIFO then .fifo
  else if type = S_IFCHR then .charDevice
  else if type = S_IFBLK then .blockDevice
  else if type = S_IFSOCK then .socket
  else .unknown

/-- `UInt32(clamping:)` -/
def clamping (n : UInt64) : UInt32 := if n ≤ 0xFFFFFFFF then n.toUInt32 else 0xFFFFFFFF

/-- `attributes(from:parentMFT:)` -/
def attributes (st : NfskStat) (parentMFT : UInt64) : FSItemAttributes where
  type := itemType st.mode
  fileID := itemID st.mft
  parentID := if st.mft = rootMFT then parentOfRoot else itemID parentMFT
  mode := st.mode
  uid := st.uid
  gid := st.gid
  size := st.size
  allocSize := st.allocSize
  linkCount := clamping st.links
  accessTime := st.atime
  modifyTime := st.mtime
  changeTime := st.ctime
  birthTime := st.btime
  flags := st.flags

section Calls

variable (lib : Libvolume σ)

/-- The result with `*out`. -/
def nfskGetattrImpl (mft : UInt64) (s : σ) : (Int × Option NfskStat) × σ :=
  if mft ≤ 1 then ((-ENOENT, none), s) else recordStat lib.toLibdir mft s

/-- `nfsk_getattr` into an `nfsk_stat()`. -/
def getattr (mft : UInt64) : EStateM Int σ NfskStat := fun s =>
  match nfskGetattrImpl lib mft s with
  | ((rc, st), s) => if rc ≠ 0 then .error rc s else .ok (st.getD NfskStat.zero) s

/-- `attributes(of:)` -/
def attributesOf (item : FSItem) : EStateM Int (NTFSVolume σ) FSItemAttributes :=
  match item with
  | .ntfs item => do
    let st ← bridged (getattr lib item.mft)
    pure (attributes st item.parentMFT)
  | .other => throw EINVAL

/-! ## Directories -/

/-- `nfsk_lookup` of a record that is to be 0 where it does not say one. -/
def lookup (dirMft : UInt64) (name : List UInt8) : EStateM Int σ UInt64 := fun s =>
  match nfskLookupImpl lib.toLibdir dirMft name true s with
  | (ret, s) => if ret.res ≠ 0 then .error ret.res s else .ok (ret.outMft.getD 0) s

def lookupItem (name : FSFileName) (directory : FSItem) :
    EStateM Int (NTFSVolume σ) (FSItem × FSFileName) :=
  match directory, name.string with
  | .ntfs dir, some cname => do
    let mft ← bridged (lookup lib dir.mft (cString cname))
    let it ← itemFor mft dir.mft
    pure (.ntfs it, name)
  | _, _ => throw EINVAL

structure PackedEntry where
  name : List UInt8
  itemType : ItemType
  itemID : Identifier
  attributes : Option FSItemAttributes
  deriving DecidableEq

/-- `packEntry` with the cookie of the next entry: whether the packer took the entry. -/
abbrev Packer (κ : Type) : Type := κ → PackedEntry → Nat → Bool × κ

/-- The attributes are those of an item in the root, the default of `attributes(from:parentMFT:)`. -/
def packedEntry (wantAttrs : Bool) (p : Pending) : PackedEntry where
  name := p.name
  itemType := itemType p.st.mode
  itemID := itemID p.mft
  attributes := if wantAttrs then some (attributes p.st rootMFT) else none

/-- `EnumerationContext.add` -/
def add (packer : Packer κ) (wantAttrs : Bool) : NfskDirentCb κ := fun k mft name st next =>
  match packer k (packedEntry wantAttrs ⟨mft, name, st⟩) next with
  | (packed, k) => (if packed then 0 else 1, k)

def enumerateDirectory (directory : FSItem) (cookie : Nat) (wantAttrs : Bool) (packer : Packer κ) :
    EStateM Int (NTFSVolume σ × κ) Unit := fun (v, k) =>
  match directory with
  | .ntfs dir =>
    match nfskReaddirImpl lib.toLibdir dir.mft cookie wantAttrs (add packer wantAttrs)
      (v.raw, k) with
    | ((rc, _), (s, k)) =>
      if rc ≠ 0 then .error (- rc) ({ v with raw := s }, k) else .ok () ({ v with raw := s }, k)
  | .other => .error EINVAL (v, k)

/-! ## Making, removing and renaming -/

/-- `windowsNames` is an option of the volume. -/
def createItem (windowsNames : Bool) (name : FSFileName) (type : ItemType) (directory : FSItem) :
    EStateM Int (NTFSVolume σ) (FSItem × FSFileName) :=
  match directory, name.string with
  | .ntfs dir, some cname => do
    let kind := if type = .directory then 'd' else 'f'
    let mft ← bridged (nfskCreateImpl lib.toLibcreate windowsNames dir.mft (cString cname) kind)
    let it ← itemFor mft dir.mft
    pure (.ntfs it, name)
  | _, _ => throw EINVAL

def createSymbolicLink (name : FSFileName) (directory : FSItem) (contents : FSFileName) :
    EStateM Int (NTFSVolume σ) (FSItem × FSFileName) :=
  match directory, name.string, contents.string with
  | .ntfs dir, some cname, some ctarget => do
    let mft ← bridged (nfskSymlinkImpl lib.toLibcreate dir.mft (cString cname) (cString ctarget))
    let it ← itemFor mft dir.mft
    pure (.ntfs it, name)
  | _, _, _ => throw EINVAL

def removeItem (item : FSItem) (name : FSFileName) (directory : FSItem) :
    EStateM Int (NTFSVolume σ) Unit :=
  match item, directory, name.string with
  | .ntfs it, .ntfs dir, some cname =>
    bridged (nfskUnlinkImpl lib.toLibntfs dir.mft (cString cname) it.mft)
  | _, _, _ => throw EINVAL

/-- `sched` and `renameSeq` are what `nfsk_rename` meets. The items for what is renamed and what is
replaced are not used. -/
def renameItem (sched : Schedule) (renameSeq : Nat) (sourceDirectory : FSItem)
    (sourceName destinationName : FSFileName) (destinationDirectory : FSItem) :
    EStateM Int (NTFSVolume σ) FSFileName :=
  match sourceDirectory, destinationDirectory, sourceName.string, destinationName.string with
  | .ntfs srcDir, .ntfs dstDir, some cold, some cnew => do
    bridged (nfskRenameImpl lib.toLibntfs sched renameSeq srcDir.mft (cString cold) dstDir.mft
      (cString cnew))
    pure destinationName
  | _, _, _, _ => throw EINVAL

end Calls

inductive VolumeCall where
  | lookupItem (name : FSFileName) (directory : FSItem)
  | createItem (name : FSFileName) (type : ItemType) (directory : FSItem)
  | createSymbolicLink (name : FSFileName) (directory : FSItem) (contents : FSFileName)
  | removeItem (item : FSItem) (name : FSFileName) (directory : FSItem)
  | renameItem (sourceDirectory : FSItem) (sourceName destinationName : FSFileName)
      (destinationDirectory : FSItem) (sched : Schedule) (renameSeq : Nat)

def VolumeCall.run (lib : Libvolume σ) (windowsNames : Bool) :
    VolumeCall → EStateM Int (NTFSVolume σ) Unit
  | .lookupItem name directory => dropResult (Ntfs.lookupItem lib name directory)
  | .createItem name type directory =>
    dropResult (Ntfs.createItem lib windowsNames name type directory)
  | .createSymbolicLink name directory contents =>
    dropResult (Ntfs.createSymbolicLink lib name directory contents)
  | .removeItem item name directory => Ntfs.removeItem lib item name directory
  | .renameItem sourceDirectory sourceName destinationName destinationDirectory sched renameSeq =>
    dropResult (Ntfs.renameItem lib sched renameSeq sourceDirectory sourceName destinationName
      destinationDirectory)

/-- The volume after a call, which may have failed. -/
def perform (lib : Libvolume σ) (windowsNames : Bool) (v : NTFSVolume σ) (c : VolumeCall) :
    NTFSVolume σ :=
  final (c.run lib windowsNames v)

end Ntfs
end Usbrw
