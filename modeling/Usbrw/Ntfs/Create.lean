import Usbrw.Stat
import Usbrw.Ntfs.Rename

/-!
# Ntfs.Create

`nfsk_create_impl` and `nfsk_symlink_impl`, and with them the calls that change names.

* `Libcreate`    — the library with the calls that make records.
* `nfskCreateImpl`, `nfskSymlinkImpl`, `nfskLinkImpl`, `nfskUnlinkImpl` — the code.
* `Request`      — a call that changes names.
* `LawfulCreate` — what the calls do: a new record is never one of the metadata records.
-/

namespace Usbrw
namespace Ntfs

open Call Namespace

variable {σ : Type}

/-- `forbiddenNames` gives the `errno` of a name that Windows does not allow. -/
structure Libcreate (σ : Type) extends Libntfs σ where
  forbiddenNames : List UInt16 → Option Errno
  create : NtfsInode → List UInt16 → UInt32 → EStateM Errno σ NtfsInode
  createSymlink : NtfsInode → List UInt16 → List UInt16 → EStateM Errno σ NtfsInode
  inodeCloseInDir : NtfsInode → NtfsInode → EStateM Errno σ Unit

section Entry

variable (lib : Libcreate σ)

/-- Close the new record, and return its number. -/
def finishNew (dirNi ni : NtfsInode) : EStateM Int σ UInt64 := do
  let res ← attempt (lib.inodeCloseInDir ni dirNi)
  modify (lib.inodeUpdateTimes dirNi .mctime)
  match res with
  | .ok () => pure ni.mftNo
  | .error e => throw (negErrno e)

/-- The name is one that Windows does not allow, on a volume that is mounted to refuse those. -/
def refuseName (windowsNames : Bool) (uname : List UInt16) : EStateM Int σ Unit :=
  if windowsNames then
    match lib.forbiddenNames uname with
    | some e => throw (negErrno e)
    | none => pure ()
  else pure ()

/-- `windowsNames` is the option `NFSK_OPEN_WINDOWS_NAMES` of the volume. -/
def nfskCreateImpl (windowsNames : Bool) (dirMft : UInt64) (name : List UInt8) (type : Char) :
    EStateM Int σ UInt64 := do
  if 256 ≤ name.length then throw (-ENAMETOOLONG)
  else if dirMft = FILE_Extend then throw (-EPERM)
  else
    let uname ← orFail negErrno (convert lib.toLibntfs name)
    if 255 < uname.length then throw (-ENAMETOOLONG)
    else
      let dirNi ← orFail negErrno (lib.inodeOpen dirMft)
      closing lib.toLibntfs dirNi do
        if dirNi.reparsePoint then throw (-EOPNOTSUPP)
        else
          refuseName lib windowsNames uname
          let ni ← orFail negErrno
            (lib.create dirNi uname (if type = 'd' then S_IFDIR else S_IFREG))
          finishNew lib dirNi ni

def nfskSymlinkImpl (dirMft : UInt64) (name target : List UInt8) : EStateM Int σ UInt64 := do
  if 256 ≤ name.length then throw (-ENAMETOOLONG)
  else if dirMft = FILE_Extend then throw (-EPERM)
  else
    let uname ← orFail negErrno (convert lib.toLibntfs name)
    if 255 < uname.length then throw (-ENAMETOOLONG)
    else
      let utarget ← orFail negErrno (convert lib.toLibntfs target)
      let dirNi ← orFail negErrno (lib.inodeOpen dirMft)
      closing lib.toLibntfs dirNi do
        if dirNi.reparsePoint then throw (-EOPNOTSUPP)
        else
          let ni ← orFail negErrno (lib.createSymlink dirNi uname utarget)
          finishNew lib dirNi ni

end Entry

def nfskLinkImpl (lib : Libntfs σ) (mft newDir : UInt64) (newName : List UInt8) :
    EStateM Int σ Unit :=
  if mft < FILE_first_user then throw (-EPERM)
  else nfskDoLink lib mft newDir newName false

/-- The name counts, not the caller's record number. -/
def nfskUnlinkImpl (lib : Libntfs σ) (dirMft : UInt64) (name : List UInt8) (_mft : UInt64) :
    EStateM Int σ Unit :=
  if dirMft = FILE_Extend then throw (-EPERM)
  else nfskDoUnlink lib dirMft name

inductive Request where
  | create (dirMft : UInt64) (name : List UInt8) (type : Char)
  | symlink (dirMft : UInt64) (name target : List UInt8)
  | link (mft newDir : UInt64) (newName : List UInt8)
  | unlink (dirMft : UInt64) (name : List UInt8) (mft : UInt64)
  | rename (oldDir : UInt64) (oldName : List UInt8) (newDir : UInt64) (newName : List UInt8)

/-- The call, its result aside. -/
def Request.run (lib : Libcreate σ) (windowsNames : Bool) (sched : Schedule) (renameSeq : Nat) :
    Request → EStateM Int σ Unit
  | .create dirMft name type => dropResult (nfskCreateImpl lib windowsNames dirMft name type)
  | .symlink dirMft name target => dropResult (nfskSymlinkImpl lib dirMft name target)
  | .link mft newDir newName => nfskLinkImpl lib.toLibntfs mft newDir newName
  | .unlink dirMft name mft => nfskUnlinkImpl lib.toLibntfs dirMft name mft
  | .rename oldDir oldName newDir newName =>
    nfskRenameImpl lib.toLibntfs sched renameSeq oldDir oldName newDir newName

/-! ## What the calls of the library do -/

def Namespace.create (ns : Namespace) (k : Key) (n : NtfsInode) : Namespace :=
  { ns with
    entry := Function.update ns.entry k (some n.mftNo)
    node := Function.update ns.node n.mftNo (some n) }

section Fields

variable {ns : Namespace} {k k' : Key} {n : NtfsInode} {r : UInt64}

@[simp] theorem create_pair : (ns.create k n).pair = ns.pair := rfl

@[simp] theorem create_entry_self : (ns.create k n).entry k = some n.mftNo :=
  Function.update_self ..

@[simp] theorem create_node_self : (ns.create k n).node n.mftNo = some n :=
  Function.update_self ..

theorem create_entry_of_ne (h : k' ≠ k) : (ns.create k n).entry k' = ns.entry k' :=
  Function.update_of_ne h ..

theorem create_node_of_ne (h : r ≠ n.mftNo) : (ns.create k n).node r = ns.node r :=
  Function.update_of_ne h ..

end Fields

/-- The record `n` was free, and has the entry `k` now. -/
structure Created (ns : Namespace) (k : Key) (n : NtfsInode) (ns' : Namespace) : Prop where
  absent : ns.entry k = none
  user : FILE_first_user ≤ n.mftNo
  fresh : ns.node n.mftNo = none
  eq : ns' = ns.create k n

/-- For a directory as it is, and a name of at most 255 units. -/
structure LawfulCreate (lib : Libcreate σ) (V : View σ) : Prop where
  lawful : Lawful lib.toLibntfs V
  create : ∀ ns d u t, ns.node d.mftNo = some d → u.length ≤ 255 →
    Spec (V.Is ns) (lib.create d u t) (fun n s => Created ns (d.mftNo, u) n (V.names s))
      fun _ => V.Is ns
  createSymlink : ∀ ns d u target, ns.node d.mftNo = some d → u.length ≤ 255 →
    Spec (V.Is ns) (lib.createSymlink d u target)
      (fun n s => Created ns (d.mftNo, u) n (V.names s)) fun _ => V.Is ns
  inodeCloseInDir : ∀ ns n d, Spec (V.Is ns) (lib.inodeCloseInDir n d) (fun _ => V.Is ns)
    fun _ => V.Is ns

end Ntfs
end Usbrw
