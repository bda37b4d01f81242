import Mathlib.Logic.Function.Basic
import Usbrw.Ntfs.Link

/-!
# Ntfs.Xattr

Extended attributes of files and directories: each is a named `$DATA` stream of its inode, and its
name is the stream's.

* `Libxattr` — the libntfs-3g calls for it.
* `nfskGetxattrImpl`, `nfskSetxattrImpl`, `nfskRemovexattrImpl`, `nfskListxattrImpl` — the code.
* `XattrView`, `LawfulXattr` — the streams in a state of the library, and what each call does to them.
-/

namespace Usbrw
namespace Ntfs

open Call

variable {σ κ : Type}

def FILE_ATTR_SYSTEM : UInt32 := 0x4
def FILE_ATTR_ARCHIVE : UInt32 := 0x20
def FILE_ATTR_REPARSE_POINT : UInt32 := 0x400

theorem or_and_distrib (a b c : UInt32) : (a ||| b) &&& c = a &&& c ||| b &&& c :=
  UInt32.toBitVec_inj.mp BitVec.and_or_distrib_right

/-- An open named `$DATA` attribute. -/
structure StreamAttr where
  inode : NtfsInode
  name : List UInt16
  dataSize : Nat
  deriving DecidableEq

/-- A search context: the names of the `$DATA` records that `ntfs_attr_lookup` has still to find with
it (the empty name is the unnamed stream's), and the `errno` with which it fails after them. -/
structure SearchCtx where
  names : List (List UInt16)
  last : Errno

/-- `errno` is what it holds in a state where no call has just failed. `attrAdd` adds an empty
stream; the length of its name is a `u8`. -/
structure Libxattr (σ : Type) extends Libntfs σ where
  errno : σ → Int
  ucstombs : List UInt16 → Option (List UInt8)
  flags : NtfsInode → σ → UInt32
  setFlags : NtfsInode → UInt32 → σ → σ
  attrOpen : NtfsInode → List UInt16 → EStateM Errno σ StreamAttr
  attrClose : StreamAttr → σ → σ
  attrAdd : NtfsInode → List UInt16 → EStateM Errno σ Unit
  attrRm : StreamAttr → EStateM Errno σ Unit
  attrTruncate : StreamAttr → Nat → EStateM Errno σ Unit
  attrPread : StreamAttr → Nat → Nat → EStateM Errno σ (List UInt8)
  attrPwrite : StreamAttr → Nat → List UInt8 → EStateM Errno σ Nat
  attrPclose : StreamAttr → EStateM Errno σ Unit
  attrGetSearchCtx : NtfsInode → EStateM Errno σ SearchCtx

/-! ## The code -/

section Code

variable (lib : Libxattr σ)

def nfskXattrOk (ni : NtfsInode) (s : σ) : Bool :=
  if lib.flags ni s &&& FILE_ATTR_REPARSE_POINT ≠ 0 then false
  else if lib.flags ni s &&& FILE_ATTR_SYSTEM ≠ 0 then false
  else true

def checkXattr (ni : NtfsInode) (res : Int) : EStateM Int σ Unit := fun s =>
  if nfskXattrOk lib ni s then .ok () s else .error res s

def NFSK_SET_ARCHIVE (ni : NtfsInode) (s : σ) : σ :=
  lib.setFlags ni (lib.flags ni s ||| FILE_ATTR_ARCHIVE) s

/-- Unless it is marked already. -/
def markArchive (ni : NtfsInode) (s : σ) : σ :=
  if lib.flags ni s &&& FILE_ATTR_ARCHIVE = 0 then NFSK_SET_ARCHIVE lib ni s else s

/-- `out_ni`: a failing close counts only if nothing has failed before. -/
def outNi (ni : NtfsInode) (res : Int) (s : σ) : Int × σ :=
  match lib.inodeClose ni s with
  | .ok () s => (res, s)
  | .error e s => (if res = 0 then negErrno e else res, s)

def getxattrBody (name : List UInt8) (buflen : Nat) (ni : NtfsInode) :
    EStateM Int σ (Int × List UInt8) := do
  checkXattr lib ni (-ENOATTR)
  let uname ← orFail negErrno (convert lib.toLibntfs name)
  let na ← orFail (fun _ => -ENOATTR) (lib.attrOpen ni uname)
  afterwards
    (if buflen = 0 then pure ((na.dataSize : Int), [])
    else if buflen < na.dataSize then throw (-ERANGE)
    else do
      let bytes ← orFail negErrno (lib.attrPread na 0 na.dataSize)
      if bytes.length ≠ na.dataSize then throw (- EIO) else pure ((bytes.length : Int), bytes))
    (modify (lib.attrClose na) : EStateM Int σ Unit)

/-- The return value, with what was stored in the buffer. A failing close counts only if nothing has
failed before. -/
def nfskGetxattrImpl (mft : UInt64) (name : List UInt8) (buflen : Nat) (s : σ) :
    (Int × List UInt8) × σ :=
  match lib.inodeOpen mft s with
  | .error e s => ((negErrno e, []), s)
  | .ok ni s =>
    match getxattrBody lib name buflen ni s with
    | .error res s => ((res, []), final (lib.inodeClose ni s))
    | .ok (res, bytes) s =>
      match lib.inodeClose ni s with
      | .ok () s => ((res, bytes), s)
      | .error e s => ((negErrno e, bytes), s)

/-- A name of which the `int` that is its length is passed as a `u8`. -/
def u8Name (uname : List UInt16) : List UInt16 := uname.take (uname.length % 256)

/-- The attribute to write to: the existing one, emptied, or a new one. -/
def emptyAttr (ni : NtfsInode) (uname : List UInt16) : EStateM Int σ StreamAttr := do
  let found ← attempt (lib.attrOpen ni uname)
  match found with
  | .ok na =>
    onFail (orFail negErrno (lib.attrTruncate na 0))
      (modify (lib.attrClose na) : EStateM Int σ Unit)
    pure na
  | .error _ =>
    orFail negErrno (lib.attrAdd ni (u8Name uname))
    modify (markArchive lib ni)
    orFail negErrno (lib.attrOpen ni uname)

/-- `res = -errno`, whatever `errno` is. -/
def failErrno : EStateM Int σ Unit := fun s => .error (-lib.errno s) s

/-- Write what is left of the value. -/
def writeValue (na : StreamAttr) (buf : List UInt8) (total : Nat) : EStateM Int σ Unit :=
  if _hleft : total < buf.length then do
    let part ← orFail negErrno (lib.attrPwrite na total (buf.drop total))
    if _hpart : part = 0 then failErrno lib else writeValue na buf (total + part)
  else pure ()
termination_by buf.length - total
decreasing_by omega

def setxattrBody (name buf : List UInt8) (ni : NtfsInode) : EStateM Int σ Unit := do
  checkXattr lib ni (-EPERM)
  let uname ← orFail negErrno (convert lib.toLibntfs name)
  let na ← emptyAttr lib ni uname
  afterwards
    (do
      writeValue lib na buf 0
      orFail negErrno (lib.attrPclose na)
      modify (lib.inodeUpdateTimes ni .ctime)
      modify (markArchive lib ni))
    (modify (lib.attrClose na) : EStateM Int σ Unit)

/-- An open inode is worked on and closed. -/
def withInode (body : NtfsInode → EStateM Int σ Unit) (mft : UInt64) (s : σ) : Int × σ :=
  match lib.inodeOpen mft s with
  | .error e s => (negErrno e, s)
  | .ok ni s =>
    match body ni s with
    | .ok () s => outNi lib ni 0 s
    | .error res s => outNi lib ni res s

def nfskSetxattrImpl (mft : UInt64) (name buf : List UInt8) (s : σ) : Int × σ :=
  withInode lib (setxattrBody lib name buf) mft s

/-- `ntfs_attr_rm` leaves `na` to be closed. -/
def removexattrBody (name : List UInt8) (ni : NtfsInode) : EStateM Int σ Unit := do
  checkXattr lib ni (-ENOATTR)
  let uname ← orFail negErrno (convert lib.toLibntfs name)
  let na ← orFail (fun _ => -ENOATTR) (lib.attrOpen ni uname)
  afterwards
    (do
      orFail negErrno (lib.attrRm na)
      modify (lib.inodeUpdateTimes ni .ctime)
      modify (NFSK_SET_ARCHIVE lib ni))
    (modify (lib.attrClose na) : EStateM Int σ Unit)

def nfskRemovexattrImpl (mft : UInt64) (name : List UInt8) (s : σ) : Int × σ :=
  withInode lib (removexattrBody lib name) mft s

/-- `nfsk_xattr_cb`; `κ` is its context. -/
abbrev NfskXattrCb (κ : Type) : Type := κ → List UInt8 → Int × κ

/-- Report a name after another, except the unnamed stream's and those that do not convert, until the
callback wants no more. -/
def listLoop (cb : NfskXattrCb κ) (last : Errno) : List (List UInt16) → κ → Int × κ
  | [], k => (if last.val = ENOENT then 0 else negErrno last, k)
  | uname :: rest, k =>
    if uname = [] then listLoop cb last rest k
    else
      match lib.ucstombs uname with
      | none => listLoop cb last rest k
      | some name =>
        match cb k name with
        | (crc, k) => if crc = 0 then listLoop cb last rest k else (0, k)

def nfskListxattrImpl (mft : UInt64) (cb : NfskXattrCb κ) (k : κ) (s : σ) : (Int × κ) × σ :=
  match lib.inodeOpen mft s with
  | .error e s => ((negErrno e, k), s)
  | .ok ni s =>
    if nfskXattrOk lib ni s then
      match lib.attrGetSearchCtx ni s with
      | .error e s =>
        match outNi lib ni (negErrno e) s with
        | (res, s) => ((res, k), s)
      | .ok actx s =>
        match listLoop lib cb actx.last actx.names k with
        | (res, k) =>
          match outNi lib ni res s with
          | (res, s) => ((res, k), s)
    else
      match outNi lib ni 0 s with
      | (res, s) => ((res, k), s)

end Code

/-! ## The streams -/

/-- A record and the name of a stream of it. -/
abbrev Stream : Type := UInt64 × List UInt16

/-- The contents of every stream. -/
abbrev Streams : Type := Stream → Option (List UInt8)

/-- The flags that `nfsk_xattr_ok` looks at. -/
def xattrFlags : UInt32 := FILE_ATTR_REPARSE_POINT ||| FILE_ATTR_SYSTEM

/-- What a state of the library holds: the streams, and of every record these flags. -/
structure XattrView (σ : Type) where
  streams : σ → Streams
  kinds : σ → UInt64 → Option UInt32

structure XattrView.Is (V : XattrView σ) (S : Streams) (K : UInt64 → Option UInt32) (s : σ) :
    Prop where
  streams : V.streams s = S
  kinds : V.kinds s = K

/-- `bytes` in the place of what is at `pos`. -/
def overwrite (value : List UInt8) (pos : Nat) (bytes : List UInt8) : List UInt8 :=
  value.take pos ++ bytes ++ value.drop (pos + bytes.length)

/-- A call that modifies a stream may fail, and then no more is said of the streams, but that adding
one that exists is refused. A call that reads fails only if there is nothing to read, and
`ntfs_attr_pwrite` of at least a byte writes at least one. A search finds one record for each stream
and ends with `ENOENT`. -/
structure LawfulXattr (lib : Libxattr σ) (V : XattrView σ) : Prop where
  inodeOpen : ∀ S K r, Spec (V.Is S K) (lib.inodeOpen r)
    (fun ni s => (ni.mftNo = r ∧ (K r).isSome) ∧ V.Is S K s)
    fun _ s => K r = none ∧ V.Is S K s
  inodeClose : ∀ S K ni, Spec (V.Is S K) (lib.inodeClose ni) (fun _ => V.Is S K) fun _ _ => False
  inodeUpdateTimes : ∀ S K ni w s, V.Is S K s → V.Is S K (lib.inodeUpdateTimes ni w s)
  flags : ∀ S K ni s k, V.Is S K s → K ni.mftNo = some k → lib.flags ni s &&& xattrFlags = k
  /-- For flags that agree on those that are looked at. -/
  setFlags : ∀ S K ni f s, f &&& xattrFlags = lib.flags ni s &&& xattrFlags → V.Is S K s →
    V.Is S K (lib.setFlags ni f s)
  attrOpen : ∀ S K ni u, Spec (V.Is S K) (lib.attrOpen ni u)
    (fun na s => (∃ v, S (ni.mftNo, u) = some v ∧ na = ⟨ni, u, v.length⟩) ∧ V.Is S K s)
    fun _ s => S (ni.mftNo, u) = none ∧ V.Is S K s
  attrClose : ∀ S K na s, V.Is S K s → V.Is S K (lib.attrClose na s)
  attrAdd : ∀ S K ni u, u.length < 256 → S (ni.mftNo, u) = none →
    Spec (V.Is S K) (lib.attrAdd ni u)
      (fun _ => V.Is (Function.update S (ni.mftNo, u) (some [])) K) fun _ _ => True
  addExisting : ∀ S K ni u v, S (ni.mftNo, u) = some v →
    Spec (V.Is S K) (lib.attrAdd ni u) (fun _ _ => False) fun _ => V.Is S K
  attrRm : ∀ S K na, Spec (V.Is S K) (lib.attrRm na)
    (fun _ => V.Is (Function.update S (na.inode.mftNo, na.name) none) K) fun _ _ => True
  attrTruncate : ∀ S K na v, S (na.inode.mftNo, na.name) = some v →
    Spec (V.Is S K) (lib.attrTruncate na 0)
      (fun _ => V.Is (Function.update S (na.inode.mftNo, na.name) (some [])) K) fun _ _ => True
  attrPread : ∀ S K na v pos n, S (na.inode.mftNo, na.name) = some v →
    Spec (V.Is S K) (lib.attrPread na pos n)
      (fun bytes s => bytes = (v.drop pos).take n ∧ V.Is S K s) fun _ _ => False
  attrPwrite : ∀ S K na v pos bytes, S (na.inode.mftNo, na.name) = some v → pos ≤ v.length →
    bytes ≠ [] → Spec (V.Is S K) (lib.attrPwrite na pos bytes)
      (fun part s => (0 < part ∧ part ≤ bytes.length) ∧
        V.Is (Function.update S (na.inode.mftNo, na.name)
          (some (overwrite v pos (bytes.take part)))) K s) fun _ _ => True
  attrPclose : ∀ S K na, Spec (V.Is S K) (lib.attrPclose na) (fun _ => V.Is S K) fun _ _ => True
  attrGetSearchCtx : ∀ S K ni, Spec (V.Is S K) (lib.attrGetSearchCtx ni)
    (fun actx s => (actx.names.Nodup ∧ (∀ u, u ∈ actx.names ↔ (S (ni.mftNo, u)).isSome) ∧
      actx.last.val = ENOENT) ∧ V.Is S K s) fun _ _ => False

/-! ## Names that are too long -/

section Names

variable {u : List UInt16}

theorem u8Name_length (u : List UInt16) : (u8Name u).length = u.length % 256 :=
  List.length_take_of_le (Nat.mod_le ..)

theorem u8Name_lt (u : List UInt16) : (u8Name u).length < 256 := by
  rw [u8Name_length]
  exact Nat.mod_lt _ (by decide)

theorem u8Name_of_lt (h : u.length < 256) : u8Name u = u := by
  rw [u8Name, Nat.mod_eq_of_lt h, List.take_length]

theorem u8Name_ne (h : ¬ u.length < 256) : u8Name u ≠ u := by
  intro heq
  have hlt := u8Name_lt u
  rw [heq] at hlt
  exact h hlt

theorem u8Name_eq_nil_iff : u8Name u = [] ↔ u.length % 256 = 0 := by
  rw [← List.length_eq_zero_iff, u8Name_length]

end Names

end Ntfs
end Usbrw
