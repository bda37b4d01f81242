import Usbrw.Base.Mutex
import Usbrw.Stat

/-!
# Ntfs.Bridge

The public entry points of the bridge that take `g_nfsk_mu`, and what the calling thread does to it.

* `World`, `Bridge` — a state of the library and of the caller's memory, and the locks and unlocks.
* `Calls`           — the calls made under the lock. None of them takes it.
* `nfskOpenEx`, `nfskClose`, `nfskSyncVolume` — lock and unlock by hand.
* `locked`          — the other entry points.
* `Request`         — a call of an entry point with its arguments.
-/

namespace Usbrw
namespace Ntfs
namespace Locked

open Mutex

/-- An address of the caller or of the library. -/
abbrev Pointer : Type := UInt64

def NULL : Pointer := 0

/-- The bytes of a string, or NULL. -/
abbrev CString : Type := Option (List UInt8)

def EINVAL : Int32 := 22

structure World (σ : Type) where
  lib : σ
  events : List Event

abbrev Bridge (σ α : Type) : Type := StateM (World σ) α

/-- `nfsk_blockio`. The callbacks are addresses here. -/
structure NfskBlockio where
  ctx : Pointer
  read : Pointer
  write : Pointer
  sync : Pointer
  readonly : Int32
  blockSize : UInt32
  blockCount : UInt64

structure NfskVolume where
  vol : Pointer
  dev : Pointer
  io : NfskBlockio
  opts : UInt32

def NFSK_OPEN_REMOVE_HIBERFILE : Int32 := 0x1
def NFSK_OPEN_HIDE_HID_FILES : Int32 := 0x4
def NFSK_OPEN_HIDE_DOT_FILES : Int32 := 0x8
def NFSK_OPEN_NORECOVER : Int32 := 0x20
def NFSK_OPEN_NO_COMPRESSION : Int32 := 0x40
def NFSK_OPEN_SHOW_SYS_FILES : Int32 := 0x80

/-- `NTFS_MNT_RDONLY` and the others. `NTFS_MNT_EXCLUSIVE` is always set. -/
structure MountFlags where
  rdonly : Bool
  recover : Bool
  ignoreHiberfile : Bool

/-- What `ntfs_volume_error` makes of an `errno`. -/
inductive VolumeError where
  | notNtfs
  | corrupt
  | hibernated
  | uncleanUnmount
  | locked
  | other

def VolumeError.why : VolumeError → String
  | .notNtfs => "not an NTFS volume"
  | .corrupt => "volume corrupt"
  | .hibernated => "hibernated windows volume"
  | .uncleanUnmount => "unclean unmount (needs recover)"
  | .locked => "volume locked"
  | .other => "mount failed"

/-- The calls of libc and libntfs-3g, and then the functions `nfsk_*_impl`. A state has all they read
and write: buffers and out arguments are addresses. -/
structure Calls (σ : Type) where
  errno : σ → Int32
  calloc : StateM σ Bool
  free : NfskVolume → StateM σ Unit
  snprintf : Pointer → UInt64 → String → StateM σ Unit
  memset : Pointer → UInt8 → UInt64 → StateM σ Unit
  strncpy : Pointer → Pointer → UInt64 → StateM σ Unit
  ntfsMalloc : UInt64 → StateM σ Pointer
  ntfsFree : Pointer → StateM σ Unit
  ntfsDeviceAlloc : NfskBlockio → StateM σ Pointer
  ntfsDeviceFree : Pointer → StateM σ Unit
  ntfsDeviceSync : Pointer → StateM σ Int32
  ntfsDeviceMount : Pointer → MountFlags → StateM σ Pointer
  ntfsUmount : Pointer → Bool → StateM σ Unit
  ntfsVolumeError : Int32 → VolumeError
  ntfsSetShownFiles : Pointer → Bool → Bool → Bool → StateM σ Unit
  nVolSetCompression : Pointer → StateM σ Unit
  nVolClearCompression : Pointer → StateM σ Unit
  nVolReadOnly : Pointer → StateM σ Bool
  ntfsVolumeCheckHiberfile : Pointer → StateM σ Bool
  volName : Pointer → StateM σ Pointer
  setVolName : Pointer → Pointer → StateM σ Unit
  fsstatImpl : Option NfskVolume → Pointer → StateM σ Int32
  getattrImpl : Option NfskVolume → UInt64 → Pointer → StateM σ Int32
  setattrImpl : Option NfskVolume → UInt64 → Option NfskStat → UInt32 → StateM σ Int32
  lookupImpl : Option NfskVolume → UInt64 → CString → Pointer → Pointer → StateM σ Int32
  readdirImpl : Option NfskVolume → UInt64 → Pointer → Int32 → Pointer → Pointer → StateM σ Int32
  createImpl : Option NfskVolume → UInt64 → CString → UInt8 → UInt32 → UInt32 → UInt32 → Pointer →
    StateM σ Int32
  unlinkImpl : Option NfskVolume → UInt64 → CString → UInt64 → StateM σ Int32
  linkImpl : Option NfskVolume → UInt64 → UInt64 → CString → StateM σ Int32
  renameImpl : Option NfskVolume → UInt64 → CString → UInt64 → CString → StateM σ Int32
  symlinkImpl : Option NfskVolume → UInt64 → CString → CString → UInt32 → UInt32 → Pointer →
    StateM σ Int32
  readlinkImpl : Option NfskVolume → UInt64 → Pointer → UInt64 → StateM σ Int32
  readImpl : Option NfskVolume → UInt64 → UInt64 → UInt64 → Pointer → StateM σ Int64
  writeImpl : Option NfskVolume → UInt64 → UInt64 → UInt64 → Pointer → StateM σ Int64
  fsyncImpl : Option NfskVolume → UInt64 → StateM σ Int32
  getxattrImpl : Option NfskVolume → UInt64 → CString → Pointer → UInt64 → StateM σ Int64
  setxattrImpl : Option NfskVolume → UInt64 → CString → Pointer → UInt64 → StateM σ Int32
  removexattrImpl : Option NfskVolume → UInt64 → CString → StateM σ Int32
  listxattrImpl : Option NfskVolume → UInt64 → Pointer → Pointer → StateM σ Int32

variable {σ α : Type}

def nfskLock : Bridge σ Unit := modify fun w => { w with events := w.events ++ [.lock] }

def nfskUnlock : Bridge σ Unit := modify fun w => { w with events := w.events ++ [.unlock] }

/-- A call that does not touch the mutex. -/
def inside (x : StateM σ α) : Bridge σ α := fun w => ((x w.lib).1, { w with lib := (x w.lib).2 })

def locked (x : Bridge σ α) : Bridge σ α := do
  nfskLock
  let r ← x
  nfskUnlock
  pure r

variable (lib : Calls σ)

/-! ## The wrappers -/

def nfskFsstat (v : Option NfskVolume) (out : Pointer) : Bridge σ Int32 :=
  locked (inside (lib.fsstatImpl v out))

def nfskGetattr (v : Option NfskVolume) (mft : UInt64) (out : Pointer) : Bridge σ Int32 :=
  locked (inside (lib.getattrImpl v mft out))

def nfskSetattr (v : Option NfskVolume) (mft : UInt64) (st : Option NfskStat) (which : UInt32) :
    Bridge σ Int32 :=
  locked (inside (lib.setattrImpl v mft st which))

def nfskLookup (v : Option NfskVolume) (dirMft : UInt64) (name : CString)
    (outMft outStat : Pointer) : Bridge σ Int32 :=
  locked (inside (lib.lookupImpl v dirMft name outMft outStat))

def nfskReaddir (v : Option NfskVolume) (dirMft : UInt64) (ioCookie : Pointer) (wantAttrs : Int32)
    (cb ctx : Pointer) : Bridge σ Int32 :=
  locked (inside (lib.readdirImpl v dirMft ioCookie wantAttrs cb ctx))

def nfskCreate (v : Option NfskVolume) (dirMft : UInt64) (name : CString) (type : UInt8)
    (mode uid gid : UInt32) (outMft : Pointer) : Bridge σ Int32 :=
  locked (inside (lib.createImpl v dirMft name type mode uid gid outMft))

def nfskUnlink (v : Option NfskVolume) (dirMft : UInt64) (name : CString) (mft : UInt64) :
    Bridge σ Int32 :=
  locked (inside (lib.unlinkImpl v dirMft name mft))

def nfskLink (v : Option NfskVolume) (mft newDir : UInt64) (newName : CString) : Bridge σ Int32 :=
  locked (inside (lib.linkImpl v mft newDir newName))

def nfskRename (v : Option NfskVolume) (oldDir : UInt64) (oldName : CString) (newDir : UInt64)
    (newName : CString) : Bridge σ Int32 :=
  locked (inside (lib.renameImpl v oldDir oldName newDir newName))

def nfskSymlink (v : Option NfskVolume) (dirMft : UInt64) (name target : CString)
    (uid gid : UInt32) (outMft : Pointer) : Bridge σ Int32 :=
  locked (inside (lib.symlinkImpl v dirMft name target uid gid outMft))

def nfskReadlink (v : Option NfskVolume) (mft : UInt64) (buf : Pointer) (buflen : UInt64) :
    Bridge σ Int32 :=
  locked (inside (lib.readlinkImpl v mft buf buflen))

def nfskRead (v : Option NfskVolume) (mft offset len : UInt64) (buf : Pointer) : Bridge σ Int64 :=
  locked (inside (lib.readImpl v mft offset len buf))

def nfskWrite (v : Option NfskVolume) (mft offset len : UInt64) (buf : Pointer) : Bridge σ Int64 :=
  locked (inside (lib.writeImpl v mft offset len buf))

/-- It takes the lock again, in `nfsk_setattr`. -/
def nfskTruncateImpl (v : Option NfskVolume) (mft newsize : UInt64) : Bridge σ Int32 :=
  nfskSetattr lib v mft (some { NfskStat.zero with size := newsize }) 8

def nfskTruncate (v : Option NfskVolume) (mft newsize : UInt64) : Bridge σ Int32 :=
  locked (nfskTruncateImpl lib v mft newsize)

def nfskFsync (v : Option NfskVolume) (mft : UInt64) : Bridge σ Int32 :=
  locked (inside (lib.fsyncImpl v mft))

def nfskGetxattr (v : Option NfskVolume) (mft : UInt64) (name : CString) (buf : Pointer)
    (buflen : UInt64) : Bridge σ Int64 :=
  locked (inside (lib.getxattrImpl v mft name buf buflen))

def nfskSetxattr (v : Option NfskVolume) (mft : UInt64) (name : CString) (buf : Pointer)
    (buflen : UInt64) : Bridge σ Int32 :=
  locked (inside (lib.setxattrImpl v mft name buf buflen))

def nfskRemovexattr (v : Option NfskVolume) (mft : UInt64) (name : CString) : Bridge σ Int32 :=
  locked (inside (lib.removexattrImpl v mft name))

def nfskListxattr (v : Option NfskVolume) (mft : UInt64) (cb ctx : Pointer) : Bridge σ Int32 :=
  locked (inside (lib.listxattrImpl v mft cb ctx))

/-! ## Opening and closing -/

def report (err : Pointer) (errlen : UInt64) (message : String) : Bridge σ Unit :=
  if err = NULL then pure () else inside (lib.snprintf err errlen message)

def mountFlags (io : NfskBlockio) (recover opts : Int32) : MountFlags where
  rdonly := io.readonly ≠ 0
  recover := recover ≠ 0 ∧ opts &&& NFSK_OPEN_NORECOVER = 0
  ignoreHiberfile := opts &&& NFSK_OPEN_REMOVE_HIBERFILE ≠ 0

/-- The buffer of the volume's name grows to 128 bytes, if there is memory. -/
def growVolName (vol : Pointer) : StateM σ Unit := do
  let nb ← lib.ntfsMalloc 128
  if nb ≠ NULL then
    lib.memset nb 0 128
    let volName ← lib.volName vol
    if volName ≠ NULL then
      lib.strncpy nb volName 127
      lib.ntfsFree volName
    lib.setVolName vol nb

def configure (vol : Pointer) (opts : Int32) : StateM σ Unit := do
  lib.ntfsSetShownFiles vol (opts &&& NFSK_OPEN_SHOW_SYS_FILES ≠ 0)
    (opts &&& NFSK_OPEN_HIDE_HID_FILES = 0) (opts &&& NFSK_OPEN_HIDE_DOT_FILES ≠ 0)
  if opts &&& NFSK_OPEN_NO_COMPRESSION = 0 then lib.nVolSetCompression vol
  else lib.nVolClearCompression vol
  growVolName lib vol

/-- `hiberfil.sys` is to be removed. -/
def hiberfileLeft (vol : Pointer) (opts : Int32) : StateM σ Bool := do
  if opts &&& NFSK_OPEN_REMOVE_HIBERFILE = 0 then pure false
  else if ← lib.nVolReadOnly vol then pure false
  else lib.ntfsVolumeCheckHiberfile vol

def hiberfilSys : CString := some "hiberfil.sys".toUTF8.toList

/-- The volume is mounted. Here `err` is not checked. -/
def afterMount (v : NfskVolume) (opts : Int32) (err : Pointer) (errlen : UInt64) :
    Bridge σ Unit := do
  inside (configure lib v.vol opts)
  if ← inside (hiberfileLeft lib v.vol opts) then
    let r ← nfskUnlink lib (some v) 5 hiberfilSys 0
    if r ≠ 0 then
      let w ← get
      inside (lib.snprintf err errlen
        ("hiberfil.sys 删除失败(errno=" ++ toString (lib.errno w.lib) ++ ")"))

def mountFailed (v : NfskVolume) (err : Pointer) (errlen : UInt64) : Bridge σ Unit := do
  let w ← get
  let e := lib.errno w.lib
  report lib err errlen ((lib.ntfsVolumeError e).why ++ " (errno=" ++ toString e ++ ")")
  inside (lib.ntfsDeviceFree v.dev)
  inside (lib.free v)

/-- After `nfsk_lock`, with callbacks that are there. -/
def openDevice (io : NfskBlockio) (recover opts : Int32) (err : Pointer) (errlen : UInt64) :
    Bridge σ (Option NfskVolume) := do
  if ¬ (← inside lib.calloc) then
    -- returns without unlocking
    report lib err errlen "oom"
    pure none
  else
    let dev ← inside (lib.ntfsDeviceAlloc io)
    if dev = NULL then
      -- returns without unlocking
      inside (lib.free ⟨NULL, NULL, io, 0⟩)
      report lib err errlen "device alloc failed"
      pure none
    else
      let vol ← inside (lib.ntfsDeviceMount dev (mountFlags io recover opts))
      let v : NfskVolume := ⟨vol, dev, io, opts.toUInt32⟩
      if vol = NULL then
        mountFailed lib v err errlen
        nfskUnlock
        pure none
      else
        afterMount lib v opts err errlen
        nfskUnlock
        pure (some v)

/-- The callbacks, if they can be used. -/
def usable (io : Option NfskBlockio) : Option NfskBlockio := io.filter fun io => io.read ≠ NULL

def nfskOpenEx (io : Option NfskBlockio) (recover opts : Int32) (err : Pointer)
    (errlen : UInt64) : Bridge σ (Option NfskVolume) := do
  nfskLock
  match usable io with
  | none =>
    report lib err errlen "bad io callbacks"
    nfskUnlock
    pure none
  | some io => openDevice lib io recover opts err errlen

def nfskOpen (io : Option NfskBlockio) (recover : Int32) (err : Pointer) (errlen : UInt64) :
    Bridge σ (Option NfskVolume) :=
  nfskOpenEx lib io recover 0 err errlen

def nfskClose (v : Option NfskVolume) (force : Int32) : Bridge σ Unit := do
  match v with
  | none => pure ()
  | some v =>
    nfskLock
    if v.vol ≠ NULL then
      inside (lib.ntfsUmount v.vol (force ≠ 0))
    inside (lib.free v)
    nfskUnlock

def nfskSyncVolume (v : Option NfskVolume) : Bridge σ Int32 := do
  match v with
  | none => pure (-EINVAL)
  | some v =>
    nfskLock
    let r ← if v.vol = NULL then pure (-EINVAL) else inside (lib.ntfsDeviceSync v.dev)
    nfskUnlock
    pure r

/-! ## Requests -/

inductive Request where
  | «open» (io : Option NfskBlockio) (recover : Int32) (err : Pointer) (errlen : UInt64)
  | openEx (io : Option NfskBlockio) (recover opts : Int32) (err : Pointer) (errlen : UInt64)
  | close (v : Option NfskVolume) (force : Int32)
  | syncVolume (v : Option NfskVolume)
  | fsstat (v : Option NfskVolume) (out : Pointer)
  | getattr (v : Option NfskVolume) (mft : UInt64) (out : Pointer)
  | setattr (v : Option NfskVolume) (mft : UInt64) (st : Option NfskStat) (which : UInt32)
  | lookup (v : Option NfskVolume) (dirMft : UInt64) (name : CString) (outMft outStat : Pointer)
  | readdir (v : Option NfskVolume) (dirMft : UInt64) (ioCookie : Pointer) (wantAttrs : Int32)
      (cb ctx : Pointer)
  | create (v : Option NfskVolume) (dirMft : UInt64) (name : CString) (type : UInt8)
      (mode uid gid : UInt32) (outMft : Pointer)
  | unlink (v : Option NfskVolume) (dirMft : UInt64) (name : CString) (mft : UInt64)
  | link (v : Option NfskVolume) (mft newDir : UInt64) (newName : CString)
  | rename (v : Option NfskVolume) (oldDir : UInt64) (oldName : CString) (newDir : UInt64)
      (newName : CString)
  | symlink (v : Option NfskVolume) (dirMft : UInt64) (name target : CString) (uid gid : UInt32)
      (outMft : Pointer)
  | readlink (v : Option NfskVolume) (mft : UInt64) (buf : Pointer) (buflen : UInt64)
  | read (v : Option NfskVolume) (mft offset len : UInt64) (buf : Pointer)
  | write (v : Option NfskVolume) (mft offset len : UInt64) (buf : Pointer)
  | truncate (v : Option NfskVolume) (mft newsize : UInt64)
  | fsync (v : Option NfskVolume) (mft : UInt64)
  | getxattr (v : Option NfskVolume) (mft : UInt64) (name : CString) (buf : Pointer)
      (buflen : UInt64)
  | setxattr (v : Option NfskVolume) (mft : UInt64) (name : CString) (buf : Pointer)
      (buflen : UInt64)
  | removexattr (v : Option NfskVolume) (mft : UInt64) (name : CString)
  | listxattr (v : Option NfskVolume) (mft : UInt64) (cb ctx : Pointer)

/-- Call the entry point. Its result does not matter here. -/
def Request.run : Request → Bridge σ Unit
  | .open io recover err errlen => discard (nfskOpen lib io recover err errlen)
  | .openEx io recover opts err errlen => discard (nfskOpenEx lib io recover opts err errlen)
  | .close v force => nfskClose lib v force
  | .syncVolume v => discard (nfskSyncVolume lib v)
  | .fsstat v out => discard (nfskFsstat lib v out)
  | .getattr v mft out => discard (nfskGetattr lib v mft out)
  | .setattr v mft st which => discard (nfskSetattr lib v mft st which)
  | .lookup v dirMft name outMft outStat =>
    discard (nfskLookup lib v dirMft name outMft outStat)
  | .readdir v dirMft ioCookie wantAttrs cb ctx =>
    discard (nfskReaddir lib v dirMft ioCookie wantAttrs cb ctx)
  | .create v dirMft name type mode uid gid outMft =>
    discard (nfskCreate lib v dirMft name type mode uid gid outMft)
  | .unlink v dirMft name mft => discard (nfskUnlink lib v dirMft name mft)
  | .link v mft newDir newName => discard (nfskLink lib v mft newDir newName)
  | .rename v oldDir oldName newDir newName =>
    discard (nfskRename lib v oldDir oldName newDir newName)
  | .symlink v dirMft name target uid gid outMft =>
    discard (nfskSymlink lib v dirMft name target uid gid outMft)
  | .readlink v mft buf buflen => discard (nfskReadlink lib v mft buf buflen)
  | .read v mft offset len buf => discard (nfskRead lib v mft offset len buf)
  | .write v mft offset len buf => discard (nfskWrite lib v mft offset len buf)
  | .truncate v mft newsize => discard (nfskTruncate lib v mft newsize)
  | .fsync v mft => discard (nfskFsync lib v mft)
  | .getxattr v mft name buf buflen => discard (nfskGetxattr lib v mft name buf buflen)
  | .setxattr v mft name buf buflen => discard (nfskSetxattr lib v mft name buf buflen)
  | .removexattr v mft name => discard (nfskRemovexattr lib v mft name)
  | .listxattr v mft cb ctx => discard (nfskListxattr lib v mft cb ctx)

/-- What the calling thread does to the mutex in the call. -/
def Request.events (r : Request) (s : σ) : List Event := (r.run lib ⟨s, []⟩).2.events

end Locked
end Ntfs
end Usbrw
