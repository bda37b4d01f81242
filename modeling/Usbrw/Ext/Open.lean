import Usbrw.Base.Call
import Usbrw.Base.Ledger
import Usbrw.Ext.Channel

/-!
# Ext.Open

`extfsk_open`: opens the file system through the manager of `Ext.Channel`, replays the journal of a
dirty volume, reads the bitmaps and counts the mount.

* `Ext2fsMount` — the calls it makes, over a state `σ` of the library and the process.
* `Process`     — that state, and the global by which `ext_io_open` finds the callbacks.
* `MountEvent`  — what happens to the handles and to the superblock, which `recorded` keeps a log of.
* `Admitted`, `Declined` — the log of a mount for writing, and of one that gives no volume.
* `extfskOpen_admits` — every outcome of every call leads to one or the other.

`φ` is the type of an `ext2_filsys`.
-/

namespace Usbrw
namespace Ext

open Call Shim

/-- The codes that `ext_io_open` gives and `extfsk_open` tells apart. -/
inductive MountErrcode where
  | badDeviceName
  | noMemory
  | blockBitmapCsumInvalid
  | inodeBitmapCsumInvalid
  | other (code : Int)
  deriving DecidableEq

def EXT2_FLAG_RW : UInt32 := 0x01
def EXT2_FLAG_FORCE : UInt32 := 0x400
def EXT3_FEATURE_INCOMPAT_RECOVER : UInt32 := 0x0004

/-- What `extfsk_open` reads and sets of `fs->super`. -/
structure SuperBlock where
  sFeatureIncompat : UInt32
  sMntCount : UInt16
  sMtime : UInt32
  deriving DecidableEq

def SuperBlock.needsRecovery (sb : SuperBlock) : Bool :=
  sb.sFeatureIncompat &&& EXT3_FEATURE_INCOMPAT_RECOVER ≠ 0

/-- Once more mounted. -/
def SuperBlock.mounted (sb : SuperBlock) (now : UInt32) : SuperBlock :=
  { sb with sMntCount := sb.sMntCount + 1, sMtime := now }

/-- The `open` of a manager as a library call reaches it: told whether `calloc` gave memory, it
gives a channel. -/
abbrev ManagerOpen (τ : Type) : Type := Bool → Except MountErrcode (IoChannel τ)

/-- The replay frees the handle it is given and opens a new one; whether it succeeds or fails, it
also says what handle there is then. -/
structure Ext2fsMount (φ τ σ : Type) where
  ext2fsOpen : ManagerOpen τ → UInt32 → EStateM MountErrcode σ φ
  runExt3Journal : ManagerOpen τ → φ → EStateM (MountErrcode × Option φ) σ (Option φ)
  readBitmaps : φ → EStateM MountErrcode σ Unit
  close : φ → EStateM MountErrcode σ Unit
  markSuperDirty : φ → σ → σ
  flush : φ → EStateM MountErrcode σ Unit
  super : φ → σ → SuperBlock
  setSuper : φ → SuperBlock → σ → σ
  calloc : EStateM Unit σ Unit
  free : σ → σ
  time : σ → UInt32
  errorMessage : MountErrcode → String

structure Process (τ σ : Type) where
  gIoChannelSrc : Option (NfskBlockio τ)
  library : σ

/-- `struct extfsk_volume` with its handle. -/
structure MountedVolume (φ : Type) where
  fs : φ

variable {φ τ σ : Type}

/-- `ext_io_open`. -/
def Process.extIoOpen (p : Process τ σ) : ManagerOpen τ := fun allocated =>
  match p.gIoChannelSrc with
  | none => .error .badDeviceName
  | some io => if allocated then .ok (Ext.extIoOpen io) else .error .noMemory

/-- A library call, which may open channels. -/
def libcall {ε α : Type} (x : ManagerOpen τ → EStateM ε σ α) : EStateM ε (Process τ σ) α := fun p =>
  match x p.extIoOpen p.library with
  | .ok a s => .ok a { p with library := s }
  | .error e s => .error e { p with library := s }

def setIoChannelSrc (src : Option (NfskBlockio τ)) : EStateM String (Process τ σ) Unit :=
  modify fun p => { p with gIoChannelSrc := src }

def onLibrary (f : σ → σ) : EStateM String (Process τ σ) Unit :=
  modify fun p => { p with library := f p.library }

section Open

variable (lib : Ext2fsMount φ τ σ)

/-- What `ext2fs_close` returns is dropped. -/
def closeFs (fs : φ) : EStateM String (Process τ σ) Unit := do
  let _ : Except MountErrcode Unit ← attempt (libcall fun _ => lib.close fs)
  pure ()

def openFs (io : NfskBlockio τ) (rw : Bool) : EStateM String (Process τ σ) φ := do
  setIoChannelSrc (some io)
  let flags := if rw then EXT2_FLAG_RW else EXT2_FLAG_FORCE
  let flags := if rw then flags else flags ||| EXT2_FLAG_FORCE
  let r : Except MountErrcode φ ← attempt (libcall fun manager => lib.ext2fsOpen manager flags)
  setIoChannelSrc none
  match r with
  | .ok fs => pure fs
  | .error rc => throw ("ext2fs_open 失败: " ++ lib.errorMessage rc)

def replayError (why : String) : String :=
  "日志重放失败(" ++ why ++ "):请只读挂载备份数据,并在终端运行 e2fsck -f 修复"

def replay (io : NfskBlockio τ) (fs : φ) : EStateM String (Process τ σ) φ := do
  setIoChannelSrc (some io)
  let r : Except (MountErrcode × Option φ) (Option φ) ←
    attempt (libcall fun manager => lib.runExt3Journal manager fs)
  setIoChannelSrc none
  match r with
  | .ok (some fs) => pure fs
  | .ok none => throw (replayError "重开失败")
  | .error (rc, none) => throw (replayError (lib.errorMessage rc))
  | .error (rc, some fs) =>
    closeFs lib fs
    throw (replayError (lib.errorMessage rc))

def replayDirty (io : NfskBlockio τ) (rw : Bool) (fs : φ) : EStateM String (Process τ σ) φ := do
  let p : Process τ σ ← get
  if rw ∧ (lib.super fs p.library).needsRecovery then replay lib io fs else pure fs

def allocVolume (fs : φ) : EStateM String (Process τ σ) Unit := do
  let r : Except Unit Unit ← attempt (libcall fun _ => lib.calloc)
  match r with
  | .ok () => pure ()
  | .error () =>
    closeFs lib fs
    throw "oom"

def bitmapError (rc : MountErrcode) : String :=
  if rc = .blockBitmapCsumInvalid ∨ rc = .inodeBitmapCsumInvalid then
    "位图校验不一致(卷存在损坏):请在终端运行 e2fsck -f /dev/对应设备 修复后再读写挂载(只读挂载不受影响)"
  else "位图读入失败: " ++ lib.errorMessage rc

def loadBitmaps (fs : φ) : EStateM String (Process τ σ) Unit := do
  let r : Except MountErrcode Unit ← attempt (libcall fun _ => lib.readBitmaps fs)
  match r with
  | .ok () => pure ()
  | .error rc =>
    closeFs lib fs
    onLibrary lib.free
    throw (bitmapError lib rc)

/-- What `ext2fs_flush` returns is dropped. -/
def countMount (fs : φ) : EStateM String (Process τ σ) Unit := do
  onLibrary fun s => lib.setSuper fs ((lib.super fs s).mounted (lib.time s)) s
  onLibrary (lib.markSuperDirty fs)
  let _ : Except MountErrcode Unit ← attempt (libcall fun _ => lib.flush fs)
  pure ()

/-- `extfsk_open` past the check of the callbacks. -/
def mountFs (io : NfskBlockio τ) (rw : Bool) : EStateM String (Process τ σ) (MountedVolume φ) := do
  let fs ← openFs lib io rw
  let fs ← replayDirty lib io rw fs
  allocVolume lib fs
  if rw then
    loadBitmaps lib fs
    countMount lib fs
    pure ⟨fs⟩
  else pure ⟨fs⟩

/-- The error is the text in `err`, before `snprintf` cuts it to `errlen`. -/
def extfskOpen (io : Option (NfskBlockio τ)) (rw : Bool) :
    EStateM String (Process τ σ) (MountedVolume φ) :=
  match io with
  | none => throw "bad io callbacks"
  | some io => if io.read.isNone then throw "bad io callbacks" else mountFs lib io rw

end Open

/-! ## The log of a mount -/

/-- `opened` says whether the volume needs recovery. `replayed` and `bitmapsRead` say what the call
returned, 0 being `none`, and `replayed` which handle there is after it. -/
inductive MountEvent (φ : Type) where
  | opened (fs : φ) (recover : Bool)
  | replayed (fs : φ) (rc : Option MountErrcode) (fs' : Option φ)
  | allocated
  | bitmapsRead (fs : φ) (rc : Option MountErrcode)
  | superSet (fs : φ) (old new : SuperBlock)
  | closed (fs : φ)
  | freed
  deriving DecidableEq

/-- The library with a log. -/
def recorded (lib : Ext2fsMount φ τ σ) : Ext2fsMount φ τ (σ × List (MountEvent φ)) where
  ext2fsOpen := fun manager flags t =>
    match lib.ext2fsOpen manager flags t.1 with
    | .ok fs s => .ok fs (s, t.2 ++ [.opened fs (lib.super fs s).needsRecovery])
    | .error rc s => .error rc (s, t.2)
  runExt3Journal := fun manager fs t =>
    match lib.runExt3Journal manager fs t.1 with
    | .ok fs' s => .ok fs' (s, t.2 ++ [.replayed fs none fs'])
    | .error (rc, fs') s => .error (rc, fs') (s, t.2 ++ [.replayed fs (some rc) fs'])
  readBitmaps := fun fs t =>
    match lib.readBitmaps fs t.1 with
    | .ok () s => .ok () (s, t.2 ++ [.bitmapsRead fs none])
    | .error rc s => .error rc (s, t.2 ++ [.bitmapsRead fs (some rc)])
  close := fun fs t =>
    match lib.close fs t.1 with
    | .ok () s => .ok () (s, t.2 ++ [.closed fs])
    | .error rc s => .error rc (s, t.2 ++ [.closed fs])
  markSuperDirty := fun fs t => (lib.markSuperDirty fs t.1, t.2)
  flush := fun fs t =>
    match lib.flush fs t.1 with
    | .ok () s => .ok () (s, t.2)
    | .error rc s => .error rc (s, t.2)
  super := fun fs t => lib.super fs t.1
  setSuper := fun fs sb t => (lib.setSuper fs sb t.1, t.2 ++ [.superSet fs (lib.super fs t.1) sb])
  calloc := fun t =>
    match lib.calloc t.1 with
    | .ok () s => .ok () (s, t.2 ++ [.allocated])
    | .error () s => .error () (s, t.2)
  free := fun t => (lib.free t.1, t.2 ++ [.freed])
  time := fun t => lib.time t.1
  errorMessage := lib.errorMessage

/-- What a mount has to release again when it fails. -/
inductive Resource (φ : Type) where
  | filsys (fs : φ)
  | volume
  deriving DecidableEq

@[simp] def MountEvent.entry : MountEvent φ → Option (Ledger.Entry (Resource φ))
  | opened fs _ => some (.acquire (.filsys fs))
  | replayed fs _ fs' => some (.exchange (.filsys fs) (fs'.map .filsys))
  | allocated => some (.acquire .volume)
  | bitmapsRead _ _ => none
  | superSet _ _ _ => none
  | closed fs => some (.release (.filsys fs))
  | freed => some (.release .volume)

def ledger (log : List (MountEvent φ)) : List (Ledger.Entry (Resource φ)) :=
  log.filterMap MountEvent.entry

/-- The log up to a handle that may be used: if it is to be written to, the volume needed no
recovery, or the replay returned success with the handle. -/
inductive Usable (rw : Bool) : φ → List (MountEvent φ) → Prop where
  | clean (fs : φ) (recover : Bool) (h : rw = true → recover = false) :
    Usable rw fs [.opened fs recover]
  | recovered (fs₀ fs : φ) (h : rw = true) :
    Usable rw fs [.opened fs₀ true, .replayed fs₀ none (some fs)]

/-- The log of a mount for writing: the handle was usable, the bitmaps were read, and the superblock
was set once, to the mount count and time. -/
def Admitted (fs : φ) (log : List (MountEvent φ)) : Prop :=
  ∃ pre sb now, Usable true fs pre ∧
    log = pre ++ [.allocated, .bitmapsRead fs none, .superSet fs sb (sb.mounted now)]

/-- The log of a mount that gives no volume. -/
structure Declined [DecidableEq φ] (log : List (MountEvent φ)) : Prop where
  settled : Ledger.run (ledger log) [] = some []
  closedOnce : ∀ fs, log.count (.closed fs) =
    if .filsys fs ∈ Ledger.kept (ledger log) [] then 1 else 0
  untouched : ∀ fs old new, .superSet fs old new ∉ log

section Log

variable {rw : Bool} {fs : φ} {pre : List (MountEvent φ)}

@[simp] theorem ledger_nil : ledger ([] : List (MountEvent φ)) = [] := rfl

@[simp] theorem ledger_cons (e : MountEvent φ) (l : List (MountEvent φ)) :
    ledger (e :: l) = e.entry.toList ++ ledger l := by
  cases e <;> rfl

theorem ledger_append (l l' : List (MountEvent φ)) : ledger (l ++ l') = ledger l ++ ledger l' :=
  List.filterMap_append

theorem Usable.untouched (h : Usable rw fs pre) : ∀ fs old new, .superSet fs old new ∉ pre := by
  cases h <;> simp

variable [DecidableEq φ]

theorem released_ledger (fs : φ) (log : List (MountEvent φ)) :
    Ledger.released (.filsys fs) (ledger log) = log.count (.closed fs) := by
  induction log with
  | nil => rfl
  | cons e log ih =>
    simp only [Ledger.released] at ih
    cases e <;> simp [Ledger.released, Ledger.Entry.releases, List.countP_cons, List.count_cons, ih]

/-- What was closed follows from the balance. -/
theorem Declined.of_settled {log : List (MountEvent φ)} (hset : Ledger.run (ledger log) [] = some [])
    (hkept : (Ledger.kept (ledger log) []).Nodup)
    (hun : ∀ fs old new, .superSet fs old new ∉ log) : Declined log where
  settled := hset
  closedOnce := by
    intro fs
    rw [← released_ledger, Ledger.released_eq_kept hset, hkept.count]
  untouched := hun

/-- The replay may leave no handle. -/
theorem declined_lost (fs : φ) (rc : Option MountErrcode) :
    Declined [.opened fs true, .replayed fs rc none] := by
  refine Declined.of_settled ?_ ?_ ?_
  · simp
  · simp
  · simp

theorem Usable.run (h : Usable rw fs pre) : Ledger.run (ledger pre) [] = some [.filsys fs] := by
  cases h with
  | clean => rfl
  | recovered => simp

theorem Usable.kept (h : Usable rw fs pre) : Ledger.kept (ledger pre) [] = [.filsys fs] := by
  cases h with
  | clean => rfl
  | recovered => simp

/-- What is done after the handle can be used gives it back. -/
theorem Usable.refused (h : Usable rw fs pre) {post : List (MountEvent φ)}
    (hset : Ledger.run (ledger post) [.filsys fs] = some [])
    (hkept : (Ledger.kept (ledger post) [.filsys fs]).Nodup)
    (hun : ∀ fs old new, .superSet fs old new ∉ post) : Declined (pre ++ post) := by
  refine Declined.of_settled ?_ ?_ ?_
  · rw [ledger_append, Ledger.run_append, h.run, Option.bind_some, hset]
  · rw [ledger_append, Ledger.kept_append, h.kept]
    exact hkept
  · intro fs old new hmem
    rcases List.mem_append.mp hmem with hmem | hmem
    · exact h.untouched fs old new hmem
    · exact hun fs old new hmem

end Log

/-! ## What the calls add to the log -/

section Calls

variable {ε α : Type} {g : Option (NfskBlockio τ)} {l : List (MountEvent φ)}

/-- The global and the log of a process with `recorded`. -/
def Logged (g : Option (NfskBlockio τ)) (l : List (MountEvent φ))
    (p : Process τ (σ × List (MountEvent φ))) : Prop :=
  p.gIoChannelSrc = g ∧ p.library.2 = l

theorem libcall_spec {x : ManagerOpen τ → EStateM ε σ α} {P : σ → Prop} {Q : α → σ → Prop}
    {E : ε → σ → Prop} (hx : ∀ m, Spec P (x m) Q E) :
    Spec (fun p : Process τ σ => p.gIoChannelSrc = g ∧ P p.library) (libcall x)
      (fun a p => p.gIoChannelSrc = g ∧ Q a p.library)
      fun e p => p.gIoChannelSrc = g ∧ E e p.library := by
  rintro p ⟨hg, hp⟩
  have hs := hx p.extIoOpen p.library hp
  simp only [libcall]
  cases hrun : x p.extIoOpen p.library with
  | ok a s =>
    rw [hrun] at hs
    exact ⟨hg, hs⟩
  | error e s =>
    rw [hrun] at hs
    exact ⟨hg, hs⟩

variable (lib : Ext2fsMount φ τ σ)

theorem recorded_ext2fsOpen (m : ManagerOpen τ) (flags : UInt32) :
    Spec (fun t => t.2 = l) ((recorded lib).ext2fsOpen m flags)
      (fun fs t => t.2 = l ++ [.opened fs ((recorded lib).super fs t).needsRecovery])
      fun _ t => t.2 = l := by
  rintro ⟨s, l⟩ rfl
  simp only [recorded]
  cases lib.ext2fsOpen m flags s <;> rfl

theorem recorded_runExt3Journal (m : ManagerOpen τ) (fs : φ) :
    Spec (fun t => t.2 = l) ((recorded lib).runExt3Journal m fs)
      (fun fs' t => t.2 = l ++ [.replayed fs none fs'])
      fun e t => t.2 = l ++ [.replayed fs (some e.1) e.2] := by
  rintro ⟨s, l⟩ rfl
  simp only [recorded]
  cases lib.runExt3Journal m fs s <;> rfl

theorem recorded_readBitmaps (fs : φ) :
    Spec (fun t => t.2 = l) ((recorded lib).readBitmaps fs)
      (fun _ t => t.2 = l ++ [.bitmapsRead fs none])
      fun rc t => t.2 = l ++ [.bitmapsRead fs (some rc)] := by
  rintro ⟨s, l⟩ rfl
  simp only [recorded]
  cases lib.readBitmaps fs s <;> rfl

theorem recorded_close (fs : φ) :
    Spec (fun t => t.2 = l) ((recorded lib).close fs) (fun _ t => t.2 = l ++ [.closed fs])
      fun _ t => t.2 = l ++ [.closed fs] := by
  rintro ⟨s, l⟩ rfl
  simp only [recorded]
  cases lib.close fs s <;> rfl

theorem recorded_flush (fs : φ) :
    Spec (fun t => t.2 = l) ((recorded lib).flush fs) (fun _ t => t.2 = l) fun _ t => t.2 = l := by
  rintro ⟨s, l⟩ rfl
  simp only [recorded]
  cases lib.flush fs s <;> rfl

theorem recorded_calloc :
    Spec (fun t => t.2 = l) (recorded lib).calloc (fun _ t => t.2 = l ++ [.allocated])
      fun _ t => t.2 = l := by
  rintro ⟨s, l⟩ rfl
  simp only [recorded]
  cases lib.calloc s <;> rfl

end Calls

/-! ## The stages of a mount -/

section Stages

variable {g : Option (NfskBlockio τ)} {l : List (MountEvent φ)} (lib : Ext2fsMount φ τ σ)

/-- The global is set or cleared, with what else is known of the library. -/
theorem setIoChannelSrc_spec {P : σ → Prop} (src : Option (NfskBlockio τ))
    {E : String → Process τ σ → Prop} :
    Spec (fun p => p.gIoChannelSrc = g ∧ P p.library) (setIoChannelSrc src)
      (fun _ p => p.gIoChannelSrc = src ∧ P p.library) E :=
  Spec.modify fun _ h => ⟨rfl, h.2⟩

/-- What is done with the channel set. -/
theorem withChannel_spec {ε α β : Type} (io : NfskBlockio τ)
    {x : ManagerOpen τ → EStateM ε σ α} {f : Except ε α → EStateM String (Process τ σ) β}
    {P : σ → Prop} {Q : α → σ → Prop} {E : ε → σ → Prop} {R : β → Process τ σ → Prop}
    {D : String → Process τ σ → Prop} (hx : ∀ m, Spec P (x m) Q E)
    (hok : ∀ a, Spec (fun p => p.gIoChannelSrc = none ∧ Q a p.library) (f (.ok a)) R D)
    (herr : ∀ e, Spec (fun p => p.gIoChannelSrc = none ∧ E e p.library) (f (.error e)) R D) :
    Spec (fun p => p.gIoChannelSrc = g ∧ P p.library) (do
      setIoChannelSrc (some io)
      let r ← attempt (libcall x)
      setIoChannelSrc none
      f r) R D := by
  refine Spec.bind (setIoChannelSrc_spec (some io)) fun _ => ?_
  refine Spec.bind_attempt (libcall_spec hx) ?_ ?_
  · exact fun a => Spec.bind (setIoChannelSrc_spec none) fun _ => hok a
  · exact fun e => Spec.bind (setIoChannelSrc_spec none) fun _ => herr e

theorem closeFs_spec (fs : φ) {E : String → Process τ (σ × List (MountEvent φ)) → Prop} :
    Spec (Logged g l) (closeFs (recorded lib) fs) (fun _ => Logged g (l ++ [.closed fs])) E := by
  unfold closeFs
  refine Spec.bind_attempt (libcall_spec fun _ => recorded_close lib fs) ?_ ?_
  · exact fun _ => Spec.pure fun _ h => h
  · exact fun _ => Spec.pure fun _ h => h

theorem openFs_spec (io : NfskBlockio τ) (rw : Bool) :
    Spec (Logged g []) (openFs (recorded lib) io rw)
      (fun fs p => Logged none [.opened fs ((recorded lib).super fs p.library).needsRecovery] p)
      fun _ => Logged none [] := by
  unfold openFs
  refine withChannel_spec io (fun m => recorded_ext2fsOpen lib m _) ?_ ?_
  · exact fun fs => Spec.pure fun _ h => h
  · exact fun rc => Spec.throw fun _ h => h

/-- The superblock is set, once. -/
def Counted (fs : φ) (l : List (MountEvent φ)) (p : Process τ (σ × List (MountEvent φ))) : Prop :=
  p.gIoChannelSrc = none ∧ ∃ sb now, p.library.2 = l ++ [.superSet fs sb (sb.mounted now)]

theorem countMount_spec (fs : φ) {E : String → Process τ (σ × List (MountEvent φ)) → Prop} :
    Spec (Logged none l) (countMount (recorded lib) fs) (fun _ => Counted fs l) E := by
  unfold countMount
  refine Spec.bind (Q := fun _ => Counted fs l) (Spec.modify fun p h => ?_) fun _ => ?_
  · refine ⟨h.1, lib.super fs p.library.1, lib.time p.library.1, ?_⟩
    simp [recorded, h.2]
  refine Spec.bind (Q := fun _ => Counted fs l) (Spec.modify fun p h => h) fun _ => ?_
  rintro p ⟨hg, sb, now, hl⟩
  have hlog : Logged none (l ++ [.superSet fs sb (sb.mounted now)]) p := ⟨hg, hl⟩
  have hrest : Spec (Logged none (l ++ [.superSet fs sb (sb.mounted now)])) (do
      let _ : Except MountErrcode Unit ← attempt (libcall fun _ => (recorded lib).flush fs)
      pure ()) (fun _ => Counted fs l) E := by
    refine Spec.bind_attempt (libcall_spec fun _ => recorded_flush lib fs) ?_ ?_
    · exact fun _ => Spec.pure fun p h => ⟨h.1, sb, now, h.2⟩
    · exact fun _ => Spec.pure fun p h => ⟨h.1, sb, now, h.2⟩
  exact hrest p hlog

variable [DecidableEq φ]

theorem replay_spec (io : NfskBlockio τ) (fs : φ) :
    Spec (Logged none [.opened fs true]) (replay (recorded lib) io fs)
      (fun fs' p => p.gIoChannelSrc = none ∧ Usable true fs' p.library.2)
      fun _ p => p.gIoChannelSrc = none ∧ Declined p.library.2 := by
  unfold replay
  refine withChannel_spec io (fun m => recorded_runExt3Journal lib m fs) ?_ ?_
  · intro fs'
    cases fs' with
    | some fs' => exact Spec.pure fun p h => ⟨h.1, h.2 ▸ .recovered fs fs' rfl⟩
    | none => exact Spec.throw fun p h => ⟨h.1, h.2 ▸ declined_lost fs _⟩
  · rintro ⟨rc, fs'⟩
    cases fs' with
    | none => exact Spec.throw fun p h => ⟨h.1, h.2 ▸ declined_lost fs _⟩
    | some fs' =>
      refine Spec.bind (closeFs_spec lib fs') fun _ => ?_
      refine Spec.throw fun p h => ⟨h.1, h.2 ▸ Declined.of_settled ?_ ?_ ?_⟩
      · simp
      · simp
      · simp

theorem replayDirty_spec (io : NfskBlockio τ) (rw : Bool) (fs : φ) :
    Spec (fun p => Logged none [.opened fs ((recorded lib).super fs p.library).needsRecovery] p)
      (replayDirty (recorded lib) io rw fs)
      (fun fs' p => p.gIoChannelSrc = none ∧ Usable rw fs' p.library.2)
      fun _ p => p.gIoChannelSrc = none ∧ Declined p.library.2 := by
  unfold replayDirty
  refine Spec.bind_get fun p₀ => ?_
  rintro p ⟨rfl, hp⟩
  by_cases h : rw = true ∧ ((recorded lib).super fs p.library).needsRecovery = true
  · rw [if_pos h]
    rw [h.2] at hp
    obtain rfl := h.1
    exact replay_spec lib io fs p hp
  · rw [if_neg h]
    refine ⟨hp.1, ?_⟩
    rw [hp.2]
    refine .clean fs _ fun hrw => ?_
    simpa [hrw] using h

/-- The volume is allocated next, or the handle is closed. -/
theorem allocVolume_spec (fs : φ) {pre : List (MountEvent φ)} {rw : Bool} (hpre : Usable rw fs pre) :
    Spec (Logged none pre) (allocVolume (recorded lib) fs)
      (fun _ => Logged none (pre ++ [.allocated]))
      fun _ p => p.gIoChannelSrc = none ∧ Declined p.library.2 := by
  unfold allocVolume
  refine Spec.bind_attempt (libcall_spec fun _ => recorded_calloc lib) ?_ ?_
  · exact fun _ => Spec.pure fun _ h => h
  · intro _
    refine Spec.bind (closeFs_spec lib fs) fun _ => ?_
    refine Spec.throw fun p h => ⟨h.1, h.2 ▸ hpre.refused ?_ ?_ ?_⟩
    · simp
    · simp
    · simp

theorem loadBitmaps_spec (fs : φ) {pre : List (MountEvent φ)} {rw : Bool} (hpre : Usable rw fs pre) :
    Spec (Logged none (pre ++ [.allocated])) (loadBitmaps (recorded lib) fs)
      (fun _ => Logged none (pre ++ [.allocated, .bitmapsRead fs none]))
      fun _ p => p.gIoChannelSrc = none ∧ Declined p.library.2 := by
  unfold loadBitmaps
  refine Spec.bind_attempt (libcall_spec fun _ => recorded_readBitmaps lib fs) ?_ ?_
  · exact fun _ => Spec.pure fun _ h => ⟨h.1, by simpa using h.2⟩
  · intro rc
    refine Spec.bind (closeFs_spec lib fs) fun _ => ?_
    refine Spec.bind (Q := fun _ => Logged none
      (pre ++ [.allocated, .bitmapsRead fs (some rc), .closed fs, .freed])) ?_ fun _ => ?_
    · refine Spec.modify fun p h => ⟨h.1, ?_⟩
      simp [recorded, h.2]
    · refine Spec.throw fun p h => ⟨h.1, h.2 ▸ hpre.refused ?_ ?_ ?_⟩
      · simp
      · simp
      · simp

/-- A mount for writing is counted, a mount for reading has only allocated the volume. -/
def Mounted (rw : Bool) (fs : φ) (log : List (MountEvent φ)) : Prop :=
  if rw then Admitted fs log else ∃ recover, log = [.opened fs recover, .allocated]

omit [DecidableEq φ] in
theorem Usable.forReading {fs : φ} {pre : List (MountEvent φ)} (h : Usable false fs pre) :
    ∃ recover, pre = [.opened fs recover] := by
  cases h with
  | clean _ recover _ => exact ⟨recover, rfl⟩
  | recovered _ _ h => cases h

theorem mountFs_spec (io : NfskBlockio τ) (rw : Bool) :
    Spec (Logged g []) (mountFs (recorded lib) io rw)
      (fun v p => p.gIoChannelSrc = none ∧ Mounted rw v.fs p.library.2)
      fun _ p => p.gIoChannelSrc = none ∧ Declined p.library.2 := by
  unfold mountFs
  refine Spec.bind ((openFs_spec lib io rw).conseq_error ?_) fun fs₀ => ?_
  · exact fun _ p h => ⟨h.1, h.2 ▸ Declined.of_settled rfl List.nodup_nil (by simp)⟩
  refine Spec.bind (replayDirty_spec lib io rw fs₀) fun fs => ?_
  rintro p ⟨hg, hpre⟩
  refine Spec.bind (P := Logged none p.library.2) (allocVolume_spec lib fs hpre) (fun _ => ?_) p
    ⟨hg, rfl⟩
  cases rw with
  | false =>
    obtain ⟨recover, hl⟩ := hpre.forReading
    exact Spec.pure fun q hq => ⟨hq.1, recover, by simpa [hl] using hq.2⟩
  | true =>
    refine Spec.bind (loadBitmaps_spec lib fs hpre) fun _ => ?_
    refine Spec.bind (countMount_spec lib fs) fun _ => Spec.pure ?_
    rintro q ⟨hq, sb, now, hl⟩
    exact ⟨hq, _, sb, now, hpre, by simpa using hl⟩

/-- Whatever each call does, a mount for writing gives a volume only if the volume needed no
recovery, or the replay returned success with a handle, and the bitmaps were read; only then is the
superblock set. A mount that gives no volume closes the handle there still is, once. The global is
cleared. -/
theorem extfskOpen_admits (io : Option (NfskBlockio τ)) (rw : Bool) (s : σ) :
    (∀ v p, extfskOpen (recorded lib) io rw ⟨g, s, []⟩ = .ok v p →
      p.gIoChannelSrc = none ∧ Mounted rw v.fs p.library.2) ∧
    (∀ msg p, extfskOpen (recorded lib) io rw ⟨g, s, []⟩ = .error msg p →
      Declined p.library.2 ∧ (g = none → p.gIoChannelSrc = none)) := by
  have hbad : Declined ([] : List (MountEvent φ)) :=
    Declined.of_settled rfl List.nodup_nil (by simp)
  have hspec : Spec (Logged g []) (extfskOpen (recorded lib) io rw)
      (fun v p => p.gIoChannelSrc = none ∧ Mounted rw v.fs p.library.2)
      fun _ p => Declined p.library.2 ∧ (g = none → p.gIoChannelSrc = none) := by
    cases io with
    | none => exact Spec.throw fun p h => ⟨h.2 ▸ hbad, fun hg => h.1.trans hg⟩
    | some io =>
      refine Spec.guard (fun _ p h => ⟨h.2 ▸ hbad, fun hg => h.1.trans hg⟩) fun _ => ?_
      exact (mountFs_spec lib io rw).conseq_error fun _ p h => ⟨h.2, fun _ => h.1⟩
  exact ⟨fun v p hrun => hspec.ok ⟨rfl, rfl⟩ hrun, fun msg p hrun => hspec.error ⟨rfl, rfl⟩ hrun⟩

end Stages

/-- A volume that needs recovery; the replay gives a new handle, and no call fails. -/
def dirtyVolume : Ext2fsMount Nat Unit Unit where
  ext2fsOpen := fun _ _ s => .ok 1 s
  runExt3Journal := fun _ _ s => .ok (some 2) s
  readBitmaps := fun _ s => .ok () s
  close := fun _ s => .ok () s
  markSuperDirty := fun _ s => s
  flush := fun _ s => .ok () s
  super := fun _ _ => ⟨EXT3_FEATURE_INCOMPAT_RECOVER, 9, 0⟩
  setSuper := fun _ _ s => s
  calloc := fun s => .ok () s
  free := fun s => s
  time := fun _ => 77
  errorMessage := fun _ => ""

example : extfskOpen (recorded dirtyVolume)
    (some ⟨some fun s _ _ => (s, 0, []), none, none, false, 512, 0⟩) true ⟨none, (), []⟩ =
    .ok ⟨2⟩ ⟨none, (), [.opened 1 true, .replayed 1 none (some 2), .allocated, .bitmapsRead 2 none,
      .superSet 2 ⟨4, 9, 0⟩ ⟨4, 10, 77⟩]⟩ := rfl

end Ext
end Usbrw
