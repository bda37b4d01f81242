import Usbrw.Base.Serial
import Usbrw.Ntfs.Balance

/-!
# Ntfs.Serial

The entry points of the bridge called from many threads. The functions under the lock are split into
accesses to the shared state in any way, and the steps of the threads come in any order.

* `Splitting`       — how the calls of `Calls` are split.
* `Request.outcome` — the result of a call that is made alone.
* `Request.code`    — the call, step by step.
* `Amounts`         — from one to the other.
* `calls_serialize` — what is seen of the threads is seen of calls that each take effect at once.
-/

namespace Usbrw
namespace Ntfs
namespace Locked

open Serial
open Serial.Code (Within Neutral neutral_pure neutral_view)

variable {σ α β : Type}

/-- However the calls are split into accesses, they do not touch the lock, and one that is not
interrupted does what it does. -/
structure Splitting (σ : Type) where
  split : {α : Type} → StateM σ α → Code σ α
  run_split : ∀ {α : Type} (x : StateM σ α) (s : σ), (split x).run s = x s
  lockFree : ∀ {α : Type} (x : StateM σ α), (split x).LockFree

/-- Every call is one access. -/
def Splitting.coarse : Splitting σ where
  split x := .act (fun s => (x s).2) fun s => .done (x s).1
  run_split _ _ := rfl
  lockFree _ := .act fun _ => .done _

inductive Outcome where
  | volume (v : Option NfskVolume)
  | nothing
  | int32 (r : Int32)
  | int64 (r : Int64)

/-- Call the entry point. -/
def Request.outcome (lib : Calls σ) : Request → Bridge σ Outcome
  | .open io recover err errlen => .volume <$> nfskOpen lib io recover err errlen
  | .openEx io recover opts err errlen => .volume <$> nfskOpenEx lib io recover opts err errlen
  | .close v force => (fun _ => .nothing) <$> nfskClose lib v force
  | .syncVolume v => .int32 <$> nfskSyncVolume lib v
  | .fsstat v out => .int32 <$> nfskFsstat lib v out
  | .getattr v mft out => .int32 <$> nfskGetattr lib v mft out
  | .setattr v mft st which => .int32 <$> nfskSetattr lib v mft st which
  | .lookup v dirMft name outMft outStat => .int32 <$> nfskLookup lib v dirMft name outMft outStat
  | .readdir v dirMft ioCookie wantAttrs cb ctx =>
    .int32 <$> nfskReaddir lib v dirMft ioCookie wantAttrs cb ctx
  | .create v dirMft name type mode uid gid outMft =>
    .int32 <$> nfskCreate lib v dirMft name type mode uid gid outMft
  | .unlink v dirMft name mft => .int32 <$> nfskUnlink lib v dirMft name mft
  | .link v mft newDir newName => .int32 <$> nfskLink lib v mft newDir newName
  | .rename v oldDir oldName newDir newName =>
    .int32 <$> nfskRename lib v oldDir oldName newDir newName
  | .symlink v dirMft name target uid gid outMft =>
    .int32 <$> nfskSymlink lib v dirMft name target uid gid outMft
  | .readlink v mft buf buflen => .int32 <$> nfskReadlink lib v mft buf buflen
  | .read v mft offset len buf => .int64 <$> nfskRead lib v mft offset len buf
  | .write v mft offset len buf => .int64 <$> nfskWrite lib v mft offset len buf
  | .truncate v mft newsize => .int32 <$> nfskTruncate lib v mft newsize
  | .fsync v mft => .int32 <$> nfskFsync lib v mft
  | .getxattr v mft name buf buflen => .int64 <$> nfskGetxattr lib v mft name buf buflen
  | .setxattr v mft name buf buflen => .int32 <$> nfskSetxattr lib v mft name buf buflen
  | .removexattr v mft name => .int32 <$> nfskRemovexattr lib v mft name
  | .listxattr v mft cb ctx => .int32 <$> nfskListxattr lib v mft cb ctx

/-- It leaves what `Request.run` leaves. -/
theorem outcome_run (lib : Calls σ) (r : Request) (w : World σ) :
    (r.outcome lib w).2 = (r.run lib w).2 := by
  cases r with
  | _ => rfl

/-! ## Step by step -/

namespace Stepwise

def unlock : Code σ Unit := .unlock (.done ())

variable (lib : Calls σ) (S : Splitting σ)

def wrapper (x : StateM σ α) : Code σ α := Code.locked (S.split x)

def report (err : Pointer) (errlen : UInt64) (message : String) : Code σ Unit :=
  if err = NULL then pure () else S.split (lib.snprintf err errlen message)

def afterMount (v : NfskVolume) (opts : Int32) (err : Pointer) (errlen : UInt64) :
    Code σ Unit := do
  S.split (configure lib v.vol opts)
  if ← S.split (hiberfileLeft lib v.vol opts) then
    let r ← wrapper S (lib.unlinkImpl (some v) 5 hiberfilSys 0)
    if r ≠ 0 then
      let e ← Code.view lib.errno
      S.split (lib.snprintf err errlen ("hiberfil.sys 删除失败(errno=" ++ toString e ++ ")"))

def mountFailed (v : NfskVolume) (err : Pointer) (errlen : UInt64) : Code σ Unit := do
  let e ← Code.view lib.errno
  report lib S err errlen ((lib.ntfsVolumeError e).why ++ " (errno=" ++ toString e ++ ")")
  S.split (lib.ntfsDeviceFree v.dev)
  S.split (lib.free v)

/-- After `nfsk_lock`, with callbacks that are there. -/
def openDevice (io : NfskBlockio) (recover opts : Int32) (err : Pointer) (errlen : UInt64) :
    Code σ (Option NfskVolume) := do
  if ¬ (← S.split lib.calloc) then
    report lib S err errlen "oom"
    pure none
  else
    let dev ← S.split (lib.ntfsDeviceAlloc io)
    if dev = NULL then
      S.split (lib.free ⟨NULL, NULL, io, 0⟩)
      report lib S err errlen "device alloc failed"
      pure none
    else
      let vol ← S.split (lib.ntfsDeviceMount dev (mountFlags io recover opts))
      let v : NfskVolume := ⟨vol, dev, io, opts.toUInt32⟩
      if vol = NULL then
        mountFailed lib S v err errlen
        unlock
        pure none
      else
        afterMount lib S v opts err errlen
        unlock
        pure (some v)

def nfskOpenEx (io : Option NfskBlockio) (recover opts : Int32) (err : Pointer)
    (errlen : UInt64) : Code σ (Option NfskVolume) :=
  .lock <|
    match usable io with
    | none => do
      report lib S err errlen "bad io callbacks"
      unlock
      pure none
    | some io => openDevice lib S io recover opts err errlen

def nfskClose (v : Option NfskVolume) (force : Int32) : Code σ Unit :=
  match v with
  | none => pure ()
  | some v =>
    .lock do
      if v.vol ≠ NULL then
        S.split (lib.ntfsUmount v.vol (force ≠ 0))
      S.split (lib.free v)
      unlock

def nfskSyncVolume (v : Option NfskVolume) : Code σ Int32 :=
  match v with
  | none => pure (-EINVAL)
  | some v =>
    .lock do
      let r ← if v.vol = NULL then pure (-EINVAL) else S.split (lib.ntfsDeviceSync v.dev)
      unlock
      pure r

end Stepwise

open Stepwise in
def Request.code (lib : Calls σ) (S : Splitting σ) : Request → Code σ Outcome
  | .open io recover err errlen => .volume <$> Stepwise.nfskOpenEx lib S io recover 0 err errlen
  | .openEx io recover opts err errlen =>
    .volume <$> Stepwise.nfskOpenEx lib S io recover opts err errlen
  | .close v force => (fun _ => .nothing) <$> Stepwise.nfskClose lib S v force
  | .syncVolume v => .int32 <$> Stepwise.nfskSyncVolume lib S v
  | .fsstat v out => .int32 <$> wrapper S (lib.fsstatImpl v out)
  | .getattr v mft out => .int32 <$> wrapper S (lib.getattrImpl v mft out)
  | .setattr v mft st which => .int32 <$> wrapper S (lib.setattrImpl v mft st which)
  | .lookup v dirMft name outMft outStat =>
    .int32 <$> wrapper S (lib.lookupImpl v dirMft name outMft outStat)
  | .readdir v dirMft ioCookie wantAttrs cb ctx =>
    .int32 <$> wrapper S (lib.readdirImpl v dirMft ioCookie wantAttrs cb ctx)
  | .create v dirMft name type mode uid gid outMft =>
    .int32 <$> wrapper S (lib.createImpl v dirMft name type mode uid gid outMft)
  | .unlink v dirMft name mft => .int32 <$> wrapper S (lib.unlinkImpl v dirMft name mft)
  | .link v mft newDir newName => .int32 <$> wrapper S (lib.linkImpl v mft newDir newName)
  | .rename v oldDir oldName newDir newName =>
    .int32 <$> wrapper S (lib.renameImpl v oldDir oldName newDir newName)
  | .symlink v dirMft name target uid gid outMft =>
    .int32 <$> wrapper S (lib.symlinkImpl v dirMft name target uid gid outMft)
  | .readlink v mft buf buflen => .int32 <$> wrapper S (lib.readlinkImpl v mft buf buflen)
  | .read v mft offset len buf => .int64 <$> wrapper S (lib.readImpl v mft offset len buf)
  | .write v mft offset len buf => .int64 <$> wrapper S (lib.writeImpl v mft offset len buf)
  | .truncate v mft newsize =>
    -- the lock is taken again in `nfsk_setattr`
    .int32 <$> Code.locked
      (wrapper S (lib.setattrImpl v mft (some { NfskStat.zero with size := newsize }) 8))
  | .fsync v mft => .int32 <$> wrapper S (lib.fsyncImpl v mft)
  | .getxattr v mft name buf buflen =>
    .int64 <$> wrapper S (lib.getxattrImpl v mft name buf buflen)
  | .setxattr v mft name buf buflen =>
    .int32 <$> wrapper S (lib.setxattrImpl v mft name buf buflen)
  | .removexattr v mft name => .int32 <$> wrapper S (lib.removexattrImpl v mft name)
  | .listxattr v mft cb ctx => .int32 <$> wrapper S (lib.listxattrImpl v mft cb ctx)

/-! ## The code amounts to the call -/

/-- Uninterrupted, `c` does what `x` does. -/
def Amounts (c : Code σ α) (x : Bridge σ α) : Prop :=
  ∀ w, c.run w.lib = ((x w).1, (x w).2.lib)

theorem amounts_pure (a : α) : Amounts (pure a : Code σ α) (pure a) := fun _ => rfl

theorem Amounts.bind {c : Code σ α} {x : Bridge σ α} {g : α → Code σ β} {y : α → Bridge σ β}
    (hc : Amounts c x) (hg : ∀ a, Amounts (g a) (y a)) : Amounts (c >>= g) (x >>= y) := by
  intro w
  show (c.bind g).run w.lib = _
  rw [Code.run_bind, hc w]
  exact hg (x w).1 (x w).2

theorem Amounts.map {c : Code σ α} {x : Bridge σ α} (hc : Amounts c x) (f : α → β) :
    Amounts (f <$> c) (f <$> x) :=
  hc.bind fun a => amounts_pure (f a)

theorem amounts_split (S : Splitting σ) (x : StateM σ α) : Amounts (S.split x) (inside x) :=
  fun w => S.run_split x w.lib

theorem Amounts.lock {c : Code σ α} {x : Unit → Bridge σ α} (hc : ∀ a, Amounts c (x a)) :
    Amounts (.lock c) (nfskLock >>= x) :=
  fun w => hc () { w with events := w.events ++ [.lock] }

theorem amounts_unlock : Amounts (Stepwise.unlock : Code σ Unit) nfskUnlock := fun _ => rfl

theorem amounts_view {f : σ → α} : Amounts (Code.view f) (do return f (← get).lib) := fun _ => rfl

theorem Amounts.ite {p : Prop} [Decidable p] {c d : Code σ α} {x y : Bridge σ α}
    (hc : Amounts c x) (hd : Amounts d y) :
    Amounts (if p then c else d) (if p then x else y) := by
  by_cases hp : p
  · rw [if_pos hp, if_pos hp]
    exact hc
  · rw [if_neg hp, if_neg hp]
    exact hd

theorem Amounts.leave {c : Code σ Unit} {x : Bridge σ Unit} (hc : Amounts c x) (a : α) :
    Amounts (do c; Stepwise.unlock; pure a) (do x; nfskUnlock; pure a) :=
  hc.bind fun _ => amounts_unlock.bind fun _ => amounts_pure a

theorem Amounts.locked {c : Code σ α} {x : Bridge σ α} (hc : Amounts c x) :
    Amounts (Code.locked c) (locked x) :=
  Amounts.lock fun _ => hc.bind fun a => amounts_unlock.bind fun _ => amounts_pure a

theorem amounts_wrapper (S : Splitting σ) (x : StateM σ α) :
    Amounts (Stepwise.wrapper S x) (locked (inside x)) :=
  (amounts_split S x).locked

section Calls

variable (lib : Calls σ) (S : Splitting σ) (v : NfskVolume) (recover opts : Int32) (err : Pointer)
  (errlen : UInt64)

theorem amounts_report (message : String) :
    Amounts (Stepwise.report lib S err errlen message) (report lib err errlen message) :=
  (amounts_pure ()).ite (amounts_split S _)

theorem amounts_afterMount :
    Amounts (Stepwise.afterMount lib S v opts err errlen) (afterMount lib v opts err errlen) := by
  refine (amounts_split S _).bind fun _ => (amounts_split S _).bind fun left => ?_
  refine Amounts.ite ?_ (amounts_pure ())
  refine (amounts_wrapper S _).bind fun r => Amounts.ite ?_ (amounts_pure ())
  exact fun w => (amounts_split S _) w

theorem amounts_mountFailed :
    Amounts (Stepwise.mountFailed lib S v err errlen) (mountFailed lib v err errlen) := by
  have hrest : ∀ e : Int32, Amounts (do
      Stepwise.report lib S err errlen ((lib.ntfsVolumeError e).why ++ " (errno=" ++ toString e ++ ")")
      S.split (lib.ntfsDeviceFree v.dev)
      S.split (lib.free v)) (do
      report lib err errlen ((lib.ntfsVolumeError e).why ++ " (errno=" ++ toString e ++ ")")
      inside (lib.ntfsDeviceFree v.dev)
      inside (lib.free v)) :=
    fun e => (amounts_report lib S err errlen _).bind fun _ =>
      (amounts_split S _).bind fun _ => amounts_split S _
  exact fun w => hrest (lib.errno w.lib) w

theorem amounts_openDevice (io : NfskBlockio) :
    Amounts (Stepwise.openDevice lib S io recover opts err errlen)
      (openDevice lib io recover opts err errlen) := by
  refine (amounts_split S _).bind fun b => Amounts.ite ?_ ?_
  · exact (amounts_report lib S err errlen _).bind fun _ => amounts_pure none
  refine (amounts_split S _).bind fun dev => Amounts.ite ?_ ?_
  · exact (amounts_split S _).bind fun _ => (amounts_report lib S err errlen _).bind fun _ =>
      amounts_pure none
  refine (amounts_split S _).bind fun vol => Amounts.ite ?_ ?_
  · exact (amounts_mountFailed lib S _ err errlen).leave none
  · exact (amounts_afterMount lib S _ opts err errlen).leave _

theorem amounts_nfskOpenEx (io : Option NfskBlockio) :
    Amounts (Stepwise.nfskOpenEx lib S io recover opts err errlen)
      (nfskOpenEx lib io recover opts err errlen) := by
  unfold Stepwise.nfskOpenEx nfskOpenEx
  refine Amounts.lock fun _ => ?_
  cases usable io with
  | none => exact (amounts_report lib S err errlen _).leave none
  | some io => exact amounts_openDevice lib S recover opts err errlen io

theorem amounts_nfskClose (v : Option NfskVolume) (force : Int32) :
    Amounts (Stepwise.nfskClose lib S v force) (nfskClose lib v force) := by
  cases v with
  | none => exact amounts_pure ()
  | some v =>
    refine Amounts.lock fun _ => ?_
    have hend : ∀ a : Unit, Amounts (do S.split (lib.free v); Stepwise.unlock)
        (do inside (lib.free v); nfskUnlock) :=
      fun _ => (amounts_split S _).bind fun _ => amounts_unlock
    exact Amounts.ite ((amounts_split S _).bind hend) (hend ())

theorem amounts_nfskSyncVolume (v : Option NfskVolume) :
    Amounts (Stepwise.nfskSyncVolume lib S v) (nfskSyncVolume lib v) := by
  cases v with
  | none => exact amounts_pure _
  | some v =>
    refine Amounts.lock fun _ => ?_
    have hend : ∀ r : Int32, Amounts (σ := σ) (do Stepwise.unlock; pure r)
        (do nfskUnlock; pure r) :=
      fun r => amounts_unlock.bind fun _ => amounts_pure r
    exact Amounts.ite ((amounts_pure _).bind hend) ((amounts_split S _).bind hend)

theorem amounts_code (r : Request) : Amounts (r.code lib S) (r.outcome lib) := by
  cases r with
  | «open» io recover err errlen => exact (amounts_nfskOpenEx lib S recover 0 err errlen io).map _
  | openEx io recover opts err errlen =>
    exact (amounts_nfskOpenEx lib S recover opts err errlen io).map _
  | close v force => exact (amounts_nfskClose lib S v force).map _
  | syncVolume v => exact (amounts_nfskSyncVolume lib S v).map _
  | truncate v mft newsize => exact (amounts_wrapper S _).locked.map _
  | _ => exact (amounts_wrapper S _).map _

/-! ## It is guarded -/

theorem neutral_split (x : StateM σ α) : Neutral (S.split x) := (S.lockFree x).neutral

theorem neutral_wrapper (x : StateM σ α) : Neutral (Stepwise.wrapper S x) :=
  (neutral_split S x).locked

theorem neutral_report (message : String) :
    Neutral (Stepwise.report lib S err errlen message) :=
  (neutral_pure ()).ite (neutral_split S _)

theorem neutral_afterMount : Neutral (Stepwise.afterMount lib S v opts err errlen) := by
  refine (neutral_split S _).bind fun _ => (neutral_split S _).bind fun left => ?_
  refine Neutral.ite ?_ (neutral_pure ())
  refine (neutral_wrapper S _).bind fun r => Neutral.ite ?_ (neutral_pure ())
  exact (neutral_view _).bind fun e => neutral_split S _

theorem neutral_mountFailed : Neutral (Stepwise.mountFailed lib S v err errlen) :=
  (neutral_view _).bind fun _ => (neutral_report lib S err errlen _).bind fun _ =>
    (neutral_split S _).bind fun _ => neutral_split S _

theorem within_leave (a : α) : Within 1 (do Stepwise.unlock; pure a : Code σ α) :=
  .unlock (.done a)

/-- Without memory the lock is kept. -/
theorem within_openDevice (io : NfskBlockio) :
    Within 1 (Stepwise.openDevice lib S io recover opts err errlen) := by
  have hkept : ∀ message, Within 1 (do
      Stepwise.report lib S err errlen message
      pure none : Code σ (Option NfskVolume)) :=
    fun message => neutral_report lib S err errlen message 0 _ fun _ => .done none
  refine neutral_split S _ 0 _ fun b => ?_
  by_cases hb : ¬ b = true
  · rw [if_pos hb]
    exact hkept "oom"
  rw [if_neg hb]
  refine neutral_split S _ 0 _ fun dev => ?_
  by_cases hdev : dev = NULL
  · rw [if_pos hdev]
    exact neutral_split S _ 0 _ fun _ => hkept "device alloc failed"
  rw [if_neg hdev]
  refine neutral_split S _ 0 _ fun vol => ?_
  by_cases hvol : vol = NULL
  · rw [if_pos hvol]
    exact neutral_mountFailed lib S _ err errlen 0 _ fun _ => within_leave none
  · rw [if_neg hvol]
    exact neutral_afterMount lib S _ opts err errlen 0 _ fun _ => within_leave _

theorem guarded_nfskOpenEx (io : Option NfskBlockio) :
    (Stepwise.nfskOpenEx lib S io recover opts err errlen).Guarded := by
  unfold Stepwise.nfskOpenEx
  cases usable io with
  | none => exact neutral_report lib S err errlen _ 0 _ fun _ => within_leave none
  | some io => exact within_openDevice lib S recover opts err errlen io

theorem guarded_nfskClose (v : Option NfskVolume) (force : Int32) :
    (Stepwise.nfskClose lib S v force).Guarded := by
  cases v with
  | none => trivial
  | some v =>
    have hend : Within 1 (do S.split (lib.free v); Stepwise.unlock) :=
      neutral_split S _ 0 _ fun _ => .unlock (.done ())
    show Within 1 (if v.vol ≠ NULL then _ else _)
    by_cases hvol : v.vol ≠ NULL
    · rw [if_pos hvol]
      exact neutral_split S _ 0 _ fun _ => hend
    · rw [if_neg hvol]
      exact hend

theorem guarded_nfskSyncVolume (v : Option NfskVolume) :
    (Stepwise.nfskSyncVolume lib S v).Guarded := by
  cases v with
  | none => trivial
  | some v =>
    show Within 1 (if v.vol = NULL then _ else _)
    by_cases hvol : v.vol = NULL
    · rw [if_pos hvol]
      exact within_leave _
    · rw [if_neg hvol]
      exact neutral_split S _ 0 _ fun r => within_leave r

theorem guarded_code (r : Request) : (r.code lib S).Guarded := by
  cases r with
  | «open» io recover err errlen => exact (guarded_nfskOpenEx lib S recover 0 err errlen io).map _
  | openEx io recover opts err errlen =>
    exact (guarded_nfskOpenEx lib S recover opts err errlen io).map _
  | close v force => exact (guarded_nfskClose lib S v force).map _
  | syncVolume v => exact (guarded_nfskSyncVolume lib S v).map _
  | truncate v mft newsize => exact (neutral_wrapper S _).guarded.map _
  | _ => exact (neutral_split S _).guarded.map _

end Calls

/-- What a call does to the library, and its result. -/
def Request.effect (lib : Calls σ) (r : Request) (s : σ) : Outcome × σ :=
  ((r.outcome lib ⟨s, []⟩).1, (r.outcome lib ⟨s, []⟩).2.lib)

/-- Threads that call the entry points, their steps in any order, see what they would see if every
call took effect at one instant between its beginning and its return; and when no call is under
way, the library is in the same state as then. -/
theorem calls_serialize {θ : Type} [DecidableEq θ] (lib : Calls σ) (S : Splitting σ) (s : σ)
    (acts : List (Act θ Request)) :
    let run := (Conf.start s).exec (Request.code lib S) acts
    ∃ a : Atomic θ Request σ Outcome, Atomic.Runs (Request.effect lib) (.start s) run.2 a ∧
      ((∀ t, run.1.rest t = none) → a.state = run.1.state) := by
  obtain ⟨a, hruns, hsim⟩ := @serializable _ _ _ _ _ (Request.code lib S) (Request.effect lib)
    (fun r => guarded_code lib S r) (fun r s => amounts_code lib S r ⟨s, []⟩) s acts
  exact ⟨a, hruns, fun hidle => hsim.settled fun t _ _ => hidle t⟩

end Locked
end Ntfs
end Usbrw
