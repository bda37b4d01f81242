import Usbrw.Ntfs.Bridge

/-!
# Ntfs.Balance

Which calls give the lock back.

* `Shifts`        — what a piece of code does to the depth of the lock, from every state.
* `Leaks`         — a volume is opened with usable callbacks, and there is no memory for it or for
  its device.
* `lock_balanced` — all other calls end at the depth they start from, and where only such calls are
  made, a thread has the lock only in a call.
* `left_locked`   — a call that leaks blocks the others after it has returned.
-/

namespace Usbrw
namespace Ntfs
namespace Locked

open Mutex

variable {σ α β : Type}

/-- The depth after the events so far, from depth `d`. -/
def depth (d : Nat) (w : World σ) : Nat := depthAfter d w.events

def Shifts (f : Nat → Nat) (x : Bridge σ α) : Prop := ∀ d w, depth d (x w).2 = f (depth d w)

theorem depth_append (d : Nat) (s : σ) (es fs : List Event) :
    depth d ⟨s, es ++ fs⟩ = depthAfter (depth d ⟨s, es⟩) fs :=
  depthAfter_append d es fs

theorem shifts_lock : Shifts (· + 1) (nfskLock : Bridge σ Unit) := by
  intro d w
  exact depth_append d w.lib w.events [.lock]

theorem shifts_unlock : Shifts (· - 1) (nfskUnlock : Bridge σ Unit) := by
  intro d w
  exact depth_append d w.lib w.events [.unlock]

theorem shifts_inside (x : StateM σ α) : Shifts id (inside x) := fun _ _ => rfl

theorem shifts_pure (a : α) : Shifts id (pure a : Bridge σ α) := fun _ _ => rfl

theorem shifts_get : Shifts id (get : Bridge σ (World σ)) := fun _ _ => rfl

theorem Shifts.bind {f g : Nat → Nat} {x : Bridge σ α} {y : α → Bridge σ β} (hx : Shifts f x)
    (hy : ∀ a, Shifts g (y a)) : Shifts (g ∘ f) (x >>= y) := by
  intro d w
  show depth d (y (x w).1 (x w).2).2 = g (f (depth d w))
  rw [hy, hx]

/-- A step that leaves the depth alone, and what comes after it. -/
theorem Shifts.after {g : Nat → Nat} {x : Bridge σ α} {y : α → Bridge σ β} (hx : Shifts id x)
    (hy : ∀ a, Shifts g (y a)) : Shifts g (x >>= y) :=
  hx.bind hy

theorem Shifts.discard {f : Nat → Nat} {x : Bridge σ α} (hx : Shifts f x) :
    Shifts f (discard x) :=
  fun d w => hx d w

theorem Shifts.ite {f : Nat → Nat} {x y : Bridge σ α} {p : Prop} [Decidable p] (hx : Shifts f x)
    (hy : Shifts f y) : Shifts f (if p then x else y) := by
  by_cases hp : p
  · rwa [if_pos hp]
  · rwa [if_neg hp]

/-- Unlock and return. -/
theorem shifts_leave (a : α) : Shifts (· - 1) (do nfskUnlock; pure a : Bridge σ α) :=
  shifts_unlock.bind fun _ => shifts_pure a

/-- Lock, and unlock at the end. -/
theorem Shifts.enclosed {x : Unit → Bridge σ α} (hx : ∀ a, Shifts (· - 1) (x a)) :
    Shifts id (nfskLock >>= x) := by
  intro d w
  rw [shifts_lock.bind hx]
  rfl

theorem shifts_locked {x : Bridge σ α} (hx : Shifts id x) : Shifts id (locked x) :=
  Shifts.enclosed fun _ => hx.after shifts_leave

theorem shifts_wrapper (x : StateM σ α) : Shifts id (locked (inside x)) :=
  shifts_locked (shifts_inside x)

variable (lib : Calls σ)

theorem shifts_report (err : Pointer) (errlen : UInt64) (message : String) :
    Shifts id (report lib err errlen message) :=
  Shifts.ite (shifts_pure ()) (shifts_inside _)

theorem shifts_mountFailed (v : NfskVolume) (err : Pointer) (errlen : UInt64) :
    Shifts id (mountFailed lib v err errlen) := by
  unfold mountFailed
  refine shifts_get.after fun w => ?_
  refine (shifts_report lib err errlen _).after fun _ => ?_
  exact (shifts_inside _).after fun _ => shifts_inside _

theorem shifts_afterMount (v : NfskVolume) (opts : Int32) (err : Pointer) (errlen : UInt64) :
    Shifts id (afterMount lib v opts err errlen) := by
  unfold afterMount
  refine (shifts_inside _).after fun _ => ?_
  refine (shifts_inside _).after fun left => ?_
  refine Shifts.ite ?_ (shifts_pure ())
  -- `hiberfil.sys` goes by a nested call
  refine (shifts_wrapper _).after fun r => ?_
  refine Shifts.ite ?_ (shifts_pure ())
  exact shifts_get.after fun w => shifts_inside _

theorem shifts_nfskClose (v : Option NfskVolume) (force : Int32) :
    Shifts id (nfskClose lib v force) := by
  cases v with
  | none => exact shifts_pure ()
  | some v =>
    refine Shifts.enclosed fun _ => ?_
    have hend : ∀ a : Unit, Shifts (· - 1) (do inside (lib.free v); nfskUnlock : Bridge σ Unit) :=
      fun _ => (shifts_inside _).after fun _ => shifts_unlock
    exact Shifts.ite ((shifts_inside _).after hend) (hend ())

theorem shifts_nfskSyncVolume (v : Option NfskVolume) : Shifts id (nfskSyncVolume lib v) := by
  cases v with
  | none => exact shifts_pure _
  | some v =>
    refine Shifts.enclosed fun _ => ?_
    exact Shifts.ite ((shifts_pure _).after shifts_leave) ((shifts_inside _).after shifts_leave)

/-! ## Opening -/

/-- There is no memory for the volume, or there is and none for its device. -/
def OutOfMemory (io : NfskBlockio) (s : σ) : Prop :=
  (lib.calloc s).1 = false ∨ (lib.ntfsDeviceAlloc io (lib.calloc s).2).1 = NULL

def OpenLeaks (io : Option NfskBlockio) (s : σ) : Prop :=
  ∃ io', usable io = some io' ∧ OutOfMemory lib io' s

/-- The call opens a volume, and leaves the lock behind. -/
def Leaks : Request → σ → Prop
  | .open io _ _ _, s => OpenLeaks lib io s
  | .openEx io _ _ _ _, s => OpenLeaks lib io s
  | _, _ => False

theorem inside_bind (x : StateM σ α) (y : α → Bridge σ β) (w : World σ) :
    (inside x >>= y) w = y (x w.lib).1 { w with lib := (x w.lib).2 } := rfl

variable {lib} {io : NfskBlockio} {d : Nat} {w : World σ}

/-- Without memory the lock is kept. -/
theorem depth_openDevice_leaks (h : OutOfMemory lib io w.lib) (recover opts : Int32)
    (err : Pointer) (errlen : UInt64) :
    depth d (openDevice lib io recover opts err errlen w).2 = depth d w := by
  have hkept : ∀ message, Shifts id (do
      report lib err errlen message
      pure none : Bridge σ (Option NfskVolume)) :=
    fun message => (shifts_report lib err errlen message).after fun _ => shifts_pure none
  unfold openDevice
  rw [inside_bind]
  by_cases hcalloc : (lib.calloc w.lib).1 = true
  · rw [if_neg (not_not_intro hcalloc), inside_bind]
    have hdev : (lib.ntfsDeviceAlloc io (lib.calloc w.lib).2).1 = NULL := by
      rcases h with hno | hdev
      · rw [hcalloc] at hno
        cases hno
      · exact hdev
    rw [if_pos hdev]
    exact (shifts_inside _).after (fun _ => hkept "device alloc failed") d _
  · rw [if_pos hcalloc]
    exact hkept "oom" d _

/-- Otherwise it is given back, whether the mount fails or not. -/
theorem depth_openDevice_returns (h : ¬ OutOfMemory lib io w.lib) (recover opts : Int32)
    (err : Pointer) (errlen : UInt64) :
    depth d (openDevice lib io recover opts err errlen w).2 = depth d w - 1 := by
  have hcalloc : (lib.calloc w.lib).1 = true := by
    by_contra hno
    exact h (.inl (by simpa using hno))
  have hdev : (lib.ntfsDeviceAlloc io (lib.calloc w.lib).2).1 ≠ NULL := fun hno => h (.inr hno)
  unfold openDevice
  rw [inside_bind, if_neg (not_not_intro hcalloc), inside_bind, if_neg hdev]
  refine Shifts.after (g := fun n => n - 1) (shifts_inside _) (fun vol => ?_) d _
  refine Shifts.ite ?_ ?_
  · exact (shifts_mountFailed lib _ err errlen).after fun _ => shifts_leave none
  · exact (shifts_afterMount lib _ opts err errlen).after fun _ => shifts_leave _

variable {io : Option NfskBlockio}

theorem depth_nfskOpenEx_leaks (h : OpenLeaks lib io w.lib) (recover opts : Int32) (err : Pointer)
    (errlen : UInt64) :
    depth d (nfskOpenEx lib io recover opts err errlen w).2 = depth d w + 1 := by
  obtain ⟨io', hio, hmem⟩ := h
  unfold nfskOpenEx
  rw [hio]
  calc depth d (openDevice lib io' recover opts err errlen (nfskLock w).2).2
      = depth d (nfskLock w).2 :=
        depth_openDevice_leaks (w := (nfskLock w).2) hmem recover opts err errlen
    _ = depth d w + 1 := shifts_lock d w

theorem depth_nfskOpenEx_returns (h : ¬ OpenLeaks lib io w.lib) (recover opts : Int32)
    (err : Pointer) (errlen : UInt64) :
    depth d (nfskOpenEx lib io recover opts err errlen w).2 = depth d w := by
  unfold nfskOpenEx
  cases hio : usable io with
  | none =>
    refine Shifts.enclosed (fun _ => ?_) d w
    exact (shifts_report lib err errlen _).after fun _ => shifts_leave none
  | some io' =>
    have hmem : ¬ OutOfMemory lib io' w.lib := fun hmem => h ⟨io', hio, hmem⟩
    calc depth d (openDevice lib io' recover opts err errlen (nfskLock w).2).2
        = depth d (nfskLock w).2 - 1 :=
          depth_openDevice_returns (w := (nfskLock w).2) hmem recover opts err errlen
      _ = depth d w + 1 - 1 := by rw [shifts_lock d w]
      _ = depth d w := Nat.add_sub_cancel ..

/-! ## Calls and runs -/

theorem depth_run_leaks {r : Request} (h : Leaks lib r w.lib) :
    depth d (r.run lib w).2 = depth d w + 1 := by
  cases r with
  | «open» io recover err errlen => exact depth_nfskOpenEx_leaks h recover 0 err errlen
  | openEx io recover opts err errlen => exact depth_nfskOpenEx_leaks h recover opts err errlen
  | _ => cases h

theorem depth_run_returns {r : Request} (h : ¬ Leaks lib r w.lib) :
    depth d (r.run lib w).2 = depth d w := by
  cases r with
  | «open» io recover err errlen => exact depth_nfskOpenEx_returns h recover 0 err errlen
  | openEx io recover opts err errlen => exact depth_nfskOpenEx_returns h recover opts err errlen
  | close v force => exact shifts_nfskClose lib v force d w
  | syncVolume v => exact (shifts_nfskSyncVolume lib v).discard d w
  | truncate v mft newsize => exact (shifts_locked (shifts_wrapper _)).discard d w
  | _ => exact (shifts_wrapper _).discard d w

/-- A call of an entry point that does not leak, from some state of the library. -/
def GivesBack (lib : Calls σ) (es : List Event) : Prop :=
  ∃ (r : Request) (s : σ), ¬ Leaks lib r s ∧ es = r.events lib s

theorem GivesBack.balanced {es : List Event} (h : GivesBack lib es) : Balanced es := by
  obtain ⟨r, s, hleaks, rfl⟩ := h
  exact fun d => depth_run_returns (w := ⟨s, []⟩) hleaks

/-- A call ends at the depth it starts from unless it leaks; and where no call leaks, a blocked thread
is blocked by one that is in a call, and one that is in no call has not kept the lock. -/
theorem lock_balanced (lib : Calls σ) :
    (∀ (r : Request) (s : σ) (d : Nat), depthAfter d (r.events lib s) = d ↔ ¬ Leaks lib r s) ∧
    ∀ {θ : Type} [DecidableEq θ] (acts : List (Act θ)),
      (∀ t es, .call t es ∈ acts → GivesBack lib es) →
      (∀ t u, (acts.foldl Threads.step Threads.idle).Blocked t u →
        (acts.foldl Threads.step Threads.idle).todo u ≠ []) ∧
      ∀ t, (acts.foldl Threads.step Threads.idle).todo t = [] →
        (acts.foldl Threads.step Threads.idle).owner ≠ some t := by
  refine ⟨?_, ?_⟩
  · intro r s d
    constructor
    · intro hd hleaks
      have hleft := depth_run_leaks (d := d) (w := ⟨s, []⟩) hleaks
      rw [show depth d (r.run lib ⟨s, []⟩).2 = d from hd] at hleft
      exact absurd hleft (Nat.ne_of_lt (Nat.lt_succ_self d))
    · exact fun hleaks => depth_run_returns (w := ⟨s, []⟩) hleaks
  · intro θ _ acts hacts
    have hclosing := closing_run acts fun t es hmem => (hacts t es hmem).balanced
    refine ⟨fun t u hb => hclosing.not_returned hb, ?_⟩
    intro t htodo howner
    have hzero := hclosing.depthOf_idle htodo
    rw [Threads.depthOf, if_pos howner] at hzero
    exact absurd (hclosing.owned t howner) (by omega)

/-- A library that does nothing. Its state says whether there is memory for a volume. -/
def idleCalls : Calls Bool where
  errno _ := 0
  calloc memory := (memory, memory)
  free _ := pure ()
  snprintf _ _ _ := pure ()
  memset _ _ _ := pure ()
  strncpy _ _ _ := pure ()
  ntfsMalloc _ := pure NULL
  ntfsFree _ := pure ()
  ntfsDeviceAlloc _ := pure 0x1000
  ntfsDeviceFree _ := pure ()
  ntfsDeviceSync _ := pure 0
  ntfsDeviceMount _ _ := pure 0x2000
  ntfsUmount _ _ := pure ()
  ntfsVolumeError _ := .other
  ntfsSetShownFiles _ _ _ _ := pure ()
  nVolSetCompression _ := pure ()
  nVolClearCompression _ := pure ()
  nVolReadOnly _ := pure false
  ntfsVolumeCheckHiberfile _ := pure false
  volName _ := pure NULL
  setVolName _ _ := pure ()
  fsstatImpl _ _ := pure 0
  getattrImpl _ _ _ := pure 0
  setattrImpl _ _ _ _ := pure 0
  lookupImpl _ _ _ _ _ := pure 0
  readdirImpl _ _ _ _ _ _ := pure 0
  createImpl _ _ _ _ _ _ _ _ := pure 0
  unlinkImpl _ _ _ _ := pure 0
  linkImpl _ _ _ _ := pure 0
  renameImpl _ _ _ _ _ := pure 0
  symlinkImpl _ _ _ _ _ _ _ := pure 0
  readlinkImpl _ _ _ _ := pure 0
  readImpl _ _ _ _ _ := pure 0
  writeImpl _ _ _ _ _ := pure 0
  fsyncImpl _ _ := pure 0
  getxattrImpl _ _ _ _ _ := pure 0
  setxattrImpl _ _ _ _ _ := pure 0
  removexattrImpl _ _ _ := pure 0
  listxattrImpl _ _ _ _ := pure 0

def someIo : NfskBlockio := ⟨0, 0x100, 0x200, 0x300, 0, 512, 0⟩

def openRequest : Request := .openEx (some someIo) 0 0 0 0

def statRequest : Request := .fsstat none 0

/-- Thread 0 opens a volume and takes `steps` steps, then thread 1 calls `nfsk_fsstat`. -/
def openThenStat (memory : Bool) (steps : Nat) : List (Act Nat) :=
  .call 0 (openRequest.events idleCalls memory) ::
    (List.replicate steps (.run 0) ++ [.call 1 (statRequest.events idleCalls memory)])

theorem idle_openRequest : ¬ Leaks idleCalls openRequest true := by
  rintro ⟨io, _, hcalloc | hdev⟩
  · cases hcalloc
  · exact absurd (show (0x1000 : Pointer) = NULL from hdev) (by decide)

theorem lock_balanced_open :
    ((openThenStat true 1).foldl Threads.step Threads.idle).Blocked 1 0 ∧
    ((openThenStat true 1).foldl Threads.step Threads.idle).todo 0 ≠ [] := by
  have hblocked : ((openThenStat true 1).foldl Threads.step Threads.idle).Blocked 1 0 :=
    ⟨rfl, by decide, _, rfl⟩
  refine ⟨hblocked, ?_⟩
  refine ((lock_balanced idleCalls).2 (openThenStat true 1) ?_).1 1 0 hblocked
  intro t es hmem
  rcases List.mem_cons.mp hmem with heq | hmem
  · cases heq
    exact ⟨openRequest, true, idle_openRequest, rfl⟩
  · simp at hmem
    exact ⟨statRequest, true, not_false, hmem.2⟩

/-- Without memory `nfsk_open_ex` only locks. It returns, and the next call waits for it. -/
theorem left_locked :
    depthAfter 0 (openRequest.events idleCalls false) = 1 ∧
    ((openThenStat false 1).foldl Threads.step Threads.idle).Blocked 1 0 ∧
    ((openThenStat false 1).foldl Threads.step Threads.idle).todo 0 = [] :=
  ⟨rfl, ⟨rfl, by decide, _, rfl⟩, rfl⟩

end Locked
end Ntfs
end Usbrw
