import Usbrw.Base.Service
import Usbrw.Settings.Mount

/-!
# Settings.Preferences

The app sets preferences, the extension mounts by them, and what lies between the two are databases
of `UserDefaults` with mirrors. The app group's database is shared by both, but only once the group
is in the provisioning profile; before, each process is left to itself.

* `Setting`          — a preference; no two share a key or a mirror.
* `World`            — the databases, and the devices of the extension.
* `Prefs`            — what both are for: the app's choices, and those of them that are published.
* `World.step`, `Prefs.step` — a call of one of the processes.
* `settings_refine`  — the calls answer as the preferences say, in any order and with any calls
  before and after the registration of the group.
-/

namespace Usbrw
namespace Settings

open Function Service

inductive Setting where
  | forceReadOnly
  | ro (serial : String)
  | opt (o : Opt)
  | rescue (serial : String)
  deriving DecidableEq

namespace Setting

def key : Setting → String
  | .forceReadOnly => forceReadOnlyKey
  | .ro serial => roKey serial
  | .opt o => o.key
  | .rescue serial => rescueKey serial

def mirror : Setting → String
  | .forceReadOnly => localMirrorKey
  | .ro serial => mirrorKey (roKey serial)
  | .opt o => mirrorKey o.key
  | .rescue serial => mirrorKey (rescueKey serial)

theorem key_injective : Injective key := by
  intro s t h
  have hchars := congrArg String.toList h
  cases s with
  | forceReadOnly =>
    cases t with
    | forceReadOnly => rfl
    | opt o => cases o <;> simp [key, forceReadOnlyKey, Opt.key] at hchars
    | _ => simp [key, forceReadOnlyKey, roKey, rescueKey] at hchars
  | ro a =>
    cases t with
    | ro b => simpa [key, roKey] using h
    | opt o => cases o <;> simp [key, roKey, Opt.key] at hchars
    | _ => simp [key, forceReadOnlyKey, roKey, rescueKey] at hchars
  | opt o =>
    cases t with
    | opt u => cases o <;> cases u <;> first | rfl | simp [key, Opt.key] at h
    | _ => cases o <;> simp [key, forceReadOnlyKey, roKey, rescueKey, Opt.key] at hchars
  | rescue a =>
    cases t with
    | rescue b => simpa [key, rescueKey] using h
    | opt o => cases o <;> simp [key, rescueKey, Opt.key] at hchars
    | _ => simp [key, forceReadOnlyKey, roKey, rescueKey] at hchars

/-- All mirrors but one are those of the keys. -/
theorem mirror_cases (s : Setting) : s = .forceReadOnly ∨ s.mirror = "mirror." ++ s.key := by
  cases s with
  | forceReadOnly => exact .inl rfl
  | _ => exact .inr rfl

theorem localMirrorKey_ne (text : String) : localMirrorKey ≠ "mirror." ++ text := by
  intro h
  have hchars := congrArg String.toList h
  simp [localMirrorKey] at hchars

theorem mirror_injective : Injective mirror := by
  intro s t h
  obtain rfl | hs := mirror_cases s
  · obtain rfl | ht := mirror_cases t
    · rfl
    · exact absurd (h.trans ht) (localMirrorKey_ne t.key)
  · obtain rfl | ht := mirror_cases t
    · exact absurd (h.symm.trans hs) (localMirrorKey_ne s.key)
    · rw [hs, ht] at h
      exact key_injective (by simpa using h)

theorem key_ne_mirror (s t : Setting) : s.key ≠ t.mirror := by
  intro h
  have hchars := congrArg String.toList h
  obtain rfl | ht := mirror_cases t
  · cases s with
    | opt o => cases o <;> simp [key, mirror, localMirrorKey, Opt.key] at hchars
    | _ => simp [key, mirror, localMirrorKey, forceReadOnlyKey, roKey, rescueKey] at hchars
  · rw [ht] at hchars
    cases s with
    | opt o => cases o <;> simp [key, Opt.key] at hchars
    | _ => simp [key, forceReadOnlyKey, roKey, rescueKey] at hchars

end Setting

/-! ## What a setter does to a database -/

namespace Defaults

/-- `store` with a value, and `forget` without one. -/
def assign (d : Defaults) (s : Setting) (v : Option Bool) : Defaults :=
  match v with
  | some v => d.store s.key s.mirror v
  | none => d.forget s.key s.mirror

def lookup (d : Defaults) (s : Setting) : Option Bool := d.stored s.key s.mirror

theorem assign_suite {d : Defaults} {a : Domain} (h : d.suite = some a) (s : Setting)
    (v : Option Bool) :
    d.assign s v = ⟨some (update a s.key v), update d.standard s.mirror v⟩ := by
  cases v with
  | some v => simp [assign, store, Defaults.set, h, onStandard, Domain.set]
  | none => simp [assign, forget, Defaults.removeObject, h, onStandard, Domain.removeObject]

theorem assign_standard {d : Defaults} (h : d.suite = none) (s : Setting) (v : Option Bool) :
    d.assign s v = ⟨none, update (update d.standard s.key v) s.mirror v⟩ := by
  cases v with
  | some v => simp [assign, store, Defaults.set, h, onStandard, Domain.set]
  | none => simp [assign, forget, Defaults.removeObject, h, onStandard, Domain.removeObject]

theorem assign_standard_mirror (d : Defaults) (s t : Setting) (v : Option Bool) :
    (d.assign s v).standard t.mirror = update (fun s => d.standard (Setting.mirror s)) s v t := by
  have hupdate : ∀ f : Domain, update f s.mirror v t.mirror =
      update (fun s => f (Setting.mirror s)) s v t := fun f => by
    by_cases hts : t = s
    · subst hts
      simp
    · rw [update_of_ne fun h => hts (Setting.mirror_injective h), update_of_ne hts]
  cases h : d.suite with
  | some a => simp [assign_suite h, hupdate]
  | none =>
    rw [assign_standard h]
    show update (update d.standard s.key v) s.mirror v t.mirror = _
    rw [hupdate]
    congr 1
    funext u
    rw [update_of_ne (Setting.key_ne_mirror s u).symm]

theorem update_key (a : Domain) (s t : Setting) (v : Option Bool) :
    update a s.key v t.key = update (fun s => a (Setting.key s)) s v t := by
  by_cases hts : t = s
  · subst hts
    simp
  · rw [update_of_ne fun h => hts (Setting.key_injective h), update_of_ne hts]

end Defaults

/-! ## The processes -/

inductive Process where
  | app
  | extension

/-- Before the group is registered a process may have a suite of its own. -/
structure World where
  group : Option Domain
  appSuite : Option Domain
  extSuite : Option Domain
  appStandard : Domain
  extStandard : Domain
  /-- `io.readonly` of the devices of the extension. -/
  devices : Nat → Option Bool

namespace World

def defaults (w : World) : Process → Defaults
  | .app => ⟨w.group.or w.appSuite, w.appStandard⟩
  | .extension => ⟨w.group.or w.extSuite, w.extStandard⟩

/-- After a process changed the databases it reaches to `d`. -/
def put (w : World) (who : Process) (d : Defaults) : World :=
  match who, w.group with
  | .app, some _ => { w with group := d.suite, appStandard := d.standard }
  | .app, none => { w with appSuite := d.suite, appStandard := d.standard }
  | .extension, some _ => { w with group := d.suite, extStandard := d.standard }
  | .extension, none => { w with extSuite := d.suite, extStandard := d.standard }

/-- Nothing is stored, in the databases there are. -/
def fresh (group appSuite extSuite : Bool) : World where
  group := if group then some .empty else none
  appSuite := if appSuite then some .empty else none
  extSuite := if extSuite then some .empty else none
  appStandard := .empty
  extStandard := .empty
  devices _ := none

end World

/-- What the app calls, and then what the extension does for the device `i`, or for an ext volume.
Either may ask for a setting, and the group may be registered at any time. `opens` says whether
`nfsk_open` succeeds. -/
inductive Request where
  | setForceReadOnly (v : Bool)
  | setROOverride (serial : String) (value : Option Bool)
  | setMountOpt (o : Opt) (v : Bool)
  | setHiberfileRescue (serial : String)
  | register
  | forceReadOnly (who : Process)
  | roOverride (who : Process) (serial : String)
  | shouldMountReadOnly (who : Process) (serial : String)
  | mountOpt (who : Process) (o : Opt)
  | attach (i : Nat) (isWritable : Bool) (bootSerial : Option String)
  | mountVolume (i : Nat) (bootSerial : Option String) (opens : Bool)
  | loadExt (isWritable : Bool)

inductive Reply where
  | done
  | flag (v : Bool)
  | choice (v : Option Bool)
  | noDevice
  | failed
  | mounted (volume : OpenVolume)

/-- A call. The volumes are mounted with the callbacks `io`. -/
def World.step (io : Ntfs.Locked.NfskBlockio) (w : World) : Request → World × Reply
  | .setForceReadOnly v => (w.put .app (Settings.setForceReadOnly (w.defaults .app) v), .done)
  | .setROOverride serial value =>
    (w.put .app (Settings.setROOverride (w.defaults .app) serial value), .done)
  | .setMountOpt o v => (w.put .app (Settings.setMountOpt (w.defaults .app) o.key v), .done)
  | .setHiberfileRescue serial =>
    (w.put .app (Settings.setHiberfileRescue (w.defaults .app) serial), .done)
  | .register => ({ w with group := some (w.group.getD .empty) }, .done)
  | .forceReadOnly who => (w, .flag (Settings.forceReadOnly (w.defaults who)))
  | .roOverride who serial => (w, .choice (Settings.roOverride (w.defaults who) serial))
  | .shouldMountReadOnly who serial =>
    (w, .flag (Settings.shouldMountReadOnly (w.defaults who) serial))
  | .mountOpt who o => (w, .flag (Settings.mountOpt (w.defaults who) o.key))
  | .attach i isWritable bootSerial =>
    let readonly := deviceReadonly (w.defaults .extension) isWritable bootSerial
    ({ w with devices := update w.devices i (some readonly) }, .done)
  | .mountVolume i bootSerial opens =>
    match w.devices i with
    | none => (w, .noDevice)
    | some readonly =>
      let opts := mountVolumeOpts (w.defaults .extension)
      match takeRescue (w.defaults .extension) readonly bootSerial with
      | (rescue, d) => (w.put .extension d,
        if opens then .mounted (openVolume io readonly (opts rescue)) else .failed)
  | .loadExt isWritable => (w, .flag (extWritable (w.defaults .extension) isWritable))

/-! ## The preferences -/

/-- `own` is what the app chose, and `published` what it chose since the group is registered, less
the rescues that were carried out. -/
structure Prefs where
  registered : Bool
  own : Setting → Option Bool
  published : Setting → Option Bool
  devices : Nat → Option Bool

namespace Prefs

variable (p : Prefs)

def view : Process → Setting → Option Bool
  | .app => p.own
  | .extension => p.published

def choose (s : Setting) (v : Option Bool) : Prefs :=
  { p with
    own := update p.own s v
    published := if p.registered then update p.published s v else p.published }

def flag (who : Process) (s : Setting) : Bool := (p.view who s).getD false

def readOnly (who : Process) (serial : String) : Bool :=
  (p.view who (.ro serial)).getD (p.flag who .forceReadOnly)

/-- An NTFS disk that cannot be written or is to be left alone. -/
def protects (isWritable : Bool) (bootSerial : Option String) : Bool :=
  !isWritable ||
    match bootSerial with
    | some serial => p.readOnly .extension serial
    | none => p.flag .extension .forceReadOnly

/-- The same of an ext disk. -/
def protectsExt (isWritable : Bool) : Bool := !isWritable || p.flag .extension .forceReadOnly

/-- A rescue that is requested and may be carried out on the device. -/
def rescues (readonly : Bool) (bootSerial : Option String) : Bool :=
  match readonly, bootSerial with
  | false, some serial => p.flag .extension (.rescue serial)
  | _, _ => false

def withdraw (bootSerial : Option String) : Prefs :=
  match bootSerial with
  | some serial => { p with published := update p.published (.rescue serial) none }
  | none => p

def fresh (registered : Bool) : Prefs := ⟨registered, fun _ => none, fun _ => none, fun _ => none⟩

def step : Request → Prefs × Reply
  | .setForceReadOnly v => (p.choose .forceReadOnly (some v), .done)
  | .setROOverride serial value => (p.choose (.ro serial) value, .done)
  | .setMountOpt o v => (p.choose (.opt o) (some v), .done)
  | .setHiberfileRescue serial => (p.choose (.rescue serial) (some true), .done)
  | .register => ({ p with registered := true }, .done)
  | .forceReadOnly who => (p, .flag (p.flag who .forceReadOnly))
  | .roOverride who serial => (p, .choice (p.view who (.ro serial)))
  | .shouldMountReadOnly who serial => (p, .flag (p.readOnly who serial))
  | .mountOpt who o => (p, .flag (p.flag who (.opt o)))
  | .attach i isWritable bootSerial =>
    ({ p with devices := update p.devices i (some (p.protects isWritable bootSerial)) }, .done)
  | .mountVolume i bootSerial opens =>
    match p.devices i with
    | none => (p, .noDevice)
    | some readonly =>
      let rescue := p.rescues readonly bootSerial
      -- the request is gone also where the volume cannot be opened
      (if rescue then p.withdraw bootSerial else p, if opens then .mounted
        { flags := ⟨readonly, !p.flag .extension (.opt .noRecover), rescue⟩
          opt := fun o => p.flag .extension (.opt o) } else .failed)
  | .loadExt isWritable => (p, .flag !p.protectsExt isWritable)

end Prefs

/-! ## The databases reflect the preferences -/

structure Reflects (w : World) (p : Prefs) : Prop where
  registered : p.registered = w.group.isSome
  devices : w.devices = p.devices
  mirror : ∀ s : Setting, w.appStandard s.mirror = p.own s
  suite : w.group = none → ∀ a, w.appSuite = some a → ∀ s : Setting, a s.key = p.own s
  published : ∀ g, w.group = some g → ∀ s : Setting, g s.key = p.published s
  unpublished : w.group = none → ∀ s, p.published s = none
  agree : ∀ s v, p.published s = some v → p.own s = some v
  apart : ∀ s : Setting, w.extStandard s.mirror = none
  apartSuite : w.group = none → ∀ e, w.extSuite = some e → ∀ s : Setting, e s.key = none

namespace Reflects

variable {w : World} {p : Prefs}

theorem lookup_app (h : Reflects w p) (s : Setting) : (w.defaults .app).lookup s = p.own s := by
  simp only [World.defaults, Defaults.lookup, Defaults.stored, h.mirror]
  cases hg : w.group with
  | some g =>
    have hpub := h.published g hg s
    cases hs : g s.key with
    | none => simp [hs]
    | some v =>
      rw [hs] at hpub
      simp [hs, h.agree s v hpub.symm]
  | none =>
    cases ha : w.appSuite with
    | none => rfl
    | some a =>
      have hown := h.suite hg a ha s
      cases hs : p.own s with
      | none => simp [hown, hs]
      | some v => simp [hown, hs]

theorem lookup_extension (h : Reflects w p) (s : Setting) :
    (w.defaults .extension).lookup s = p.published s := by
  simp only [World.defaults, Defaults.lookup, Defaults.stored, h.apart]
  cases hg : w.group with
  | some g =>
    have hpub := h.published g hg s
    cases hs : p.published s with
    | none => simp [hpub, hs]
    | some v => simp [hpub, hs]
  | none =>
    rw [h.unpublished hg]
    cases he : w.extSuite with
    | none => rfl
    | some e => simp [h.apartSuite hg e he s]

theorem lookup (h : Reflects w p) (who : Process) (s : Setting) :
    (w.defaults who).lookup s = p.view who s := by
  cases who with
  | app => exact h.lookup_app s
  | extension => exact h.lookup_extension s

/-- The app stores a value, or takes one away. -/
theorem choose (h : Reflects w p) (s : Setting) (v : Option Bool) :
    Reflects (w.put .app ((w.defaults .app).assign s v)) (p.choose s v) := by
  have hmirror : ∀ t : Setting, ((w.defaults .app).assign s v).standard t.mirror =
      update p.own s v t := fun t => by
    rw [Defaults.assign_standard_mirror]
    congr 1
    funext u
    exact h.mirror u
  cases hg : w.group with
  | some g =>
    have hsuite : (w.defaults .app).suite = some g := by simp [World.defaults, hg]
    have hreg : p.registered = true := by rw [h.registered, hg]; rfl
    simp only [World.put, hg]
    refine ⟨?_, h.devices, hmirror, ?_, ?_, ?_, ?_, h.apart, ?_⟩
    · simp [Prefs.choose, hreg, Defaults.assign_suite hsuite]
    · simp [Defaults.assign_suite hsuite]
    · intro g' hg' t
      rw [Defaults.assign_suite hsuite, Option.some.injEq] at hg'
      subst hg'
      simp only [Prefs.choose, hreg, if_true, Defaults.update_key]
      congr 1
      funext u
      exact h.published g hg u
    · simp [Defaults.assign_suite hsuite]
    · intro t b
      simp only [Prefs.choose, hreg, if_true]
      by_cases hts : t = s
      · subst hts
        simp
      · rw [update_of_ne hts, update_of_ne hts]
        exact h.agree t b
    · simp [Defaults.assign_suite hsuite]
  | none =>
    have hreg : p.registered = false := by rw [h.registered, hg]; rfl
    simp only [World.put, hg]
    refine ⟨?_, h.devices, hmirror, ?_, ?_, ?_, ?_, h.apart, ?_⟩
    · simp [Prefs.choose, hreg]
    · intro _ a ha t
      cases hsuite : w.appSuite with
      | none =>
        have hnone : (w.defaults .app).suite = none := by simp [World.defaults, hg, hsuite]
        rw [Defaults.assign_standard hnone] at ha
        cases ha
      | some b =>
        have hsome : (w.defaults .app).suite = some b := by simp [World.defaults, hg, hsuite]
        rw [Defaults.assign_suite hsome, Option.some.injEq] at ha
        subst ha
        simp only [Prefs.choose, Defaults.update_key]
        congr 1
        funext u
        exact h.suite hg b hsuite u
    · nofun
    · simpa [Prefs.choose, hreg] using h.unpublished hg
    · intro t b hb
      simp only [Prefs.choose, hreg, Bool.false_eq_true, if_false, h.unpublished hg] at hb
      cases hb
    · exact fun _ => h.apartSuite hg

theorem register (h : Reflects w p) :
    Reflects { w with group := some (w.group.getD .empty) } { p with registered := true } := by
  refine ⟨rfl, h.devices, h.mirror, nofun, ?_, nofun, h.agree, h.apart, nofun⟩
  intro g hg s
  cases hw : w.group with
  | some g' =>
    rw [hw] at hg
    cases hg
    exact h.published g' hw s
  | none =>
    rw [hw] at hg
    cases hg
    exact (h.unpublished hw s).symm

/-- Only the extension's suite can have a request for it. -/
theorem consume (h : Reflects w p) (serial : String) :
    consumeHiberfileRescue (w.defaults .extension) serial =
      (p.flag .extension (.rescue serial), if p.flag .extension (.rescue serial) then
        (w.defaults .extension).removeObject (rescueKey serial) else w.defaults .extension) := by
  have hmirror : ∀ d : Defaults, d.standard = w.extStandard →
      consumeMirror d serial = (false, d) := fun d hd => by
    have hnone : d.standard (mirrorKey (rescueKey serial)) = none := by
      rw [hd]
      exact h.apart (.rescue serial)
    simp [consumeMirror, Domain.bool, hnone]
  cases hg : w.group with
  | some g =>
    have hpub : g (rescueKey serial) = p.published (.rescue serial) :=
      h.published g hg (.rescue serial)
    have hsuite : consumeSuite (w.defaults .extension) serial =
        (p.flag .extension (.rescue serial), if p.flag .extension (.rescue serial) then
          (w.defaults .extension).removeObject (rescueKey serial) else w.defaults .extension) := by
      simp only [consumeSuite, World.defaults, hg, Option.some_or, Domain.bool, hpub, Prefs.flag,
        Prefs.view, Defaults.removeObject]
      split <;> simp_all
    simp only [consumeHiberfileRescue, hsuite]
    rw [hmirror]
    · simp
    · split <;> simp [Defaults.removeObject, World.defaults, hg]
  | none =>
    have hflag : p.flag .extension (.rescue serial) = false := by
      simp [Prefs.flag, Prefs.view, h.unpublished hg]
    have hsuite : consumeSuite (w.defaults .extension) serial = (false, w.defaults .extension) := by
      simp only [consumeSuite, World.defaults, hg, Option.none_or]
      cases he : w.extSuite with
      | none => rfl
      | some e =>
        have hnone : e (rescueKey serial) = none := h.apartSuite hg e he (.rescue serial)
        simp [Domain.bool, hnone]
    have hkept := hmirror (w.defaults .extension) rfl
    simp [consumeHiberfileRescue, hsuite, hkept, hflag]

theorem put_same (w : World) (who : Process) : w.put who (w.defaults who) = w := by
  obtain ⟨group, _, _, _, _, _⟩ := w
  cases who <;> cases group <;> rfl

/-- The extension takes a rescue away. -/
theorem withdraw (h : Reflects w p) (serial : String)
    (hflag : p.flag .extension (.rescue serial) = true) :
    Reflects (w.put .extension ((w.defaults .extension).removeObject (rescueKey serial)))
      (p.withdraw (some serial)) := by
  cases hg : w.group with
  | none =>
    have hnone : p.flag .extension (.rescue serial) = false := by
      simp [Prefs.flag, Prefs.view, h.unpublished hg]
    rw [hnone] at hflag
    cases hflag
  | some g =>
    have hd : (w.defaults .extension).removeObject (rescueKey serial) =
        ⟨some (g.removeObject (rescueKey serial)), w.extStandard⟩ := by
      simp [World.defaults, hg, Defaults.removeObject]
    simp only [World.put, hg, hd]
    refine ⟨?_, h.devices, h.mirror, nofun, ?_, nofun, ?_, h.apart, nofun⟩
    · simp [Prefs.withdraw, h.registered, hg]
    · intro g' hg' s
      cases hg'
      have hkey := Defaults.update_key g (.rescue serial) s none
      simp only [Prefs.withdraw]
      refine hkey.trans ?_
      congr 1
      funext u
      exact h.published g hg u
    · intro s v hv
      simp only [Prefs.withdraw] at hv
      by_cases hs : s = .rescue serial
      · rw [hs, update_self] at hv
        cases hv
      · rw [update_of_ne hs] at hv
        exact h.agree s v hv

theorem flag (h : Reflects w p) (who : Process) (s : Setting) :
    ((w.defaults who).stored s.key s.mirror).getD false = p.flag who s :=
  congrArg (·.getD false) (h.lookup who s)

theorem readOnly (h : Reflects w p) (who : Process) (serial : String) :
    shouldMountReadOnly (w.defaults who) serial = p.readOnly who serial := by
  have hro : roOverride (w.defaults who) serial = p.view who (.ro serial) :=
    h.lookup who (.ro serial)
  have hforce : forceReadOnly (w.defaults who) = p.flag who .forceReadOnly :=
    h.flag who .forceReadOnly
  rw [shouldMountReadOnly, hro, hforce]
  rfl

theorem deviceReadonly (h : Reflects w p) (isWritable : Bool) (bootSerial : Option String) :
    Settings.deviceReadonly (w.defaults .extension) isWritable bootSerial =
      p.protects isWritable bootSerial := by
  cases bootSerial with
  | some serial => exact congrArg (!isWritable || ·) (h.readOnly .extension serial)
  | none => exact congrArg (!isWritable || ·) (h.flag .extension .forceReadOnly)

theorem extWritable (h : Reflects w p) (isWritable : Bool) :
    Settings.extWritable (w.defaults .extension) isWritable = !p.protectsExt isWritable := by
  have hforce : forceReadOnly (w.defaults .extension) = p.flag .extension .forceReadOnly :=
    h.flag .extension .forceReadOnly
  rw [Settings.extWritable, hforce, Prefs.protectsExt]
  cases isWritable <;> simp

theorem takeRescue (h : Reflects w p) (readonly : Bool) (bootSerial : Option String) :
    (Settings.takeRescue (w.defaults .extension) readonly bootSerial).1 =
      p.rescues readonly bootSerial ∧
    Reflects (w.put .extension (Settings.takeRescue (w.defaults .extension) readonly bootSerial).2)
      (if p.rescues readonly bootSerial then p.withdraw bootSerial else p) := by
  have hsame : Reflects (w.put .extension (w.defaults .extension)) p := by
    rwa [put_same]
  cases readonly with
  | true => exact ⟨rfl, hsame⟩
  | false =>
    cases bootSerial with
    | none => exact ⟨rfl, hsame⟩
    | some serial =>
      simp only [Settings.takeRescue, Prefs.rescues, h.consume]
      by_cases hflag : p.flag .extension (.rescue serial) = true
      · simp only [hflag, if_true, true_and]
        exact h.withdraw serial hflag
      · simp only [hflag, if_false, true_and, Bool.false_eq_true]
        exact hsame

/-- A call answers as the preferences say. -/
theorem step (io : Ntfs.Locked.NfskBlockio) (h : Reflects w p) (r : Request) :
    (World.step io w r).2 = (p.step r).2 ∧ Reflects (World.step io w r).1 (p.step r).1 := by
  cases r with
  | setForceReadOnly v => exact ⟨rfl, h.choose .forceReadOnly (some v)⟩
  | setROOverride serial value =>
    refine ⟨rfl, ?_⟩
    have hset := h.choose (.ro serial) value
    cases value with
    | some v => exact hset
    | none => exact hset
  | setMountOpt o v => exact ⟨rfl, h.choose (.opt o) (some v)⟩
  | setHiberfileRescue serial => exact ⟨rfl, h.choose (.rescue serial) (some true)⟩
  | register => exact ⟨rfl, h.register⟩
  | forceReadOnly who => exact ⟨congrArg Reply.flag (h.flag who .forceReadOnly), h⟩
  | roOverride who serial => exact ⟨congrArg Reply.choice (h.lookup who (.ro serial)), h⟩
  | shouldMountReadOnly who serial => exact ⟨congrArg Reply.flag (h.readOnly who serial), h⟩
  | mountOpt who o => exact ⟨congrArg Reply.flag (h.flag who (.opt o)), h⟩
  | attach i isWritable bootSerial =>
    refine ⟨rfl, ?_⟩
    have hdevices := congrArg (fun f => update f i (some (p.protects isWritable bootSerial))) h.devices
    refine ⟨h.registered, ?_, h.mirror, h.suite, h.published, h.unpublished, h.agree, h.apart,
      h.apartSuite⟩
    simp only [World.step, h.deviceReadonly]
    exact hdevices
  | loadExt isWritable => exact ⟨congrArg Reply.flag (h.extWritable isWritable), h⟩
  | mountVolume i bootSerial opens =>
    have hdevice := congrFun h.devices i
    simp only [World.step, Prefs.step, hdevice]
    cases p.devices i with
    | none => exact ⟨rfl, h⟩
    | some readonly =>
      obtain ⟨hrescue, hnext⟩ := h.takeRescue readonly bootSerial
      refine ⟨?_, hnext⟩
      simp only [openVolume_opts, hrescue]
      have hopt : ∀ o, mountOpt (w.defaults .extension) o.key = p.flag .extension (.opt o) :=
        fun o => h.flag .extension (.opt o)
      simp only [hopt]

theorem fresh (group appSuite extSuite : Bool) :
    Reflects (World.fresh group appSuite extSuite) (Prefs.fresh group) := by
  refine ⟨?_, rfl, fun _ => rfl, ?_, ?_, fun _ _ => rfl, nofun, fun _ => rfl, ?_⟩
  · cases group <;> rfl
  · intro _ a ha s
    cases appSuite with
    | false => cases ha
    | true => cases ha; rfl
  · intro g hg s
    cases group with
    | false => cases hg
    | true => cases hg; rfl
  · intro _ e he s
    cases extSuite with
    | false => cases he
    | true => cases he; rfl

end Reflects

/-- From empty databases, all calls of both processes answer as the preferences say: the app sees
what it chose, and the extension mounts by what the app chose since the group is registered. -/
theorem settings_refine (io : Ntfs.Locked.NfskBlockio) (group appSuite extSuite : Bool)
    (calls : List Request) :
    history (World.step io) (World.fresh group appSuite extSuite) calls =
      history Prefs.step (Prefs.fresh group) calls :=
  (history_eq_of_simulation (fun _ _ r h => h.step io r) calls
    (Reflects.fresh group appSuite extSuite)).1

end Settings
end Usbrw
