import Mathlib.Data.List.Basic
import Mathlib.Logic.Function.Basic

/-!
# Settings.Shared

`SharedSettings.swift`: what the app and the extension tell each other through `UserDefaults`.

* `Domain`, `Defaults` — a database, and the two a process reaches: the suite's and its own.
* `Defaults.stored`, `Defaults.store` — the getters and setters: the suite first, and a mirror of it.
* `Opt`, `optKeys`     — the mount options with their keys and bits.
* `forceReadOnly`, `roOverride`, `mountOpt`, `consumeHiberfileRescue` and the others.
-/

namespace Usbrw
namespace Settings

open Function

/-- A database of `UserDefaults`. Only Booleans are stored in it. -/
abbrev Domain : Type := String → Option Bool

namespace Domain

def empty : Domain := fun _ => none

def bool (d : Domain) (key : String) : Bool := (d key).getD false

def set (d : Domain) (key : String) (v : Bool) : Domain := update d key (some v)

def removeObject (d : Domain) (key : String) : Domain := update d key none

end Domain

/-- What a process reaches: `UserDefaults(suiteName:)`, if it gives one, and `.standard`. -/
structure Defaults where
  suite : Option Domain
  standard : Domain

namespace Defaults

variable (d : Defaults)

/-- `SharedSettings.defaults.set`. -/
def set (key : String) (v : Bool) : Defaults :=
  match d.suite with
  | some s => { d with suite := some (s.set key v) }
  | none => { d with standard := d.standard.set key v }

/-- `SharedSettings.defaults.removeObject`. -/
def removeObject (key : String) : Defaults :=
  match d.suite with
  | some s => { d with suite := some (s.removeObject key) }
  | none => { d with standard := d.standard.removeObject key }

def onStandard (f : Domain → Domain) : Defaults := { d with standard := f d.standard }

/-- What the getters look up: the suite's object, and without one the mirror's. -/
def stored (key mirror : String) : Option Bool :=
  match d.suite with
  | some s =>
    match s key with
    | some v => some v
    | none => d.standard mirror
  | none => d.standard mirror

/-- What the setters do. -/
def store (key mirror : String) (v : Bool) : Defaults :=
  (d.set key v).onStandard fun s => s.set mirror v

def forget (key mirror : String) : Defaults :=
  (d.removeObject key).onStandard fun s => s.removeObject mirror

end Defaults

/-! ## The keys -/

def forceReadOnlyKey : String := "forceReadOnly"

def localMirrorKey : String := "forceReadOnly.localMirror"

def roKey (serial : String) : String := "ro." ++ serial

def rescueKey (serial : String) : String := "rescue." ++ serial

def mirrorKey (key : String) : String := "mirror." ++ key

/-- The options of `optKeys`. -/
inductive Opt where
  | windowsNames
  | hideHidFiles
  | hideDotFiles
  | noatime
  | noRecover
  | noCompression
  | showSysFiles
  deriving DecidableEq

def Opt.key : Opt → String
  | .windowsNames => "opt.windowsNames"
  | .hideHidFiles => "opt.hideHidFiles"
  | .hideDotFiles => "opt.hideDotFiles"
  | .noatime => "opt.noatime"
  | .noRecover => "opt.noRecover"
  | .noCompression => "opt.noCompression"
  | .showSysFiles => "opt.showSysFiles"

def Opt.bit : Opt → Int32
  | .windowsNames => 0x2
  | .hideHidFiles => 0x4
  | .hideDotFiles => 0x8
  | .noatime => 0x10
  | .noRecover => 0x20
  | .noCompression => 0x40
  | .showSysFiles => 0x80

def optKeys : List Opt :=
  [.windowsNames, .hideHidFiles, .hideDotFiles, .noatime, .noRecover, .noCompression, .showSysFiles]

/-! ## The settings -/

section Settings

variable (d : Defaults)

def forceReadOnly : Bool := (d.stored forceReadOnlyKey localMirrorKey).getD false

def setForceReadOnly (v : Bool) : Defaults := d.store forceReadOnlyKey localMirrorKey v

/-- Without a value the disk follows `forceReadOnly`. -/
def roOverride (serial : String) : Option Bool :=
  d.stored (roKey serial) (mirrorKey (roKey serial))

def setROOverride (serial : String) (value : Option Bool) : Defaults :=
  match value with
  | some v => d.store (roKey serial) (mirrorKey (roKey serial)) v
  | none => d.forget (roKey serial) (mirrorKey (roKey serial))

def shouldMountReadOnly (serial : String) : Bool := (roOverride d serial).getD (forceReadOnly d)

def mountOpt (key : String) : Bool := (d.stored key (mirrorKey key)).getD false

def setMountOpt (key : String) (v : Bool) : Defaults := d.store key (mirrorKey key) v

def mountOptsMask : Int32 :=
  optKeys.foldl (fun mask o => mask ||| if mountOpt d o.key then o.bit else 0) 0

def setHiberfileRescue (serial : String) : Defaults :=
  d.store (rescueKey serial) (mirrorKey (rescueKey serial)) true

/-- The request in the suite, taken away. -/
def consumeSuite (serial : String) : Bool × Defaults :=
  match d.suite with
  | some s =>
    if s.bool (rescueKey serial) then
      (true, { d with suite := some (s.removeObject (rescueKey serial)) })
    else (false, d)
  | none => (false, d)

/-- Its mirror, taken away. -/
def consumeMirror (serial : String) : Bool × Defaults :=
  if d.standard.bool (mirrorKey (rescueKey serial)) then
    (true, d.onStandard fun s => s.removeObject (mirrorKey (rescueKey serial)))
  else (false, d)

/-- Whether a rescue is requested; the request is gone afterwards. -/
def consumeHiberfileRescue (serial : String) : Bool × Defaults :=
  let (inSuite, d) := consumeSuite d serial
  let (inMirror, d) := consumeMirror d serial
  (inSuite || inMirror, d)

end Settings

end Settings
end Usbrw
