import Usbrw.Ntfs.Create
import Usbrw.Ntfs.Displace

/-!
# Ntfs.Steps

A property of the namespace that the steps of a call keep, the call keeps, whether it returns 0 or
fails.

* `View.Has`     — the namespace has a property.
* `KeepsUnlink`  — a property that no removal of an entry takes away.
* `displace_has`, `rename_has` — from what the links of a rename do to what a rename does.
* `create_spec`, `symlink_spec` — what a call that makes a record does.
* `MakeSpec.has`               — from what a new entry does to what such a call does.
-/

namespace Usbrw
namespace Ntfs

open Call Namespace

variable {σ : Type}

def View.Has (V : View σ) (P : Namespace → Prop) (s : σ) : Prop := P (V.names s)

/-- `P` is not lost with an entry of the directory. -/
def KeepsUnlink (V : View σ) (P : Namespace → Prop) (d : UInt64) : Prop :=
  ∀ ns u r s, ns.WellFormed → P ns → Unlinkable ns (d, u) r → Dropped V ns (d, u) r s → V.Has P s

/-- `P` is not lost with an entry of that name for a record. -/
def KeepsLink (lib : Libntfs σ) (P : Namespace → Prop) (mft d : UInt64) (name : List UInt8) : Prop :=
  ∀ ns u, lib.mbstoucs name = .ok u → P ns → Linkable ns mft (d, u) → P (ns.link (d, u) mft)

section Has

variable {V : View σ} {P : Namespace → Prop} {ns : Namespace} {α : Type}

theorem View.Is.has {s : σ} (h : V.Is ns s) (hP : P ns) : V.Has P s := by
  unfold View.Has
  rwa [h.eq]

/-- What a call keeps from every namespace that has it, it keeps. -/
theorem keeps_of_names {ε : Type} {x : EStateM ε σ α}
    (h : ∀ ns, P ns → Spec (V.Is ns) x (fun _ => V.Has P) fun _ => V.Has P) :
    Keeps (V.Has P) x :=
  fun s hs => h (V.names s) hs s rfl

/-- And the other way round. -/
theorem spec_of_keeps {ε : Type} {x : EStateM ε σ α} (h : Keeps (V.Has P) x) (hP : P ns) :
    Spec (V.Is ns) x (fun _ => V.Has P) fun _ => V.Has P :=
  fun s hs => h s (hs.has hP)

theorem keeps_faulty {I : σ → Prop} {x : EStateM Int σ Unit} (hx : Keeps I x) (sched : Schedule)
    (step : RenameStep) : Keeps I (faulty sched step x) := by
  unfold faulty
  cases sched step with
  | none => exact hx
  | some e => exact Keeps.throw _

variable {lib : Libntfs σ} {name : List UInt8} {mft d : UInt64}

theorem convert_returns (lib : Libntfs σ) (name : List UInt8) {I : σ → Prop} :
    Spec I (convert lib name) (fun u s => lib.mbstoucs name = .ok u ∧ I s) fun _ => I := by
  unfold convert
  cases lib.mbstoucs name with
  | error e => exact Spec.throw fun _ h => h
  | ok u => exact Spec.pure fun _ h => ⟨rfl, h⟩

/-! ## Steps -/

theorem doLink_has (hL : Lawful lib V) {allowDir : Bool} (hP : P ns)
    (h : ∀ u, lib.mbstoucs name = .ok u → LinkAllowed ns allowDir mft (d, u) →
      P (ns.link (d, u) mft)) :
    Spec (V.Is ns) (nfskDoLink lib mft d name allowDir) (fun _ => V.Has P) fun _ => V.Has P := by
  cases hu : lib.mbstoucs name with
  | error e =>
    exact Spec.conseq (nfskDoLink_unconverted hL hu ns mft d allowDir) (fun _ _ hf => hf.elim)
      fun _ _ h => h.2.has hP
  | ok u =>
    exact Spec.conseq (nfskDoLink_exact hL hu ns mft d allowDir)
      (fun _ _ hl => hl.2.has (h u hu hl.1)) fun _ _ h => h.2.has hP

theorem doUnlink_keeps (hL : Lawful lib V) (h : KeepsUnlink V P d) :
    Keeps (V.Has P) (nfskDoUnlink lib d name) := by
  refine keeps_of_names fun ns hP => spec_wellFormed fun hwf => ?_
  cases hu : lib.mbstoucs name with
  | error e =>
    unfold nfskDoUnlink
    exact Spec.bind_orFail (convert_fails lib hu) (fun _ _ hs => hs.has hP) fun _ _ hf => hf.elim
  | ok u =>
    refine Spec.conseq (nfskDoUnlink_spec hL hu ns d) ?_ fun _ _ h => h.2.has hP
    intro _ s hdone
    obtain ⟨r, hunlinkable, hdropped⟩ := hdone
    exact h ns u r s hwf hP hunlinkable hdropped

theorem faultyLink_has (hL : Lawful lib V) {sched : Schedule} {step : RenameStep} (hP : P ns)
    (h : ∀ u, lib.mbstoucs name = .ok u → sched step = none → Linkable ns mft (d, u) →
      P (ns.link (d, u) mft)) :
    Spec (V.Is ns) (faulty sched step (nfskDoLink lib mft d name true)) (fun _ => V.Has P)
      fun _ => V.Has P := by
  unfold faulty
  cases hsched : sched step with
  | none => exact doLink_has hL hP fun u hu hl => h u hu hsched hl.toLinkable
  | some e => exact Spec.throw fun _ hs => hs.has hP

theorem faultyLink_keeps (hL : Lawful lib V) {sched : Schedule} {step : RenameStep}
    (h : sched step = none → KeepsLink lib P mft d name) :
    Keeps (V.Has P) (faulty sched step (nfskDoLink lib mft d name true)) :=
  keeps_of_names fun ns hP => faultyLink_has hL hP fun u hu hsched hl => h hsched ns u hu hP hl

theorem faultyUnlink_keeps (hL : Lawful lib V) (h : KeepsUnlink V P d) (sched : Schedule)
    (step : RenameStep) : Keeps (V.Has P) (faulty sched step (nfskDoUnlink lib d name)) :=
  keeps_faulty (doUnlink_keeps hL h) sched step

/-! ## `nfsk_rename` -/

variable {oldDir newDir ino xino : UInt64} {oldName newName tmpn : List UInt8} {sched : Schedule}

theorem renameToFree_has (hL : Lawful lib V) (hP : P ns)
    (hlink : ∀ u, lib.mbstoucs newName = .ok u → sched .linkNew = none →
      Linkable ns ino (newDir, u) → P (ns.link (newDir, u) ino))
    (hold : KeepsUnlink V P oldDir) (hnew : KeepsUnlink V P newDir) :
    Spec (V.Is ns) (renameToFree lib sched ino oldDir oldName newDir newName)
      (fun _ => V.Has P) fun _ => V.Has P := by
  unfold renameToFree
  refine Spec.bind (faultyLink_has hL hP hlink) fun _ => ?_
  exact Keeps.onFail (faultyUnlink_keeps hL hold sched .unlinkOld)
    (faultyUnlink_keeps hL hnew sched .rollbackNew)

/-- The record that is displaced gets a temporary name and possibly its own one back, the source the
new name if no step before that fails. -/
theorem displace_has (hL : Lawful lib V) (hP : P ns)
    (htmp : ∀ u, lib.mbstoucs tmpn = .ok u → sched .linkTmp = none →
      Linkable ns xino (newDir, u) → P (ns.link (newDir, u) xino))
    (hlink : sched .unlinkTarget = none → sched .linkOver = none →
      KeepsLink lib P ino newDir newName)
    (hback : KeepsLink lib P xino newDir newName)
    (hold : KeepsUnlink V P oldDir) (hnew : KeepsUnlink V P newDir) :
    Spec (V.Is ns) (displace lib sched ino xino oldDir oldName newDir newName tmpn)
      (fun _ => V.Has P) fun _ => V.Has P := by
  have hmove : sched .unlinkTarget = none →
      Keeps (V.Has P) (moveOver lib sched ino oldDir oldName newDir newName) := by
    intro hvacated
    unfold moveOver
    refine Keeps.bind (faultyLink_keeps hL (hlink hvacated)) fun _ => ?_
    exact Keeps.onFail (faultyUnlink_keeps hL hold sched .unlinkOldOver)
      (faultyUnlink_keeps hL hnew sched .rollbackOver)
  have htarget : Spec (V.Has P) (faulty sched .unlinkTarget (nfskDoUnlink lib newDir newName))
      (fun _ s => sched .unlinkTarget = none ∧ V.Has P s) fun _ => V.Has P :=
    faulty_spec sched .unlinkTarget (doUnlink_keeps hL hnew) fun _ _ _ h => h
  unfold displace
  refine Spec.bind (faultyLink_has hL hP htmp) fun _ => ?_
  refine Keeps.afterwards ?_ (faultyUnlink_keeps hL hnew sched .cleanup)
  refine Spec.bind htarget fun _ => Spec.assume fun hvacated => ?_
  exact Keeps.onFail (hmove hvacated) (faultyLink_keeps hL fun _ => hback)

theorem rename_has (hL : Lawful lib V) {renameSeq : Nat} (hP : P ns)
    (hold : oldDir ≠ FILE_Extend → KeepsUnlink V P oldDir)
    (hnew : newDir ≠ FILE_Extend → KeepsUnlink V P newDir)
    (hfree : ∀ ino ou nu, Starts lib ns oldDir oldName newDir ino ou →
      lib.mbstoucs newName = .ok nu → sched .linkNew = none → Linkable ns ino (newDir, nu) →
      P (ns.link (newDir, nu) ino))
    (htaken : ∀ ino ou xino nu, Starts lib ns oldDir oldName newDir ino ou →
      lib.mbstoucs newName = .ok nu → ns.entry (newDir, nu) = some xino → xino ≠ ino →
      Proceeds sched ns ino xino oldDir newDir →
      Spec (V.Is ns)
        (displace lib sched ino xino oldDir oldName newDir newName (tmpName newName (renameSeq + 1)))
        (fun _ => V.Has P) fun _ => V.Has P) :
    Spec (V.Is ns) (nfskRenameImpl lib sched renameSeq oldDir oldName newDir newName)
      (fun _ => V.Has P) fun _ => V.Has P := by
  refine nfskRename_spec hL ?_ ?_ fun _ _ _ _ hs => hs.has hP
  · intro ino ou hstarts _
    exact renameToFree_has hL hP (fun nu => hfree ino ou nu hstarts) (hold hstarts.old)
      (hnew hstarts.new)
  · intro ino ou xino nu hstarts hnu htarget
    by_cases hsame : xino = ino
    · rw [if_pos hsame]
      exact Spec.pure fun _ hs => hs.has hP
    · rw [if_neg hsame]
      refine replaceTarget_spec hL ?_ fun _ _ _ _ hs => hs.has hP
      intro hnode hmalloc
      exact htaken ino ou xino nu hstarts hnu htarget hsame
        ⟨hstarts.old, hstarts.new, hstarts.user, hnode, hmalloc⟩

end Has

/-! ## New records -/

section New

variable {V : View σ} {P : Namespace → Prop} {ns : Namespace} {lib : Libcreate σ} {dirNi : NtfsInode}
  {dirMft : UInt64} {name target : List UInt8}

/-- A record was made in the directory, under a name that is accepted. -/
def Makes (ns : Namespace) (dirMft : UInt64) (accepts : List UInt16 → Prop) (n : NtfsInode)
    (ns' : Namespace) : Prop :=
  ∃ u, accepts u ∧ Created ns (dirMft, u) n ns'

/-- The outcome of a call that makes a record: its number is returned, or it was made and the call
fails, or nothing changed. -/
def MakeSpec (V : View σ) (ns : Namespace) (dirMft : UInt64) (accepts : List UInt16 → Prop)
    (x : EStateM Int σ UInt64) : Prop :=
  Spec (V.Is ns) x (fun r s => ∃ n, n.mftNo = r ∧ Makes ns dirMft accepts n (V.names s))
    fun _ s => V.Is ns s ∨ ∃ n, Makes ns dirMft accepts n (V.names s)

theorem finishNew_spec (hL : LawfulCreate lib V) {accepts : List UInt16 → Prop} {u : List UInt16}
    (hu : accepts u) {make : EStateM Errno σ NtfsInode}
    (hmake : Spec (V.Is ns) make (fun n s => Created ns (dirMft, u) n (V.names s))
      fun _ => V.Is ns) :
    MakeSpec V ns dirMft accepts (orFail negErrno make >>= finishNew lib dirNi) := by
  refine Spec.bind_orFail hmake (fun _ _ hs => .inl hs) fun n => ?_
  let I : σ → Prop := V.Has (Created ns (dirMft, u) n)
  have hclose : Keeps I (lib.inodeCloseInDir n dirNi) := keeps_of_names fun ns hP =>
    Spec.conseq (hL.inodeCloseInDir ns n dirNi) (fun _ _ h => h.has hP) fun _ _ h => h.has hP
  have htimes : Keeps I (modify (lib.inodeUpdateTimes dirNi .mctime) : EStateM Int σ Unit) :=
    Keeps.modify fun s hs => (hL.lawful.inodeUpdateTimes (V.names s) dirNi .mctime s rfl).has hs
  refine Spec.bind_attempt hclose (fun _ => ?_) fun e => ?_
  · refine Spec.bind (Spec.conseq_error htimes fun _ s hs => .inr ⟨n, u, hu, hs⟩) fun _ => ?_
    exact Spec.pure fun s hs => ⟨n, rfl, u, hu, hs⟩
  · refine Spec.bind (Spec.conseq_error htimes fun _ s hs => .inr ⟨n, u, hu, hs⟩) fun _ => ?_
    exact Spec.throw fun s hs => .inr ⟨n, u, hu, hs⟩

/-- What is done in a directory once it is open and no reparse point. -/
theorem inDirectory_spec (hL : LawfulCreate lib V) {accepts : List UInt16 → Prop}
    {body : NtfsInode → EStateM Int σ UInt64}
    (hbody : ∀ d, ns.node d.mftNo = some d → d.mftNo = dirMft → d.reparsePoint = false →
      MakeSpec V ns dirMft accepts (body d)) :
    MakeSpec V ns dirMft accepts
      (do
        let d ← orFail negErrno (lib.inodeOpen dirMft)
        closing lib.toLibntfs d (if d.reparsePoint then throw (-EOPNOTSUPP) else body d)) := by
  refine spec_wellFormed fun hwf => ?_
  refine Spec.bind_orFail (hL.lawful.inodeOpen ns dirMft) (fun _ _ h => .inl h.2) fun d => ?_
  refine Spec.assume fun hd => ?_
  have hno := hwf.mftNo _ _ hd
  refine closing_spec hL.lawful (Q := fun r ns' => ∃ n, n.mftNo = r ∧ Makes ns dirMft accepts n ns')
    (E := fun _ ns' => ns' = ns ∨ ∃ n, Makes ns dirMft accepts n ns') ?_
  refine Spec.guard (fun _ _ hs => .inl hs) fun hrep => ?_
  exact hbody d (by rwa [hno]) hno (by simpa using hrep)

theorem refuseName_allows {I : σ → Prop} (lib : Libcreate σ) (windowsNames : Bool)
    (uname : List UInt16) :
    Spec I (refuseName lib windowsNames uname)
      (fun _ s => (windowsNames = true → lib.forbiddenNames uname = none) ∧ I s) fun _ => I := by
  unfold refuseName
  by_cases hw : windowsNames = true
  · rw [if_pos hw]
    cases lib.forbiddenNames uname with
    | some e => exact Spec.throw fun _ h => h
    | none => exact Spec.pure fun _ h => ⟨fun _ => rfl, h⟩
  · rw [if_neg hw]
    exact Spec.pure fun _ h => ⟨fun htrue => absurd htrue hw, h⟩

/-- What `nfsk_create_impl` makes, it makes outside `$Extend`, under a name that is allowed if the
volume asks for that. -/
structure CreatePasses (lib : Libcreate σ) (windowsNames : Bool) (dirMft : UInt64)
    (u : List UInt16) : Prop where
  dir : dirMft ≠ FILE_Extend
  allowed : windowsNames = true → lib.forbiddenNames u = none

theorem create_spec (hL : LawfulCreate lib V) (ns : Namespace) (windowsNames : Bool) (type : Char) :
    MakeSpec V ns dirMft (CreatePasses lib windowsNames dirMft)
      (nfskCreateImpl lib windowsNames dirMft name type) := by
  unfold nfskCreateImpl
  refine Spec.guard (fun _ _ hs => .inl hs) fun _ => ?_
  refine Spec.guard (fun _ _ hs => .inl hs) fun hext => ?_
  refine Spec.bind_orFail (convert_returns lib.toLibntfs name) (fun _ _ hs => .inl hs) fun u => ?_
  refine Spec.assume fun _ => ?_
  refine Spec.guard (fun _ _ hs => .inl hs) fun hlen => ?_
  refine inDirectory_spec hL fun d hd hno _ => ?_
  refine Spec.bind (Spec.conseq_error (refuseName_allows lib windowsNames u)
    fun _ _ hs => .inl hs) fun _ => ?_
  refine Spec.assume fun hallowed => ?_
  have hmake := hL.create ns d u (if type = 'd' then S_IFDIR else S_IFREG) hd (by omega)
  rw [hno] at hmake
  exact finishNew_spec hL ⟨hext, hallowed⟩ hmake

/-- The checks of `nfsk_symlink_impl` are passed, and the name converts to `u`. -/
structure SymlinkPasses (lib : Libntfs σ) (ns : Namespace) (dirMft : UInt64)
    (name target : List UInt8) (u : List UInt16) : Prop where
  bytes : name.length < 256
  dir : dirMft ≠ FILE_Extend
  converts : lib.mbstoucs name = .ok u
  short : u.length ≤ 255
  target : ∃ ut, lib.mbstoucs target = .ok ut
  node : ∃ d, ns.node dirMft = some d ∧ d.reparsePoint = false

theorem symlink_spec (hL : LawfulCreate lib V) (ns : Namespace) :
    MakeSpec V ns dirMft (SymlinkPasses lib.toLibntfs ns dirMft name target)
      (nfskSymlinkImpl lib dirMft name target) := by
  unfold nfskSymlinkImpl
  refine Spec.guard (fun _ _ hs => .inl hs) fun hbytes => ?_
  refine Spec.guard (fun _ _ hs => .inl hs) fun hext => ?_
  refine Spec.bind_orFail (convert_returns lib.toLibntfs name) (fun _ _ hs => .inl hs) fun u => ?_
  refine Spec.assume fun hu => ?_
  refine Spec.guard (fun _ _ hs => .inl hs) fun hlen => ?_
  refine Spec.bind_orFail (convert_returns lib.toLibntfs target) (fun _ _ hs => .inl hs)
    fun ut => ?_
  refine Spec.assume fun hut => ?_
  refine inDirectory_spec hL fun d hd hno hrep => ?_
  have hmake := hL.createSymlink ns d u ut hd (by omega)
  rw [hno] at hmake hd
  exact finishNew_spec hL ⟨by omega, hext, hu, by omega, ⟨ut, hut⟩, d, hd, hrep⟩ hmake

/-- What a new entry does not take away, the call keeps. -/
theorem MakeSpec.has {accepts : List UInt16 → Prop} {x : EStateM Int σ UInt64}
    (h : MakeSpec V ns dirMft accepts x) (hP : P ns)
    (hnew : ∀ u n ns', accepts u → Created ns (dirMft, u) n ns' → P ns') :
    Spec (V.Is ns) x (fun _ => V.Has P) fun _ => V.Has P := by
  refine Spec.conseq h ?_ ?_
  · intro _ s hs
    obtain ⟨n, _, u, hu, hcreated⟩ := hs
    exact hnew u n (V.names s) hu hcreated
  · intro _ s hs
    rcases hs with hs | ⟨n, u, hu, hcreated⟩
    · exact hs.has hP
    · exact hnew u n (V.names s) hu hcreated

end New

end Ntfs
end Usbrw
