import Mathlib.Algebra.Group.Nat.Defs
import Usbrw.Ntfs.Link

/-!
# Ntfs.Rename

`nfsk_rename_impl`: link the new name and unlink the old one. What the new name stood for is given a
temporary name first, and the new name back when a later step fails.

* `RenameStep`, `Schedule` — the steps, and which of them fail.
* `renameToFree`           — the new name is free.
* `displace`               — it is not.
* `faulty_link`, `faulty_unlink` — what a step does under a schedule.
-/

namespace Usbrw
namespace Ntfs

open Call Namespace

variable {σ : Type}

/-- Where `nfsk_rename_impl` calls `nfsk_do_link`, `nfsk_do_unlink` or `ntfs_malloc`, in the order of
the source. -/
inductive RenameStep where
  | linkNew
  | unlinkOld
  | rollbackNew
  | malloc
  | linkTmp
  | unlinkTarget
  | linkOver
  | unlinkOldOver
  | rollbackOver
  | restore
  | cleanup
  deriving DecidableEq

/-- The steps at which the volume fails, and how. The code itself has none: `fun _ => none`. -/
abbrev Schedule : Type := RenameStep → Option Errno

/-- A step that fails before it changes anything if the schedule says so. -/
def faulty (sched : Schedule) (step : RenameStep) (x : EStateM Int σ Unit) : EStateM Int σ Unit :=
  match sched step with
  | none => x
  | some e => throw (negErrno e)

/-- `%010d` of a number from 0 to `INT_MAX`. -/
def decimal10 (n : Nat) : List UInt8 :=
  (List.range 10).reverse.map fun i => UInt8.ofNat (0x30 + n / 10 ^ i % 10)

/-- `.ntfs-3g-` -/
def tmpInfix : List UInt8 := [0x2E, 0x6E, 0x74, 0x66, 0x73, 0x2D, 0x33, 0x67, 0x2D]

def tmpName (newName : List UInt8) (renameSeq : Nat) : List UInt8 :=
  newName ++ tmpInfix ++ decimal10 renameSeq

/-- Open a directory, look a name up in it and close it. -/
def findMft (lib : Libntfs σ) (dirMft : UInt64) (name : List UInt8) :
    EStateM Int σ (Except Errno UInt64) := do
  let dirNi ← orFail negErrno (lib.inodeOpen dirMft)
  let iref ← attempt (nfskLookupMft lib dirNi name)
  orFail negErrno (lib.inodeClose dirNi)
  pure iref

def renameToFree (lib : Libntfs σ) (sched : Schedule) (ino oldDir : UInt64) (oldName : List UInt8)
    (newDir : UInt64) (newName : List UInt8) : EStateM Int σ Unit := do
  faulty sched .linkNew (nfskDoLink lib ino newDir newName true)
  onFail (faulty sched .unlinkOld (nfskDoUnlink lib oldDir oldName))
    (faulty sched .rollbackNew (nfskDoUnlink lib newDir newName))

/-- Move the source to the new name, which is free for now. -/
def moveOver (lib : Libntfs σ) (sched : Schedule) (ino oldDir : UInt64) (oldName : List UInt8)
    (newDir : UInt64) (newName : List UInt8) : EStateM Int σ Unit := do
  faulty sched .linkOver (nfskDoLink lib ino newDir newName true)
  onFail (faulty sched .unlinkOldOver (nfskDoUnlink lib oldDir oldName))
    (faulty sched .rollbackOver (nfskDoUnlink lib newDir newName))

def displace (lib : Libntfs σ) (sched : Schedule) (ino xino oldDir : UInt64) (oldName : List UInt8)
    (newDir : UInt64) (newName tmp : List UInt8) : EStateM Int σ Unit := do
  faulty sched .linkTmp (nfskDoLink lib xino newDir tmp true)
  afterwards
    (do
      faulty sched .unlinkTarget (nfskDoUnlink lib newDir newName)
      onFail (moveOver lib sched ino oldDir oldName newDir newName)
        (faulty sched .restore (nfskDoLink lib xino newDir newName true)))
    (faulty sched .cleanup (nfskDoUnlink lib newDir tmp))

def replaceTarget (lib : Libntfs σ) (sched : Schedule) (renameSeq : Nat) (ino xino oldDir : UInt64)
    (oldName : List UInt8) (newDir : UInt64) (newName : List UInt8) : EStateM Int σ Unit := do
  let ni ← orFail negErrno (lib.inodeOpen xino)
  let res ← attempt (lib.checkEmptyDir ni)
  orFail negErrno (lib.inodeClose ni)
  match res with
  | .error e => throw (negErrno e)
  | .ok () =>
    faulty sched .malloc (pure ())
    displace lib sched ino xino oldDir oldName newDir newName (tmpName newName (renameSeq + 1))

/-- `renameSeq` is the counter `rename_seq` before the call. -/
def nfskRenameImpl (lib : Libntfs σ) (sched : Schedule) (renameSeq : Nat) (oldDir : UInt64)
    (oldName : List UInt8) (newDir : UInt64) (newName : List UInt8) : EStateM Int σ Unit := do
  if oldDir = FILE_Extend ∨ newDir = FILE_Extend then throw (-EPERM)
  else
    match ← findMft lib oldDir oldName with
    | .error _ => throw (-ENOENT)
    | .ok iref =>
      if MREF iref ≤ 1 then throw (-ENOENT)
      else if MREF iref < FILE_first_user then throw (-EPERM)
      else
        match ← findMft lib newDir newName with
        | .error _ => renameToFree lib sched (MREF iref) oldDir oldName newDir newName
        | .ok xiref =>
          if MREF xiref = MREF iref then pure ()
          else
            replaceTarget lib sched renameSeq (MREF iref) (MREF xiref) oldDir oldName newDir newName

/-! ## Steps under a schedule -/

section Steps

variable {lib : Libntfs σ} {V : View σ} {ns : Namespace}

/-- What looking a name up says about the namespace. -/
def Found (lib : Libntfs σ) (ns : Namespace) (d : UInt64) (name : List UInt8) :
    Except Errno UInt64 → Prop
  | .ok iref => ∃ u, lib.mbstoucs name = .ok u ∧ ns.entry (d, u) = some (MREF iref)
  | .error _ => ∀ u, lib.mbstoucs name = .ok u → ns.entry (d, u) = none

theorem findMft_spec (hL : Lawful lib V) (ns : Namespace) (d : UInt64) (name : List UInt8) :
    Spec (V.Is ns) (findMft lib d name) (fun r s => Found lib ns d name r ∧ V.Is ns s)
      fun e s => (e < 0 ∧ ns.node d = none) ∧ V.Is ns s := by
  refine spec_wellFormed fun hwf => ?_
  unfold findMft
  refine Spec.bind_orFail (hL.inodeOpen ns d)
    (fun e s h => ⟨⟨negErrno_neg e, h.1⟩, h.2⟩) ?_
  intro dirNi
  refine Spec.assume fun hd => ?_
  have hclose : ∀ r, Found lib ns d name r →
      Spec (V.Is ns) (orFail negErrno (lib.inodeClose dirNi) >>= fun _ => pure r)
        (fun r s => Found lib ns d name r ∧ V.Is ns s)
        fun e s => (e < 0 ∧ ns.node d = none) ∧ V.Is ns s := by
    intro r hr
    refine Spec.bind_orFail (hL.inodeClose ns dirNi) (fun _ _ hf => hf.elim) ?_
    intro _
    exact Spec.pure fun s hs => ⟨hr, hs⟩
  cases hu : lib.mbstoucs name with
  | error e =>
    have hfails : Spec (V.Is ns) (nfskLookupMft lib dirNi name) (fun _ _ => False)
        fun _ => V.Is ns := by
      unfold nfskLookupMft
      exact Spec.bind (convert_fails lib hu) fun _ _ hf => hf.elim
    refine Spec.bind_attempt hfails (fun _ _ hf => hf.elim) fun e => hclose (.error e) ?_
    intro u hu'
    rw [hu] at hu'
    cases hu'
  | ok u =>
    have hlookup := nfskLookupMft_spec hL hu ns dirNi
    rw [hwf.mftNo _ _ hd] at hlookup
    refine Spec.bind_attempt hlookup ?_ ?_
    · intro iref
      exact Spec.assume fun hentry => hclose (.ok iref) ⟨u, hu, hentry⟩
    · intro e
      refine Spec.assume fun hnone => hclose (.error e) ?_
      intro u' hu'
      rw [hu] at hu'
      cases hu'
      exact hnone

theorem faulty_spec {P : σ → Prop} {Q : Unit → σ → Prop} {E : Int → σ → Prop}
    {x : EStateM Int σ Unit} (sched : Schedule) (step : RenameStep) (hx : Spec P x Q E)
    (he : sched step ≠ none → ∀ (e : Errno) (s : σ), P s → E (negErrno e) s) :
    Spec P (faulty sched step x) (fun a s => sched step = none ∧ Q a s) E := by
  unfold faulty
  cases h : sched step with
  | none => exact Spec.conseq_ok hx fun _ _ hq => ⟨rfl, hq⟩
  | some e => exact Spec.throw fun s hs => he (by rw [h]; exact Option.some_ne_none e) e s hs

/-- A step that changes nothing unless `φ` holds still does not, and a fault is one more way to fail. -/
theorem faulty_exact {φ : Prop} {Q : Unit → σ → Prop} {x : EStateM Int σ Unit}
    (hx : Spec (V.Is ns) x (fun a s => φ ∧ Q a s) fun e s => (e < 0 ∧ ¬ φ) ∧ V.Is ns s)
    (sched : Schedule) (step : RenameStep) :
    Spec (V.Is ns) (faulty sched step x) (fun a s => (sched step = none ∧ φ) ∧ Q a s)
      fun e s => (e < 0 ∧ ¬ (sched step = none ∧ φ)) ∧ V.Is ns s := by
  refine Spec.conseq_ok (faulty_spec sched step (Spec.conseq_error hx ?_) ?_) ?_
  · rintro e s ⟨⟨he, hnot⟩, hs⟩
    exact ⟨⟨he, fun h => hnot h.2⟩, hs⟩
  · intro hsched e s hs
    exact ⟨⟨negErrno_neg e, fun h => hsched h.1⟩, hs⟩
  · rintro _ s ⟨hsched, hφ, hq⟩
    exact ⟨⟨hsched, hφ⟩, hq⟩

/-- What a recovery step leaves whose condition holds. -/
theorem final_faulty {φ : Prop} {Q : σ → Prop} {x : EStateM Int σ Unit}
    (hx : Spec (V.Is ns) x (fun _ s => φ ∧ Q s) fun e s => (e < 0 ∧ ¬ φ) ∧ V.Is ns s) (hφ : φ)
    (sched : Schedule) (step : RenameStep) {s : σ} (hs : V.Is ns s) :
    (sched step = none → Q (final (faulty sched step x s))) ∧
      (sched step ≠ none → V.Is ns (final (faulty sched step x s))) := by
  refine Spec.final (I := fun s => (sched step = none → Q s) ∧ (sched step ≠ none → V.Is ns s))
    (Spec.conseq (faulty_exact hx sched step) ?_ ?_) hs
  · rintro _ s ⟨⟨hsched, _⟩, hq⟩
    exact ⟨fun _ => hq, fun hne => absurd hsched hne⟩
  · rintro e s ⟨⟨_, hnot⟩, hs⟩
    exact ⟨fun hsched => absurd ⟨hsched, hφ⟩ hnot, fun _ => hs⟩

variable {name : List UInt8} {u : List UInt16} {d mft r : UInt64}

theorem faulty_link (hL : Lawful lib V) (hu : lib.mbstoucs name = .ok u) (ns : Namespace)
    (mft d : UInt64) (sched : Schedule) (step : RenameStep) :
    Spec (V.Is ns) (faulty sched step (nfskDoLink lib mft d name true))
      (fun _ s => (sched step = none ∧ Linkable ns mft (d, u)) ∧ V.Is (ns.link (d, u) mft) s)
      fun e s => (e < 0 ∧ ¬ (sched step = none ∧ Linkable ns mft (d, u))) ∧ V.Is ns s :=
  faulty_exact (nfskDoLink_spec hL hu ns mft d) sched step

/-- `nfsk_do_unlink` of an entry that is there. -/
theorem nfskDoUnlink_entry (hL : Lawful lib V) (hu : lib.mbstoucs name = .ok u)
    (hentry : ns.entry (d, u) = some r) :
    Spec (V.Is ns) (nfskDoUnlink lib d name)
      (fun _ s => Unlinkable ns (d, u) r ∧ Dropped V ns (d, u) r s)
      fun e s => (e < 0 ∧ ¬ Unlinkable ns (d, u) r) ∧ V.Is ns s := by
  refine Spec.conseq (nfskDoUnlink_spec hL hu ns d) ?_ ?_
  · rintro _ s ⟨r', hunlinkable, hdropped⟩
    have hr := hunlinkable.entry
    rw [hentry] at hr
    cases hr
    exact ⟨hunlinkable, hdropped⟩
  · rintro e s ⟨⟨he, hnot⟩, hs⟩
    exact ⟨⟨he, hnot r⟩, hs⟩

theorem faulty_unlink (hL : Lawful lib V) (hu : lib.mbstoucs name = .ok u) {ns : Namespace}
    {d r : UInt64} (hentry : ns.entry (d, u) = some r) (sched : Schedule) (step : RenameStep) :
    Spec (V.Is ns) (faulty sched step (nfskDoUnlink lib d name))
      (fun _ s => (sched step = none ∧ Unlinkable ns (d, u) r) ∧ Dropped V ns (d, u) r s)
      fun e s => (e < 0 ∧ ¬ (sched step = none ∧ Unlinkable ns (d, u) r)) ∧ V.Is ns s :=
  faulty_exact (nfskDoUnlink_entry hL hu hentry) sched step

/-- Removing a name while another one refers to the record. -/
theorem Dropped.is_unlink {V : View σ} {k : Key} {r : UInt64} {s : σ} (h : Dropped V ns k r s)
    (hb : ns.NamedBut k r) : V.Is (ns.unlink k) s := by
  cases h with
  | inl h => exact h.2
  | inr h => exact absurd hb h.1

/-- What a recovery step leaves that can add an entry. -/
theorem final_link (hL : Lawful lib V) (hu : lib.mbstoucs name = .ok u)
    (h : Linkable ns mft (d, u)) (sched : Schedule) (step : RenameStep) {s : σ} (hs : V.Is ns s) :
    (sched step = none →
      V.Is (ns.link (d, u) mft) (final (faulty sched step (nfskDoLink lib mft d name true) s))) ∧
    (sched step ≠ none →
      V.Is ns (final (faulty sched step (nfskDoLink lib mft d name true) s))) :=
  final_faulty (nfskDoLink_spec hL hu ns mft d) h sched step hs

/-- What a recovery step leaves that can remove an entry. -/
theorem final_unlink (hL : Lawful lib V) (hu : lib.mbstoucs name = .ok u)
    (h : Unlinkable ns (d, u) r) (sched : Schedule) (step : RenameStep) {s : σ} (hs : V.Is ns s) :
    (sched step = none →
      Dropped V ns (d, u) r (final (faulty sched step (nfskDoUnlink lib d name) s))) ∧
    (sched step ≠ none → V.Is ns (final (faulty sched step (nfskDoUnlink lib d name) s))) :=
  final_faulty (nfskDoUnlink_entry hL hu h.entry) h sched step hs

end Steps

end Ntfs
end Usbrw
