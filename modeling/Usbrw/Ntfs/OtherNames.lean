import Usbrw.Ntfs.Replace
import Usbrw.Ntfs.TreeRuns

/-!
# Ntfs.OtherNames

A call removes and renames no name but those it is given and their 8.3 aliases, whatever fails on
the way.

* `Stands`           — a name stands for a record, which is in use, and has its alias.
* `Denotes`          — the bytes given to a call are that name or its alias.
* `displace_stands`, `rename_stands` — a rename, with the steps on the temporary name.
* `other_names_stay` — a run of calls, none of which is given the name to unlink or to rename.
-/

namespace Usbrw
namespace Ntfs

open Call Namespace Run

variable {σ : Type}

/-- Of a name without an alias `p` is the name itself. -/
structure Stands (k p : Key) (n : NtfsInode) (ns : Namespace) : Prop where
  entry : ns.entry k = some n.mftNo
  node : ns.node n.mftNo = some n
  pair : ns.pair k = p

section Changes

variable {V : View σ} {ns ns' : Namespace} {k k' p : Key} {n m : NtfsInode} {r : UInt64} {s : σ}

/-- Neither name is one that is not there. -/
theorem Stands.of_free (h : Stands k p n ns) (hwf : ns.WellFormed) (hfree : ns.entry k' = none) :
    ¬ (k' = k ∨ k' = p) := by
  have hentry : ns.entry p = some n.mftNo := by
    rw [← h.pair, hwf.pairEntry, h.entry]
  rintro (rfl | rfl)
  · rw [h.entry] at hfree
    cases hfree
  · rw [hentry] at hfree
    cases hfree

theorem Stands.link (h : Stands k p n ns) (hfree : ns.entry k' = none) :
    Stands k p n (ns.link k' r) := by
  have hne : k ≠ k' := by
    rintro rfl
    rw [h.entry] at hfree
    cases hfree
  exact ⟨by rw [link_entry_of_ne hne, h.entry], h.node, h.pair⟩

theorem Stands.created (h : Stands k p n ns) (hnew : Created ns k' m ns') : Stands k p n ns' := by
  have hne : k ≠ k' := by
    rintro rfl
    have habsent := hnew.absent
    rw [h.entry] at habsent
    cases habsent
  have hother : n.mftNo ≠ m.mftNo := by
    intro heq
    have hfresh := hnew.fresh
    rw [← heq, h.node] at hfresh
    cases hfresh
  rw [hnew.eq]
  exact ⟨by rw [create_entry_of_ne hne, h.entry], by rw [create_node_of_ne hother, h.node], h.pair⟩

/-- The record goes only with its last name. -/
theorem Stands.dropped (h : Stands k p n ns) (hwf : ns.WellFormed) (hne : ¬ (k' = k ∨ k' = p))
    (hd : Dropped V ns k' r s) : V.Has (Stands k p n) s := by
  have hother : ns.Other k' k := by
    rw [← h.pair] at hne
    exact Other.symm hwf (not_or.mp hne)
  have hentry : (ns.unlink k').entry k = some n.mftNo := by
    rw [unlink_entry_of_other hother, h.entry]
  have hpair : (ns.unlink k').pair k = p := by rw [unlink_pair_of_other hother, h.pair]
  cases hd with
  | inl hkept => exact hkept.2.has ⟨hentry, h.node, hpair⟩
  | inr hfreed =>
    obtain ⟨hlast, hs⟩ := hfreed
    have hnode : n.mftNo ≠ r := by
      rintro rfl
      exact hlast ⟨k, hother, h.entry⟩
    exact hs.has ⟨hentry, by rw [free_node_of_ne hnode]; exact h.node, hpair⟩

end Changes

/-- `name` in the directory `d` is `k` or `p`. -/
def Denotes (lib : Libntfs σ) (d : UInt64) (name : List UInt8) (k p : Key) : Prop :=
  ∃ u, lib.mbstoucs name = .ok u ∧ ((d, u) = k ∨ (d, u) = p)

section Steps

variable {lib : Libntfs σ} {V : View σ} {ns : Namespace} {k p : Key} {n : NtfsInode}
  {mft d ino xino oldDir newDir : UInt64} {name oldName newName tmpn : List UInt8}
  {sched : Schedule} {step : RenameStep}

theorem doUnlink_stands (hL : Lawful lib V) (hne : ¬ Denotes lib d name k p) :
    Keeps (V.Has (Stands k p n)) (nfskDoUnlink lib d name) := by
  refine keeps_of_names fun ns hstands => spec_wellFormed fun hwf => ?_
  cases hu : lib.mbstoucs name with
  | error e =>
    unfold nfskDoUnlink
    exact Spec.bind_orFail (convert_fails lib hu) (fun _ _ hs => hs.has hstands)
      fun _ _ hf => hf.elim
  | ok u =>
    refine Spec.conseq (nfskDoUnlink_spec hL hu ns d) ?_ fun _ _ h => h.2.has hstands
    intro _ s hdone
    obtain ⟨r, _, hdropped⟩ := hdone
    exact hstands.dropped hwf (fun hkey => hne ⟨u, hu, hkey⟩) hdropped

theorem faultyUnlink_stands (hL : Lawful lib V) (hne : ¬ Denotes lib d name k p) (sched : Schedule)
    (step : RenameStep) :
    Keeps (V.Has (Stands k p n)) (faulty sched step (nfskDoUnlink lib d name)) :=
  keeps_faulty (doUnlink_stands hL hne) sched step

theorem faultyLink_stands (hL : Lawful lib V) (sched : Schedule) (step : RenameStep)
    (mft d : UInt64) (name : List UInt8) :
    Keeps (V.Has (Stands k p n)) (faulty sched step (nfskDoLink lib mft d name true)) :=
  faultyLink_keeps hL fun _ _ _ _ hstands hl => hstands.link hl.absent

/-- A name that a link succeeds in making was not there. -/
theorem faultyLink_denotes (hL : Lawful lib V) (hstands : Stands k p n ns) :
    Spec (V.Is ns) (faulty sched step (nfskDoLink lib mft d name true))
      (fun _ s => ¬ Denotes lib d name k p ∧ V.Has (Stands k p n) s)
      fun _ => V.Has (Stands k p n) := by
  refine spec_wellFormed fun hwf => ?_
  cases hu : lib.mbstoucs name with
  | error e =>
    refine Spec.conseq (faulty_spec sched step (nfskDoLink_unconverted hL hu ns mft d true)
      (fun _ e s hs => ⟨negErrno_neg e, hs⟩)) ?_ fun _ _ h => h.2.has hstands
    exact fun _ _ hf => hf.2.elim
  | ok u =>
    refine Spec.conseq (faulty_link hL hu ns mft d sched step) ?_ fun _ _ h => h.2.has hstands
    rintro _ s ⟨⟨_, hl⟩, hs⟩
    refine ⟨?_, hs.has (hstands.link hl.absent)⟩
    rintro ⟨u', hu', hkey⟩
    rw [hu] at hu'
    cases hu'
    exact hstands.of_free hwf hl.absent hkey

theorem renameToFree_stands (hL : Lawful lib V) (hold : ¬ Denotes lib oldDir oldName k p)
    (hnew : ¬ Denotes lib newDir newName k p) :
    Keeps (V.Has (Stands k p n)) (renameToFree lib sched ino oldDir oldName newDir newName) := by
  refine (faultyLink_stands hL sched .linkNew ino newDir newName).bind fun _ => ?_
  exact (faultyUnlink_stands hL hold sched .unlinkOld).onFail
    (faultyUnlink_stands hL hnew sched .rollbackNew)

theorem moveOver_stands (hL : Lawful lib V) (hold : ¬ Denotes lib oldDir oldName k p)
    (hnew : ¬ Denotes lib newDir newName k p) :
    Keeps (V.Has (Stands k p n)) (moveOver lib sched ino oldDir oldName newDir newName) := by
  refine (faultyLink_stands hL sched .linkOver ino newDir newName).bind fun _ => ?_
  exact (faultyUnlink_stands hL hold sched .unlinkOldOver).onFail
    (faultyUnlink_stands hL hnew sched .rollbackOver)

/-- The temporary name is cleaned up only where it was made. -/
theorem displace_stands (hL : Lawful lib V) (hold : ¬ Denotes lib oldDir oldName k p)
    (hnew : ¬ Denotes lib newDir newName k p) :
    Keeps (V.Has (Stands k p n))
      (displace lib sched ino xino oldDir oldName newDir newName tmpn) := by
  refine keeps_of_names fun ns hstands => ?_
  refine Spec.bind (faultyLink_denotes hL hstands) fun _ => Spec.assume fun htmp => ?_
  refine Keeps.afterwards ?_ (faultyUnlink_stands hL htmp sched .cleanup)
  refine (faultyUnlink_stands hL hnew sched .unlinkTarget).bind fun _ => ?_
  exact (moveOver_stands hL hold hnew).onFail (faultyLink_stands hL sched .restore xino _ _)

theorem rename_stands (hL : Lawful lib V) {renameSeq : Nat} (hstands : Stands k p n ns)
    (hold : ¬ Denotes lib oldDir oldName k p) (hnew : ¬ Denotes lib newDir newName k p) :
    Spec (V.Is ns) (nfskRenameImpl lib sched renameSeq oldDir oldName newDir newName)
      (fun _ => V.Has (Stands k p n)) fun _ => V.Has (Stands k p n) := by
  refine nfskRename_spec hL ?_ ?_ fun _ _ _ _ hs => hs.has hstands
  · exact fun _ _ _ _ => spec_of_keeps (renameToFree_stands hL hold hnew) hstands
  · intro ino ou xino nu _ _ _
    by_cases hsame : xino = ino
    · rw [if_pos hsame]
      exact Spec.pure fun _ hs => hs.has hstands
    · rw [if_neg hsame]
      refine replaceTarget_spec hL ?_ fun _ _ _ _ hs => hs.has hstands
      exact fun _ _ => spec_of_keeps (displace_stands hL hold hnew) hstands

end Steps

section Requests

variable {lib : Libcreate σ} {V : View σ} {ns : Namespace} {k p : Key} {n : NtfsInode}

/-- The call is to unlink or to rename one of the two names, or to rename something to it. -/
def Request.Disposes (lib : Libcreate σ) (k p : Key) : Request → Prop
  | .unlink dirMft name _ => Denotes lib.toLibntfs dirMft name k p
  | .rename oldDir oldName newDir newName =>
    Denotes lib.toLibntfs oldDir oldName k p ∨ Denotes lib.toLibntfs newDir newName k p
  | _ => False

theorem request_stands (hL : LawfulCreate lib V) (hstands : Stands k p n ns) {windowsNames : Bool}
    {sched : Schedule} {renameSeq : Nat} (r : Request) (hr : ¬ r.Disposes lib k p) :
    Spec (V.Is ns) (r.run lib windowsNames sched renameSeq) (fun _ => V.Has (Stands k p n))
      fun _ => V.Has (Stands k p n) := by
  cases r with
  | create dirMft name type =>
    refine Spec.bind ?_ fun _ => Spec.pure fun _ h => h
    exact (create_spec hL ns windowsNames type).has hstands fun _ _ _ _ hnew => hstands.created hnew
  | symlink dirMft name target =>
    refine Spec.bind ?_ fun _ => Spec.pure fun _ h => h
    exact (symlink_spec hL ns).has hstands fun _ _ _ _ hnew => hstands.created hnew
  | link mft newDir newName =>
    refine Spec.guard (fun _ _ hs => hs.has hstands) fun _ => ?_
    exact doLink_has hL.lawful hstands fun _ _ hl => hstands.link hl.absent
  | unlink dirMft name mft =>
    refine Spec.guard (fun _ _ hs => hs.has hstands) fun _ => ?_
    exact spec_of_keeps (doUnlink_stands hL.lawful hr) hstands
  | rename oldDir oldName newDir newName =>
    exact rename_stands hL.lawful hstands (fun h => hr (.inl h)) fun h => hr (.inr h)

end Requests

/-- Over a run of calls, each of which may fail at any point, a name that none of them is to unlink
or to rename, and none to rename something to, nor its alias, stands for the same record, the record
is in use, and the alias is the same. -/
theorem other_names_stay {lib : Libcreate σ} {V : View σ} (hL : LawfulCreate lib V)
    {windowsNames : Bool} {s : σ} {calls : List Issued} {k p : Key} {n : NtfsInode}
    (hentry : (V.names s).entry k = some n.mftNo) (hnode : (V.names s).node n.mftNo = some n)
    (hpair : (V.names s).pair k = p) (hcalls : ∀ c ∈ calls, ¬ c.request.Disposes lib k p) :
    let ns := V.names (calls.foldl (changeNames lib windowsNames) s)
    ns.entry k = some n.mftNo ∧ ns.node n.mftNo = some n ∧ ns.pair k = p := by
  have hrun : ∀ s, V.Has (Stands k p n) s →
      V.Has (Stands k p n) (calls.foldl (changeNames lib windowsNames) s) := by
    induction calls with
    | nil => exact fun _ hs => hs
    | cons c calls ih =>
      intro s hs
      refine ih (fun c' hc' => hcalls c' (List.mem_cons_of_mem c hc')) _ ?_
      exact Spec.final (request_stands hL hs c.request (hcalls c List.mem_cons_self)) rfl
  have hlast := hrun s ⟨hentry, hnode, hpair⟩
  exact ⟨hlast.entry, hlast.node, hlast.pair⟩

/-- A leftover of an earlier rename is in the way of the next one and stays, while its record gets
a second name, `a` is removed and a file of that name is made. -/
theorem other_names_stay_leftover :
    let calls := [⟨.rename 5 [0x61] 5 [0x62], fun _ => none, 0⟩, plain (.link 22 5 [0x64]),
      plain (.unlink 5 [0x61] 20), plain (.create 5 [0x61] 'f')]
    let k : Key := (5, tmpUnits [0x62] 1)
    let ns := (calls.foldl (changeNames refLibcreate false) leftover).ns
    ns.entry k = some 22 ∧ ns.node 22 = some ⟨22, false, false⟩ ∧ ns.pair k = k := by
  intro calls k
  have hcalls : ∀ c ∈ calls, ¬ c.request.Disposes refLibcreate k k := by
    intro c hc
    simp only [calls, List.mem_cons, List.not_mem_nil, or_false] at hc
    obtain rfl | rfl | rfl | rfl := hc
    all_goals simp [Request.Disposes, Denotes, plain, refLibcreate, refLibntfs]
    all_goals decide
  exact @other_names_stay _ refLibcreate RefState.view refLibcreate_lawful false leftover calls
    k k ⟨22, false, false⟩ rfl rfl rfl hcalls

end Ntfs
end Usbrw
