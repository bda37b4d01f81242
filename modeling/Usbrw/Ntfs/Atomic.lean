import Usbrw.Ntfs.Displace
import Usbrw.Ntfs.Reference

/-!
# Ntfs.Atomic

`nfsk_rename` is all or nothing as long as the steps that undo and clean up do not fail, but for 8.3
aliases: a name goes with its alias, and is given back without it. A step forward may fail: after it
no other one is tried.

* `Recovers`    — no fault in a rollback, a restore or the clean-up.
* `Renamed`     — what a call that returns 0 has done.
* `LosesAlias`  — what a call that fails may have done.
* `rename_atomic` — a call that fails has changed nothing else.
-/

namespace Usbrw
namespace Ntfs

open Call Namespace

variable {σ : Type}

structure Recovers (sched : Schedule) : Prop where
  rollbackNew : sched .rollbackNew = none
  rollbackOver : sched .rollbackOver = none
  restore : sched .restore = none
  cleanup : sched .cleanup = none

/-- Both names were the same record's and nothing changed, or the entry under the old name is now
under the new one, where any other has gone, both with their aliases, and that is all. -/
def Renamed (ns ns' : Namespace) (old new : Key) (ino : UInt64) : Prop :=
  ns.entry old = some ino ∧
    ((ns.entry new = some ino ∧ ns' = ns) ∨
      (ns.entry new ≠ some ino ∧ ns'.entry = (((ns.unlink new).unlink old).link new ino).entry))

/-- The new name was taken away and given back to its record. It had an alias, which is gone. -/
structure LosesAlias (sched : Schedule) (ns ns' : Namespace) (new : Key) : Prop where
  vacated : sched .unlinkTarget = none
  paired : ns.pair new ≠ new
  restored : ∃ x, ns.entry new = some x ∧ ns' = (ns.unlink new).link new x

section Atomic

variable {lib : Libntfs σ} {V : View σ} {sched : Schedule} {ns : Namespace}
  {ino xino oldDir newDir : UInt64} {oldName newName tmpn : List UInt8} {ou nu tu : List UInt16}

theorem Recovers.not_stranded (h : Recovers sched) : ¬ Stranded sched ns ino oldDir newDir := by
  intro hstr
  cases hstr.kept with
  | inl hrestore => exact hrestore h.restore
  | inr hover => exact hover.2 h.rollbackOver

/-- Both steps of a move, without the temporary name, come to the same. -/
theorem moved_eq {old new tmp : Key} (h : Displacing ns ino xino old new)
    (ht : ns.entry tmp = none) :
    ((taken ns ino xino new tmp).unlink old).unlink tmp =
      ((ns.unlink new).unlink old).link new ino := by
  have htmp : (taken ns ino xino new tmp).Other tmp old :=
    other_of_ne (h.vacated_pair ht) (h.tmp_ne_old ht).symm
  rw [unlink_comm (h.taken_other (h.other_tmp_old ht)) htmp, h.linked_cleaned ht,
    unlink_link_comm ((h.other_old.symm h.wellFormed).unlink h.other_old)]

theorem displace_atomic (hL : Lawful lib V) (hrec : Recovers sched)
    (ho : lib.mbstoucs oldName = .ok ou) (hn : lib.mbstoucs newName = .ok nu)
    (h : Displacing ns ino xino (oldDir, ou) (newDir, nu)) :
    Spec (V.Is ns) (displace lib sched ino xino oldDir oldName newDir newName tmpn)
      (fun _ s => Renamed ns (V.names s) (oldDir, ou) (newDir, nu) ino)
      fun e s => e < 0 ∧ (V.Is ns s ∨ LosesAlias sched ns (V.names s) (newDir, nu)) := by
  by_cases htmp : TmpLinks lib sched ns xino newDir tmpn
  · obtain ⟨hsched, tu, hu, ht⟩ := htmp
    have hne := h.tmp_ne_new ht.absent
    refine Spec.conseq (displace_outcomes hL ho hn hu h hsched ht) ?_ ?_
    · rintro _ s ⟨_, hc⟩
      refine ⟨h.source, Or.inr ⟨?_, ?_⟩⟩
      · rw [h.target]
        exact fun heq => h.differ (Option.some.inj heq)
      · rw [← moved_eq h ht.absent]
        cases hc.1 hrec.cleanup with
        | inl hd => rw [hd.2.eq]
        | inr hd => rw [hd.2.eq, free_entry]
    · rintro e s ⟨⟨he, _⟩, hparked | ⟨⟨hvacated, _⟩, hrestored⟩ | ⟨hstr, _⟩⟩
      · -- the displaced record keeps the new name, so only the temporary one goes
        have hnew : (parked ns xino (newDir, tu)).entry (newDir, nu) = some xino := by
          rw [link_entry_of_ne hne.symm]
          exact h.target
        have hback := (hparked.2.1 hrec.cleanup).is_unlink
          ⟨(newDir, nu), other_of_ne (h.parked_pair ht.absent) hne.symm, hnew⟩
        rw [unlink_link (h.wellFormed.pairFree _ ht.absent) ht.absent] at hback
        exact ⟨he, .inl hback⟩
      · have hback := (hrestored.1 hrec.cleanup).is_unlink
          ⟨(newDir, nu), other_of_ne (h.vacated_pair ht.absent) hne.symm, link_entry_self⟩
        rw [h.linked_cleaned ht.absent] at hback
        by_cases hp : ns.pair (newDir, nu) = (newDir, nu)
        · rw [link_unlink hp h.target] at hback
          exact ⟨he, .inl hback⟩
        · exact ⟨he, .inr ⟨hvacated, hp, xino, h.target, hback⟩⟩
      · exact absurd hstr hrec.not_stranded
  · refine Spec.conseq (displace_fails hL ns htmp) (fun _ _ hf => hf.elim) ?_
    exact fun e s h => ⟨h.1, .inl h.2⟩

theorem renameToFree_atomic (hL : Lawful lib V) (hrec : Recovers sched)
    (hwf : ns.WellFormed) (ho : lib.mbstoucs oldName = .ok ou)
    (hsource : ns.entry (oldDir, ou) = some ino) (huser : FILE_first_user ≤ ino) :
    Spec (V.Is ns) (renameToFree lib sched ino oldDir oldName newDir newName)
      (fun _ s => ∃ nu, lib.mbstoucs newName = .ok nu ∧
        Renamed ns (V.names s) (oldDir, ou) (newDir, nu) ino)
      fun e s => e < 0 ∧ V.Is ns s := by
  refine Spec.conseq (renameToFree_outcomes hL hwf ho hsource huser) ?_ ?_
  · rintro _ s ⟨nu, hn, ⟨_, hl⟩, _, hs⟩
    have hne : (oldDir, ou) ≠ (newDir, nu) := key_ne ns (by
      rw [hsource, hl.absent]
      exact Option.some_ne_none ino)
    refine ⟨nu, hn, hsource, Or.inr ⟨by rw [hl.absent]; exact (Option.some_ne_none ino).symm, ?_⟩⟩
    rw [hs.eq, unlink_link_comm (other_of_free hwf hl.absent hne).2, unlink_free hwf hl.absent]
  · rintro e s ⟨he, hs | ⟨hroll, _⟩⟩
    · exact ⟨he, hs⟩
    · exact absurd hrec.rollbackNew hroll

/-- Where no step that undoes or cleans up fails, a call that fails has changed nothing but the alias
of the new name, and one that returns 0 has renamed. The new name must not stand for a metadata
record. -/
theorem rename_atomic (hL : Lawful lib V) (sched : Schedule) (hrec : Recovers sched)
    (renameSeq : Nat) (oldDir : UInt64) (oldName : List UInt8) (newDir : UInt64)
    (newName : List UInt8) (s : σ)
    (htarget : ∀ nu x, lib.mbstoucs newName = .ok nu → (V.names s).entry (newDir, nu) = some x →
      FILE_first_user ≤ x) :
    match nfskRenameImpl lib sched renameSeq oldDir oldName newDir newName s with
    | .ok () s' => ∃ ino ou nu, lib.mbstoucs oldName = .ok ou ∧ lib.mbstoucs newName = .ok nu ∧
        Renamed (V.names s) (V.names s') (oldDir, ou) (newDir, nu) ino
    | .error e s' => e < 0 ∧ (V.names s' = V.names s ∨ ∃ nu, lib.mbstoucs newName = .ok nu ∧
        LosesAlias sched (V.names s) (V.names s') (newDir, nu)) := by
  have hwf := V.wellFormed s
  have hspec : Spec (V.Is (V.names s))
      (nfskRenameImpl lib sched renameSeq oldDir oldName newDir newName)
      (fun _ s' => ∃ ino ou nu, lib.mbstoucs oldName = .ok ou ∧ lib.mbstoucs newName = .ok nu ∧
        Renamed (V.names s) (V.names s') (oldDir, ou) (newDir, nu) ino)
      fun e s' => e < 0 ∧ (V.Is (V.names s) s' ∨ ∃ nu, lib.mbstoucs newName = .ok nu ∧
        LosesAlias sched (V.names s) (V.names s') (newDir, nu)) := by
    refine nfskRename_spec hL ?_ ?_ fun _ e s' he hs' => ⟨he, .inl hs'⟩
    · intro ino ou hstarts _
      refine Spec.conseq (renameToFree_atomic hL hrec hwf hstarts.converts hstarts.source
        hstarts.user) ?_ fun e s' h => ⟨h.1, .inl h.2⟩
      rintro _ s' ⟨nu, hn, hrenamed⟩
      exact ⟨ino, ou, nu, hstarts.converts, hn, hrenamed⟩
    · intro ino ou xino nu hstarts hn hx
      by_cases hsame : xino = ino
      · rw [if_pos hsame]
        refine Spec.pure fun s' hs' => ⟨ino, ou, nu, hstarts.converts, hn, hstarts.source, ?_⟩
        exact Or.inl ⟨by rw [hx, hsame], hs'⟩
      · rw [if_neg hsame]
        refine replaceTarget_spec hL ?_ fun _ e s' he hs' => ⟨he, .inl hs'⟩
        intro hnode _
        refine Spec.conseq (displace_atomic hL hrec hstarts.converts hn
          ⟨hwf, hstarts.source, hx, hsame, hstarts.user, htarget nu xino hn hx, hnode⟩) ?_ ?_
        · exact fun _ s' hrenamed => ⟨ino, ou, nu, hstarts.converts, hn, hrenamed⟩
        · exact fun e s' h => ⟨h.1, h.2.imp id fun hlost => ⟨nu, hn, hlost⟩⟩
  have hs := hspec s rfl
  cases hrun : nfskRenameImpl lib sched renameSeq oldDir oldName newDir newName s with
  | ok u s' => rw [hrun] at hs; exact hs
  | error e s' => rw [hrun] at hs; exact hs

end Atomic

/-- The volume is full when a source is to lose its old name. -/
def fullAtUnlink : Schedule := fun step =>
  if step = .unlinkOldOver then some noSpace else none

theorem rename_atomic_full :
    ∃ s', nfskRenameImpl refLibntfs fullAtUnlink 0 5 [0x61] 5 [0x62] twoFiles = .error (-28) s' ∧
      s'.ns = twoFiles.ns := by
  obtain ⟨s', hrun⟩ : ∃ s', nfskRenameImpl refLibntfs fullAtUnlink 0 5 [0x61] 5 [0x62] twoFiles =
      .error (-28) s' := ⟨_, rfl⟩
  have hatomic := rename_atomic refLibntfs_lawful fullAtUnlink ⟨rfl, rfl, rfl, rfl⟩ 0 5 [0x61] 5
    [0x62] twoFiles (by
      intro nu x hn hx
      cases hn
      cases hx
      decide)
  rw [hrun] at hatomic
  refine ⟨s', hrun, ?_⟩
  obtain hsame | ⟨nu, _, hlost⟩ := hatomic.2
  · exact hsame
  · exact absurd rfl hlost.paired

theorem threeNames_entries :
    ∀ e ∈ ([((5, [0x61]), 20), ((5, [0x62]), 21), ((5, [0x42, 0x7E, 0x31]), 21)] :
        List (Key × UInt64)),
      (e.1.2 ≠ [] ∧ e.1.2.length ≤ 255) ∧ MREF e.2 = e.2 ∧
        (([⟨5, false, true⟩, ⟨20, false, false⟩, ⟨21, false, false⟩] : List NtfsInode).find?
          fun n => n.mftNo = e.1.1).any NtfsInode.isDirectory = true := by
  decide

/-- `twoFiles` with another name `B~1` for `b`. -/
def threeNames : RefState :=
  ofLists [((5, [0x61]), 20), ((5, [0x62]), 21), ((5, [0x42, 0x7E, 0x31]), 21)]
    [⟨5, false, true⟩, ⟨20, false, false⟩, ⟨21, false, false⟩] threeNames_entries rootAndTwo_records

theorem threeNames_unpaired : threeNames.ns.Unpaired (5, [0x62]) (5, [0x42, 0x7E, 0x31]) :=
  ⟨by decide, rfl, rfl, by decide, rfl, rfl⟩

/-- The other name is the alias. -/
def aliased : RefState := threeNames.withPair threeNames_unpaired

/-- A rename over `b` takes the alias away, and one that fails does not give it back. -/
theorem alias_not_restored :
    aliased.ns.entry (5, [0x42, 0x7E, 0x31]) = some 21 ∧
    (∃ s', nfskRenameImpl refLibntfs fullAtUnlink 0 5 [0x61] 5 [0x62] aliased = .error (-28) s' ∧
      s'.ns.entry (5, [0x62]) = some 21 ∧ s'.ns.entry (5, [0x42, 0x7E, 0x31]) = none) ∧
    ∃ s', nfskRenameImpl refLibntfs (fun _ => none) 0 5 [0x61] 5 [0x62] aliased = .ok () s' ∧
      s'.ns.entry (5, [0x62]) = some 20 ∧ s'.ns.entry (5, [0x42, 0x7E, 0x31]) = none := by
  refine ⟨rfl, ⟨_, rfl, rfl, rfl⟩, ⟨_, rfl, rfl, rfl⟩⟩

end Ntfs
end Usbrw
