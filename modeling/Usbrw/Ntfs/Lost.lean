import Usbrw.Ntfs.Displace
import Usbrw.Ntfs.Reference

/-!
# Ntfs.Lost

When a failed `nfsk_rename` loses what the new name stood for.

* `Loses`      — the displaced record is stranded, has no other name, and the clean-up succeeds.
* `keeps_displaced_iff` — that is the only way.
-/

namespace Usbrw
namespace Ntfs

open Call Namespace

variable {σ : Type}

structure Loses (lib : Libntfs σ) (sched : Schedule) (ns : Namespace) (ino xino oldDir : UInt64)
    (new : Key) (tmpn : List UInt8) : Prop where
  proceeds : Proceeds sched ns ino xino oldDir new.1
  tmpLinks : TmpLinks lib sched ns xino new.1 tmpn
  stranded : Stranded sched ns ino oldDir new.1
  cleanup : sched .cleanup = none
  only : ¬ ns.NamedBut new xino

section Named

variable {V : View σ} {ns : Namespace} {k new tmp : Key} {r ino xino : UInt64} {s : σ}

theorem Dropped.named_iff (h : Dropped V ns k r s) {m : UInt64} :
    (V.names s).Named m ↔ (ns.unlink k).Named m := by
  cases h with
  | inl h => rw [h.2.eq]
  | inr h =>
    rw [h.2.eq]
    unfold Named
    rw [free_entry]

theorem named_of_is (h : V.Is ns s) (hk : ns.entry k = some r) : (V.names s).Named r := by
  rw [h.eq]
  exact ⟨k, hk⟩

theorem Cleaned.named {sched : Schedule} (h : Cleaned V sched ns tmp xino s)
    (hp : ns.pair tmp = tmp) (hne : k ≠ tmp) (hk : ns.entry k = some r) : (V.names s).Named r := by
  by_cases hclean : sched .cleanup = none
  · rw [(h.1 hclean).named_iff]
    exact ⟨k, by rw [unlink_entry_of_other (other_of_ne hp hne)]; exact hk⟩
  · exact named_of_is (h.2 hclean) hk

variable {old : Key}

/-- Without its temporary name the displaced record has the names it had beside the new one. -/
theorem vacated_named_iff (h : Displacing ns ino xino old new) (ht : ns.entry tmp = none) :
    ((vacated ns xino new tmp).unlink tmp).Named xino ↔ ns.NamedBut new xino := by
  rw [h.vacated_cleaned ht, namedBut_iff_named_unlink]

theorem taken_named_iff (h : Displacing ns ino xino old new) (ht : ns.entry tmp = none) :
    ((taken ns ino xino new tmp).unlink tmp).Named xino ↔ ns.NamedBut new xino := by
  rw [h.linked_cleaned ht, namedBut_iff_named_unlink]
  constructor
  · rintro ⟨k, hk⟩
    by_cases hne : k = new
    · rw [hne, link_entry_self] at hk
      exact absurd (Option.some.inj hk).symm h.differ
    · rw [link_entry_of_ne hne] at hk
      exact ⟨k, hk⟩
  · rintro ⟨k, hk⟩
    have hne : k ≠ new := by
      rintro rfl
      rw [unlink_entry_self] at hk
      cases hk
    exact ⟨k, by rw [link_entry_of_ne hne]; exact hk⟩

end Named

section Lost

variable {lib : Libntfs σ} {V : View σ} {sched : Schedule} {ns : Namespace}
  {ino xino oldDir newDir : UInt64} {oldName newName tmpn : List UInt8} {ou nu : List UInt16}

/-- Which of the two is still named after a failure. -/
def StillNamed (lib : Libntfs σ) (V : View σ) (sched : Schedule) (ns : Namespace)
    (ino xino oldDir : UInt64) (new : Key) (tmpn : List UInt8) (s : σ) : Prop :=
  (V.names s).Named ino ∧
    ((V.names s).Named xino ↔ ¬ Loses lib sched ns ino xino oldDir new tmpn)

theorem displace_named (hL : Lawful lib V) (ho : lib.mbstoucs oldName = .ok ou)
    (hn : lib.mbstoucs newName = .ok nu)
    (h : Displacing ns ino xino (oldDir, ou) (newDir, nu))
    (hp : Proceeds sched ns ino xino oldDir newDir) :
    Spec (V.Is ns) (displace lib sched ino xino oldDir oldName newDir newName tmpn)
      (fun _ _ => ¬ Loses lib sched ns ino xino oldDir (newDir, nu) tmpn)
      fun _ => StillNamed lib V sched ns ino xino oldDir (newDir, nu) tmpn := by
  by_cases htmp : TmpLinks lib sched ns xino newDir tmpn
  · obtain ⟨hsched, tu, hu, ht⟩ := htmp
    have hnew := (h.tmp_ne_new ht.absent).symm
    have hold := (h.tmp_ne_old ht.absent).symm
    have hpair := h.vacated_pair ht.absent
    -- what a stranded record is left with is what it had beside the new name
    have hstranded : ∀ {ns' : Namespace} {s : σ}, Stranded sched ns ino oldDir newDir →
        Cleaned V sched ns' (newDir, tu) xino s → ns'.pair (newDir, tu) = (newDir, tu) →
        ns'.entry (oldDir, ou) = some ino → ns'.entry (newDir, tu) = some xino →
        ((ns'.unlink (newDir, tu)).Named xino ↔ ns.NamedBut (newDir, nu) xino) →
        StillNamed lib V sched ns ino xino oldDir (newDir, nu) tmpn s := by
      intro ns' s hstr hc hptmp hino hx hiff
      refine ⟨hc.named hptmp hold hino, ?_⟩
      by_cases hclean : sched .cleanup = none
      · rw [(hc.1 hclean).named_iff, hiff]
        constructor
        · exact fun hb hl => hl.only hb
        · intro hnot
          by_contra hb
          exact hnot ⟨hp, ⟨hsched, tu, hu, ht⟩, hstr, hclean, hb⟩
      · exact iff_of_true (named_of_is (hc.2 hclean) hx) fun hl => hclean hl.cleanup
    refine Spec.conseq (displace_outcomes hL ho hn hu h hsched ht) ?_ ?_
    · rintro _ s ⟨hmoves, _⟩ hl
      exact hmoves.not_stranded hl.stranded
    · rintro e s ⟨_, hcases⟩
      obtain ⟨hstep, hc⟩ | ⟨⟨_, hstr⟩, hc⟩ | ⟨hstr, hc | ⟨_, hc⟩⟩ := hcases
      · have hptmp := h.parked_pair ht.absent
        refine ⟨hc.named hptmp hold (by rw [link_entry_of_ne hold]; exact h.source), ?_⟩
        refine iff_of_true (hc.named hptmp hnew ?_) fun hl => hstep hl.stranded.vacated
        rw [link_entry_of_ne hnew]
        exact h.target
      · refine ⟨hc.named hpair hold ?_, ?_⟩
        · rw [link_entry_of_ne h.old_ne_new]
          exact h.vacated_old ht.absent
        · exact iff_of_true (hc.named hpair hnew link_entry_self) fun hl => hstr hl.stranded
      · exact hstranded hstr hc hpair (h.vacated_old ht.absent) (h.vacated_tmp ht.absent)
          (vacated_named_iff h ht.absent)
      · exact hstranded hstr hc hpair (h.taken_old ht.absent) (h.taken_tmp ht.absent)
          (taken_named_iff h ht.absent)
  · have hnot : ¬ Loses lib sched ns ino xino oldDir (newDir, nu) tmpn := fun hl => htmp hl.tmpLinks
    refine Spec.conseq (displace_fails hL ns htmp) (fun _ _ hf => hf.elim) ?_
    rintro e s ⟨_, hs⟩
    exact ⟨named_of_is hs h.source, iff_of_true (named_of_is hs h.target) hnot⟩

/-- When the new name stands for another record, a call that fails leaves both records named, in all
schedules but those that lose the displaced one. -/
theorem keeps_displaced_iff (hL : Lawful lib V) (sched : Schedule) (renameSeq : Nat) {s : σ}
    (ho : lib.mbstoucs oldName = .ok ou) (hn : lib.mbstoucs newName = .ok nu)
    (hsource : (V.names s).entry (oldDir, ou) = some ino)
    (htarget : (V.names s).entry (newDir, nu) = some xino) (hne : xino ≠ ino)
    (huser : FILE_first_user ≤ xino) :
    (∀ e s', nfskRenameImpl lib sched renameSeq oldDir oldName newDir newName s = .error e s' →
      (V.names s').Named ino ∧ (V.names s').Named xino) ↔
      ¬ Loses lib sched (V.names s) ino xino oldDir (newDir, nu) (tmpName newName (renameSeq + 1)) := by
  have hspec : Spec (V.Is (V.names s))
      (nfskRenameImpl lib sched renameSeq oldDir oldName newDir newName)
      (fun _ _ => ¬ Loses lib sched (V.names s) ino xino oldDir (newDir, nu)
        (tmpName newName (renameSeq + 1)))
      fun _ => StillNamed lib V sched (V.names s) ino xino oldDir (newDir, nu)
        (tmpName newName (renameSeq + 1)) := by
    refine nfskRename_taken hL ho hn hsource htarget hne ?_ ?_
    · intro hp
      exact displace_named hL ho hn
        ⟨V.wellFormed s, hsource, htarget, hne, hp.user, huser, hp.node⟩ hp
    · intro hp e s' _ hs'
      exact ⟨named_of_is hs' hsource, iff_of_true (named_of_is hs' htarget) fun hl => hp hl.proceeds⟩
  constructor
  · intro hkeeps hloses
    cases hrun : nfskRenameImpl lib sched renameSeq oldDir oldName newDir newName s with
    | ok u s' => exact hspec.ok rfl hrun hloses
    | error e s' => exact (hspec.error rfl hrun).2.mp (hkeeps e s' hrun).2 hloses
  · intro hnot e s' hrun
    have hnamed := hspec.error rfl hrun
    exact ⟨hnamed.1, hnamed.2.mpr hnot⟩

end Lost

/-! ## Renaming `a` to `b` -/

def fullAtLink : Schedule := fun step => if step = .linkOver then some noSpace else none

/-- The volume is full when `a` is to be linked as `b`, and not any more when `b` is given back. -/
theorem keeps_displaced_restored :
    ∃ s', nfskRenameImpl refLibntfs fullAtLink 0 5 [0x61] 5 [0x62] twoFiles = .error (-28) s' ∧
      s'.ns.Named 20 ∧ s'.ns.Named 21 := by
  obtain ⟨s', hrun⟩ : ∃ s', nfskRenameImpl refLibntfs fullAtLink 0 5 [0x61] 5 [0x62] twoFiles =
      .error (-28) s' := ⟨_, rfl⟩
  have ha : refLibntfs.mbstoucs [0x61] = .ok [0x61] := rfl
  have hb : refLibntfs.mbstoucs [0x62] = .ok [0x62] := rfl
  have hsource : (RefState.view.names twoFiles).entry (5, [0x61]) = some 20 := rfl
  have htarget : (RefState.view.names twoFiles).entry (5, [0x62]) = some 21 := rfl
  have hkeeps := (keeps_displaced_iff refLibntfs_lawful fullAtLink 0 ha hb hsource htarget
    (by decide) (by decide)).mpr (by
      intro hl
      cases hl.stranded.kept with
      | inl hrestore => exact hrestore rfl
      | inr hover => exact absurd hover.1.1 (by decide))
  exact ⟨s', hrun, hkeeps _ s' hrun⟩

/-- The volume stays full, but removing the temporary name needs no space. -/
theorem displaced_lost :
    Lawful refLibntfs RefState.view ∧ twoFiles.ns.entry (5, [0x62]) = some 21 ∧
    ∃ s', nfskRenameImpl refLibntfs
        (fun step => if step = .linkOver ∨ step = .restore then some noSpace else none) 0
        5 [0x61] 5 [0x62] twoFiles = .error (-28) s' ∧ s'.ns.Named 20 ∧ ¬ s'.ns.Named 21 := by
  refine ⟨refLibntfs_lawful, rfl, _, rfl, by decide, by decide⟩

end Ntfs
end Usbrw
