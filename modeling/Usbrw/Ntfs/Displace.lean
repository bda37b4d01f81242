import Usbrw.Ntfs.Rename

/-!
# Ntfs.Displace

What `nfsk_rename_impl` leaves, when the new name is free and when it is taken.

* `renameToFree_outcomes` — every outcome when it is free.
* `Displacing` — the source, what is displaced and the entries involved.
* `Stranded`   — the displaced record has only its temporary name when that is cleaned up.
* `FailsInto`  — what a failure leaves, but for the temporary name.
* `displace_outcomes` — every outcome, under every schedule.
-/

namespace Usbrw
namespace Ntfs

open Call Namespace

variable {σ : Type}

/-- `old` refers to the source `ino`, and `new` to `xino`, which is a file or an empty directory. -/
structure Displacing (ns : Namespace) (ino xino : UInt64) (old new : Key) : Prop where
  wellFormed : ns.WellFormed
  source : ns.entry old = some ino
  target : ns.entry new = some xino
  differ : xino ≠ ino
  user : FILE_first_user ≤ ino
  targetUser : FILE_first_user ≤ xino
  node : ∃ n, ns.node xino = some n ∧ (n.isDirectory = true → ns.Empty xino)

section Names

variable {ns : Namespace} {ino xino : UInt64} {old new tmp : Key}

/-- The displaced record has its temporary name. -/
abbrev parked (ns : Namespace) (xino : UInt64) (tmp : Key) : Namespace := ns.link tmp xino

/-- And has lost the new name. -/
abbrev vacated (ns : Namespace) (xino : UInt64) (new tmp : Key) : Namespace :=
  (parked ns xino tmp).unlink new

/-- And the source has it. -/
abbrev taken (ns : Namespace) (ino xino : UInt64) (new tmp : Key) : Namespace :=
  (vacated ns xino new tmp).link new ino

/-- Or the displaced record has it again, without an alias. -/
abbrev restored (ns : Namespace) (xino : UInt64) (new tmp : Key) : Namespace :=
  (vacated ns xino new tmp).link new xino

namespace Displacing

theorem old_ne_new (h : Displacing ns ino xino old new) : old ≠ new := by
  refine key_ne ns ?_
  rw [h.source, h.target]
  intro heq
  exact h.differ (Option.some.inj heq).symm

/-- Nor do they share an alias. -/
theorem other_old (h : Displacing ns ino xino old new) : ns.Other new old := by
  refine other_of_entry h.wellFormed ?_
  rw [h.source, h.target]
  intro heq
  exact h.differ (Option.some.inj heq).symm

theorem tmp_ne_new (h : Displacing ns ino xino old new) (ht : ns.entry tmp = none) : tmp ≠ new := by
  refine key_ne ns ?_
  rw [ht, h.target]
  exact Option.some_ne_none xino |>.symm

theorem tmp_ne_old (h : Displacing ns ino xino old new) (ht : ns.entry tmp = none) : tmp ≠ old := by
  refine key_ne ns ?_
  rw [ht, h.source]
  exact Option.some_ne_none ino |>.symm

theorem other_tmp_new (h : Displacing ns ino xino old new) (ht : ns.entry tmp = none) :
    ns.Other new tmp :=
  (other_of_free h.wellFormed ht (h.tmp_ne_new ht).symm).2

theorem other_tmp_old (h : Displacing ns ino xino old new) (ht : ns.entry tmp = none) :
    ns.Other old tmp :=
  (other_of_free h.wellFormed ht (h.tmp_ne_old ht).symm).2

/-- What is not the old name, nor its alias, is not either where the source has both names. -/
theorem taken_other (h : Displacing ns ino xino old new) {k : Key} (hk : ns.Other old k) :
    (taken ns ino xino new tmp).Other old k :=
  (hk.link.unlink h.other_old.link).link

/-- A directory that is displaced is not the one the new name is in. -/
theorem not_inside (h : Displacing ns ino xino old new) {n : NtfsInode}
    (hn : ns.node xino = some n) (hdir : n.isDirectory = true) : xino ≠ new.1 := by
  rintro rfl
  obtain ⟨n', hn', hempty⟩ := h.node
  rw [hn] at hn'
  cases hn'
  have hnone : ns.entry (new.1, new.2) = none := hempty hdir new.2
  rw [show ns.entry (new.1, new.2) = some new.1 from h.target] at hnone
  cases hnone

/-- What is displaced is not the directory the new name is in. -/
theorem target_apart (h : Displacing ns ino xino old new) : xino ≠ new.1 := by
  intro heq
  obtain ⟨n, hn, hdir⟩ := h.wellFormed.directory _ _ h.target
  rw [← heq] at hn
  exact h.not_inside hn hdir heq

theorem unlinkable_target (h : Displacing ns ino xino old new) (ht : Linkable ns xino tmp)
    (hdir : tmp.1 = new.1) : Unlinkable (parked ns xino tmp) new xino := by
  obtain ⟨d, hd, hrep, _⟩ := ht.dir
  obtain ⟨n, hn, _⟩ := h.node
  have hne := h.tmp_ne_new ht.absent
  refine ⟨by rw [link_entry_of_ne hne.symm]; exact h.target, h.targetUser,
    ⟨d, by rw [← hdir]; exact hd, hrep⟩, n, hn, Or.inr ⟨tmp, (h.other_tmp_new ht.absent).link, ?_⟩⟩
  rw [link_entry_self, h.wellFormed.mftNo _ _ hn]

theorem linkable_new (h : Displacing ns ino xino old new) (ht : Linkable ns xino tmp)
    (hdir : tmp.1 = new.1) {r : UInt64} :
    Linkable (vacated ns xino new tmp) r new ↔ (∃ n, ns.node r = some n) ∧ r ≠ new.1 := by
  constructor
  · exact fun hl => ⟨hl.node, hl.apart⟩
  · rintro ⟨hn, hapart⟩
    exact ⟨h.wellFormed.named _ _ h.target, h.wellFormed.short _ _ h.target, hapart, hn,
      by rw [← hdir]; exact ht.dir, unlink_entry_self⟩

theorem vacated_old (h : Displacing ns ino xino old new) (ht : ns.entry tmp = none) :
    (vacated ns xino new tmp).entry old = some ino := by
  rw [unlink_entry_of_other h.other_old.link, link_entry_of_ne (h.tmp_ne_old ht).symm]
  exact h.source

theorem vacated_tmp (h : Displacing ns ino xino old new) (ht : ns.entry tmp = none) :
    (vacated ns xino new tmp).entry tmp = some xino := by
  rw [unlink_entry_of_other (h.other_tmp_new ht).link, link_entry_self]

/-- The temporary name never has an alias. -/
theorem parked_pair (h : Displacing ns ino xino old new) (ht : ns.entry tmp = none) :
    (parked ns xino tmp).pair tmp = tmp :=
  h.wellFormed.pairFree tmp ht

theorem vacated_pair (h : Displacing ns ino xino old new) (ht : ns.entry tmp = none) :
    (vacated ns xino new tmp).pair tmp = tmp := by
  rw [unlink_pair_of_other (h.other_tmp_new ht).link]
  exact h.parked_pair ht

theorem vacated_cleaned (h : Displacing ns ino xino old new) (ht : ns.entry tmp = none) :
    (vacated ns xino new tmp).unlink tmp = ns.unlink new := by
  have hothers := other_of_free h.wellFormed ht (h.tmp_ne_new ht).symm
  rw [unlink_comm hothers.2.link hothers.1.link, unlink_link (h.wellFormed.pairFree tmp ht) ht]

theorem linked_cleaned (h : Displacing ns ino xino old new) (ht : ns.entry tmp = none) {r : UInt64} :
    ((vacated ns xino new tmp).link new r).unlink tmp = (ns.unlink new).link new r := by
  rw [unlink_link_comm (other_of_ne (h.vacated_pair ht) (h.tmp_ne_new ht).symm),
    h.vacated_cleaned ht]

theorem taken_old (h : Displacing ns ino xino old new) (ht : ns.entry tmp = none) :
    (taken ns ino xino new tmp).entry old = some ino := by
  rw [link_entry_of_ne h.old_ne_new]
  exact h.vacated_old ht

theorem taken_tmp (h : Displacing ns ino xino old new) (ht : ns.entry tmp = none) :
    (taken ns ino xino new tmp).entry tmp = some xino := by
  rw [link_entry_of_ne (h.tmp_ne_new ht)]
  exact h.vacated_tmp ht

theorem unlinkable_old (h : Displacing ns ino xino old new) (ht : ns.entry tmp = none)
    {n : NtfsInode} (hn : ns.node ino = some n) :
    Unlinkable (taken ns ino xino new tmp) old ino ↔
      ∃ d, ns.node old.1 = some d ∧ d.reparsePoint = false := by
  constructor
  · exact fun hu => hu.dir
  · intro hd
    have hother : (taken ns ino xino new tmp).Other old new :=
      h.taken_other (h.other_old.symm h.wellFormed)
    refine ⟨h.taken_old ht, h.user, hd, n, hn, Or.inr ⟨new, hother, ?_⟩⟩
    rw [link_entry_self, h.wellFormed.mftNo _ _ hn]

theorem unlinkable_new (h : Displacing ns ino xino old new) (ht : Linkable ns xino tmp)
    (hdir : tmp.1 = new.1) {n : NtfsInode} (hn : ns.node ino = some n) :
    Unlinkable (taken ns ino xino new tmp) new ino := by
  obtain ⟨d, hd, hrep, _⟩ := ht.dir
  refine ⟨link_entry_self, h.user, ⟨d, by rw [← hdir]; exact hd, hrep⟩, n, hn,
    Or.inr ⟨old, (other_of_ne unlink_pair_self h.old_ne_new).link, ?_⟩⟩
  rw [h.taken_old ht.absent, h.wellFormed.mftNo _ _ hn]

/-- The temporary name can be removed from any namespace that has it, as long as nothing was put
into the displaced directory. -/
theorem unlinkable_tmp (h : Displacing ns ino xino old new) (ht : Linkable ns xino tmp)
    {ns' : Namespace} (hnode : ns'.node = ns.node) (htmp : ns'.entry tmp = some xino)
    (hnew : ∀ k, k.1 ≠ new.1 → ns.entry k = none → ns'.entry k = none) :
    Unlinkable ns' tmp xino := by
  obtain ⟨d, hd, hrep, _⟩ := ht.dir
  obtain ⟨n, hn, hempty⟩ := h.node
  refine ⟨htmp, h.targetUser, ⟨d, by rw [hnode]; exact hd, hrep⟩, n, by rw [hnode]; exact hn,
    Or.inl ?_⟩
  intro hisdir u
  rw [h.wellFormed.mftNo _ _ hn]
  exact hnew (xino, u) (h.not_inside hn hisdir) (hempty hisdir u)

end Displacing

end Names

/-! ## Every outcome -/

/-- The source gets the new name, which is not in itself. -/
def OverLinks (sched : Schedule) (ns : Namespace) (ino newDir : UInt64) : Prop :=
  sched .linkOver = none ∧ (∃ n, ns.node ino = some n) ∧ ino ≠ newDir

/-- And loses its old one. -/
def OldUnlinks (sched : Schedule) (ns : Namespace) (oldDir : UInt64) : Prop :=
  sched .unlinkOldOver = none ∧ ∃ d, ns.node oldDir = some d ∧ d.reparsePoint = false

/-- The source takes the new name from the displaced record, and loses its old one. -/
structure MovesOver (sched : Schedule) (ns : Namespace) (ino oldDir newDir : UInt64) : Prop where
  vacated : sched .unlinkTarget = none
  moves : OverLinks sched ns ino newDir ∧ OldUnlinks sched ns oldDir

/-- The new name is taken away from the displaced record, the source is not moved, and the new name
is not given back: it could not be, or the source could not be made to leave it. -/
structure Stranded (sched : Schedule) (ns : Namespace) (ino oldDir newDir : UInt64) : Prop where
  vacated : sched .unlinkTarget = none
  stays : ¬ (OverLinks sched ns ino newDir ∧ OldUnlinks sched ns oldDir)
  kept : sched .restore ≠ none ∨ (OverLinks sched ns ino newDir ∧ sched .rollbackOver ≠ none)

theorem MovesOver.not_stranded {sched : Schedule} {ns : Namespace} {ino oldDir newDir : UInt64}
    (h : MovesOver sched ns ino oldDir newDir) : ¬ Stranded sched ns ino oldDir newDir :=
  fun hstr => hstr.stays h.moves

/-- What a call that fails after the temporary name was made leaves besides it: the new name was not
taken away, or it was given back, or the displaced record is stranded. -/
def FailsInto (sched : Schedule) (ns : Namespace) (ino xino oldDir : UInt64) (new tmp : Key)
    (left : Namespace → Prop) : Prop :=
  (sched .unlinkTarget ≠ none ∧ left (parked ns xino tmp)) ∨
    ((sched .unlinkTarget = none ∧ ¬ Stranded sched ns ino oldDir new.1) ∧
      left (restored ns xino new tmp)) ∨
    (Stranded sched ns ino oldDir new.1 ∧
      (left (vacated ns xino new tmp) ∨
        (OverLinks sched ns ino new.1 ∧ left (taken ns ino xino new tmp))))

section Outcomes

variable {lib : Libntfs σ} {V : View σ} {sched : Schedule} {ns : Namespace}
  {ino xino oldDir newDir : UInt64} {oldName newName tmpn : List UInt8} {ou nu tu : List UInt16}

/-- When the new name is free the record has it instead of the old one, or nothing changed, or the
record has both because it could not be taken back. -/
theorem renameToFree_outcomes (hL : Lawful lib V) (hwf : ns.WellFormed)
    (ho : lib.mbstoucs oldName = .ok ou) (hsource : ns.entry (oldDir, ou) = some ino)
    (huser : FILE_first_user ≤ ino) :
    Spec (V.Is ns) (renameToFree lib sched ino oldDir oldName newDir newName)
      (fun _ s => ∃ nu, lib.mbstoucs newName = .ok nu ∧
        (sched .linkNew = none ∧ Linkable ns ino (newDir, nu)) ∧
        (sched .unlinkOld = none ∧ Unlinkable (ns.link (newDir, nu) ino) (oldDir, ou) ino) ∧
        V.Is ((ns.link (newDir, nu) ino).unlink (oldDir, ou)) s)
      fun e s => e < 0 ∧ (V.Is ns s ∨ sched .rollbackNew ≠ none ∧ ∃ nu,
        Linkable ns ino (newDir, nu) ∧ V.Is (ns.link (newDir, nu) ino) s) := by
  unfold renameToFree
  cases hn : lib.mbstoucs newName with
  | error e =>
    refine Spec.bind (faulty_spec sched .linkNew
      (Spec.conseq_error (nfskDoLink_unconverted hL hn ns ino newDir true) ?_) ?_)
      fun _ _ hf => hf.2.elim
    · exact fun e s h => ⟨h.1, .inl h.2⟩
    · exact fun _ e s hs => ⟨negErrno_neg e, .inl hs⟩
  | ok nu =>
    refine Spec.bind (Spec.conseq_error (faulty_link hL hn ns ino newDir sched .linkNew)
      fun e s h => ⟨h.1.1, .inl h.2⟩) fun _ => ?_
    refine Spec.assume fun hlinks => ?_
    have hl := hlinks.2
    have hne : (oldDir, ou) ≠ (newDir, nu) := key_ne ns (by
      rw [hsource, hl.absent]
      exact Option.some_ne_none ino)
    have hold : (ns.link (newDir, nu) ino).entry (oldDir, ou) = some ino := by
      rw [link_entry_of_ne hne]
      exact hsource
    obtain ⟨hnewold, holdnew⟩ := other_of_free hwf hl.absent hne
    refine Spec.onFail (Spec.conseq_ok (faulty_unlink hL ho hold sched .unlinkOld) ?_) ?_
    · rintro _ s ⟨hunlinks, hdropped⟩
      exact ⟨nu, rfl, hlinks, hunlinks,
        hdropped.is_unlink ⟨(newDir, nu), holdnew.link, link_entry_self⟩⟩
    · rintro e s ⟨⟨he, _⟩, hs⟩
      obtain ⟨n, hino⟩ := hl.node
      obtain ⟨d, hd, hrep, _⟩ := hl.dir
      have hno := hwf.mftNo _ _ hino
      have hunlinkable : Unlinkable (ns.link (newDir, nu) ino) (newDir, nu) ino :=
        ⟨link_entry_self, huser, ⟨d, hd, hrep⟩, n, hino,
          Or.inr ⟨(oldDir, ou), hnewold.link, by rw [hno]; exact hold⟩⟩
      obtain ⟨hdone, hfaulted⟩ := final_unlink hL hn hunlinkable sched .rollbackNew hs
      by_cases hroll : sched .rollbackNew = none
      · -- the new name is taken away again
        have hback := (hdone hroll).is_unlink ⟨(oldDir, ou), hnewold.link, hold⟩
        rw [unlink_link (hwf.pairFree _ hl.absent) hl.absent] at hback
        exact ⟨he, .inl hback⟩
      · exact ⟨he, .inr ⟨hroll, nu, hl, hfaulted hroll⟩⟩

theorem moveOver_spec (hL : Lawful lib V) (ho : lib.mbstoucs oldName = .ok ou)
    (hn : lib.mbstoucs newName = .ok nu) (h : Displacing ns ino xino (oldDir, ou) (newDir, nu))
    (ht : Linkable ns xino (newDir, tu)) :
    Spec (V.Is (vacated ns xino (newDir, nu) (newDir, tu)))
      (moveOver lib sched ino oldDir oldName newDir newName)
      (fun _ s => (OverLinks sched ns ino newDir ∧ OldUnlinks sched ns oldDir) ∧
        V.Is ((taken ns ino xino (newDir, nu) (newDir, tu)).unlink (oldDir, ou)) s)
      fun e s => (e < 0 ∧ ¬ (OverLinks sched ns ino newDir ∧ OldUnlinks sched ns oldDir)) ∧
        ((¬ (OverLinks sched ns ino newDir ∧ sched .rollbackOver ≠ none) ∧
            V.Is (vacated ns xino (newDir, nu) (newDir, tu)) s) ∨
          ((OverLinks sched ns ino newDir ∧ sched .rollbackOver ≠ none) ∧
            V.Is (taken ns ino xino (newDir, nu) (newDir, tu)) s)) := by
  have hover : (sched .linkOver = none ∧
      Linkable (vacated ns xino (newDir, nu) (newDir, tu)) ino (newDir, nu)) ↔
      OverLinks sched ns ino newDir := and_congr_right' (h.linkable_new ht rfl)
  unfold moveOver
  refine Spec.bind (Spec.conseq_error (faulty_link hL hn _ ino newDir sched .linkOver) ?_) ?_
  · rintro e s ⟨⟨he, hnot⟩, hs⟩
    rw [hover] at hnot
    exact ⟨⟨he, fun hall => hnot hall.1⟩, Or.inl ⟨fun hall => hnot hall.1, hs⟩⟩
  intro _
  refine Spec.assume fun hlinked => ?_
  have hlinks := hover.mp hlinked
  obtain ⟨n, hino⟩ := hlinks.2.1
  have hold : (sched .unlinkOldOver = none ∧
      Unlinkable (taken ns ino xino (newDir, nu) (newDir, tu)) (oldDir, ou) ino) ↔
      OldUnlinks sched ns oldDir := and_congr_right' (h.unlinkable_old ht.absent hino)
  have hstays : (taken ns ino xino (newDir, nu) (newDir, tu)).NamedBut (oldDir, ou) ino :=
    ⟨(newDir, nu), h.taken_other (h.other_old.symm h.wellFormed), link_entry_self⟩
  refine Spec.onFail (Spec.conseq_ok
    (faulty_unlink hL ho (h.taken_old ht.absent) sched .unlinkOldOver) ?_) ?_
  · rintro _ s ⟨hunlinked, hdropped⟩
    exact ⟨⟨hlinks, hold.mp hunlinked⟩, hdropped.is_unlink hstays⟩
  · rintro e s ⟨⟨he, hnot⟩, hs⟩
    rw [hold] at hnot
    refine ⟨⟨he, fun hall => hnot hall.2⟩, ?_⟩
    obtain ⟨hdone, hfaulted⟩ := final_unlink hL hn (h.unlinkable_new ht rfl hino) sched
      .rollbackOver hs
    by_cases hroll : sched .rollbackOver = none
    · -- the source leaves the new name again
      refine Or.inl ⟨fun hall => hall.2 hroll, ?_⟩
      have hback := (hdone hroll).is_unlink ⟨(oldDir, ou),
        (other_of_ne unlink_pair_self h.old_ne_new).link, h.taken_old ht.absent⟩
      rwa [unlink_link unlink_pair_self unlink_entry_self] at hback
    · exact Or.inr ⟨⟨hlinks, hroll⟩, hfaulted hroll⟩

/-- With the new name given back unless that fails. -/
theorem restoring_spec (hL : Lawful lib V) (ho : lib.mbstoucs oldName = .ok ou)
    (hn : lib.mbstoucs newName = .ok nu) (h : Displacing ns ino xino (oldDir, ou) (newDir, nu))
    (ht : Linkable ns xino (newDir, tu)) (hvacated : sched .unlinkTarget = none) :
    Spec (V.Is (vacated ns xino (newDir, nu) (newDir, tu)))
      (onFail (moveOver lib sched ino oldDir oldName newDir newName)
        (faulty sched .restore (nfskDoLink lib xino newDir newName true)))
      (fun _ s => (OverLinks sched ns ino newDir ∧ OldUnlinks sched ns oldDir) ∧
        V.Is ((taken ns ino xino (newDir, nu) (newDir, tu)).unlink (oldDir, ou)) s)
      fun e s => (e < 0 ∧ ¬ (OverLinks sched ns ino newDir ∧ OldUnlinks sched ns oldDir)) ∧
        FailsInto sched ns ino xino oldDir (newDir, nu) (newDir, tu) fun ns' => V.Is ns' s := by
  refine Spec.onFail (moveOver_spec hL ho hn h ht) ?_
  rintro e s ⟨⟨he, hstays⟩, hcases⟩
  refine ⟨⟨he, hstays⟩, Or.inr ?_⟩
  cases hcases with
  | inl hvac =>
    obtain ⟨hnot, hs⟩ := hvac
    obtain ⟨n, hx, _⟩ := h.node
    have hlinkable := (h.linkable_new ht rfl).mpr ⟨⟨n, hx⟩, h.target_apart⟩
    obtain ⟨hdone, hfaulted⟩ := final_link hL hn hlinkable sched .restore hs
    by_cases hrestore : sched .restore = none
    · refine Or.inl ⟨⟨hvacated, fun hstr => ?_⟩, hdone hrestore⟩
      cases hstr.kept with
      | inl hne => exact hne hrestore
      | inr hall => exact hnot hall
    · exact Or.inr ⟨⟨hvacated, hstays, Or.inl hrestore⟩, Or.inl (hfaulted hrestore)⟩
  | inr htaken =>
    -- the source is still there, so the name cannot be given back
    obtain ⟨hroll, hs⟩ := htaken
    refine Or.inr ⟨⟨hvacated, hstays, Or.inr hroll⟩, Or.inr ⟨hroll.1, ?_⟩⟩
    refine Spec.final (I := V.Is _) (Spec.conseq
      (faulty_link hL hn _ xino newDir sched .restore) ?_ fun _ _ h => h.2) hs
    rintro _ s' ⟨⟨_, hl⟩, _⟩
    have habsent := hl.absent
    rw [link_entry_self] at habsent
    cases habsent

/-- What is done between the two steps on the temporary name. -/
theorem replacing_spec (hL : Lawful lib V) (ho : lib.mbstoucs oldName = .ok ou)
    (hn : lib.mbstoucs newName = .ok nu) (h : Displacing ns ino xino (oldDir, ou) (newDir, nu))
    (ht : Linkable ns xino (newDir, tu)) :
    Spec (V.Is (parked ns xino (newDir, tu)))
      (faulty sched .unlinkTarget (nfskDoUnlink lib newDir newName) >>= fun _ =>
        onFail (moveOver lib sched ino oldDir oldName newDir newName)
          (faulty sched .restore (nfskDoLink lib xino newDir newName true)))
      (fun _ s => MovesOver sched ns ino oldDir newDir ∧
        V.Is ((taken ns ino xino (newDir, nu) (newDir, tu)).unlink (oldDir, ou)) s)
      fun e s => (e < 0 ∧ ¬ MovesOver sched ns ino oldDir newDir) ∧
        FailsInto sched ns ino xino oldDir (newDir, nu) (newDir, tu) fun ns' => V.Is ns' s := by
  have hunlinkable := h.unlinkable_target ht rfl
  have hparked : (parked ns xino (newDir, tu)).NamedBut (newDir, nu) xino :=
    ⟨(newDir, tu), (h.other_tmp_new ht.absent).link, link_entry_self⟩
  refine Spec.bind (Q := fun _ s => sched .unlinkTarget = none ∧
    V.Is (vacated ns xino (newDir, nu) (newDir, tu)) s)
    (Spec.conseq (faulty_unlink hL hn hunlinkable.entry sched .unlinkTarget) ?_ ?_) ?_
  · rintro _ s ⟨hdone, hdropped⟩
    exact ⟨hdone.1, hdropped.is_unlink hparked⟩
  · rintro e s ⟨⟨he, hnot⟩, hs⟩
    exact ⟨⟨he, fun hmoves => hnot ⟨hmoves.vacated, hunlinkable⟩⟩,
      Or.inl ⟨fun hvacated => hnot ⟨hvacated, hunlinkable⟩, hs⟩⟩
  · intro _
    refine Spec.assume fun hvacated => ?_
    refine Spec.conseq (restoring_spec hL ho hn h ht hvacated) ?_ ?_
    · rintro _ s ⟨hmoves, hs⟩
      exact ⟨⟨hvacated, hmoves⟩, hs⟩
    · rintro e s ⟨⟨he, hstays⟩, hcases⟩
      exact ⟨⟨he, fun hmoves => hstays hmoves.moves⟩, hcases⟩

/-- The temporary name is removed unless that step fails. -/
def Cleaned (V : View σ) (sched : Schedule) (ns : Namespace) (tmp : Key) (x : UInt64) (s : σ) :
    Prop :=
  (sched .cleanup = none → Dropped V ns tmp x s) ∧ (sched .cleanup ≠ none → V.Is ns s)

/-- There is a temporary name to be had. -/
def TmpLinks (lib : Libntfs σ) (sched : Schedule) (ns : Namespace) (xino newDir : UInt64)
    (tmpn : List UInt8) : Prop :=
  sched .linkTmp = none ∧ ∃ tu, lib.mbstoucs tmpn = .ok tu ∧ Linkable ns xino (newDir, tu)

theorem displace_fails (hL : Lawful lib V) (ns : Namespace)
    (hno : ¬ TmpLinks lib sched ns xino newDir tmpn) :
    Spec (V.Is ns) (displace lib sched ino xino oldDir oldName newDir newName tmpn)
      (fun _ _ => False) fun e s => e < 0 ∧ V.Is ns s := by
  unfold displace
  refine Spec.bind (Q := fun _ _ => False) ?_ fun _ _ hf => hf.elim
  cases hu : lib.mbstoucs tmpn with
  | error e =>
    refine Spec.conseq_ok
      (faulty_spec sched .linkTmp (nfskDoLink_unconverted hL hu ns xino newDir true) ?_)
      fun _ _ h => h.2
    exact fun _ e s hs => ⟨negErrno_neg e, hs⟩
  | ok tu =>
    refine Spec.conseq (faulty_link hL hu ns xino newDir sched .linkTmp) ?_ ?_
    · rintro _ s ⟨⟨hsched, hl⟩, _⟩
      exact hno ⟨hsched, tu, hu, hl⟩
    · rintro e s ⟨⟨he, _⟩, hs⟩
      exact ⟨he, hs⟩

theorem displace_outcomes (hL : Lawful lib V) (ho : lib.mbstoucs oldName = .ok ou)
    (hn : lib.mbstoucs newName = .ok nu) (hu : lib.mbstoucs tmpn = .ok tu)
    (h : Displacing ns ino xino (oldDir, ou) (newDir, nu)) (hsched : sched .linkTmp = none)
    (ht : Linkable ns xino (newDir, tu)) :
    Spec (V.Is ns) (displace lib sched ino xino oldDir oldName newDir newName tmpn)
      (fun _ s => MovesOver sched ns ino oldDir newDir ∧
        Cleaned V sched ((taken ns ino xino (newDir, nu) (newDir, tu)).unlink (oldDir, ou))
          (newDir, tu) xino s)
      fun e s => (e < 0 ∧ ¬ MovesOver sched ns ino oldDir newDir) ∧
        FailsInto sched ns ino xino oldDir (newDir, nu) (newDir, tu) fun ns' =>
          Cleaned V sched ns' (newDir, tu) xino s := by
  have hclean : ∀ {ns' : Namespace} {s : σ}, ns'.node = ns.node →
      ns'.entry (newDir, tu) = some xino →
      (∀ k, k.1 ≠ newDir → ns.entry k = none → ns'.entry k = none) → V.Is ns' s →
      Cleaned V sched ns' (newDir, tu) xino
        (final (faulty sched .cleanup (nfskDoUnlink lib newDir tmpn) s)) :=
    fun hnode htmp hnew hs =>
      final_unlink hL hu (h.unlinkable_tmp ht hnode htmp hnew) sched .cleanup hs
  have hparked : ∀ k : Key, k.1 ≠ newDir → ns.entry k = none →
      (parked ns xino (newDir, tu)).entry k = none := by
    intro k hk hnone
    rw [link_entry_of_ne (by rintro rfl; exact hk rfl)]
    exact hnone
  have hvac : ∀ k : Key, k.1 ≠ newDir → ns.entry k = none →
      (vacated ns xino (newDir, nu) (newDir, tu)).entry k = none :=
    fun k hk hnone => unlink_entry_none (hparked k hk hnone)
  have hlinked : ∀ r, ∀ k : Key, k.1 ≠ newDir → ns.entry k = none →
      ((vacated ns xino (newDir, nu) (newDir, tu)).link (newDir, nu) r).entry k = none := by
    intro r k hk hnone
    rw [link_entry_of_ne (by rintro rfl; exact hk rfl)]
    exact hvac k hk hnone
  have htmpn : ∀ r, ((vacated ns xino (newDir, nu) (newDir, tu)).link (newDir, nu) r).entry
      (newDir, tu) = some xino := by
    intro r
    rw [link_entry_of_ne (h.tmp_ne_new ht.absent)]
    exact h.vacated_tmp ht.absent
  unfold displace
  refine Spec.bind (Q := fun _ => V.Is (parked ns xino (newDir, tu)))
    (Spec.conseq (faulty_link hL hu ns xino newDir sched .linkTmp) ?_ ?_) ?_
  · exact fun _ s hs => hs.2
  · rintro e s ⟨⟨_, hnot⟩, _⟩
    exact absurd ⟨hsched, ht⟩ hnot
  intro _
  refine Spec.afterwards (replacing_spec hL ho hn h ht) ?_ ?_
  · rintro _ s ⟨hmoves, hs⟩
    refine ⟨hmoves, hclean rfl ?_ (fun k hk hnone => unlink_entry_none (hlinked ino k hk hnone)) hs⟩
    rw [unlink_entry_of_other (h.taken_other (h.other_tmp_old ht.absent))]
    exact h.taken_tmp ht.absent
  · rintro e s ⟨he, hcases⟩
    refine ⟨he, ?_⟩
    obtain ⟨hstep, hs⟩ | ⟨hback, hs⟩ | ⟨hstr, hs | ⟨hover, hs⟩⟩ := hcases
    · exact Or.inl ⟨hstep, hclean rfl link_entry_self hparked hs⟩
    · exact Or.inr (Or.inl ⟨hback, hclean rfl (htmpn xino) (hlinked xino) hs⟩)
    · exact Or.inr (Or.inr ⟨hstr, Or.inl (hclean rfl (h.vacated_tmp ht.absent) hvac hs)⟩)
    · exact Or.inr (Or.inr ⟨hstr,
        Or.inr ⟨hover, hclean rfl (htmpn ino) (hlinked ino) hs⟩⟩)

/-! ## Up to the steps -/

/-- The arguments are no metadata and the old name refers to a record that may be renamed. -/
structure Starts (lib : Libntfs σ) (ns : Namespace) (oldDir : UInt64) (oldName : List UInt8)
    (newDir ino : UInt64) (ou : List UInt16) : Prop where
  old : oldDir ≠ FILE_Extend
  new : newDir ≠ FILE_Extend
  converts : lib.mbstoucs oldName = .ok ou
  source : ns.entry (oldDir, ou) = some ino
  user : FILE_first_user ≤ ino

/-- The call, by what the two names stand for. -/
theorem nfskRename_spec (hL : Lawful lib V) {renameSeq : Nat} {Q : Unit → σ → Prop}
    {E : Int → σ → Prop}
    (hfree : ∀ ino ou, Starts lib ns oldDir oldName newDir ino ou →
      (∀ nu, lib.mbstoucs newName = .ok nu → ns.entry (newDir, nu) = none) →
      Spec (V.Is ns) (renameToFree lib sched ino oldDir oldName newDir newName) Q E)
    (htaken : ∀ ino ou xino nu, Starts lib ns oldDir oldName newDir ino ou →
      lib.mbstoucs newName = .ok nu → ns.entry (newDir, nu) = some xino →
      Spec (V.Is ns) (if xino = ino then pure ()
        else replaceTarget lib sched renameSeq ino xino oldDir oldName newDir newName) Q E)
    (hrefused : (∀ ino ou, ¬ Starts lib ns oldDir oldName newDir ino ou) ∨ ns.node newDir = none →
      ∀ e s, e < 0 → V.Is ns s → E e s) :
    Spec (V.Is ns) (nfskRenameImpl lib sched renameSeq oldDir oldName newDir newName) Q E := by
  refine spec_wellFormed fun hwf => ?_
  unfold nfskRenameImpl
  refine Spec.guard (fun hext s hs => hrefused (Or.inl fun _ _ h => ?_) _ s (by decide) hs)
    fun hext => ?_
  · cases hext with
    | inl heq => exact h.old heq
    | inr heq => exact h.new heq
  rw [not_or] at hext
  refine Spec.bind (Spec.conseq_error (findMft_spec hL ns oldDir oldName) ?_) ?_
  · rintro e s ⟨⟨he, hnone⟩, hs⟩
    refine hrefused (Or.inl fun ino ou h => ?_) e s he hs
    obtain ⟨n, hn, _⟩ := hwf.directory _ _ h.source
    rw [hnone] at hn
    cases hn
  intro r
  refine Spec.assume fun hfound => ?_
  cases r with
  | error e =>
    refine Spec.throw fun s hs => hrefused (Or.inl fun ino ou h => ?_) _ s (by decide) hs
    have hsource := h.source
    rw [hfound ou h.converts] at hsource
    cases hsource
  | ok iref =>
    obtain ⟨ou, hou, hsource⟩ := hfound
    simp only
    by_cases huser : MREF iref < FILE_first_user
    · have hsmall : ∀ ino ou, ¬ Starts lib ns oldDir oldName newDir ino ou := by
        intro ino ou' h
        have hou' := h.converts
        rw [hou] at hou'
        cases hou'
        have hino := h.source
        rw [hsource] at hino
        cases hino
        exact absurd huser (UInt64.not_lt.mpr h.user)
      by_cases hle : MREF iref ≤ 1
      · rw [if_pos hle]
        exact Spec.throw fun s hs => hrefused (Or.inl hsmall) _ s (by decide) hs
      · rw [if_neg hle, if_pos huser]
        exact Spec.throw fun s hs => hrefused (Or.inl hsmall) _ s (by decide) hs
    have hle : ¬ MREF iref ≤ 1 := fun hle => huser (UInt64.lt_of_le_of_lt hle (by decide))
    rw [if_neg hle, if_neg huser]
    have hstarts : Starts lib ns oldDir oldName newDir (MREF iref) ou :=
      ⟨hext.1, hext.2, hou, hsource, UInt64.not_lt.mp huser⟩
    refine Spec.bind (Spec.conseq_error (findMft_spec hL ns newDir newName)
      fun e s h => hrefused (Or.inr h.1.2) e s h.1.1 h.2) ?_
    intro r
    refine Spec.assume fun hfound => ?_
    cases r with
    | error e => exact hfree _ ou hstarts hfound
    | ok xiref =>
      obtain ⟨nu, hnu, htarget⟩ := hfound
      exact htaken _ ou _ nu hstarts hnu htarget

/-- The checks on the arguments and on what is displaced are passed, and a name is allocated. -/
structure Proceeds (sched : Schedule) (ns : Namespace) (ino xino oldDir newDir : UInt64) : Prop where
  old : oldDir ≠ FILE_Extend
  new : newDir ≠ FILE_Extend
  user : FILE_first_user ≤ ino
  node : ∃ n, ns.node xino = some n ∧ (n.isDirectory = true → ns.Empty xino)
  malloc : sched .malloc = none

theorem replaceTarget_spec (hL : Lawful lib V) {renameSeq : Nat} {Q : Unit → σ → Prop}
    {E : Int → σ → Prop}
    (hdone : (∃ n, ns.node xino = some n ∧ (n.isDirectory = true → ns.Empty xino)) →
      sched .malloc = none → Spec (V.Is ns)
        (displace lib sched ino xino oldDir oldName newDir newName (tmpName newName (renameSeq + 1)))
        Q E)
    (hnot : ¬ ((∃ n, ns.node xino = some n ∧ (n.isDirectory = true → ns.Empty xino)) ∧
      sched .malloc = none) → ∀ e s, e < 0 → V.Is ns s → E e s) :
    Spec (V.Is ns) (replaceTarget lib sched renameSeq ino xino oldDir oldName newDir newName)
      Q E := by
  refine spec_wellFormed fun hwf => ?_
  unfold replaceTarget
  refine Spec.bind_orFail (hL.inodeOpen ns xino) ?_ ?_
  · rintro e s ⟨hnone, hs⟩
    refine hnot ?_ _ s (negErrno_neg e) hs
    rintro ⟨⟨n, hn, _⟩, _⟩
    rw [hnone] at hn
    cases hn
  intro n
  refine Spec.assume fun hn => ?_
  have hcheck := hL.checkEmptyDir ns n
  rw [hwf.mftNo _ _ hn] at hcheck
  refine Spec.bind_attempt hcheck ?_ ?_
  · intro _
    refine Spec.assume fun hempty => ?_
    refine Spec.bind_orFail (hL.inodeClose ns n) (fun _ _ hf => hf.elim) ?_
    intro _
    refine Spec.bind (Spec.conseq_error (faulty_spec sched .malloc
      (Spec.pure (Q := fun _ => V.Is ns) (E := fun e s => sched .malloc ≠ none ∧ e < 0 ∧ V.Is ns s)
        fun s hs => hs) ?_) ?_) ?_
    · exact fun hsched e s hs => ⟨hsched, negErrno_neg e, hs⟩
    · rintro e s ⟨hsched, he, hs⟩
      exact hnot (fun hall => hsched hall.2) e s he hs
    · exact fun _ => Spec.assume fun hsched => hdone ⟨n, hn, hempty⟩ hsched
  · intro e
    refine Spec.assume fun hocc => ?_
    refine Spec.bind_orFail (hL.inodeClose ns n) (fun _ _ hf => hf.elim) ?_
    intro _
    refine Spec.throw fun s hs => hnot ?_ _ s (negErrno_neg e) hs
    rintro ⟨⟨n', hn', hempty⟩, _⟩
    rw [hn] at hn'
    cases hn'
    exact hocc hempty

/-- The call for a new name that is taken by another record. -/
theorem nfskRename_taken (hL : Lawful lib V) {renameSeq : Nat} {Q : Unit → σ → Prop}
    {E : Int → σ → Prop} (ho : lib.mbstoucs oldName = .ok ou) (hn : lib.mbstoucs newName = .ok nu)
    (hsource : ns.entry (oldDir, ou) = some ino) (htarget : ns.entry (newDir, nu) = some xino)
    (hne : xino ≠ ino)
    (hdone : Proceeds sched ns ino xino oldDir newDir → Spec (V.Is ns)
        (displace lib sched ino xino oldDir oldName newDir newName (tmpName newName (renameSeq + 1)))
        Q E)
    (hnot : ¬ Proceeds sched ns ino xino oldDir newDir → ∀ e s, e < 0 → V.Is ns s → E e s) :
    Spec (V.Is ns) (nfskRenameImpl lib sched renameSeq oldDir oldName newDir newName) Q E := by
  refine spec_wellFormed fun hwf => nfskRename_spec hL ?_ ?_ ?_
  · intro ino' ou' _ hfree
    rw [hfree nu hn] at htarget
    cases htarget
  · intro ino' ou' xino' nu' hstarts hn' htarget'
    have hou := hstarts.converts
    rw [ho] at hou
    cases hou
    have hino := hstarts.source
    rw [hsource] at hino
    cases hino
    rw [hn] at hn'
    cases hn'
    rw [htarget] at htarget'
    cases htarget'
    rw [if_neg hne]
    refine replaceTarget_spec hL ?_ ?_
    · intro hnode hmalloc
      exact hdone ⟨hstarts.old, hstarts.new, hstarts.user, hnode, hmalloc⟩
    · exact fun h => hnot fun hp => h ⟨hp.node, hp.malloc⟩
  · intro hno
    refine hnot fun hp => ?_
    cases hno with
    | inl hno => exact hno ino ou ⟨hp.old, hp.new, ho, hsource, hp.user⟩
    | inr hnone =>
      obtain ⟨n, hd, _⟩ := hwf.directory _ _ htarget
      rw [hnone] at hd
      cases hd

end Outcomes

end Ntfs
end Usbrw
