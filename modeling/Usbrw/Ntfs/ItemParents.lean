import Usbrw.Base.Run
import Usbrw.Ntfs.Atomic
import Usbrw.Ntfs.Items
import Usbrw.Ntfs.Metadata
import Usbrw.Ntfs.Steps

/-!
# Ntfs.ItemParents

Whether a volume's items report the directory they are in.

* `Fits`      — what has one name has an item for the directory of that name, if it has one.
* `Misplaces` — a call after which that is no longer so.
-/

namespace Usbrw
namespace Ntfs

open Call Namespace Run

variable {σ : Type}

abbrev ItemCache : Type := UInt64 → Option NTFSItem

/-- `k` is the one name of `r`, its alias aside. -/
def OnlyName (ns : Namespace) (k : Key) (r : UInt64) : Prop :=
  ns.entry k = some r ∧ ¬ ns.NamedBut k r

/-- The record has an item for another directory. -/
def Stale (cache : ItemCache) (r d : UInt64) : Prop := ∃ it, cache r = some it ∧ it.parentMFT ≠ d

def Fits (cache : ItemCache) (ns : Namespace) : Prop :=
  ∀ k r, r ≠ rootMFT → OnlyName ns k r → ¬ Stale cache r k.1

/-- The name `k` goes from `r`, and the one that stays is in another directory than the item's. -/
def Strips (cache : ItemCache) (ns : Namespace) (k : Key) (r : UInt64) : Prop :=
  ∃ k', OnlyName (ns.unlink k) k' r ∧ Stale cache r k'.1

/-! ## Names come and go -/

section Names

variable {cache : ItemCache} {V : View σ} {ns ns' : Namespace} {k k' : Key} {r : UInt64}

theorem ne_root_of_user (h : FILE_first_user ≤ r) : r ≠ rootMFT := by
  rintro rfl
  exact absurd h (by decide)

theorem OnlyName.eq_or (h : OnlyName ns k r) (hk : ns.entry k' = some r) :
    k' = k ∨ k' = ns.pair k := by
  by_contra hnot
  exact h.2 ⟨k', not_or.mp hnot, hk⟩

/-- A name without an alias. -/
theorem OnlyName.eq (h : OnlyName ns k r) (hwf : ns.WellFormed) (hp : ns.pair k' = k')
    (hk : ns.entry k' = some r) : k' = k := by
  rcases h.eq_or hk with heq | heq
  · exact heq
  · rw [← hp, heq, hwf.pairPair]

theorem OnlyName.dir_eq (h : OnlyName ns k r) (hwf : ns.WellFormed) (hk : ns.entry k' = some r) :
    k'.1 = k.1 := by
  rcases h.eq_or hk with rfl | rfl
  · rfl
  · exact hwf.pairDir k

theorem OnlyName.of_same (h : OnlyName ns' k r) (hpair : ns'.pair k = ns.pair k)
    (hsame : ∀ k', ns'.entry k' = some r ↔ ns.entry k' = some r) : OnlyName ns k r := by
  refine ⟨(hsame k).mp h.1, fun hbut => h.2 ?_⟩
  obtain ⟨k', hother, hk'⟩ := hbut
  exact ⟨k', ⟨hother.1, by rw [hpair]; exact hother.2⟩, (hsame k').mpr hk'⟩

/-- A new entry that is not for the record. -/
theorem same_of_update {o : Option UInt64} (hold : ns.entry k ≠ some r) (hnew : o ≠ some r)
    (he : ns'.entry = Function.update ns.entry k o) (k' : Key) :
    ns'.entry k' = some r ↔ ns.entry k' = some r := by
  rw [he]
  by_cases hk : k' = k
  · rw [hk, Function.update_self]
    exact iff_of_false hnew hold
  · rw [Function.update_of_ne hk]

/-- A name that goes and is not the record's. -/
theorem other_of_unlink (hwf : ns.WellFormed) (hold : ns.entry k ≠ some r)
    (hk' : ns.entry k' = some r) : ns.Other k k' := by
  refine other_of_entry hwf ?_
  rw [hk']
  exact hold.symm

theorem same_of_unlink (hwf : ns.WellFormed) (hold : ns.entry k ≠ some r) (k' : Key) :
    (ns.unlink k).entry k' = some r ↔ ns.entry k' = some r :=
  unlink_entry_iff.trans (and_iff_right_of_imp (other_of_unlink hwf hold))

theorem OnlyName.of_unlink (h : OnlyName (ns.unlink k) k' r) (hwf : ns.WellFormed)
    (hold : ns.entry k ≠ some r) : OnlyName ns k' r :=
  h.of_same (unlink_pair_of_other (unlink_entry_iff.mp h.1).1) (same_of_unlink hwf hold)

theorem Fits.of_free (h : Fits cache ns) : Fits cache (ns.free r) :=
  fun k r' hroot honly => h k r' hroot honly

/-- A record that has two names is not looked at. -/
theorem Fits.link (h : Fits cache ns) (hwf : ns.WellFormed) (habsent : ns.entry k = none)
    (hr : ns.Named r) : Fits cache (ns.link k r) := by
  intro k' r' hroot honly
  by_cases hrr : r' = r
  · rw [hrr] at honly
    obtain ⟨k₀, hk₀⟩ := hr
    have hne : k₀ ≠ k := key_ne ns (by
      rw [hk₀, habsent]
      exact Option.some_ne_none r)
    have hp := hwf.pairFree k habsent
    -- the new name has no alias, so it is the one name, and the other is not its alias
    have hnew : k' = k := by
      rcases honly.eq_or link_entry_self with heq | heq
      · exact heq.symm
      · rw [← hp, heq, link_pair, hwf.pairPair]
    rcases honly.eq_or (by rwa [link_entry_of_ne hne]) with heq | heq
    · exact absurd (heq.trans hnew) hne
    · rw [link_pair, hnew, hp] at heq
      exact absurd heq hne
  · have hnew : some r ≠ some r' := fun heq => hrr (Option.some.inj heq).symm
    exact h k' r' hroot (honly.of_same rfl (same_of_update (by simp [habsent]) hnew rfl))

theorem Fits.unlink (h : Fits cache ns) (hwf : ns.WellFormed) (hk : ns.entry k = some r)
    (hno : ¬ Strips cache ns k r) : Fits cache (ns.unlink k) := by
  intro k' r' hroot honly
  by_cases hrr : r' = r
  · rw [hrr] at honly ⊢
    exact fun hstale => hno ⟨k', honly, hstale⟩
  · have hold : ns.entry k ≠ some r' := by
      rw [hk]
      exact fun heq => hrr (Option.some.inj heq).symm
    exact h k' r' hroot (honly.of_unlink hwf hold)

/-- A record that has got a new name and loses an old one is found under the new name only if it has
no other. -/
theorem Strips.of_new {old new : Key} (h : Strips cache ns' old r) (ns : Namespace)
    (hinv : Function.Involutive ns'.pair) (hp : ns'.pair new = new) (hne : new ≠ old)
    (hpold : ns'.pair old = ns.pair old) (hnew : ns'.entry new = some r)
    (hfree : ns.entry new ≠ some r)
    (hsame : ∀ k, k ≠ new → (ns'.entry k = some r ↔ ns.entry k = some r)) :
    ¬ ns.NamedBut old r ∧ Stale cache r new.1 := by
  obtain ⟨k, honly, hstale⟩ := h
  have hother : ns'.Other old new := ⟨hne, fun heq => hne (by rw [← hinv old, ← heq, hp])⟩
  have hpnew : (ns'.unlink old).pair new = new := (unlink_pair_of_other hother).trans hp
  have hk : new = k := by
    rcases honly.eq_or (unlink_entry_iff.mpr ⟨hother, hnew⟩) with heq | heq
    · exact heq
    · have hkother := (unlink_entry_iff.mp honly.1).1
      rw [unlink_pair_of_other hkother] at heq
      rw [← hinv k, ← heq, hp]
  rw [← hk] at hstale honly
  refine ⟨fun hbut => ?_, hstale⟩
  obtain ⟨k', hk', hentry⟩ := hbut
  have hknew : k' ≠ new := by
    rintro rfl
    exact hfree hentry
  have hleft : (ns'.unlink old).entry k' = some r :=
    unlink_entry_iff.mpr ⟨⟨hk'.1, by rw [hpold]; exact hk'.2⟩, (hsame k' hknew).mpr hentry⟩
  rcases honly.eq_or hleft with heq | heq
  · exact hknew heq
  · exact hknew (heq.trans hpnew)

theorem Fits.dropped {s : σ} (h : Fits cache (ns.unlink k)) (hd : Dropped V ns k r s) :
    V.Has (Fits cache) s := by
  rcases hd with ⟨_, hs⟩ | ⟨_, hs⟩
  · exact hs.has h
  · exact hs.has h.of_free

/-- The first name of a record is in the directory its item is for, if it has one. -/
theorem Fits.created {n : NtfsInode} (h : Fits cache ns) (hwf : ns'.WellFormed)
    (hnew : Created ns k n ns') (hno : ¬ Stale cache n.mftNo k.1) : Fits cache ns' := by
  intro k' r' hroot honly
  by_cases hr : r' = n.mftNo
  · rw [hr] at honly ⊢
    rw [← honly.dir_eq hwf (by rw [hnew.eq, create_entry_self])]
    exact hno
  · have hother : some n.mftNo ≠ some r' := fun heq => hr (Option.some.inj heq).symm
    rw [hnew.eq] at honly
    exact h k' r' hroot (honly.of_same rfl (same_of_update (by simp [hnew.absent]) hother rfl))

/-- An item for a directory in which the record has a name. -/
theorem Fits.item {v : NTFSVolume σ} {d : UInt64} {u : List UInt16} (h : Fits v.itemCache ns)
    (hwf : ns.WellFormed) (hk : ns.entry (d, u) = some r) :
    Fits (v.item r d).2.itemCache ns := by
  unfold NTFSVolume.item
  cases hr : v.itemCache r with
  | some it => exact h
  | none =>
    intro k' r' hroot honly hstale
    obtain ⟨it, hit, hne⟩ := hstale
    by_cases hrr : r' = r
    · rw [hrr] at hit honly
      simp only [Function.update_self, Option.some.injEq] at hit
      rw [← hit, ← honly.dir_eq hwf hk] at hne
      exact hne rfl
    · simp only [Function.update_of_ne hrr] at hit
      exact h k' r' hroot honly ⟨it, hit, hne⟩

end Names

/-! ## Which calls misplace an item -/

/-- The call made a record in the directory whose number has an item for another one. -/
def Reuses (V : View σ) (d : UInt64) (v v' : NTFSVolume σ) : Prop :=
  ∃ r, (V.names v.raw).node r = none ∧ (V.names v'.raw).node r ≠ none ∧ Stale v.itemCache r d

/-- The new name of a rename is free, and the source gets it for the old one. -/
structure MovesFree (lib : Libntfs σ) (sched : Schedule) (ns : Namespace) (oldDir newDir : UInt64)
    (newName : List UInt8) (ino : UInt64) : Prop where
  links : sched .linkNew = none ∧
    ∃ nu, lib.mbstoucs newName = .ok nu ∧ Linkable ns ino (newDir, nu)
  unlinks : sched .unlinkOld = none ∧ ∃ d, ns.node oldDir = some d ∧ d.reparsePoint = false

/-- The new name is `xino`'s, which can be displaced. -/
structure Replaces (lib : Libntfs σ) (sched : Schedule) (renameSeq : Nat) (ns : Namespace)
    (oldDir newDir : UInt64) (newName : List UInt8) (nu : List UInt16) (ino xino : UInt64) :
    Prop where
  converts : lib.mbstoucs newName = .ok nu
  target : ns.entry (newDir, nu) = some xino
  differ : xino ≠ ino
  targetUser : FILE_first_user ≤ xino
  proceeds : Proceeds sched ns ino xino oldDir newDir
  tmp : TmpLinks lib sched ns xino newDir (tmpName newName (renameSeq + 1))

/-- The source has no other name and an item for another directory than the new one. -/
def MovesAway (lib : Libntfs σ) (sched : Schedule) (renameSeq : Nat) (cache : ItemCache)
    (ns : Namespace) (oldDir : UInt64) (oldName : List UInt8) (newDir : UInt64)
    (newName : List UInt8) : Prop :=
  ∃ ino ou, Starts lib ns oldDir oldName newDir ino ou ∧ ¬ ns.NamedBut (oldDir, ou) ino ∧
    Stale cache ino newDir ∧
    (MovesFree lib sched ns oldDir newDir newName ino ∨
      ∃ nu xino, Replaces lib sched renameSeq ns oldDir newDir newName nu ino xino ∧
        MovesOver sched ns ino oldDir newDir)

/-- What had the new name loses it, and keeps one in another directory than its item's. -/
def Displaces (lib : Libntfs σ) (sched : Schedule) (renameSeq : Nat) (cache : ItemCache)
    (ns : Namespace) (oldDir : UInt64) (oldName : List UInt8) (newDir : UInt64)
    (newName : List UInt8) : Prop :=
  ∃ ino ou nu xino, Starts lib ns oldDir oldName newDir ino ou ∧
    Replaces lib sched renameSeq ns oldDir newDir newName nu ino xino ∧
    (MovesOver sched ns ino oldDir newDir ∨ Stranded sched ns ino oldDir newDir) ∧
    sched .cleanup = none ∧
    Strips cache ns (newDir, nu) xino

/-- Of the record's two names one is removed, and the other is in another directory than its
item's. -/
def Uncovers (lib : Libntfs σ) (cache : ItemCache) (ns : Namespace) (d : UInt64)
    (name : List UInt8) : Prop :=
  d ≠ FILE_Extend ∧ ∃ u r, lib.mbstoucs name = .ok u ∧ Unlinkable ns (d, u) r ∧
    Strips cache ns (d, u) r

/-- After the call the item of a record with one name is for another directory. -/
def Misplaces (lib : Libvolume σ) (V : View σ) (windowsNames : Bool) (v : NTFSVolume σ) :
    VolumeCall → Prop
  | .lookupItem .. => False
  | .createItem name type directory =>
    ∃ dir, directory = .ntfs dir ∧
      Reuses V dir.mft v (perform lib windowsNames v (.createItem name type directory))
  | .createSymbolicLink name directory contents =>
    ∃ dir, directory = .ntfs dir ∧
      Reuses V dir.mft v (perform lib windowsNames v (.createSymbolicLink name directory contents))
  | .removeItem _ name directory =>
    ∃ dir cname, directory = .ntfs dir ∧ name.string = some cname ∧
      Uncovers lib.toLibntfs v.itemCache (V.names v.raw) dir.mft (cString cname)
  | .renameItem sourceDirectory sourceName destinationName destinationDirectory sched renameSeq =>
    ∃ srcDir dstDir cold cnew, sourceDirectory = .ntfs srcDir ∧ destinationDirectory = .ntfs dstDir ∧
      sourceName.string = some cold ∧ destinationName.string = some cnew ∧
      (MovesAway lib.toLibntfs sched renameSeq v.itemCache (V.names v.raw) srcDir.mft (cString cold)
          dstDir.mft (cString cnew) ∨
        Displaces lib.toLibntfs sched renameSeq v.itemCache (V.names v.raw) srcDir.mft (cString cold)
          dstDir.mft (cString cnew))

/-! ## `nfsk_rename` -/

section Displaced

variable {cache : ItemCache} {V : View σ} {ns : Namespace} {ino xino : UInt64} {old new tmp : Key}
  {sched : Schedule}

theorem fits_parked (hfits : Fits cache ns) (h : Displacing ns ino xino old new)
    (ht : ns.entry tmp = none) : Fits cache (parked ns xino tmp) :=
  hfits.link h.wellFormed ht ⟨new, h.target⟩

/-- The temporary name is in the directory of the new one. -/
theorem fits_vacated (hfits : Fits cache ns) (h : Displacing ns ino xino old new)
    (ht : Linkable ns xino tmp) (hdir : tmp.1 = new.1) : Fits cache (vacated ns xino new tmp) := by
  have hne := h.tmp_ne_new ht.absent
  have hnew : (parked ns xino tmp).entry new = some xino := by
    rw [link_entry_of_ne hne.symm]
    exact h.target
  refine (fits_parked hfits h ht.absent).unlink (ht.wellFormed h.wellFormed) hnew fun hstrips => ?_
  obtain ⟨honly, hstale⟩ := hstrips.of_new ns h.wellFormed.pairPair (h.parked_pair ht.absent) hne
    rfl link_entry_self (by simp [ht.absent]) fun k hk => by rw [link_entry_of_ne hk]
  rw [hdir] at hstale
  exact hfits new xino (ne_root_of_user h.targetUser) ⟨h.target, honly⟩ hstale

/-- Whoever gets the new name has another one. -/
theorem fits_linked (hfits : Fits cache ns) (h : Displacing ns ino xino old new)
    (ht : Linkable ns xino tmp) (hdir : tmp.1 = new.1) {r : UInt64}
    (hr : (vacated ns xino new tmp).Named r) : Fits cache ((vacated ns xino new tmp).link new r) :=
  (fits_vacated hfits h ht hdir).link ((ht.wellFormed h.wellFormed).unlink new) unlink_entry_self hr

/-- The source is found in the directory of the new name. -/
theorem fits_moved (hfits : Fits cache ns) (h : Displacing ns ino xino old new)
    (ht : Linkable ns xino tmp) (hdir : tmp.1 = new.1)
    (hover : Linkable (vacated ns xino new tmp) ino new)
    (hno : ¬ (¬ ns.NamedBut old ino ∧ Stale cache ino new.1)) :
    Fits cache ((taken ns ino xino new tmp).unlink old) := by
  have hother : ns.entry new ≠ some ino := by
    rw [h.target]
    exact fun heq => h.differ (Option.some.inj heq)
  have hwf := (ht.wellFormed h.wellFormed).unlink new
  refine (fits_linked hfits h ht hdir ⟨old, h.vacated_old ht.absent⟩).unlink
    (hover.wellFormed hwf) (h.taken_old ht.absent) fun hstrips => ?_
  refine hno (hstrips.of_new ns hwf.pairPair unlink_pair_self h.old_ne_new.symm
    (unlink_pair_of_other h.other_old.link) link_entry_self hother fun k hk => ?_)
  rw [link_entry_of_ne hk]
  have hparked : (parked ns xino tmp).entry new ≠ some ino := by
    rw [link_entry_of_ne (h.tmp_ne_new ht.absent).symm]
    exact hother
  rw [same_of_unlink (ht.wellFormed h.wellFormed) hparked]
  exact same_of_update (by simp [ht.absent]) (fun heq => h.differ (Option.some.inj heq)) rfl k

/-- The names the displaced record has left without the temporary one are those it has without the
new one. -/
theorem strips_vacated (h : Displacing ns ino xino old new) (ht : ns.entry tmp = none)
    (hstrips : Strips cache (vacated ns xino new tmp) tmp xino) : Strips cache ns new xino := by
  obtain ⟨k, honly, hstale⟩ := hstrips
  rw [h.vacated_cleaned ht] at honly
  exact ⟨k, honly, hstale⟩

theorem onlyName_of_link (h : Displacing ns ino xino old new) {k : Key}
    (honly : OnlyName ((ns.unlink new).link new ino) k xino) : OnlyName (ns.unlink new) k xino :=
  honly.of_same rfl
    (same_of_update (by simp) (fun heq => h.differ (Option.some.inj heq).symm) rfl)

theorem strips_taken (h : Displacing ns ino xino old new) (ht : ns.entry tmp = none)
    (hstrips : Strips cache (taken ns ino xino new tmp) tmp xino) : Strips cache ns new xino := by
  obtain ⟨k, honly, hstale⟩ := hstrips
  rw [h.linked_cleaned ht] at honly
  exact ⟨k, onlyName_of_link h honly, hstale⟩

theorem strips_moved (h : Displacing ns ino xino old new) (ht : ns.entry tmp = none)
    (hwf : (taken ns ino xino new tmp).WellFormed)
    (hstrips : Strips cache ((taken ns ino xino new tmp).unlink old) tmp xino) :
    Strips cache ns new xino := by
  obtain ⟨k, honly, hstale⟩ := hstrips
  have htmp : (taken ns ino xino new tmp).Other tmp old :=
    other_of_ne (h.vacated_pair ht) (h.tmp_ne_old ht).symm
  rw [unlink_comm (h.taken_other (h.other_tmp_old ht)) htmp] at honly
  have hold : ((taken ns ino xino new tmp).unlink tmp).entry old ≠ some xino := by
    rw [unlink_entry_of_other htmp, h.taken_old ht]
    exact fun heq => h.differ (Option.some.inj heq).symm
  have honly' := honly.of_unlink (hwf.unlink tmp) hold
  rw [h.linked_cleaned ht] at honly'
  exact ⟨k, onlyName_of_link h honly', hstale⟩

/-- What has its name back, without an alias, has no other one if it had none before. -/
theorem onlyName_restored (h : Displacing ns ino xino old new) {k : Key}
    (honly : OnlyName ((ns.unlink new).link new xino) k xino) :
    new = k ∧ OnlyName ns new xino := by
  have hp : ((ns.unlink new).link new xino).pair new = new := unlink_pair_self
  have hk : new = k := by
    rcases honly.eq_or link_entry_self with heq | heq
    · exact heq
    · have hback := (h.wellFormed.unlink new).pairPair k
      rw [link_pair] at heq hp
      rw [← heq, hp] at hback
      exact hback
  refine ⟨hk, h.target, ?_⟩
  rintro ⟨k', hother, hk'⟩
  rw [← hk] at honly
  refine honly.2 ⟨k', other_of_ne hp hother.1, ?_⟩
  rw [link_entry_of_ne hother.1, unlink_entry_of_other hother]
  exact hk'

/-- A clean-up of the temporary name that leaves the displaced record no name elsewhere. -/
theorem Cleaned.fits {ns' : Namespace} {s : σ} (h : Cleaned V sched ns' tmp xino s)
    (hfits : Fits cache ns') (hwf : ns'.WellFormed) (htmp : ns'.entry tmp = some xino)
    (hno : sched .cleanup = none → ¬ Strips cache ns' tmp xino) : V.Has (Fits cache) s := by
  by_cases hclean : sched .cleanup = none
  · exact (hfits.unlink hwf htmp (hno hclean)).dropped (h.1 hclean)
  · exact (h.2 hclean).has hfits

end Displaced

section Rename

variable {lib : Libntfs σ} {cache : ItemCache} {V : View σ} {ns : Namespace} {sched : Schedule}
  {renameSeq : Nat} {oldDir newDir ino xino : UInt64} {oldName newName : List UInt8}
  {ou nu : List UInt16}

/-- The new name is free. -/
theorem renameToFree_fits (hL : Lawful lib V) (hwf : ns.WellFormed) (hfits : Fits cache ns)
    (hstarts : Starts lib ns oldDir oldName newDir ino ou)
    (hno : ¬ (¬ ns.NamedBut (oldDir, ou) ino ∧ Stale cache ino newDir ∧
      MovesFree lib sched ns oldDir newDir newName ino)) :
    Spec (V.Is ns) (renameToFree lib sched ino oldDir oldName newDir newName)
      (fun _ => V.Has (Fits cache)) fun _ => V.Has (Fits cache) := by
  have hlinked : ∀ {nu}, Linkable ns ino (newDir, nu) → Fits cache (ns.link (newDir, nu) ino) :=
    fun hl => hfits.link hwf hl.absent ⟨(oldDir, ou), hstarts.source⟩
  refine Spec.conseq (renameToFree_outcomes hL hwf hstarts.converts hstarts.source hstarts.user)
    ?_ ?_
  · intro _ s hs
    obtain ⟨nu, hn, ⟨hlinks, hl⟩, ⟨hunlinks, hu⟩, hs⟩ := hs
    have hne : (newDir, nu) ≠ (oldDir, ou) := key_ne ns (by
      rw [hstarts.source, hl.absent]
      exact (Option.some_ne_none ino).symm)
    refine hs.has ((hlinked hl).unlink (hl.wellFormed hwf) hu.entry fun hstrips => ?_)
    obtain ⟨honly, hstale⟩ := hstrips.of_new ns hwf.pairPair (hwf.pairFree _ hl.absent) hne rfl
      link_entry_self (by simp [hl.absent]) fun k hk => by rw [link_entry_of_ne hk]
    exact hno ⟨honly, hstale, ⟨hlinks, nu, hn, hl⟩, hunlinks, hu.dir⟩
  · -- as it was, or with the new name as a second one
    intro _ s hs
    obtain ⟨_, hs | ⟨_, nu, hl, hs⟩⟩ := hs
    · exact hs.has hfits
    · exact hs.has (hlinked hl)

/-- The new name is another record's. -/
theorem displace_fits (hL : Lawful lib V) (hwf : ns.WellFormed) (hfits : Fits cache ns)
    (hstarts : Starts lib ns oldDir oldName newDir ino ou) (hnu : lib.mbstoucs newName = .ok nu)
    (htarget : ns.entry (newDir, nu) = some xino) (hne : xino ≠ ino)
    (hproceeds : Proceeds sched ns ino xino oldDir newDir)
    (haway : ¬ MovesAway lib sched renameSeq cache ns oldDir oldName newDir newName)
    (hdisplaces : ¬ Displaces lib sched renameSeq cache ns oldDir oldName newDir newName) :
    Spec (V.Is ns)
      (displace lib sched ino xino oldDir oldName newDir newName (tmpName newName (renameSeq + 1)))
      (fun _ => V.Has (Fits cache)) fun _ => V.Has (Fits cache) := by
  by_cases htmp : TmpLinks lib sched ns xino newDir (tmpName newName (renameSeq + 1))
  · obtain ⟨hsched, tu, htu, ht⟩ := htmp
    by_cases huser : xino < FILE_first_user
    · -- a metadata record keeps both names
      have hparked : Fits cache (parked ns xino (newDir, tu)) :=
        hfits.link hwf ht.absent ⟨(newDir, nu), htarget⟩
      exact Spec.conseq (displace_parks hL hnu htu hsched htarget huser ht)
        (fun _ _ hs => hs.has hparked) fun _ _ hs => hs.has hparked
    · have h : Displacing ns ino xino (oldDir, ou) (newDir, nu) :=
        ⟨hwf, hstarts.source, htarget, hne, hstarts.user, UInt64.not_lt.mp huser, hproceeds.node⟩
      have hreplaces : Replaces lib sched renameSeq ns oldDir newDir newName nu ino xino :=
        ⟨hnu, htarget, hne, h.targetUser, hproceeds, hsched, tu, htu, ht⟩
      have hkeeps : MovesOver sched ns ino oldDir newDir ∨ Stranded sched ns ino oldDir newDir →
          sched .cleanup = none → ¬ Strips cache ns (newDir, nu) xino :=
        fun hgoes hclean hstrips =>
          hdisplaces ⟨ino, ou, nu, xino, hstarts, hreplaces, hgoes, hclean, hstrips⟩
      have hparkedwf := ht.wellFormed hwf
      have hvacatedwf := hparkedwf.unlink (newDir, nu)
      have hrestoredlinks := (h.linkable_new ht rfl).mpr ⟨ht.node, h.target_apart⟩
      refine Spec.conseq (displace_outcomes hL hstarts.converts hnu htu h hsched ht) ?_ ?_
      · intro _ s hs
        obtain ⟨hover, hclean⟩ := hs
        have hlinks := (h.linkable_new ht rfl).mpr hover.moves.1.2
        have htakenwf := hlinks.wellFormed hvacatedwf
        have hmoved := fits_moved hfits h ht rfl hlinks fun hstale =>
          haway ⟨ino, ou, hstarts, hstale.1, hstale.2, .inr ⟨nu, xino, hreplaces, hover⟩⟩
        refine hclean.fits hmoved (htakenwf.unlink _) ?_ fun hsched hstrips =>
          hkeeps (.inl hover) hsched (strips_moved h ht.absent htakenwf hstrips)
        rw [unlink_entry_of_other (h.taken_other (h.other_tmp_old ht.absent))]
        exact h.taken_tmp ht.absent
      · intro _ s hs
        obtain ⟨_, ⟨_, hclean⟩ | ⟨_, hclean⟩ | ⟨hstranded, hclean | ⟨hover, hclean⟩⟩⟩ := hs
        · refine hclean.fits (fits_parked hfits h ht.absent) hparkedwf link_entry_self ?_
          rintro _ ⟨k, honly, hstale⟩
          rw [unlink_link (hwf.pairFree _ ht.absent) ht.absent] at honly
          exact hfits k xino (ne_root_of_user h.targetUser) honly hstale
        · refine hclean.fits (fits_linked hfits h ht rfl ⟨(newDir, tu), h.vacated_tmp ht.absent⟩)
            (hrestoredlinks.wellFormed hvacatedwf) ?_ ?_
          · rw [link_entry_of_ne (h.tmp_ne_new ht.absent)]
            exact h.vacated_tmp ht.absent
          · rintro _ ⟨k, honly, hstale⟩
            rw [h.linked_cleaned ht.absent] at honly
            obtain ⟨rfl, honlynew⟩ := onlyName_restored h honly
            exact hfits _ xino (ne_root_of_user h.targetUser) honlynew hstale
        · exact hclean.fits (fits_vacated hfits h ht rfl) hvacatedwf (h.vacated_tmp ht.absent)
            fun hsched hstrips =>
              hkeeps (.inr hstranded) hsched (strips_vacated h ht.absent hstrips)
        · have hlinks := (h.linkable_new ht rfl).mpr hover.2
          exact hclean.fits (fits_linked hfits h ht rfl ⟨(oldDir, ou), h.vacated_old ht.absent⟩)
            (hlinks.wellFormed hvacatedwf) (h.taken_tmp ht.absent) fun hsched hstrips =>
              hkeeps (.inr hstranded) hsched (strips_taken h ht.absent hstrips)
  · exact Spec.conseq (displace_fails hL ns htmp) (fun _ _ hf => hf.elim) fun _ _ h => h.2.has hfits

theorem rename_fits (hL : Lawful lib V) (hfits : Fits cache ns)
    (haway : ¬ MovesAway lib sched renameSeq cache ns oldDir oldName newDir newName)
    (hdisplaces : ¬ Displaces lib sched renameSeq cache ns oldDir oldName newDir newName) :
    Spec (V.Is ns) (nfskRenameImpl lib sched renameSeq oldDir oldName newDir newName)
      (fun _ => V.Has (Fits cache)) fun _ => V.Has (Fits cache) := by
  refine spec_wellFormed fun hwf => nfskRename_spec hL ?_ ?_ fun _ _ _ _ hs => hs.has hfits
  · intro ino ou hstarts _
    exact renameToFree_fits hL hwf hfits hstarts fun h =>
      haway ⟨ino, ou, hstarts, h.1, h.2.1, .inl h.2.2⟩
  · intro ino ou xino nu hstarts hnu htarget
    by_cases hsame : xino = ino
    · rw [if_pos hsame]
      exact Spec.pure fun _ hs => hs.has hfits
    · rw [if_neg hsame]
      refine replaceTarget_spec hL ?_ fun _ _ _ _ hs => hs.has hfits
      intro hnode hmalloc
      exact displace_fits hL hwf hfits hstarts hnu htarget hsame
        ⟨hstarts.old, hstarts.new, hstarts.user, hnode, hmalloc⟩ haway hdisplaces

end Rename

/-! ## `nfsk_unlink` -/

theorem unlink_fits {lib : Libntfs σ} {cache : ItemCache} {V : View σ} {ns : Namespace} {d : UInt64}
    {name : List UInt8} (hL : Lawful lib V) (hfits : Fits cache ns) (mft : UInt64)
    (hno : ¬ Uncovers lib cache ns d name) :
    Spec (V.Is ns) (nfskUnlinkImpl lib d name mft) (fun _ => V.Has (Fits cache))
      fun _ => V.Has (Fits cache) := by
  refine spec_wellFormed fun hwf => ?_
  refine Spec.guard (fun _ _ hs => hs.has hfits) fun hext => ?_
  cases hu : lib.mbstoucs name with
  | error e =>
    unfold nfskDoUnlink
    exact Spec.bind_orFail (convert_fails lib hu) (fun _ _ hs => hs.has hfits) fun _ _ hf => hf.elim
  | ok u =>
    refine Spec.conseq (nfskDoUnlink_spec hL hu ns d) ?_ fun _ _ h => h.2.has hfits
    intro _ s hdone
    obtain ⟨r, hunlinkable, hdropped⟩ := hdone
    exact (hfits.unlink hwf hunlinkable.entry fun hstrips =>
      hno ⟨hext, u, r, hu, hunlinkable, hstrips⟩).dropped hdropped

end Ntfs
end Usbrw
