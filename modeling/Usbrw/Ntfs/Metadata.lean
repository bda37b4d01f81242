import Usbrw.Ntfs.ReferenceNew
import Usbrw.Ntfs.Steps

/-!
# Ntfs.Metadata

Which calls leave the names of the metadata records and the entries in `$Extend` alone.

* `SameMetadata`    — these entries are the same in two namespaces.
* `LinksIntoExtend` — `nfsk_link` makes an entry in `$Extend`.
* `ParksMetadata`   — `nfsk_rename` is to displace a metadata record, and gives it a temporary name.
* `same_metadata_iff` — all other calls leave them alone.
-/

namespace Usbrw
namespace Ntfs

open Call Namespace

variable {σ : Type}

/-- An entry for a metadata record, or in `$Extend`. -/
def IsMetadata (k : Key) (r : UInt64) : Prop := r < FILE_first_user ∨ k.1 = FILE_Extend

def SameMetadata (ns ns' : Namespace) : Prop :=
  ∀ k r, IsMetadata k r → (ns'.entry k = some r ↔ ns.entry k = some r)

section Namespaces

variable {ns ns' ns'' : Namespace} {k : Key} {r : UInt64}

theorem SameMetadata.refl (ns : Namespace) : SameMetadata ns ns := fun _ _ _ => Iff.rfl

theorem SameMetadata.trans (h : SameMetadata ns ns') (h' : SameMetadata ns' ns'') :
    SameMetadata ns ns'' :=
  fun k r hk => (h' k r hk).trans (h k r hk)

/-- An entry that is none of these comes or goes. -/
theorem sameMetadata_update {o : Option UInt64} (hold : ∀ r, ns.entry k = some r → ¬ IsMetadata k r)
    (hnew : ∀ r, o = some r → ¬ IsMetadata k r) (he : ns'.entry = Function.update ns.entry k o) :
    SameMetadata ns ns' := by
  intro k' r hr
  rw [he]
  by_cases hk : k' = k
  · rw [hk] at hr ⊢
    rw [Function.update_self]
    exact iff_of_false (fun h => hnew r h hr) fun h => hold r h hr
  · rw [Function.update_of_ne hk]

theorem not_isMetadata (hr : FILE_first_user ≤ r) (hk : k.1 ≠ FILE_Extend) : ¬ IsMetadata k r := by
  rintro (h | h)
  · exact absurd h (UInt64.not_lt.mpr hr)
  · exact hk h

theorem sameMetadata_link (habsent : ns.entry k = none) (hr : ¬ IsMetadata k r) :
    SameMetadata ns (ns.link k r) := by
  refine sameMetadata_update (k := k) (o := some r) ?_ ?_ rfl
  · intro r' hr'
    rw [habsent] at hr'
    cases hr'
  · intro r' hr'
    cases hr'
    exact hr

/-- An alias is of the same record and in the same directory. -/
theorem sameMetadata_unlink (hwf : ns.WellFormed) (hentry : ns.entry k = some r)
    (hr : ¬ IsMetadata k r) : SameMetadata ns (ns.unlink k) := by
  intro k' r' hr'
  refine ⟨fun h => (unlink_entry_iff.mp h).2, fun h => unlink_entry_iff.mpr ⟨?_, h⟩⟩
  constructor
  · rintro rfl
    rw [hentry] at h
    cases h
    exact hr hr'
  · rintro rfl
    rw [hwf.pairEntry, hentry] at h
    cases h
    rw [IsMetadata, hwf.pairDir] at hr'
    exact hr hr'

theorem sameMetadata_create {n : NtfsInode} (h : Created ns k n ns') (hk : k.1 ≠ FILE_Extend) :
    SameMetadata ns ns' := by
  rw [h.eq]
  refine sameMetadata_update (k := k) (o := some n.mftNo) ?_ ?_ rfl
  · intro r hr
    rw [h.absent] at hr
    cases hr
  · intro r hr
    cases hr
    exact not_isMetadata h.user hk

/-- A new entry of that kind. -/
theorem not_sameMetadata_link (habsent : ns.entry k = none) (hr : IsMetadata k r) :
    ¬ SameMetadata ns (ns.link k r) := by
  intro h
  have hentry := (h k r hr).mp link_entry_self
  rw [habsent] at hentry
  cases hentry

end Namespaces

section Calls

variable {V : View σ} {ns : Namespace} {α : Type}

/-- The entries are as in `ns`. -/
def View.Same (V : View σ) (ns : Namespace) (s : σ) : Prop := SameMetadata ns (V.names s)

theorem View.Is.same {s : σ} (h : V.Is ns s) : V.Same ns s := by
  unfold View.Same
  rw [h.eq]
  exact SameMetadata.refl ns

theorem Dropped.same {k : Key} {r : UInt64} {s : σ} (h : Dropped V ns k r s) (hwf : ns.WellFormed)
    (hentry : ns.entry k = some r) (hr : ¬ IsMetadata k r) : V.Same ns s := by
  have hunlinked := sameMetadata_unlink hwf hentry hr
  rcases h with ⟨_, hs⟩ | ⟨_, hs⟩
  · unfold View.Same
    rw [hs.eq]
    exact hunlinked
  · unfold View.Same
    rw [hs.eq]
    exact hunlinked

variable {lib : Libntfs σ} {mft d : UInt64} {name : List UInt8}

theorem keepsUnlink_same (ns : Namespace) (hd : d ≠ FILE_Extend) :
    KeepsUnlink V (SameMetadata ns) d := by
  intro ns' u r s hwf hsame hunlinkable hdropped
  exact hsame.trans (hdropped.same hwf hunlinkable.entry (not_isMetadata hunlinkable.user hd))

theorem keepsLink_same (ns : Namespace) (hmft : FILE_first_user ≤ mft) (hd : d ≠ FILE_Extend) :
    KeepsLink lib (SameMetadata ns) mft d name := by
  intro ns' u _ hsame hl
  exact hsame.trans (sameMetadata_link hl.absent (not_isMetadata hmft hd))

variable {oldDir newDir ino xino : UInt64} {oldName newName tmpn : List UInt8} {sched : Schedule}

/-- A displaced metadata record keeps its temporary name: neither that nor the new name can be
unlinked. -/
theorem displace_parks (hL : Lawful lib V) {nu tu : List UInt16}
    (hn : lib.mbstoucs newName = .ok nu) (hu : lib.mbstoucs tmpn = .ok tu)
    (hsched : sched .linkTmp = none) (htarget : ns.entry (newDir, nu) = some xino)
    (hxino : xino < FILE_first_user) (ht : Linkable ns xino (newDir, tu)) :
    Spec (V.Is ns) (displace lib sched ino xino oldDir oldName newDir newName tmpn)
      (fun _ => V.Is (parked ns xino (newDir, tu))) fun _ => V.Is (parked ns xino (newDir, tu)) := by
  have hne : (newDir, nu) ≠ (newDir, tu) := key_ne ns (by
    rw [htarget, ht.absent]
    exact Option.some_ne_none xino)
  have hkept : (parked ns xino (newDir, tu)).entry (newDir, nu) = some xino := by
    rw [link_entry_of_ne hne]
    exact htarget
  have hfails : ∀ {name : List UInt8} {u : List UInt16} (step : RenameStep),
      lib.mbstoucs name = .ok u → (parked ns xino (newDir, tu)).entry (newDir, u) = some xino →
      Spec (V.Is (parked ns xino (newDir, tu))) (faulty sched step (nfskDoUnlink lib newDir name))
        (fun _ _ => False) fun _ => V.Is (parked ns xino (newDir, tu)) := by
    intro name u step hu hentry
    refine Spec.conseq (faulty_unlink hL hu hentry sched step) ?_ fun _ _ h => h.2
    rintro _ s ⟨⟨_, hunlinkable⟩, _⟩
    exact absurd hxino (UInt64.not_lt.mpr hunlinkable.user)
  unfold displace
  refine Spec.bind (Q := fun _ => V.Is (parked ns xino (newDir, tu)))
    (Spec.conseq (faulty_link hL hu ns xino newDir sched .linkTmp) (fun _ _ h => h.2) ?_) ?_
  · rintro e s ⟨⟨_, hnot⟩, _⟩
    exact absurd ⟨hsched, ht⟩ hnot
  intro _
  have hclean : Keeps (V.Is (parked ns xino (newDir, tu)))
      (faulty sched .cleanup (nfskDoUnlink lib newDir tmpn)) :=
    Spec.conseq_ok (hfails .cleanup hu link_entry_self) fun _ _ hf => hf.elim
  refine Keeps.afterwards ?_ hclean
  exact Spec.bind (hfails .unlinkTarget hn hkept) fun _ _ hf => hf.elim

/-! ## Which calls change them -/

/-- `nfsk_link` has no check of the directory. -/
def LinksIntoExtend (lib : Libntfs σ) (ns : Namespace) (mft newDir : UInt64)
    (newName : List UInt8) : Prop :=
  newDir = FILE_Extend ∧ FILE_first_user ≤ mft ∧
    ∃ u, lib.mbstoucs newName = .ok u ∧ LinkAllowed ns false mft (newDir, u)

/-- A rename that may go on finds a metadata record under the new name, a file or an empty directory,
and a temporary name can be made for it. `renameSeq` is the counter `rename_seq`. -/
def ParksMetadata (lib : Libntfs σ) (sched : Schedule) (renameSeq : Nat) (ns : Namespace)
    (oldDir : UInt64) (oldName : List UInt8) (newDir : UInt64) (newName : List UInt8) : Prop :=
  ∃ ino ou xino nu, Starts lib ns oldDir oldName newDir ino ou ∧ lib.mbstoucs newName = .ok nu ∧
    ns.entry (newDir, nu) = some xino ∧ xino < FILE_first_user ∧
    Proceeds sched ns ino xino oldDir newDir ∧
    TmpLinks lib sched ns xino newDir (tmpName newName (renameSeq + 1))

def ChangesMetadata (lib : Libcreate σ) (sched : Schedule) (renameSeq : Nat) (ns : Namespace) :
    Request → Prop
  | .link mft newDir newName => LinksIntoExtend lib.toLibntfs ns mft newDir newName
  | .rename oldDir oldName newDir newName =>
    ParksMetadata lib.toLibntfs sched renameSeq ns oldDir oldName newDir newName
  | _ => False

theorem same_nfskLinkImpl (hL : Lawful lib V)
    (hno : ¬ LinksIntoExtend lib ns mft newDir newName) :
    Spec (V.Is ns) (nfskLinkImpl lib mft newDir newName) (fun _ => V.Same ns)
      fun _ => V.Same ns := by
  unfold nfskLinkImpl
  refine Spec.guard (fun _ _ hs => hs.same) fun hmft => ?_
  have huser := UInt64.not_lt.mp hmft
  refine doLink_has hL (SameMetadata.refl ns) fun u hu hallowed => ?_
  by_cases hext : newDir = FILE_Extend
  · exact absurd ⟨hext, huser, u, hu, hallowed⟩ hno
  · exact sameMetadata_link hallowed.absent (not_isMetadata huser hext)

theorem changed_nfskLinkImpl (hL : Lawful lib V) (h : LinksIntoExtend lib ns mft newDir newName) :
    Spec (V.Is ns) (nfskLinkImpl lib mft newDir newName) (fun _ s => ¬ V.Same ns s)
      fun _ s => ¬ V.Same ns s := by
  obtain ⟨hext, huser, u, hu, hallowed⟩ := h
  unfold nfskLinkImpl
  rw [if_neg (UInt64.not_lt.mpr huser)]
  refine Spec.conseq (nfskDoLink_exact hL hu ns mft newDir false) ?_ ?_
  · rintro _ s ⟨_, hs⟩
    unfold View.Same
    rw [hs.eq]
    exact not_sameMetadata_link hallowed.absent (.inr hext)
  · rintro e s ⟨⟨_, hnot⟩, _⟩
    exact absurd hallowed hnot

theorem same_nfskUnlinkImpl (hL : Lawful lib V) (dirMft mft : UInt64) :
    Spec (V.Is ns) (nfskUnlinkImpl lib dirMft name mft) (fun _ => V.Same ns)
      fun _ => V.Same ns := by
  unfold nfskUnlinkImpl
  exact Spec.guard (fun _ _ hs => hs.same) fun hext s hs =>
    doUnlink_keeps hL (keepsUnlink_same ns hext) s hs.same

theorem same_nfskRename (hL : Lawful lib V) {renameSeq : Nat}
    (hno : ¬ ParksMetadata lib sched renameSeq ns oldDir oldName newDir newName) :
    Spec (V.Is ns) (nfskRenameImpl lib sched renameSeq oldDir oldName newDir newName)
      (fun _ => V.Same ns) fun _ => V.Same ns := by
  refine rename_has hL (SameMetadata.refl ns) (keepsUnlink_same ns) (keepsUnlink_same ns) ?_ ?_
  · intro ino ou nu hstarts _ _ hl
    exact sameMetadata_link hl.absent (not_isMetadata hstarts.user hstarts.new)
  · intro ino ou xino nu hstarts hnu htarget _ hproceeds
    by_cases hxino : xino < FILE_first_user
    · have htmp : ¬ TmpLinks lib sched ns xino newDir (tmpName newName (renameSeq + 1)) :=
        fun htmp => hno ⟨ino, ou, xino, nu, hstarts, hnu, htarget, hxino, hproceeds, htmp⟩
      exact Spec.conseq (displace_fails hL ns htmp) (fun _ _ hf => hf.elim) fun _ _ h => h.2.same
    · have huser := UInt64.not_lt.mp hxino
      refine displace_has hL (SameMetadata.refl ns) ?_
        (fun _ _ => keepsLink_same ns hstarts.user hstarts.new)
        (keepsLink_same ns huser hstarts.new) (keepsUnlink_same ns hstarts.old)
        (keepsUnlink_same ns hstarts.new)
      exact fun u _ _ hl => sameMetadata_link hl.absent (not_isMetadata huser hstarts.new)

theorem changed_nfskRename (hL : Lawful lib V) {renameSeq : Nat}
    (h : ParksMetadata lib sched renameSeq ns oldDir oldName newDir newName) :
    Spec (V.Is ns) (nfskRenameImpl lib sched renameSeq oldDir oldName newDir newName)
      (fun _ s => ¬ V.Same ns s) fun _ s => ¬ V.Same ns s := by
  obtain ⟨ino, ou, xino, nu, hstarts, hnu, htarget, hxino, hproceeds, hsched, tu, hu, ht⟩ := h
  have hne : xino ≠ ino := by
    rintro rfl
    exact absurd hxino (UInt64.not_lt.mpr hstarts.user)
  have hchanged : ∀ s, V.Is (parked ns xino (newDir, tu)) s → ¬ V.Same ns s := by
    intro s hs
    unfold View.Same
    rw [hs.eq]
    exact not_sameMetadata_link ht.absent (.inl hxino)
  refine nfskRename_taken hL hstarts.converts hnu hstarts.source htarget hne ?_ ?_
  · intro _
    exact Spec.conseq (displace_parks hL hnu hu hsched htarget hxino ht)
      (fun _ s hs => hchanged s hs) fun _ s hs => hchanged s hs
  · exact fun hnot => absurd hproceeds hnot

end Calls

/-- A call leaves the entries for metadata records and those in `$Extend` as they are, whether it
returns 0 or fails, unless it links into `$Extend` or displaces a metadata record. -/
theorem same_metadata_iff {lib : Libcreate σ} {V : View σ} (hL : LawfulCreate lib V)
    (windowsNames : Bool) (sched : Schedule) (renameSeq : Nat) (r : Request) (s : σ) :
    SameMetadata (V.names s) (V.names (final (r.run lib windowsNames sched renameSeq s))) ↔
      ¬ ChangesMetadata lib sched renameSeq (V.names s) r := by
  have hs : V.Is (V.names s) s := rfl
  cases r with
  | create dirMft name type =>
    refine iff_of_true ?_ not_false
    rw [Request.run, final_dropResult]
    exact Spec.final ((create_spec hL _ windowsNames type).has (SameMetadata.refl _)
      fun u n ns' h hcreated => sameMetadata_create hcreated h.dir) hs
  | symlink dirMft name target =>
    refine iff_of_true ?_ not_false
    rw [Request.run, final_dropResult]
    exact Spec.final ((symlink_spec hL _).has (SameMetadata.refl _)
      fun u n ns' h hcreated => sameMetadata_create hcreated h.dir) hs
  | link mft newDir newName =>
    constructor
    · exact fun hsame h => Spec.final (changed_nfskLinkImpl hL.lawful h) hs hsame
    · exact fun hno => Spec.final (same_nfskLinkImpl hL.lawful hno) hs
  | unlink dirMft name mft =>
    exact iff_of_true (Spec.final (same_nfskUnlinkImpl hL.lawful dirMft mft) hs) not_false
  | rename oldDir oldName newDir newName =>
    constructor
    · exact fun hsame h => Spec.final (changed_nfskRename hL.lawful h) hs hsame
    · exact fun hno => Spec.final (same_nfskRename hL.lawful hno) hs

/-! ## A volume with `$Bitmap` and `$Extend` -/

def bitmap : List UInt8 := [0x24, 0x42, 0x69, 0x74, 0x6D, 0x61, 0x70]
def extend : List UInt8 := [0x24, 0x45, 0x78, 0x74, 0x65, 0x6E, 0x64]

/-- The root has a file `a` (record 20) beside `$Bitmap` (record 6) and `$Extend`, which is empty. -/
def withMetadata : RefState :=
  ofLists
    [((5, [0x61]), 20), ((5, bitmap.map UInt8.toUInt16), 6), ((5, extend.map UInt8.toUInt16), 11)]
    [⟨5, false, true⟩, ⟨6, false, false⟩, ⟨11, false, true⟩, ⟨20, false, false⟩]
    (by decide) (by decide)

/-- A link beside the file. -/
theorem same_metadata_linked :
    SameMetadata withMetadata.ns
      (final ((Request.link 20 5 [0x62]).run refLibcreate false (fun _ => none) 0 withMetadata)).ns :=
  (same_metadata_iff refLibcreate_lawful false (fun _ => none) 0 (.link 20 5 [0x62])
    withMetadata).mpr fun h => absurd h.1 (by decide)

/-- A link in `$Extend` is made. `$Bitmap` is not displaced by a rename, but keeps a temporary name
besides its own. -/
theorem metadata_changed :
    LawfulCreate refLibcreate RefState.view ∧
    ¬ SameMetadata withMetadata.ns
      (final ((Request.link 20 11 [0x62]).run refLibcreate false (fun _ => none) 0 withMetadata)).ns ∧
    ¬ SameMetadata withMetadata.ns
      (final ((Request.rename 5 [0x61] 5 bitmap).run refLibcreate false (fun _ => none) 0
        withMetadata)).ns := by
  refine ⟨refLibcreate_lawful, ?_, ?_⟩
  · intro h
    have hentry := (h (11, [0x62]) 20 (.inr rfl)).mp rfl
    cases hentry
  · intro h
    have hentry := (h (5, (tmpName bitmap 1).map UInt8.toUInt16) 6 (.inl (by decide))).mp rfl
    cases hentry

end Ntfs
end Usbrw
