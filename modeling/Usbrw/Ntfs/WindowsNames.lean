import Usbrw.Base.Run
import Usbrw.Ntfs.ReferenceNew
import Usbrw.Ntfs.Steps

/-!
# Ntfs.WindowsNames

Names on a volume opened with `NFSK_OPEN_WINDOWS_NAMES`. Only `nfsk_create_impl` asks
`ntfs_forbidden_names`; a symbolic link, a hard link and a rename bring in any name.

* `Allowed`         — Windows allows every name in the directories.
* `EntersForbidden` — a call that brings in one it does not allow.
* `allowed_run`     — without such calls all names stay allowed.
-/

namespace Usbrw
namespace Ntfs

open Call Namespace Run

variable {σ : Type}

def Allowed (lib : Libcreate σ) (ns : Namespace) : Prop :=
  ∀ k r, ns.entry k = some r → lib.forbiddenNames k.2 = none

/-- Every name but one. -/
def AllowedBut (lib : Libcreate σ) (tmp : Key) (ns : Namespace) : Prop :=
  ∀ k r, k ≠ tmp → ns.entry k = some r → lib.forbiddenNames k.2 = none

/-! ## Entries come and go -/

section Entries

variable {lib : Libcreate σ} {V : View σ} {ns : Namespace} {k tmp : Key} {r : UInt64}

theorem Allowed.but (h : Allowed lib ns) (tmp : Key) : AllowedBut lib tmp ns :=
  fun k r _ hk => h k r hk

theorem AllowedBut.link_self (h : AllowedBut lib tmp ns) : AllowedBut lib tmp (ns.link tmp r) := by
  intro k' r' hne hk'
  rw [link_entry_of_ne hne] at hk'
  exact h k' r' hne hk'

theorem AllowedBut.link (h : AllowedBut lib tmp ns) (hk : lib.forbiddenNames k.2 = none) :
    AllowedBut lib tmp (ns.link k r) := by
  intro k' r' hne hk'
  by_cases heq : k' = k
  · rw [heq]
    exact hk
  · rw [link_entry_of_ne heq] at hk'
    exact h k' r' hne hk'

theorem AllowedBut.unlink (h : AllowedBut lib tmp ns) (k : Key) : AllowedBut lib tmp (ns.unlink k) :=
  fun k' r hne hk' => h k' r hne (unlink_entry_iff.mp hk').2

/-- All names are allowed where the one left out is not there. -/
theorem AllowedBut.allowed (h : AllowedBut lib tmp ns) (hnone : ns.entry tmp = none) :
    Allowed lib ns := by
  intro k r hk
  refine h k r ?_ hk
  rintro rfl
  rw [hnone] at hk
  cases hk

theorem allowed_link (h : Allowed lib ns) (hk : lib.forbiddenNames k.2 = none) :
    Allowed lib (ns.link k r) := by
  intro k' r' hk'
  by_cases heq : k' = k
  · rw [heq]
    exact hk
  · rw [link_entry_of_ne heq] at hk'
    exact h k' r' hk'

theorem allowed_created {n : NtfsInode} {ns' : Namespace} (h : Allowed lib ns)
    (hk : lib.forbiddenNames k.2 = none) (hnew : Created ns k n ns') : Allowed lib ns' := by
  have hlinked : Allowed lib (ns.link k n.mftNo) := allowed_link h hk
  rw [hnew.eq]
  exact hlinked

theorem AllowedBut.dropped {s : σ} (h : AllowedBut lib tmp ns) (hd : Dropped V ns tmp r s) :
    V.Has (Allowed lib) s := by
  have hunlinked : Allowed lib (ns.unlink tmp) := (h.unlink tmp).allowed unlink_entry_self
  rcases hd with ⟨_, hs⟩ | ⟨_, hs⟩
  · exact hs.has hunlinked
  · exact hs.has hunlinked

theorem keepsUnlink_allowed (lib : Libcreate σ) (V : View σ) (d : UInt64) :
    KeepsUnlink V (Allowed lib) d :=
  fun _ u _ _ _ hns _ hd => (hns.but (d, u)).dropped hd

end Entries

/-! ## Which calls bring in a name -/

/-- A symbolic link is made. -/
def SymlinksForbidden (lib : Libcreate σ) (ns : Namespace) (dirMft : UInt64)
    (name target : List UInt8) : Prop :=
  ∃ u, SymlinkPasses lib.toLibntfs ns dirMft name target u ∧ ns.entry (dirMft, u) = none ∧
    lib.forbiddenNames u ≠ none

def LinksForbidden (lib : Libcreate σ) (ns : Namespace) (mft newDir : UInt64)
    (newName : List UInt8) : Prop :=
  FILE_first_user ≤ mft ∧ ∃ u, lib.mbstoucs newName = .ok u ∧
    LinkAllowed ns false mft (newDir, u) ∧ lib.forbiddenNames u ≠ none

/-- The new name of a rename is free, and the source gets it. -/
def MovesForbidden (lib : Libcreate σ) (sched : Schedule) (ns : Namespace) (oldDir : UInt64)
    (oldName : List UInt8) (newDir : UInt64) (newName : List UInt8) : Prop :=
  ∃ ino ou nu, Starts lib.toLibntfs ns oldDir oldName newDir ino ou ∧
    lib.mbstoucs newName = .ok nu ∧ sched .linkNew = none ∧ Linkable ns ino (newDir, nu) ∧
    lib.forbiddenNames nu ≠ none

/-- The new name is taken, and what had it keeps a temporary name: that is not cleaned up, or a
metadata record has it. -/
def ParksForbidden (lib : Libcreate σ) (sched : Schedule) (renameSeq : Nat) (ns : Namespace)
    (oldDir : UInt64) (oldName : List UInt8) (newDir : UInt64) (newName : List UInt8) : Prop :=
  ∃ ino ou xino nu tu, Starts lib.toLibntfs ns oldDir oldName newDir ino ou ∧
    lib.mbstoucs newName = .ok nu ∧ ns.entry (newDir, nu) = some xino ∧ xino ≠ ino ∧
    Proceeds sched ns ino xino oldDir newDir ∧ sched .linkTmp = none ∧
    lib.mbstoucs (tmpName newName (renameSeq + 1)) = .ok tu ∧ Linkable ns xino (newDir, tu) ∧
    lib.forbiddenNames tu ≠ none ∧ (sched .cleanup ≠ none ∨ xino < FILE_first_user)

def EntersForbidden (lib : Libcreate σ) (sched : Schedule) (renameSeq : Nat) (ns : Namespace) :
    Request → Prop
  | .create .. => False
  | .symlink dirMft name target => SymlinksForbidden lib ns dirMft name target
  | .link mft newDir newName => LinksForbidden lib ns mft newDir newName
  | .unlink .. => False
  | .rename oldDir oldName newDir newName =>
    MovesForbidden lib sched ns oldDir oldName newDir newName ∨
      ParksForbidden lib sched renameSeq ns oldDir oldName newDir newName

section Calls

variable {lib : Libcreate σ} {V : View σ} {ns : Namespace} {sched : Schedule} {renameSeq : Nat}
  {oldDir newDir ino xino : UInt64} {oldName newName tmpn : List UInt8} {ou nu tu : List UInt16}

/-- A temporary name does not matter that is removed again. -/
theorem displace_allowed (hL : LawfulCreate lib V) (hns : Allowed lib ns)
    (ho : lib.mbstoucs oldName = .ok ou) (hn : lib.mbstoucs newName = .ok nu)
    (hu : lib.mbstoucs tmpn = .ok tu) (h : Displacing ns ino xino (oldDir, ou) (newDir, nu))
    (hsched : sched .linkTmp = none) (ht : Linkable ns xino (newDir, tu))
    (hclean : sched .cleanup = none) :
    Spec (V.Is ns) (displace lib.toLibntfs sched ino xino oldDir oldName newDir newName tmpn)
      (fun _ => V.Has (Allowed lib)) fun _ => V.Has (Allowed lib) := by
  have hnew : lib.forbiddenNames nu = none := hns (newDir, nu) xino h.target
  have hparked : AllowedBut lib (newDir, tu) (parked ns xino (newDir, tu)) :=
    (hns.but (newDir, tu)).link_self
  have hvacated : AllowedBut lib (newDir, tu) (vacated ns xino (newDir, nu) (newDir, tu)) :=
    hparked.unlink (newDir, nu)
  have hlinked : ∀ r, AllowedBut lib (newDir, tu)
      ((vacated ns xino (newDir, nu) (newDir, tu)).link (newDir, nu) r) :=
    fun _ => hvacated.link (k := (newDir, nu)) hnew
  refine Spec.conseq (displace_outcomes hL.lawful ho hn hu h hsched ht) ?_ ?_
  · rintro _ s ⟨_, hc⟩
    exact ((hlinked ino).unlink (oldDir, ou)).dropped (hc.1 hclean)
  · rintro e s ⟨_, ⟨_, hc⟩ | ⟨_, hc⟩ | ⟨_, hc | ⟨_, hc⟩⟩⟩
    · exact hparked.dropped (hc.1 hclean)
    · exact (hlinked xino).dropped (hc.1 hclean)
    · exact hvacated.dropped (hc.1 hclean)
    · exact (hlinked ino).dropped (hc.1 hclean)

theorem rename_allowed (hL : LawfulCreate lib V) (hns : Allowed lib ns)
    (hmoves : ¬ MovesForbidden lib sched ns oldDir oldName newDir newName)
    (hparks : ¬ ParksForbidden lib sched renameSeq ns oldDir oldName newDir newName) :
    Spec (V.Is ns)
      (nfskRenameImpl lib.toLibntfs sched renameSeq oldDir oldName newDir newName)
      (fun _ => V.Has (Allowed lib)) fun _ => V.Has (Allowed lib) := by
  refine spec_wellFormed fun hwf => ?_
  refine rename_has hL.lawful hns (fun _ => keepsUnlink_allowed lib V oldDir)
    (fun _ => keepsUnlink_allowed lib V newDir) ?_ ?_
  · intro ino ou nu hstarts hnu hsched hl
    refine allowed_link hns (by_contra fun hforbidden => hmoves ?_)
    exact ⟨ino, ou, nu, hstarts, hnu, hsched, hl, hforbidden⟩
  · intro ino ou xino nu hstarts hnu htarget hne hproceeds
    have hnew : lib.forbiddenNames nu = none := hns (newDir, nu) xino htarget
    have hlinks : ∀ r, KeepsLink lib.toLibntfs (Allowed lib) r newDir newName := by
      intro r ns' u hu hns' _
      rw [hnu] at hu
      cases hu
      exact allowed_link hns' hnew
    by_cases htmp : ∀ tu, lib.mbstoucs (tmpName newName (renameSeq + 1)) = .ok tu →
        sched .linkTmp = none → Linkable ns xino (newDir, tu) → lib.forbiddenNames tu = none
    · exact displace_has hL.lawful hns
        (fun tu htu hsched hl => allowed_link hns (htmp tu htu hsched hl)) (fun _ _ => hlinks ino)
        (hlinks xino) (keepsUnlink_allowed lib V oldDir)
        (keepsUnlink_allowed lib V newDir)
    · -- the temporary name is forbidden, so it must go again
      simp only [not_forall, exists_prop] at htmp
      obtain ⟨tu, htu, hsched, hl, hforbidden⟩ := htmp
      have hgoes : ¬ (sched .cleanup ≠ none ∨ xino < FILE_first_user) := fun hstays =>
        hparks ⟨ino, ou, xino, nu, tu, hstarts, hnu, htarget, hne, hproceeds, hsched, htu, hl,
          hforbidden, hstays⟩
      rw [not_or, not_not] at hgoes
      exact displace_allowed hL hns hstarts.converts hnu htu
        ⟨hwf, hstarts.source, htarget, hne, hstarts.user, UInt64.not_lt.mp hgoes.2, hproceeds.node⟩
        hsched hl hgoes.1

theorem request_allowed (hL : LawfulCreate lib V) (hns : Allowed lib ns) (r : Request)
    (hr : ¬ EntersForbidden lib sched renameSeq ns r) :
    Spec (V.Is ns) (r.run lib true sched renameSeq) (fun _ => V.Has (Allowed lib))
      fun _ => V.Has (Allowed lib) := by
  cases r with
  | create dirMft name type =>
    refine Spec.bind ((create_spec hL ns true type).has hns ?_) fun _ => Spec.pure fun _ h => h
    intro u n ns' hpasses hnew
    exact allowed_created hns (hpasses.allowed rfl) hnew
  | symlink dirMft name target =>
    refine Spec.bind ((symlink_spec hL ns).has hns ?_) fun _ => Spec.pure fun _ h => h
    intro u n ns' hpasses hnew
    refine allowed_created hns (by_contra fun hforbidden => hr ?_) hnew
    exact ⟨u, hpasses, hnew.absent, hforbidden⟩
  | link mft newDir newName =>
    refine Spec.guard (fun _ _ hs => hs.has hns) fun hmft => ?_
    refine doLink_has hL.lawful hns fun u hu hl => ?_
    refine allowed_link hns (by_contra fun hforbidden => hr ?_)
    exact ⟨UInt64.not_lt.mp hmft, u, hu, hl, hforbidden⟩
  | unlink dirMft name mft =>
    refine Spec.guard (fun _ _ hs => hs.has hns) fun _ => ?_
    exact spec_of_keeps (doUnlink_keeps hL.lawful (keepsUnlink_allowed lib V dirMft)) hns
  | rename oldDir oldName newDir newName =>
    exact rename_allowed hL hns (fun h => hr (.inl h)) fun h => hr (.inr h)

end Calls

/-! ## Runs -/

/-- A call, with the faults of the volume during it and the counter `rename_seq` before it. -/
structure Issued where
  request : Request
  sched : Schedule
  renameSeq : Nat

/-- A call on a volume opened with `NFSK_OPEN_WINDOWS_NAMES`. -/
def issue (lib : Libcreate σ) (s : σ) (c : Issued) : σ :=
  final (c.request.run lib true c.sched c.renameSeq s)

/-- Where no call brings in a forbidden name, all names are allowed before every call of a run and
after the last. -/
theorem allowed_run {lib : Libcreate σ} {V : View σ} (hL : LawfulCreate lib V) {s : σ}
    {calls : List Issued} (hs : Allowed lib (V.names s))
    (hcalls : Along (issue lib) (fun s c =>
      ¬ EntersForbidden lib c.sched c.renameSeq (V.names s) c.request) s calls) :
    Along (issue lib) (fun s _ => Allowed lib (V.names s)) s calls ∧
      Allowed lib (V.names (calls.foldl (issue lib) s)) := by
  refine along_of_inv (I := fun s => Allowed lib (V.names s)) ?_ hs hcalls
  intro s c hs hc
  exact ⟨hs, Spec.final (request_allowed hL hs c.request hc) rfl⟩

/-! ## A volume with two files -/

def invalid : Errno := ⟨EINVAL, by decide⟩

/-- `"`, `*`, `/`, `:`, `<`, `>`, `?`, `\` and `|` -/
def forbiddenChars : List UInt16 := [0x22, 0x2A, 0x2F, 0x3A, 0x3C, 0x3E, 0x3F, 0x5C, 0x7C]

/-- As `refLibcreate`, but these characters make a name one that Windows does not allow. -/
def strictLibcreate : Libcreate RefState :=
  { refLibcreate with
    forbiddenNames := fun u => if u.any forbiddenChars.contains then some invalid else none }

theorem strictLibcreate_lawful : LawfulCreate strictLibcreate RefState.view where
  lawful := refLibcreate_lawful.lawful
  create := refLibcreate_lawful.create
  createSymlink := refLibcreate_lawful.createSymlink
  inodeCloseInDir := refLibcreate_lawful.inodeCloseInDir

theorem twoFiles_allowed : Allowed strictLibcreate twoFiles.ns := by
  intro k r hk
  have hmem : k ∈ [(5, [0x61]), (5, [0x62])] :=
    twoFiles.covers k (by rw [hk]; exact Option.some_ne_none r)
  simp only [List.mem_cons, List.not_mem_nil, or_false] at hmem
  rcases hmem with rfl | rfl
  · rfl
  · rfl

/-- A call without faults. -/
def plain (r : Request) : Issued := ⟨r, fun _ => none, 0⟩

/-- `a:b` -/
def colon : List UInt8 := [0x61, 0x3A, 0x62]

/-- `a` gets the name `c`. -/
theorem allowed_run_renamed :
    Along (issue strictLibcreate) (fun s _ => Allowed strictLibcreate s.ns) twoFiles
        [plain (.create 5 colon 'f'), plain (.rename 5 [0x61] 5 [0x63])] ∧
      Allowed strictLibcreate
        ([plain (.create 5 colon 'f'), plain (.rename 5 [0x61] 5 [0x63])].foldl
          (issue strictLibcreate) twoFiles).ns := by
  refine allowed_run strictLibcreate_lawful twoFiles_allowed ⟨not_false, ?_, trivial⟩
  rintro (⟨_, _, nu, _, hnu, _, _, hforbidden⟩ | ⟨_, _, _, nu, _, _, hnu, htarget, _⟩)
  · cases hnu
    exact hforbidden rfl
  · cases hnu
    cases htarget

/-- `nfsk_create` refuses `a:b`; as a symbolic link, a hard link or the new name of a rename it comes
in. -/
theorem forbidden_entered :
    LawfulCreate strictLibcreate RefState.view ∧ Allowed strictLibcreate twoFiles.ns ∧
    (∃ s', nfskCreateImpl strictLibcreate true 5 colon 'f' twoFiles = .error (-EINVAL) s') ∧
    ∀ r ∈ [Request.symlink 5 colon [0x61], .link 20 5 colon, .rename 5 [0x61] 5 colon],
      ¬ Allowed strictLibcreate (issue strictLibcreate twoFiles (plain r)).ns := by
  refine ⟨strictLibcreate_lawful, twoFiles_allowed, ⟨_, rfl⟩, ?_⟩
  have hcolon : ∀ r, (issue strictLibcreate twoFiles (plain r)).ns.entry
      (5, [0x61, 0x3A, 0x62]) ≠ none →
      ¬ Allowed strictLibcreate (issue strictLibcreate twoFiles (plain r)).ns := by
    intro r hentry hallowed
    obtain ⟨x, hx⟩ := Option.ne_none_iff_exists'.mp hentry
    have hnone := hallowed _ x hx
    cases hnone
  intro r hr
  simp only [List.mem_cons, List.not_mem_nil, or_false] at hr
  rcases hr with rfl | rfl | rfl
  · exact hcolon _ (Option.some_ne_none 16)
  · exact hcolon _ (Option.some_ne_none 20)
  · exact hcolon _ (Option.some_ne_none 20)

end Ntfs
end Usbrw
