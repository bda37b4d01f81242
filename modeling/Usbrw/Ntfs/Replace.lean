import Mathlib.Algebra.Order.Group.Nat
import Usbrw.Ntfs.Displace
import Usbrw.Ntfs.Reference

/-!
# Ntfs.Replace

A rename over a name that is taken, when nothing fails but links to names that are too long or taken.
What has the name is given a temporary one first, 19 units longer and numbered from a counter that
starts again with the process, so the rename needs room in the name and that number in the directory.

* `Over`                — a name that another record has, a file or an empty directory.
* `Replaceable`         — there is room for the temporary name, and it is free.
* `nfskRename_over_iff` — the source gets the name exactly then.
-/

namespace Usbrw
namespace Ntfs

open Call Namespace

variable {σ : Type}

/-- What `tmpName` adds to a name. -/
def tmpSuffix (renameSeq : Nat) : List UInt8 := tmpInfix ++ decimal10 renameSeq

/-- The units of the temporary name. -/
def tmpUnits (nu : List UInt16) (renameSeq : Nat) : List UInt16 :=
  nu ++ (tmpSuffix renameSeq).map UInt8.toUInt16

/-- `ntfs_mbstoucs` converts a name unit by unit, and an ASCII character is a unit of its own. -/
def AppendsAscii (lib : Libntfs σ) : Prop :=
  ∀ name u suffix, lib.mbstoucs name = .ok u → (∀ b ∈ suffix, b ≠ 0 ∧ b < 0x80) →
    lib.mbstoucs (name ++ suffix) = .ok (u ++ suffix.map UInt8.toUInt16)

theorem tmpName_eq (name : List UInt8) (renameSeq : Nat) :
    tmpName name renameSeq = name ++ tmpSuffix renameSeq := by
  rw [tmpName, tmpSuffix, List.append_assoc]

theorem tmpSuffix_ascii (renameSeq : Nat) : ∀ b ∈ tmpSuffix renameSeq, b ≠ 0 ∧ b < 0x80 := by
  intro b hb
  rw [tmpSuffix, List.mem_append] at hb
  cases hb with
  | inl hb =>
    have hinfix : tmpInfix.all (fun b => b ≠ 0 ∧ b < 0x80) = true := by decide
    simpa using List.all_eq_true.mp hinfix b hb
  | inr hb =>
    obtain ⟨i, _, rfl⟩ := List.mem_map.mp hb
    have hdigit : renameSeq / 10 ^ i % 10 < 10 := Nat.mod_lt _ (by omega)
    generalize renameSeq / 10 ^ i % 10 = x at hdigit
    have hnat : (UInt8.ofNat (0x30 + x)).toNat = 0x30 + x := by
      rw [UInt8.toNat_ofNat']
      omega
    constructor
    · intro hzero
      rw [hzero] at hnat
      have hz : (0 : UInt8).toNat = 0 := rfl
      omega
    · rw [UInt8.lt_iff_toNat_lt, hnat]
      show 0x30 + x < 0x80
      omega

theorem tmpUnits_length (nu : List UInt16) (renameSeq : Nat) :
    (tmpUnits nu renameSeq).length = nu.length + 19 := by
  simp [tmpUnits, tmpSuffix, tmpInfix, decimal10]

theorem tmpName_converts {lib : Libntfs σ} (ha : AppendsAscii lib) {name : List UInt8}
    {nu : List UInt16} (h : lib.mbstoucs name = .ok nu) (renameSeq : Nat) :
    lib.mbstoucs (tmpName name renameSeq) = .ok (tmpUnits nu renameSeq) := by
  rw [tmpName_eq]
  exact ha name nu (tmpSuffix renameSeq) h (tmpSuffix_ascii renameSeq)

/-- `old` refers to the source, and `new` to a file or an empty directory other than it. -/
structure Over (ns : Namespace) (ino xino : UInt64) (old new : Key) : Prop where
  source : ns.entry old = some ino
  target : ns.entry new = some xino
  differ : xino ≠ ino
  targetUser : FILE_first_user ≤ xino
  node : ∃ n, ns.node xino = some n ∧ (n.isDirectory = true → ns.Empty xino)

/-- Neither directory is `$Extend` or a reparse point, the source is no metadata and not the
directory of the new name, and the temporary name, with its number, is at most 255 units long and
free. -/
structure Replaceable (ns : Namespace) (renameSeq : Nat) (ino oldDir newDir : UInt64)
    (nu : List UInt16) : Prop where
  old : oldDir ≠ FILE_Extend
  new : newDir ≠ FILE_Extend
  user : FILE_first_user ≤ ino
  apart : ino ≠ newDir
  oldPlain : ∀ d, ns.node oldDir = some d → d.reparsePoint = false
  newPlain : ∀ d, ns.node newDir = some d → d.reparsePoint = false
  room : nu.length + 19 ≤ 255
  free : ns.entry (newDir, tmpUnits nu (renameSeq + 1)) = none

/-- `nfsk_rename` returns 0, and the source has the new name. -/
def GetsName (lib : Libntfs σ) (V : View σ) (renameSeq : Nat) (ino oldDir : UInt64)
    (oldName : List UInt8) (newDir : UInt64) (newName : List UInt8) (nu : List UInt16) (s : σ) :
    Prop :=
  ∃ s', nfskRenameImpl lib (fun _ => none) renameSeq oldDir oldName newDir newName s = .ok () s' ∧
    (V.names s').entry (newDir, nu) = some ino

/-! ## Step by step -/

section Over

variable {lib : Libntfs σ} {V : View σ} {ns : Namespace} {ino xino oldDir newDir : UInt64}
  {oldName newName : List UInt8} {ou nu : List UInt16}

/-- No step is made to fail. -/
abbrev smooth : Schedule := fun _ => none

theorem Over.displacing {old new : Key} (h : Over ns ino xino old new) (hwf : ns.WellFormed)
    (huser : FILE_first_user ≤ ino) : Displacing ns ino xino old new :=
  ⟨hwf, h.source, h.target, h.differ, huser, h.targetUser, h.node⟩

/-- The temporary name can be linked exactly if there is room for it. -/
theorem tmpLinks_iff (hdisp : Displacing ns ino xino (oldDir, ou) (newDir, nu))
    (ha : AppendsAscii lib) (hn : lib.mbstoucs newName = .ok nu) (k : Nat) :
    TmpLinks lib smooth ns xino newDir (tmpName newName k) ↔
      nu.length + 19 ≤ 255 ∧ ns.entry (newDir, tmpUnits nu k) = none ∧
        ∀ d, ns.node newDir = some d → d.reparsePoint = false := by
  have hconv := tmpName_converts ha hn k
  obtain ⟨d, hd, hdir⟩ := hdisp.wellFormed.directory _ _ hdisp.target
  constructor
  · rintro ⟨_, tu, htu, hl⟩
    rw [hconv] at htu
    cases htu
    refine ⟨?_, hl.absent, fun d' hd' => ?_⟩
    · rw [← tmpUnits_length nu k]
      exact hl.short
    · obtain ⟨d'', hd'', hplain, _⟩ := hl.dir
      rw [hd'] at hd''
      cases hd''
      exact hplain
  · rintro ⟨hroom, hfree, hplain⟩
    obtain ⟨n, hx, _⟩ := hdisp.node
    have hlen := tmpUnits_length nu k
    refine ⟨rfl, _, hconv, ?_, ?_, hdisp.target_apart, ⟨n, hx⟩, ⟨d, hd, hplain d hd, hdir⟩, hfree⟩
    · show tmpUnits nu k ≠ []
      rintro heq
      rw [heq] at hlen
      cases hlen
    · show (tmpUnits nu k).length ≤ 255
      rw [hlen]
      exact hroom

/-- The source gets the name exactly if it is not made to be in itself and its old name can be taken
away. -/
theorem movesOver_iff (hwf : ns.WellFormed) (h : Over ns ino xino (oldDir, ou) (newDir, nu))
    {n : NtfsInode} (hino : ns.node ino = some n) :
    MovesOver smooth ns ino oldDir newDir ↔
      ino ≠ newDir ∧ ∀ d, ns.node oldDir = some d → d.reparsePoint = false := by
  obtain ⟨d, hd, _⟩ := hwf.directory _ _ h.source
  constructor
  · rintro ⟨_, ⟨_, _, hapart⟩, _, d', hd', hplain⟩
    refine ⟨hapart, fun d'' hd'' => ?_⟩
    rw [hd''] at hd'
    cases hd'
    exact hplain
  · rintro ⟨hapart, hplain⟩
    exact ⟨rfl, ⟨rfl, ⟨n, hino⟩, hapart⟩, rfl, d, hd, hplain d hd⟩

/-- Taking the temporary name away leaves the new one to the source. -/
theorem cleaned_entry {tmp : Key} (h : Displacing ns ino xino (oldDir, ou) (newDir, nu))
    (ht : ns.entry tmp = none) {s : σ}
    (hclean : Cleaned V smooth ((taken ns ino xino (newDir, nu) tmp).unlink (oldDir, ou)) tmp xino
      s) : (V.names s).entry (newDir, nu) = some ino := by
  have htaken : (((taken ns ino xino (newDir, nu) tmp).unlink (oldDir, ou)).unlink tmp).entry
      (newDir, nu) = some ino := by
    have hnew : ((taken ns ino xino (newDir, nu) tmp).unlink (oldDir, ou)).entry (newDir, nu) =
        some ino := by
      rw [unlink_entry_of_other (h.taken_other (h.other_old.symm h.wellFormed)), link_entry_self]
    have hpair : ((taken ns ino xino (newDir, nu) tmp).unlink (oldDir, ou)).pair tmp = tmp :=
      (unlink_pair_of_other (h.taken_other (h.other_tmp_old ht))).trans (h.vacated_pair ht)
    rw [unlink_entry_of_other (other_of_ne hpair (h.tmp_ne_new ht).symm), hnew]
  obtain ⟨_, hs⟩ | ⟨_, hs⟩ := hclean.1 rfl
  · rw [hs.eq]
    exact htaken
  · rw [hs.eq, free_entry]
    exact htaken

/-- A call for a name that is taken replaces what has it, or fails where it cannot. -/
theorem nfskRename_over (hL : Lawful lib V) (ha : AppendsAscii lib) (hwf : ns.WellFormed)
    (ho : lib.mbstoucs oldName = .ok ou) (hn : lib.mbstoucs newName = .ok nu)
    (h : Over ns ino xino (oldDir, ou) (newDir, nu)) {n : NtfsInode} (hino : ns.node ino = some n)
    (renameSeq : Nat) :
    Spec (V.Is ns) (nfskRenameImpl lib smooth renameSeq oldDir oldName newDir newName)
      (fun _ s => Replaceable ns renameSeq ino oldDir newDir nu ∧
        (V.names s).entry (newDir, nu) = some ino)
      fun _ _ => ¬ Replaceable ns renameSeq ino oldDir newDir nu := by
  have hmoves := movesOver_iff hwf h hino
  refine nfskRename_taken hL ho hn h.source h.target h.differ ?_ ?_
  · intro hproceeds
    have hd := h.displacing hwf hproceeds.user
    have htmp := tmpLinks_iff hd ha hn (renameSeq + 1)
    by_cases hlinks : TmpLinks lib smooth ns xino newDir (tmpName newName (renameSeq + 1))
    · obtain ⟨hroom, hfree, hplain⟩ := htmp.mp hlinks
      obtain ⟨_, tu, htu, hl⟩ := hlinks
      have hconv := tmpName_converts ha hn (renameSeq + 1)
      refine Spec.conseq (displace_outcomes hL ho hn htu hd rfl hl) ?_ ?_
      · rintro _ s ⟨hover, hclean⟩
        obtain ⟨hapart, hold⟩ := hmoves.mp hover
        exact ⟨⟨hproceeds.old, hproceeds.new, hproceeds.user, hapart, hold, hplain, hroom, hfree⟩,
          cleaned_entry hd hl.absent hclean⟩
      · rintro e s ⟨⟨_, hstays⟩, _⟩ hr
        exact hstays (hmoves.mpr ⟨hr.apart, hr.oldPlain⟩)
    · refine Spec.conseq (displace_fails hL ns hlinks) (fun _ _ hf => hf.elim) ?_
      rintro e s _ hr
      exact hlinks (htmp.mpr ⟨hr.room, hr.free, hr.newPlain⟩)
  · rintro hno e s _ _ hr
    exact hno ⟨hr.old, hr.new, hr.user, h.node, rfl⟩

/-- Over a name that another record has, a file or an empty directory, the source is renamed exactly
if there is room for the temporary name, it is free, and the source does not go into itself. -/
theorem nfskRename_over_iff (hL : Lawful lib V) (ha : AppendsAscii lib)
    (ho : lib.mbstoucs oldName = .ok ou) (hn : lib.mbstoucs newName = .ok nu) {s : σ}
    (h : Over (V.names s) ino xino (oldDir, ou) (newDir, nu)) {n : NtfsInode}
    (hino : (V.names s).node ino = some n) (renameSeq : Nat) :
    GetsName lib V renameSeq ino oldDir oldName newDir newName nu s ↔
      Replaceable (V.names s) renameSeq ino oldDir newDir nu := by
  have hspec := nfskRename_over hL ha (V.wellFormed s) ho hn h hino renameSeq
  constructor
  · rintro ⟨s', hrun, _⟩
    exact (hspec.ok rfl hrun).1
  · intro hr
    cases hrun : nfskRenameImpl lib smooth renameSeq oldDir oldName newDir newName s with
    | ok u s' => exact ⟨s', hrun, (hspec.ok rfl hrun).2⟩
    | error e s' => exact absurd hr (hspec.error rfl hrun)

end Over

/-! ## Two names that cannot be replaced -/

theorem refLibntfs_ascii {name : List UInt8} (h : ∀ b ∈ name, b < 0x80) :
    refLibntfs.mbstoucs name = .ok (name.map UInt8.toUInt16) := by
  have hall : name.all (· < 0x80) = true := by
    rw [List.all_eq_true]
    exact fun b hb => decide_eq_true (h b hb)
  exact if_pos hall

theorem refLibntfs_appends : AppendsAscii refLibntfs := by
  intro name u suffix h hascii
  by_cases hname : ∀ b ∈ name, b < 0x80
  · rw [refLibntfs_ascii hname] at h
    rw [refLibntfs_ascii, List.map_append, Except.ok.inj h]
    intro b hb
    rcases List.mem_append.mp hb with hb | hb
    · exact hname b hb
    · exact (hascii b hb).2
  · simp [refLibntfs, hname] at h

/-- `a` over `b`, in a directory that has nothing else. -/
theorem nfskRename_over_twoFiles :
    GetsName refLibntfs RefState.view 0 20 5 [0x61] 5 [0x62] [0x62] twoFiles := by
  have hover : Over (RefState.view.names twoFiles) 20 21 (5, [0x61]) (5, [0x62]) :=
    ⟨rfl, rfl, by decide, by decide, ⟨21, false, false⟩, rfl, by simp⟩
  have hplain : ∀ d, (RefState.view.names twoFiles).node 5 = some d → d.reparsePoint = false := by
    rintro d hd
    cases hd
    rfl
  exact (nfskRename_over_iff refLibntfs_lawful refLibntfs_appends rfl rfl hover rfl 0).mpr
    ⟨by decide, by decide, by decide, by decide, hplain, hplain, by decide, rfl⟩

/-- 237 units of `b`. -/
def longName : List UInt16 := List.replicate 237 0x62

theorem longName_converts : refLibntfs.mbstoucs (List.replicate 237 0x62) = .ok longName := by
  rw [refLibntfs_ascii, List.map_replicate]
  · rfl
  · intro b hb
    rw [List.eq_of_mem_replicate hb]
    decide

theorem longName_length : longName.length = 237 := List.length_replicate

theorem longTarget_entries : ∀ e ∈ [((5, [0x61]), 20), ((5, longName), (21 : UInt64))],
    (e.1.2 ≠ [] ∧ e.1.2.length ≤ 255) ∧ MREF e.2 = e.2 ∧
      (([⟨5, false, true⟩, ⟨20, false, false⟩, ⟨21, false, false⟩] : List NtfsInode).find?
        fun n => n.mftNo = e.1.1).any NtfsInode.isDirectory = true := by
  intro e he
  simp only [List.mem_cons, List.not_mem_nil, or_false] at he
  obtain rfl | rfl := he
  · exact ⟨by decide, by decide, by decide⟩
  · refine ⟨⟨?_, ?_⟩, by decide, by decide⟩
    · exact List.ne_nil_of_length_pos (by rw [longName_length]; decide)
    · rw [longName_length]
      decide

/-- A file `a` (record 20) and a file with the long name (record 21). -/
def longTarget : RefState :=
  ofLists [((5, [0x61]), 20), ((5, longName), 21)]
    [⟨5, false, true⟩, ⟨20, false, false⟩, ⟨21, false, false⟩] longTarget_entries rootAndTwo_records

theorem longTarget_over : Over longTarget.ns 20 21 (5, [0x61]) (5, longName) := by
  refine ⟨rfl, ?_, by decide, by decide, ⟨21, false, false⟩, rfl, by simp⟩
  have hne : longName ≠ [0x61] := by
    intro heq
    have hlen := congrArg List.length heq
    rw [longName_length] at hlen
    cases hlen
  simp [longTarget, ofLists, hne.symm]

/-- `twoFiles` with what an earlier process left of a rename over `b` (record 22). -/
def leftover : RefState :=
  ofLists [((5, [0x61]), 20), ((5, [0x62]), 21), ((5, tmpUnits [0x62] 1), 22)]
    [⟨5, false, true⟩, ⟨20, false, false⟩, ⟨21, false, false⟩, ⟨22, false, false⟩]
    (by decide) (by decide)

/-- Neither is replaced: the temporary name has 256 units, or is there already. -/
theorem taken_not_replaced :
    Over longTarget.ns 20 21 (5, [0x61]) (5, longName) ∧ longName.length = 237 ∧
      ¬ GetsName refLibntfs RefState.view 0 20 5 [0x61] 5 (List.replicate 237 0x62) longName longTarget ∧
      Over leftover.ns 20 21 (5, [0x61]) (5, [0x62]) ∧
      ¬ GetsName refLibntfs RefState.view 0 20 5 [0x61] 5 [0x62] [0x62] leftover := by
  have hleft : Over leftover.ns 20 21 (5, [0x61]) (5, [0x62]) :=
    ⟨rfl, rfl, by decide, by decide, ⟨21, false, false⟩, rfl, by simp⟩
  refine ⟨longTarget_over, longName_length, ?_, hleft, ?_⟩
  · rintro ⟨s', hrun, _⟩
    have hspec := nfskRename_over refLibntfs_lawful refLibntfs_appends longTarget.wellFormed
      (rfl : refLibntfs.mbstoucs [0x61] = .ok [0x61]) longName_converts longTarget_over rfl 0
    have hroom := (hspec.ok (rfl : RefState.view.Is longTarget.ns longTarget) hrun).1.room
    rw [longName_length] at hroom
    omega
  · rintro ⟨s', hrun, _⟩
    have hspec := nfskRename_over refLibntfs_lawful refLibntfs_appends leftover.wellFormed
      (rfl : refLibntfs.mbstoucs [0x61] = .ok [0x61])
      (rfl : refLibntfs.mbstoucs [0x62] = .ok [0x62]) hleft rfl 0
    have hfree := (hspec.ok (rfl : RefState.view.Is leftover.ns leftover) hrun).1.free
    cases hfree

end Ntfs
end Usbrw
