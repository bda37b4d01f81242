import Usbrw.Base.Run
import Usbrw.Ntfs.Invariants
import Usbrw.Ntfs.ItemRuns
import Usbrw.Ntfs.ReferenceRecord

/-!
# Ntfs.FreeSpace

Whether `volumeStatistics` of a mounted volume is what `nfsk_fsstat` returns.

* `LawfulStatfs` — the library, whatever it is asked to do, leaves counts that a volume can have.
* `Idle`         — a call that neither takes nor gives back anything that is counted.
* `volumeStatistics_always_iff` — the statistics are current all along a run exactly if every call of it
  is idle.
* `createItem_stale` — a call that makes a file never is.
-/

namespace Usbrw
namespace Ntfs

open Call

variable {σ : Type}

structure LawfulStatfs (lib : Libstatfs σ) (g : Geometry) : Prop where
  keeps : LibraryKeeps lib (Sane lib g)
  getFreeSpace : ∀ s, Sane lib g s → Sane lib g (lib.getFreeSpace s)

/-- The call leaves as many free clusters, free records and bytes of the bitmap as there were. -/
def Idle (lib : Libstatfs σ) (windowsNames : Bool) (v : MountedVolume σ) (c : FileCall) : Prop :=
  counts lib (step lib windowsNames v c).raw = counts lib v.raw

instance (lib : Libstatfs σ) (windowsNames : Bool) (v : MountedVolume σ) (c : FileCall) :
    Decidable (Idle lib windowsNames v c) :=
  inferInstanceAs (Decidable (counts lib (step lib windowsNames v c).raw = counts lib v.raw))

section Runs

variable {lib : Libstatfs σ} {g : Geometry} {raw : σ}

theorem countFree_sane (hL : LawfulStatfs lib g) {s : σ} (hs : Sane lib g s) :
    Sane lib g (countFree lib s) := by
  unfold countFree
  split
  · exact hs
  · exact hL.getFreeSpace s hs

/-- What is cached while mounting is what was counted then. -/
theorem mounted_current_iff (hL : LawfulStatfs lib g) (hraw : Sane lib g raw) :
    Current lib (mounted lib raw) ↔ counts lib (mounted lib raw).raw = counts lib raw := by
  have hiff := statFSResult_iff hraw (countFree_sane hL hraw)
  exact hiff.trans eq_comm

/-- The cache is left alone, so that it is current after a call where the counts are as before. -/
theorem step_current_iff (hL : LawfulStatfs lib g) (windowsNames : Bool) {v : MountedVolume σ}
    (c : FileCall) (hv : Current lib v) (hs : Sane lib g v.raw) :
    Current lib (step lib windowsNames v c) ↔ Idle lib windowsNames v c := by
  have hs' : Sane lib g (step lib windowsNames v c).raw := step_keeps hL.keeps windowsNames v c hs
  have hcache : volumeStatistics (step lib windowsNames v c) = volumeStatistics v := rfl
  have hreport : volumeStatistics v = statFSResult (nfskFsstatImpl lib v.raw).1 := hv
  unfold Current
  rw [hcache, hreport, statFSResult_iff hs hs']
  exact eq_comm

/-- Nothing but mounting the volume asks for the statistics. -/
theorem volumeStatistics_always_iff (hL : LawfulStatfs lib g) (hraw : Sane lib g raw)
    (windowsNames : Bool) (cs : List FileCall) :
    (∀ k, Current lib ((cs.take k).foldl (step lib windowsNames) (mounted lib raw))) ↔
      counts lib (mounted lib raw).raw = counts lib raw ∧
        Run.Along (step lib windowsNames) (Idle lib windowsNames) (mounted lib raw) cs := by
  have hsane : Run.Along (step lib windowsNames) (fun v _ => Sane lib g v.raw) (mounted lib raw) cs := by
    have hstep : ∀ (v : MountedVolume σ) (c : FileCall), Sane lib g v.raw →
        Sane lib g v.raw ∧ Sane lib g (step lib windowsNames v c).raw :=
      fun v c hv => ⟨hv, step_keeps hL.keeps windowsNames v c hv⟩
    have hmounted : Sane lib g (mounted lib raw).raw := countFree_sane hL hraw
    exact Run.along_of_steps hstep hmounted
  have hstep : ∀ v c, Current lib v → Sane lib g v.raw →
      (Current lib (step lib windowsNames v c) ↔ Idle lib windowsNames v c) :=
    fun v c hv hs => step_current_iff hL windowsNames c hv hs
  constructor
  · intro hall
    have hmounted : Current lib (mounted lib raw) := hall 0
    exact ⟨(mounted_current_iff hL hraw).mp hmounted,
      (Run.always_iff_along hstep hmounted hsane).mp hall⟩
  · rintro ⟨hcounts, hidle⟩
    have hmounted := (mounted_current_iff hL hraw).mpr hcounts
    exact (Run.always_iff_along hstep hmounted hsane).mpr hidle

end Runs

/-! ## New files -/

/-- A record that is made is one of those that were free. What leads up to that, and what follows it,
leaves the counts alone. -/
structure TakesRecord (lib : Libstatfs σ) : Prop where
  inodeOpen : ∀ r c, Keeps (fun s => counts lib s = c) (lib.inodeOpen r)
  inodeClose : ∀ ni c, Keeps (fun s => counts lib s = c) (lib.inodeClose ni)
  inodeCloseInDir : ∀ ni dirNi c, Keeps (fun s => counts lib s = c) (lib.inodeCloseInDir ni dirNi)
  inodeUpdateTimes : ∀ ni w s, counts lib (lib.inodeUpdateTimes ni w s) = counts lib s
  create : ∀ dirNi uname type c, Spec (fun s => counts lib s = c) (lib.create dirNi uname type)
    (fun _ s => counts lib s ≠ c) fun _ _ => True

section Create

variable {lib : Libstatfs σ} {g : Geometry}

theorem nfskCreate_takes (hT : TakesRecord lib) (windowsNames : Bool) (dirMft : UInt64)
    (name : List UInt8) (type : Char) (c : Counts) :
    Spec (fun s => counts lib s = c) (nfskCreateImpl lib.toLibcreate windowsNames dirMft name type)
      (fun _ s => counts lib s ≠ c) fun _ _ => True := by
  have hfinish : ∀ dirNi ni, Keeps (fun s => counts lib s ≠ c) (finishNew lib.toLibcreate dirNi ni) := by
    intro dirNi ni
    refine finishNew_keeps (Keeps.of_value (hT.inodeCloseInDir ni dirNi) (· ≠ c)) fun s hs => ?_
    rwa [hT.inodeUpdateTimes]
  unfold nfskCreateImpl
  refine Spec.guard (fun _ _ _ => trivial) fun _ => Spec.guard (fun _ _ _ => trivial) fun _ => ?_
  cases hu : lib.mbstoucs name with
  | error e =>
    exact Spec.bind_orFail (convert_fails lib.toLibntfs hu) (fun _ _ _ => trivial) fun _ _ hf => hf.elim
  | ok uname =>
    rw [orFail_bind_convert hu]
    refine Spec.guard (fun _ _ _ => trivial) fun _ => ?_
    refine Spec.bind_orFail (hT.inodeOpen dirMft c) (fun _ _ _ => trivial) fun dirNi => ?_
    -- the directory is closed after whatever was done in it
    refine Spec.bind (Q := fun _ s => counts lib s ≠ c)
      (Spec.onFail (E := fun _ _ => True) ?_ fun _ _ _ => trivial) fun mft => ?_
    · refine Spec.guard (fun _ _ _ => trivial) fun _ => ?_
      refine Spec.bind (Spec.conseq_error (refuseName_keeps lib.toLibcreate windowsNames uname)
        fun _ _ _ => trivial) fun _ => ?_
      refine Spec.bind_orFail (hT.create dirNi uname _ c) (fun _ _ _ => trivial) fun ni => ?_
      exact Spec.conseq_error (hfinish dirNi ni) fun _ _ _ => trivial
    · have hclose := Keeps.of_value (hT.inodeClose dirNi) (· ≠ c)
      exact Spec.bind_orFail hclose (fun _ _ _ => trivial) fun _ => Spec.pure fun _ hs => hs

theorem createItem_takes (hT : TakesRecord lib) (windowsNames : Bool) (name : FSFileName)
    (type : ItemType) (directory : FSItem) (c : Counts) :
    Spec (fun v : NTFSVolume σ => counts lib v.raw = c)
      (createItem lib.toLibvolume windowsNames name type directory)
      (fun _ v => counts lib v.raw ≠ c) fun _ _ => True := by
  unfold createItem
  split
  · refine Spec.bind (bridged_spec (nfskCreate_takes hT windowsNames _ _ _ c)) fun mft => ?_
    have hitem := @itemFor_keeps _ (fun s => counts lib s ≠ c) mft
    exact Spec.bind (Spec.conseq_error (hitem _) fun _ _ _ => trivial) fun _ => Spec.pure fun _ hv => hv
  · exact Spec.throw fun _ _ => trivial

/-- Every file that is made leaves the statistics behind. -/
theorem createItem_stale (hL : LawfulStatfs lib g) (hT : TakesRecord lib) (windowsNames : Bool)
    {v : MountedVolume σ} {v' : NTFSVolume σ} {name : FSFileName} {type : ItemType}
    {directory : FSItem} {made : FSItem × FSFileName} (hv : Current lib v) (hs : Sane lib g v.raw)
    (hrun : createItem lib.toLibvolume windowsNames name type directory v.toNTFSVolume = .ok made v') :
    ¬ Current lib (step lib windowsNames v (.createItem name type directory)) := by
  rw [step_current_iff hL windowsNames _ hv hs]
  have hend : (step lib windowsNames v (.createItem name type directory)).toNTFSVolume = v' := by
    show final (dropResult (createItem lib.toLibvolume windowsNames name type directory)
      v.toNTFSVolume) = v'
    rw [final_dropResult, hrun, final_ok]
  have htaken := (createItem_takes hT windowsNames name type directory (counts lib v.raw)).ok rfl hrun
  unfold Idle
  rwa [hend]

end Create

/-! ## A volume of 64 records -/

def freeRecords (s : RefState) : Nat := (RefState.records.filter fun r => s.ns.node r = none).length

/-- `refLibvolume`, with files that have no data. The records below 16 are in use. -/
def refLibstatfs : Libstatfs RefState where
  toLibvolume := refLibvolume []
  errno _ := 0
  timespec2ntfs t := t * 10000000 + NTFS_TIME_OFFSET
  flags _ _ := 0
  setFlags _ _ s := s
  setTime _ _ _ s := s
  attrOpen _ := throw ⟨ENOENT, ENOENT_pos⟩
  attrClose _ s := s
  attrTruncate _ _ := throw noSpace
  attrPwrite _ _ _ := throw noSpace
  setNtfsAttrib _ _ := pure ()
  linkCount _ _ := 1
  dataSize _ _ := 0
  allocatedSize _ _ := 0
  knownSize _ _ := true
  setKnownSize _ _ _ s := s
  time _ _ _ := NTFS_TIME_OFFSET
  lastMftChange _ _ := NTFS_TIME_OFFSET
  ntfs2timespec t := (t - NTFS_TIME_OFFSET) / 10000000
  makeSymlink _ := throw ⟨ENOENT, ENOENT_pos⟩
  reparseTag _ s := (0, s)
  indexOpen _ := throw ⟨ENOENT, ENOENT_pos⟩
  indexClose _ s := s
  malloc _ := pure ()
  attrPread _ _ _ := throw ⟨ EIO, EIO_pos⟩
  ucstombsErrno _ := ⟨EILSEQ, EILSEQ_pos⟩
  data :=
    { inodeOpen := fun r env =>
        match env.state.ns.node r with
        | some ni => (env, some ni)
        | none => ({ env with errno := ENOENT }, none)
      inodeClose := fun _ env => (env, false)
      attrOpen := fun _ env => ({ env with errno := ENOENT }, none)
      attrClose := fun _ env => env
      attrPread := fun _ _ _ env => ({ env with errno := EIO }, -1, [])
      attrPwrite := fun _ _ _ _ env => ({ env with errno := ENOSPC }, -1)
      setArchive := fun _ env => env
      inodeUpdateTimes := fun _ _ env => env }
  clusterSize _ := 4096
  nrClusters _ := 1000
  freeClusters _ := 900
  freeMftRecords s := Int64.ofNat (freeRecords s)
  mftBitmapSize _ := some 8
  volName _ := none
  freeSpaceKnown _ := true
  getFreeSpace s := s

def refGeometry : Geometry where
  clusterSize := 4096
  nrClusters := 1000
  clusterSize_pos := by decide
  bytes_lt := by decide

theorem freeRecords_le (s : RefState) : freeRecords s ≤ 48 := by
  have hlen : RefState.records.length = 48 := by decide
  rw [← hlen]
  exact List.length_filter_le _ _

theorem available_ofNat {n : Nat} (h : n < 2 ^ 63) : (available (Int64.ofNat n)).toNat = n := by
  have hint : (Int64.ofNat n).toInt = n := Int64.toInt_ofNat_of_lt h
  unfold available
  by_cases hpos : 0 < Int64.ofNat n
  · rw [if_pos hpos, Int64.toUInt64_ofNat', UInt64.toNat_ofNat_of_lt' (Nat.lt_trans h (by decide))]
  · rw [Int64.lt_iff_toInt_lt, Int64.toInt_zero, hint] at hpos
    rw [if_neg (by rwa [Int64.lt_iff_toInt_lt, Int64.toInt_zero, hint])]
    show 0 = n
    omega

theorem freeMftRecords_eq (s : RefState) :
    (counts refLibstatfs s).freeMftRecords.toNat = freeRecords s :=
  available_ofNat (Nat.lt_of_le_of_lt (freeRecords_le s) (by decide))

theorem refLibstatfs_sane (s : RefState) : Sane refLibstatfs refGeometry s := by
  have hfree : (counts refLibstatfs s).freeClusters = available 900 := rfl
  have hbitmap : (counts refLibstatfs s).mftBitmapSize = 8 := rfl
  refine ⟨rfl, rfl, rfl, by rw [hfree]; decide, ?_, by rw [hbitmap]; decide⟩
  intro _
  rw [freeMftRecords_eq, hbitmap]
  exact Nat.lt_of_le_of_lt (freeRecords_le s) (by decide)

theorem refLibstatfs_lawful : LawfulStatfs refLibstatfs refGeometry where
  keeps := LibraryKeeps.of_forall refLibstatfs_sane
  getFreeSpace := fun s _ => refLibstatfs_sane s

/-- A record that is put to use. -/
theorem freeRecords_lt {s s' : RefState} {r : UInt64} (hmem : r ∈ RefState.records)
    (hfree : s.ns.node r = none)
    (h : ∀ x, s'.ns.node x = none ↔ x ≠ r ∧ s.ns.node x = none) : freeRecords s' < freeRecords s := by
  have hfilter : (RefState.records.filter fun x => s'.ns.node x = none) =
      (RefState.records.filter fun x => s.ns.node x = none).filter (· ≠ r) := by
    rw [List.filter_filter]
    congr 1
    funext x
    simp [h]
  unfold freeRecords
  rw [hfilter, List.length_filter_lt_length_iff_exists]
  exact ⟨r, List.mem_filter.mpr ⟨hmem, decide_eq_true hfree⟩, by simp⟩

theorem make_takes {d n : NtfsInode} {u : List UInt16} {isDirectory : Bool} {s s' : RefState}
    (h : RefState.make d u isDirectory s = .ok n s') : freeRecords s' < freeRecords s := by
  unfold RefState.make at h
  cases hr : s.freeRecord with
  | none =>
    rw [hr] at h
    cases h
  | some r =>
    have hmem : r ∈ RefState.records := List.mem_of_find?_eq_some hr
    have hfree : s.ns.node r = none := (s.freeRecord_spec hr).1
    simp only [hr] at h
    split at h
    · cases h
      have hcreated : ∀ x, (s.ns.create (d.mftNo, u) ⟨r, false, isDirectory⟩).node x = none ↔
          x ≠ r ∧ s.ns.node x = none := by
        intro x
        by_cases hx : x = r
        · subst hx
          simp [@create_node_self s.ns (d.mftNo, u) ⟨x, false, isDirectory⟩]
        · rw [create_node_of_ne hx]
          simp [hx]
      exact freeRecords_lt hmem hfree hcreated
    · cases h

theorem refLibstatfs_takes : TakesRecord refLibstatfs where
  inodeOpen := by
    intro r c s hs
    simp only [refLibstatfs, refLibvolume, refLibcreate, refLibntfs]
    cases s.ns.node r with
    | some n => exact hs
    | none => exact hs
  inodeClose := fun _ _ _ hs => hs
  inodeCloseInDir := fun _ _ _ _ hs => hs
  inodeUpdateTimes := fun _ _ _ => rfl
  create := by
    intro d u type c s hs
    cases hrun : refLibstatfs.create d u type s with
    | error e s' => trivial
    | ok n s' =>
      have hmade : RefState.make d u (type = S_IFDIR) s = .ok n s' := hrun
      intro heq
      have hfree := congrArg (fun c => c.freeMftRecords.toNat) (heq.trans hs.symm)
      simp only [freeMftRecords_eq] at hfree
      exact absurd hfree (Nat.ne_of_lt (make_takes hmade))

/-- A name that `twoFiles` does not have. -/
def nameC : FSFileName := ⟨some [0x63]⟩

/-- `c` is removed, which fails. -/
def removesNothing : List FileCall := [.removeItem root nameC root]

theorem statistics_stay_current :
    Current refLibstatfs (removesNothing.foldl (step refLibstatfs false)
      (mounted refLibstatfs twoFiles)) := by
  have hiff := volumeStatistics_always_iff refLibstatfs_lawful (refLibstatfs_sane twoFiles) false
    removesNothing
  exact hiff.mpr ⟨rfl, by decide, trivial⟩ 1

/-- A file `c` is made in the root directory. -/
def makesFile : FileCall := .createItem nameC .file root

/-- One of 46 free records is taken, and 46 are still reported. -/
theorem statistics_stale :
    LawfulStatfs refLibstatfs refGeometry ∧ Sane refLibstatfs refGeometry twoFiles ∧
      Current refLibstatfs (mounted refLibstatfs twoFiles) ∧
      (volumeStatistics (step refLibstatfs false (mounted refLibstatfs twoFiles) makesFile)).freeFiles =
        46 ∧
      (nfskFsstatImpl refLibstatfs
        (step refLibstatfs false (mounted refLibstatfs twoFiles) makesFile).raw).1.freeFiles = 45 ∧
      ¬ Current refLibstatfs (step refLibstatfs false (mounted refLibstatfs twoFiles) makesFile) := by
  have hL := refLibstatfs_lawful
  have hraw := refLibstatfs_sane twoFiles
  have hmounted : Current refLibstatfs (mounted refLibstatfs twoFiles) :=
    (mounted_current_iff hL hraw).mpr rfl
  refine ⟨hL, hraw, hmounted, by decide, by decide, ?_⟩
  exact createItem_stale hL refLibstatfs_takes false hmounted hraw rfl

end Ntfs
end Usbrw
