import Mathlib.Data.Set.Basic
import Usbrw.Base.Run
import Usbrw.Ext.Resize

/-!
# Ext.Truncate

`extfsk_truncate`, and what a file shows where nothing was written since it was cut off there.

* `extfskTruncate`  — the code. Whole blocks are released; the rest of the last one stays.
* `LawfulPunch`     — what `ext2fs_punch` releases.
* `DataCall`        — a truncation or a write of a file.
* `ReadsZero`       — below its size the file shows zeros where it was not written.
* `Covered`         — a step shows no byte that was hidden.
* `readsZero_iff_covered` — in a run, the first holds all along exactly where the second does.
-/

namespace Usbrw
namespace Ext

open Call Region

variable {σ : Type}

/-- `blocksize` is `fs->blocksize`. -/
def extfskTruncate (fs : Ext2fs σ) (blocksize : UInt32) (ino newsize : UInt64) :
    EStateM Int σ Unit := do
  let inode ← orFail translateErrno (fs.readInode ino.toUInt32)
  let bs := blocksize.toUInt64
  let punchStart := (newsize + bs - 1) &&& ~~~(bs - 1)
  let inode ←
    if newsize < inode.iSize ∧ fs.inodeHasValidBlocks2 inode then
      orFail translateErrno (fs.punch ino.toUInt32 inode (punchStart / bs) (-1))
    else pure inode
  let inode ← orFail translateErrno (fs.inodeSizeSet inode newsize)
  let now := fs.time (← get)
  orFail translateErrno (fs.writeInode ino.toUInt32 { inode with iMtime := now, iCtime := now })

/-- Punching from a block on to the end releases these blocks, which then read as zero, and leaves
all other bytes alone. -/
structure LawfulPunch (fs : Ext2fs σ) (V : View σ) (blocksize : UInt32) : Prop where
  punch : ∀ v ino inode start, Spec (V.Is v) (fs.punch ino inode start (-1))
    (fun inode' s => inode'.node = inode.node ∧
      ((V.volume s).node = v.node ∨ (V.volume s).node = Function.update v.node ino inode.node) ∧
      (V.volume s).data = Function.update v.data ino fun p =>
        if p < start.toNat * blocksize.toNat then v.data ino p else 0)
    fun _ _ => True

inductive DataCall where
  | truncate (ino newsize : UInt64)
  | write (ino offset : UInt64) (buf : List UInt8)

def DataCall.run (fs : Ext2fs σ) (blocksize : UInt32) : DataCall → EStateM Int σ Unit
  | truncate ino newsize => extfskTruncate fs blocksize ino newsize
  | write ino offset buf => dropResult (extfskWrite fs ino offset buf)

/-! ## Truncation -/

section Truncate

variable {fs : Ext2fs σ} {V : View σ} {blocksize : UInt32}

/-- The size is set, and if the file was not to grow, bytes may have become zero. -/
structure TruncatedTo (v : Volume) (ino : UInt32) (newsize : UInt64) (v' : Volume) : Prop where
  size : (v'.node ino).size = newsize
  grown : (v.node ino).size ≤ newsize → v'.data ino = v.data ino
  shrunk : ∀ p, v'.data ino p = v.data ino p ∨ v'.data ino p = 0
  others : ∀ i, i ≠ ino → (v'.node i).size = (v.node i).size ∧ v'.data i = v.data i

/-- The size is set in the inode that was read, and the inode is written. -/
theorem setSize_spec (hL : Lawful fs V) {v w : Volume} {ino : UInt32} {inode : Ext2Inode}
    {newsize : UInt64} (hnodes : ∀ i, i ≠ ino → w.node i = v.node i)
    (hgrown : (v.node ino).size ≤ newsize → w.data ino = v.data ino)
    (hshrunk : ∀ p, w.data ino p = v.data ino p ∨ w.data ino p = 0)
    (hothers : ∀ i, i ≠ ino → w.data i = v.data i) :
    Spec (V.Is w) (do
      let inode ← orFail translateErrno (fs.inodeSizeSet inode newsize)
      let now := fs.time (← get)
      orFail translateErrno (fs.writeInode ino { inode with iMtime := now, iCtime := now }))
      (fun _ s => TruncatedTo v ino newsize (V.volume s)) fun _ _ => True := by
  refine Spec.bind_orFail (hL.inodeSizeSet w inode newsize) (fun _ _ _ => trivial) fun inode' =>
    Spec.assume ?_
  rintro rfl
  refine Spec.bind (Q := fun _ => V.Is w) (fun s hs => hs) fun s₀ => ?_
  refine Spec.orFail ((hL.writeInode w ino _).conseq_ok fun _ s hs => ?_) fun _ _ _ => trivial
  rw [hs.eq]
  refine ⟨?_, hgrown, hshrunk, fun i hi => ⟨?_, hothers i hi⟩⟩
  · simp [Ext2Inode.node]
  · simp [Function.update_of_ne hi, hnodes i hi]

theorem extfskTruncate_spec (hL : Lawful fs V) (hP : LawfulPunch fs V blocksize) (v : Volume)
    (ino newsize : UInt64) :
    Spec (V.Is v) (extfskTruncate fs blocksize ino newsize)
      (fun _ s => TruncatedTo v ino.toUInt32 newsize (V.volume s)) fun _ _ => True := by
  unfold extfskTruncate
  refine Spec.bind_orFail (hL.readInode v ino.toUInt32) (fun _ _ _ => trivial) fun inode =>
    Spec.assume fun hnode => ?_
  have hsize : inode.iSize = (v.node ino.toUInt32).size := congrArg Node.size hnode
  simp only
  by_cases hcut : newsize < inode.iSize ∧ fs.inodeHasValidBlocks2 inode = true
  · rw [if_pos hcut]
    refine Spec.bind_orFail (hP.punch v ino.toUInt32 inode _) (fun _ _ _ => trivial) fun inode' => ?_
    rintro s ⟨_, hnodes, hdata⟩
    refine setSize_spec hL ?_ ?_ ?_ ?_ s rfl
    · intro i hi
      rcases hnodes with hn | hn
      · rw [hn]
      · rw [hn, Function.update_of_ne hi]
    · intro hle
      rw [← hsize] at hle
      exact absurd hcut.1 (UInt64.not_lt.mpr hle)
    · intro p
      rw [hdata, Function.update_self]
      split
      · exact Or.inl rfl
      · exact Or.inr rfl
    · intro i hi
      rw [hdata, Function.update_of_ne hi]
  · rw [if_neg hcut]
    refine Spec.bind (Q := fun _ => V.Is v) (Spec.pure fun _ hs => hs) fun inode' => ?_
    exact setSize_spec hL (fun _ _ => rfl) (fun _ => rfl) (fun _ => Or.inl rfl) fun _ _ => rfl

end Truncate

/-! ## What a file shows -/

/-- The positions of the file `ino` that were written since it was last cut off at or below them.
With a length of 2^32 or more only the rest modulo 2^32 is written. -/
def DataCall.marks (ino : UInt32) (W : Set Nat) : DataCall → Set Nat
  | truncate i newsize => if i.toUInt32 = ino then { p | p ∈ W ∧ p < newsize.toNat } else W
  | write i offset buf =>
    if i.toUInt32 = ino then
      W ∪ { p | offset.toNat ≤ p ∧ p < offset.toNat + buf.length % 2 ^ 32 }
    else W

def fileStep (fs : Ext2fs σ) (blocksize : UInt32) (ino : UInt32) (t : σ × Set Nat) (c : DataCall) :
    σ × Set Nat :=
  (final (c.run fs blocksize t.1), c.marks ino t.2)

def Accepted (fs : Ext2fs σ) (blocksize : UInt32) (t : σ × Set Nat) (c : DataCall) : Prop :=
  ∃ s', c.run fs blocksize t.1 = .ok () s'

def ReadsZero (V : View σ) (ino : UInt32) (t : σ × Set Nat) : Prop :=
  ∀ p, p < ((V.volume t.1).node ino).size.toNat → p ∉ t.2 → (V.volume t.1).data ino p = 0

/-- Growing a file and writing past its end show no byte that the size had hidden, and what a write
stores elsewhere than it was asked to, because its position has 32 bits, are zeros. -/
def Covered (V : View σ) (ino : UInt32) (t : σ × Set Nat) : DataCall → Prop
  | .truncate i newsize => i.toUInt32 = ino →
    ∀ p, ((V.volume t.1).node ino).size.toNat ≤ p → p < newsize.toNat → p ∉ t.2 →
      (V.volume t.1).data ino p = 0
  | .write i offset buf => i.toUInt32 = ino →
    let written := buf.length % 2 ^ 32
    let pos := offset.toNat % 2 ^ 32
    ∀ p, p < (offset.toNat + written) % 2 ^ 64 → p ∉ t.2 →
      ¬ (offset.toNat ≤ p ∧ p < offset.toNat + written) →
      if pos ≤ p ∧ p < pos + written then buf[p - pos]? = some 0
      else ((V.volume t.1).node ino).size.toNat ≤ p → (V.volume t.1).data ino p = 0

section Step

variable {fs : Ext2fs σ} {V : View σ} {blocksize ino : UInt32} {t : σ × Set Nat}

theorem truncate_step (hL : Lawful fs V) (hP : LawfulPunch fs V blocksize) {i newsize : UInt64}
    (hzero : ReadsZero V ino t) (hsucc : Accepted fs blocksize t (.truncate i newsize)) :
    ReadsZero V ino (fileStep fs blocksize ino t (.truncate i newsize)) ↔
      Covered V ino t (.truncate i newsize) := by
  obtain ⟨s', hrun⟩ := hsucc
  have hto := (extfskTruncate_spec hL hP (V.volume t.1) i newsize).ok rfl hrun
  have hfinal : fileStep fs blocksize ino t (.truncate i newsize) =
      (s', (DataCall.truncate i newsize).marks ino t.2) := by
    rw [fileStep, hrun]
    rfl
  rw [hfinal]
  by_cases hi : i.toUInt32 = ino
  · subst hi
    simp only [ReadsZero, Covered, DataCall.marks, if_true, hto.size, Set.mem_ofPred_eq,
      forall_const]
    constructor
    · intro hall p hsize hp hW
      have hle : ((V.volume t.1).node i.toUInt32).size ≤ newsize := by
        rw [UInt64.le_iff_toNat_le]
        omega
      rw [← hto.grown hle]
      exact hall p hp fun hmem => hW hmem.1
    · intro hcov p hp hW
      have hold : (V.volume t.1).data i.toUInt32 p = 0 := by
        by_cases hsize : p < ((V.volume t.1).node i.toUInt32).size.toNat
        · exact hzero p hsize fun hmem => hW ⟨hmem, hp⟩
        · exact hcov p (Nat.not_lt.mp hsize) hp fun hmem => hW ⟨hmem, hp⟩
      rcases hto.shrunk p with h | h
      · rw [h, hold]
      · exact h
  · obtain ⟨hsize, hdata⟩ := hto.others ino fun h => hi h.symm
    refine iff_of_true ?_ fun h => absurd h hi
    simp only [ReadsZero, DataCall.marks, if_neg hi, hsize, hdata]
    exact hzero

/-- A byte that was not written on purpose is zero after a write. -/
theorem overwrite_zero_iff {img : Nat → UInt8} {pos size w p : Nat} {buf : List UInt8}
    (hw : w ≤ buf.length) (hzero : p < size → img p = 0) :
    overwrite img pos (buf.take w) p = 0 ↔
      if pos ≤ p ∧ p < pos + w then buf[p - pos]? = some 0 else size ≤ p → img p = 0 := by
  have hlen : (buf.take w).length = w := by simp [hw]
  by_cases hin : pos ≤ p ∧ p < pos + w
  · have hcell : some (overwrite img pos (buf.take w) p) = (buf.take w)[p - pos]? :=
      overwrite_inside hin.1 (by omega)
    rw [List.getElem?_take_of_lt (by omega)] at hcell
    rw [if_pos hin, ← hcell, Option.some.injEq]
  · rw [if_neg hin, overwrite_outside (by omega)]
    constructor
    · exact fun h _ => h
    · intro h
      by_cases hp : p < size
      · exact hzero hp
      · exact h (Nat.not_lt.mp hp)

theorem write_step (hL : Lawful fs V) {i offset : UInt64} {buf : List UInt8}
    (hzero : ReadsZero V ino t) (hsucc : Accepted fs blocksize t (.write i offset buf)) :
    ReadsZero V ino (fileStep fs blocksize ino t (.write i offset buf)) ↔
      Covered V ino t (.write i offset buf) := by
  obtain ⟨s', hrun⟩ := hsucc
  have hfinal : fileStep fs blocksize ino t (.write i offset buf) =
      (s', (DataCall.write i offset buf).marks ino t.2) := by
    rw [fileStep, hrun]
    rfl
  rw [hfinal]
  obtain ⟨n, hwrite⟩ := dropResult_ok_iff.mp hrun
  obtain ⟨hn, hv⟩ := (extfskWrite_spec hL (V.volume t.1) i offset buf).ok rfl hwrite
  have hlen : n.toNat = buf.length % 2 ^ 32 := by rw [hn, UInt32.toNat_ofNat']
  have hafter : V.volume s' = afterWrite (V.volume t.1) i.toUInt32 offset buf n := hv.eq
  by_cases hi : i.toUInt32 = ino
  · subst hi
    have hw : buf.length % 2 ^ 32 ≤ buf.length := Nat.mod_le ..
    simp only [ReadsZero, Covered, DataCall.marks, if_true, forall_const, hafter, afterWrite_size,
      afterWrite_data, Set.mem_union, Set.mem_ofPred_eq, not_or, and_imp, hlen]
    refine forall_congr' fun p => forall_congr' fun _ => forall_congr' fun hW =>
      forall_congr' fun _ => ?_
    exact overwrite_zero_iff hw fun hp => hzero p hp hW
  · refine iff_of_true ?_ fun h => absurd h hi
    have hne : ino ≠ i.toUInt32 := fun h => hi h.symm
    have hsize : (V.volume s').node ino = (V.volume t.1).node ino := by
      simp [hafter, afterWrite, Volume.resize, Function.update_of_ne hne]
    have hdata : (V.volume s').data ino = (V.volume t.1).data ino := by
      simp [hafter, afterWrite, Function.update_of_ne hne]
    simp only [ReadsZero, DataCall.marks, if_neg hi, hsize, hdata]
    exact hzero

theorem readsZero_step (hL : Lawful fs V) (hP : LawfulPunch fs V blocksize) (t : σ × Set Nat)
    (c : DataCall) (hzero : ReadsZero V ino t) (hsucc : Accepted fs blocksize t c) :
    ReadsZero V ino (fileStep fs blocksize ino t c) ↔ Covered V ino t c := by
  cases c with
  | truncate i newsize => exact truncate_step hL hP hzero hsucc
  | write i offset buf => exact write_step hL hzero hsucc

/-- A run may begin with a file that is taken to be written everywhere. -/
theorem readsZero_univ (s : σ) : ReadsZero V ino (s, Set.univ) :=
  fun p _ hp => absurd (Set.mem_univ p) hp

/-- In a run of calls that succeed, on any files, nothing that was cut off comes back in `ino`
exactly if no step shows a byte that was hidden. -/
theorem readsZero_iff_covered (hL : Lawful fs V) (hP : LawfulPunch fs V blocksize)
    {calls : List DataCall} (hzero : ReadsZero V ino t)
    (hsucc : Run.Along (fileStep fs blocksize ino) (Accepted fs blocksize) t calls) :
    (∀ k, ReadsZero V ino ((calls.take k).foldl (fileStep fs blocksize ino) t)) ↔
      Run.Along (fileStep fs blocksize ino) (Covered V ino) t calls :=
  Run.always_iff_along (readsZero_step hL hP) hzero hsucc

end Step

/-! ## A library that obeys the laws -/

/-- The library of `Ext.Reference`, which punches from any block on. -/
def punchLibrary (blocksize : UInt32) : Ext2fs RefState :=
  { refLibrary fun _ => [] with
    punch := fun ino inode start _ s =>
      if start = 0 then .ok inode { s with volume := s.volume.clear ino }
      else .ok inode { s with
        volume := s.volume.setData ino fun p =>
          if p < start.toNat * blocksize.toNat then s.volume.data ino p else 0 } }

theorem punchLibrary_lawful (blocksize : UInt32) : Lawful (punchLibrary blocksize) RefState.view :=
  { refLibrary_lawful fun _ => [] with }

theorem punchLibrary_punches (blocksize : UInt32) :
    LawfulPunch (punchLibrary blocksize) RefState.view blocksize where
  punch := by
    intro v ino inode start s hs
    rw [← show s.volume = v from hs]
    simp only [punchLibrary]
    by_cases hstart : start = 0
    · rw [if_pos hstart]
      refine ⟨rfl, Or.inl rfl, ?_⟩
      simp [hstart, RefState.view, Volume.clear, Volume.setData, Volume.setDir]
    · rw [if_neg hstart]
      exact ⟨rfl, Or.inl rfl, rfl⟩

/-- A file of a hundred ones. -/
def hundredOnes : RefState := oneFile 12 100 fun _ => 1

/-- Cut off at `n`, and grown again. -/
def cutAndGrow (n : UInt64) : List DataCall := [.truncate 12 n, .truncate 12 100]

def runCuts (n : UInt64) (k : Nat) : RefState × Set Nat :=
  ((cutAndGrow n).take k).foldl (fileStep (punchLibrary 1024) 1024 12) (hundredOnes, Set.univ)

/-- Emptied, the file has lost its block. -/
theorem readsZero_emptied :
    ReadsZero RefState.view 12 (runCuts 0 1) ∧ ReadsZero RefState.view 12 (runCuts 0 2) := by
  have hsucc : Run.Along (fileStep (punchLibrary 1024) 1024 12) (Accepted (punchLibrary 1024) 1024)
      (hundredOnes, Set.univ) (cutAndGrow 0) := ⟨⟨_, rfl⟩, ⟨_, rfl⟩, trivial⟩
  have hcov : Run.Along (fileStep (punchLibrary 1024) 1024 12) (Covered RefState.view 12)
      (hundredOnes, Set.univ) (cutAndGrow 0) :=
    ⟨fun _ p _ hp => absurd hp (Nat.not_lt_zero p), fun _ _ _ _ _ => rfl, trivial⟩
  have hall := (readsZero_iff_covered (punchLibrary_lawful 1024) (punchLibrary_punches 1024)
    (readsZero_univ hundredOnes) hsucc).mpr hcov
  exact ⟨hall 1, hall 2⟩

/-- Cut off inside its only block, the file shows the old bytes when it grows again. -/
theorem stale_byte :
    Run.Along (fileStep (punchLibrary 1024) 1024 12) (Accepted (punchLibrary 1024) 1024)
      (hundredOnes, Set.univ) (cutAndGrow 50) ∧
    ((runCuts 50 2).1.volume.node 12).size = 100 ∧ 50 ∉ (runCuts 50 2).2 ∧
    (runCuts 50 2).1.volume.data 12 50 = 1 ∧ ¬ ReadsZero RefState.view 12 (runCuts 50 2) := by
  have hcut : 50 ∉ (runCuts 50 2).2 := fun hmem => absurd hmem.1.2 (by decide)
  refine ⟨⟨⟨_, rfl⟩, ⟨_, rfl⟩, trivial⟩, rfl, hcut, rfl, fun hzero => ?_⟩
  have hbyte : (1 : UInt8) = 0 := hzero 50 (by decide) hcut
  exact absurd hbyte (by decide)

end Ext
end Usbrw
