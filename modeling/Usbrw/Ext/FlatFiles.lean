import Usbrw.Base.FlatFile
import Usbrw.Base.Mask
import Usbrw.Ext.Resize
import Usbrw.Ext.Truncate

/-!
# Ext.FlatFiles

Runs of `extfsk_read`, `extfsk_write` and `extfsk_truncate` on the files of a volume, as runs on
files that are nothing but their bytes. The bridge falls short of that in known ways, and a run is
held to what is left: positions of 32 bits, writes that reach the end of the file, and cuts that
leave nothing but zeros in the last block.

* `ZeroPast`        — what lies past the end of a file is zero; calls that keep to it keep it.
* `punched_bytes`   — where a truncation punches from, in bytes.
* `extfskTruncate_exact` — what it leaves of the data.
* `dataRun_refines` — every answer of a run is the one of flat files.
-/

namespace Usbrw
namespace Ext

open Call Region Run Service FlatFile

variable {σ : Type}

/-! ## What a truncation leaves -/

/-- The end of the block that `n` is in, or `n` where one begins. -/
def blockEnd (blocksize : UInt32) (n : Nat) : Nat :=
  (n + blocksize.toNat - 1) / blocksize.toNat * blocksize.toNat

theorem le_blockEnd {blocksize : UInt32} (hpos : 0 < blocksize.toNat) (n : Nat) :
    n ≤ blockEnd blocksize n := by
  unfold blockEnd
  have hdiv := Nat.div_add_mod (n + blocksize.toNat - 1) blocksize.toNat
  have hmod := Nat.mod_lt (n + blocksize.toNat - 1) hpos
  rw [Nat.mul_comm] at hdiv
  omega

theorem punched_bytes {blocksize : UInt32} (hbs : Mask.IsPow2 blocksize) {newsize : UInt64}
    (hn : newsize.toNat + blocksize.toNat ≤ 2 ^ 64) :
    (((newsize + blocksize.toUInt64 - 1) &&& ~~~(blocksize.toUInt64 - 1)) /
      blocksize.toUInt64).toNat * blocksize.toNat = blockEnd blocksize newsize.toNat := by
  have hpos := hbs.pos
  have hpred : blocksize.toUInt64 - 1 = (blocksize - 1).toUInt64 := by
    apply UInt64.toNat_inj.mp
    rw [Mask.toNat_pred hbs, UInt64.toNat_sub_of_le _ _ (by
      rw [UInt64.le_iff_toNat_le, UInt32.toNat_toUInt64]
      exact hpos), UInt32.toNat_toUInt64]
    rfl
  have hsum : (newsize + blocksize.toUInt64 - 1).toNat = newsize.toNat + blocksize.toNat - 1 := by
    have hone : (1 : UInt64).toNat = 1 := rfl
    have hlt := blocksize.toNat_lt
    rw [UInt64.toNat_sub, UInt64.toNat_add, UInt32.toNat_toUInt64, hone]
    omega
  rw [UInt64.toNat_div, hpred, Mask.toNat_and_not_pred hbs, hsum, UInt32.toNat_toUInt64,
    Nat.mul_div_cancel _ hpos]
  rfl

section Truncate

variable {fs : Ext2fs σ} {V : View σ} {blocksize : UInt32}

/-- The file `ino` has blocks that a truncation gives back. -/
def Punches (fs : Ext2fs σ) (ino : UInt32) (s : σ) : Prop :=
  ∃ inode s', fs.readInode ino s = .ok inode s' ∧ fs.inodeHasValidBlocks2 inode = true

/-- The size is set, in one inode, and the data is that of `w`. -/
structure SizedTo (w : Volume) (ino : UInt32) (newsize : UInt64) (v' : Volume) : Prop where
  size : (v'.node ino).size = newsize
  nodes : ∀ i, i ≠ ino → v'.node i = w.node i
  data : v'.data = w.data

theorem setSize_exact (hL : Lawful fs V) (w : Volume) (ino : UInt32) (inode : Ext2Inode)
    (newsize : UInt64) :
    Spec (V.Is w) (do
      let inode ← orFail translateErrno (fs.inodeSizeSet inode newsize)
      let now := fs.time (← get)
      orFail translateErrno (fs.writeInode ino { inode with iMtime := now, iCtime := now }))
      (fun _ s => SizedTo w ino newsize (V.volume s)) fun _ _ => True := by
  refine Spec.bind_orFail (hL.inodeSizeSet w inode newsize) (fun _ _ _ => trivial) fun inode' =>
    Spec.assume ?_
  rintro rfl
  refine Spec.bind (Q := fun _ => V.Is w) (fun s hs => hs) fun s₀ => ?_
  refine Spec.orFail ((hL.writeInode w ino _).conseq_ok fun _ s hs => ?_) fun _ _ _ => trivial
  rw [hs.eq]
  refine ⟨?_, fun i hi => ?_, rfl⟩
  · simp [Ext2Inode.node]
  · simp [Function.update_of_ne hi]

/-- Other files are as they were, and in this one the blocks past the new end were punched, if it
became shorter. -/
structure CutTo (fs : Ext2fs σ) (V : View σ) (blocksize ino : UInt32) (newsize : UInt64) (s s' : σ) :
    Prop where
  size : ((V.volume s').node ino).size = newsize
  nodes : ∀ i, i ≠ ino → (V.volume s').node i = (V.volume s).node i
  others : ∀ i, i ≠ ino → (V.volume s').data i = (V.volume s).data i
  punched : newsize < ((V.volume s).node ino).size → Punches fs ino s →
    ∀ p, (V.volume s').data ino p =
      if p < blockEnd blocksize newsize.toNat then (V.volume s).data ino p else 0
  kept : ¬ (newsize < ((V.volume s).node ino).size ∧ Punches fs ino s) →
    (V.volume s').data ino = (V.volume s).data ino

theorem extfskTruncate_exact (hL : Lawful fs V) (hP : LawfulPunch fs V blocksize)
    (hbs : Mask.IsPow2 blocksize) {ino newsize : UInt64} {s s' : σ}
    (hn : newsize.toNat + blocksize.toNat ≤ 2 ^ 64)
    (hrun : extfskTruncate fs blocksize ino newsize s = .ok () s') :
    CutTo fs V blocksize ino.toUInt32 newsize s s' := by
  unfold extfskTruncate at hrun
  obtain ⟨inode, s₁, hread, hrest⟩ := orFail_bind_ok_iff.mp hrun
  obtain ⟨hnode, hv⟩ := (hL.readInode (V.volume s) ino.toUInt32).ok rfl hread
  have hsize : inode.iSize = ((V.volume s).node ino.toUInt32).size := congrArg Node.size hnode
  have hpunches : Punches fs ino.toUInt32 s ↔ fs.inodeHasValidBlocks2 inode = true := by
    constructor
    · rintro ⟨inode', s₂, hread', hvalid⟩
      rw [hread] at hread'
      cases hread'
      exact hvalid
    · exact fun hvalid => ⟨inode, s₁, hread, hvalid⟩
  by_cases hshrinks : newsize < inode.iSize ∧ fs.inodeHasValidBlocks2 inode = true
  · simp only [if_pos hshrinks] at hrest
    obtain ⟨inode', s₂, hcut, hset⟩ := orFail_bind_ok_iff.mp hrest
    obtain ⟨_, hnodes, hdata⟩ := (hP.punch (V.volume s) ino.toUInt32 inode _).ok hv hcut
    have hto := (setSize_exact hL (V.volume s₂) ino.toUInt32 inode' newsize).ok rfl hset
    refine ⟨hto.size, fun i hi => ?_, fun i hi => ?_, fun _ _ p => ?_, fun hno => ?_⟩
    · rw [hto.nodes i hi]
      rcases hnodes with hn | hn
      · rw [hn]
      · rw [hn, Function.update_of_ne hi]
    · rw [hto.data, hdata, Function.update_of_ne hi]
    · rw [hto.data, hdata, Function.update_self, punched_bytes hbs hn]
    · exact absurd ⟨hsize ▸ hshrinks.1, hpunches.mpr hshrinks.2⟩ hno
  · simp only [if_neg hshrinks] at hrest
    have hto := (setSize_exact hL (V.volume s) ino.toUInt32 inode newsize).ok hv hrest
    refine ⟨hto.size, hto.nodes, fun i _ => by rw [hto.data], fun hlt hp => ?_, fun _ => by rw [hto.data]⟩
    exact absurd ⟨hsize ▸ hlt, hpunches.mp hp⟩ hshrinks

end Truncate

/-! ## Runs -/

inductive DataRequest where
  | read (ino : UInt32) (offset len : UInt64)
  | write (ino : UInt32) (offset : UInt64) (buf : List UInt8)
  | truncate (ino : UInt32) (newsize : UInt64)

/-- The call as a request to files that are their bytes. -/
def DataRequest.request : DataRequest → FlatFile.Request UInt32 UInt8
  | .read ino offset len => .read ino offset.toNat len.toNat
  | .write ino offset buf => .write ino offset.toNat buf
  | .truncate ino newsize => .resize ino newsize.toNat

/-- A call, and what it tells its caller. -/
def dataStep (fs : Ext2fs σ) (blocksize : UInt32) (s : σ) : DataRequest → σ × Reply UInt8
  | .read ino offset len =>
    match extfskRead fs ino.toUInt64 offset len s with
    | .ok bs s' => (s', .cells bs)
    | .error _ s' => (s', .failed)
  | .write ino offset buf =>
    match extfskWrite fs ino.toUInt64 offset buf s with
    | .ok n s' => (s', .count n.toNat)
    | .error _ s' => (s', .failed)
  | .truncate ino newsize =>
    match extfskTruncate fs blocksize ino.toUInt64 newsize s with
    | .ok () s' => (s', .done)
    | .error _ s' => (s', .failed)

/-- The bytes of a file. -/
def Volume.content (v : Volume) (ino : UInt32) : List UInt8 :=
  slice (v.data ino) 0 (v.node ino).size.toNat

def View.store (V : View σ) (s : σ) : Store UInt32 UInt8 := fun ino => some ((V.volume s).content ino)

/-- What lies past the end of a file is zero. -/
def ZeroPast (v : Volume) : Prop := ∀ ino p, (v.node ino).size.toNat ≤ p → v.data ino p = 0

/-- A write succeeds, at a position of 32 bits, and reaches the end of the file, and a truncation
succeeds, and what it leaves in the file past the new end is zero. -/
def Through (fs : Ext2fs σ) (V : View σ) (blocksize : UInt32) (s : σ) : DataRequest → Prop
  | .read _ offset len => offset.toNat < 2 ^ 32 ∧ len.toNat < 2 ^ 32
  | .write ino offset buf =>
    (∃ n s', extfskWrite fs ino.toUInt64 offset buf s = .ok n s') ∧
      (offset.toNat < 2 ^ 32 ∧ buf.length < 2 ^ 32) ∧
      ((V.volume s).node ino).size.toNat ≤ offset.toNat + buf.length ∧
      (buf = [] → offset = ((V.volume s).node ino).size)
  | .truncate ino newsize =>
    (∃ s', extfskTruncate fs blocksize ino.toUInt64 newsize s = .ok () s') ∧
      newsize.toNat + blocksize.toNat ≤ 2 ^ 64 ∧
      ∀ p, newsize.toNat ≤ p → p < ((V.volume s).node ino).size.toNat →
        (Punches fs ino s → p < blockEnd blocksize newsize.toNat) → (V.volume s).data ino p = 0

/-- What may be answered to a call, by flat files. -/
def Answered (fs : Store UInt32 UInt8) (c : DataRequest) (r : Reply UInt8)
    (fs' : Store UInt32 UInt8) : Prop :=
  Files 0 fs c.request r fs'

section Refinement

variable {fs : Ext2fs σ} {V : View σ} {blocksize ino : UInt32} {s s' : σ}

theorem store_of_update {xs : List UInt8} (hown : (V.volume s').content ino = xs)
    (hothers : ∀ i, i ≠ ino → (V.volume s').content i = (V.volume s).content i) :
    V.store s' = Function.update (V.store s) ino (some xs) := by
  funext i
  by_cases hi : i = ino
  · rw [hi, Function.update_self, View.store, hown]
  · rw [Function.update_of_ne hi, View.store, View.store, hothers i hi]

theorem read_answered (hL : Lawful fs V) (hh : ZeroPast (V.volume s)) {offset len : UInt64}
    (hoff : offset.toNat < 2 ^ 32) (hlen : len.toNat < 2 ^ 32) :
    let c := DataRequest.read ino offset len
    Answered (V.store s) c (dataStep fs blocksize s c).2 (V.store (dataStep fs blocksize s c).1) ∧
      ZeroPast (V.volume (dataStep fs blocksize s c).1) := by
  intro c
  have hspec := extfskRead_spec hL (V.volume s) ino.toUInt64 offset len
  cases hrun : extfskRead fs ino.toUInt64 offset len s with
  | ok bs s' =>
    obtain ⟨rfl, hv⟩ := hspec.ok rfl hrun
    have hstore : V.store s' = V.store s := by
      unfold View.store
      rw [hv.eq]
    simp only [c, dataStep, hrun]
    refine ⟨?_, hv.eq ▸ hh⟩
    rw [hstore, UInt32.toUInt32_toUInt64, UInt64.toNat_toUInt32, UInt64.toNat_toUInt32,
      Nat.mod_eq_of_lt hoff, Nat.mod_eq_of_lt hlen, Volume.bytesAt, ← read_slice]
    exact .read offset.toNat len.toNat rfl
  | error e s' =>
    have hv := hspec.error rfl hrun
    have hstore : V.store s' = V.store s := by
      unfold View.store
      rw [hv.eq]
    simp only [c, dataStep, hrun]
    refine ⟨?_, hv.eq ▸ hh⟩
    rw [hstore]
    exact .readFailed ino offset.toNat len.toNat

theorem write_answered (hL : Lawful fs V) (hh : ZeroPast (V.volume s)) {offset : UInt64}
    {buf : List UInt8} (hc : Through fs V blocksize s (.write ino offset buf)) :
    let c := DataRequest.write ino offset buf
    Answered (V.store s) c (dataStep fs blocksize s c).2 (V.store (dataStep fs blocksize s c).1) ∧
      ZeroPast (V.volume (dataStep fs blocksize s c).1) := by
  intro c
  obtain ⟨⟨n, s', hrun⟩, ⟨hoff, hlen⟩, hend, hnil⟩ := hc
  obtain ⟨hn, hv⟩ := (extfskWrite_spec hL (V.volume s) ino.toUInt64 offset buf).ok rfl hrun
  have hcount : n.toNat = buf.length := by rw [hn, UInt32.toNat_ofNat', Nat.mod_eq_of_lt hlen]
  have hafter : V.volume s' = afterWrite (V.volume s) ino offset buf n := by
    rw [hv.eq, UInt32.toUInt32_toUInt64]
    rfl
  have hsize : ((V.volume s').node ino).size.toNat = offset.toNat + buf.length := by
    rw [hafter, afterWrite_size, hcount, Nat.mod_eq_of_lt (by omega)]
  have hdata : (V.volume s').data ino = overwrite ((V.volume s).data ino) offset.toNat buf := by
    rw [hafter, afterWrite_data, hcount, List.take_length, Nat.mod_eq_of_lt hoff]
  have hothers : ∀ i, i ≠ ino → (V.volume s').node i = (V.volume s).node i ∧
      (V.volume s').data i = (V.volume s).data i := by
    intro i hi
    rw [hafter]
    simp [afterWrite, Volume.resize, Function.update_of_ne hi]
  have hown : (V.volume s').content ino =
      FlatFile.write 0 ((V.volume s).content ino) offset.toNat buf := by
    unfold Volume.content
    rw [hsize, hdata]
    by_cases hb : buf = []
    · rw [hb, FlatFile.write, if_pos rfl, overwrite_nil, hnil hb]
      rfl
    · rw [← write_slice hb (hh ino), Nat.max_eq_right hend]
  simp only [c, dataStep, hrun]
  constructor
  · have hstore := store_of_update (V := V) (s := s) hown fun i hi => by
      simp only [Volume.content, hothers i hi]
    rw [hstore, hcount]
    have hanswer := @Files.write _ _ _ 0 (V.store s) ino _ offset.toNat buf buf.length rfl
      (Nat.le_refl _)
    rwa [List.take_length] at hanswer
  · intro i p hp
    by_cases hi : i = ino
    · subst hi
      rw [hsize] at hp
      rw [hdata, overwrite_outside (.inr hp)]
      exact hh i p (by omega)
    · rw [(hothers i hi).1] at hp
      rw [(hothers i hi).2]
      exact hh i p hp

theorem truncate_answered (hL : Lawful fs V) (hP : LawfulPunch fs V blocksize)
    (hbs : Mask.IsPow2 blocksize) (hh : ZeroPast (V.volume s)) {newsize : UInt64}
    (hc : Through fs V blocksize s (.truncate ino newsize)) :
    let c := DataRequest.truncate ino newsize
    Answered (V.store s) c (dataStep fs blocksize s c).2 (V.store (dataStep fs blocksize s c).1) ∧
      ZeroPast (V.volume (dataStep fs blocksize s c).1) := by
  intro c
  obtain ⟨⟨s', hrun⟩, hn, hclean⟩ := hc
  have hcut := extfskTruncate_exact hL hP hbs hn hrun
  rw [UInt32.toUInt32_toUInt64] at hcut
  have hle := le_blockEnd hbs.pos newsize.toNat
  have hkept : ∀ p, p < newsize.toNat → (V.volume s').data ino p = (V.volume s).data ino p := by
    intro p hp
    by_cases hpunch : newsize < ((V.volume s).node ino).size ∧ Punches fs ino s
    · rw [hcut.punched hpunch.1 hpunch.2, if_pos (by omega)]
    · rw [hcut.kept hpunch]
  have hzero : ∀ p, newsize.toNat ≤ p → (V.volume s').data ino p = 0 := by
    intro p hp
    by_cases hpunch : newsize < ((V.volume s).node ino).size ∧ Punches fs ino s
    · rw [hcut.punched hpunch.1 hpunch.2]
      split
      next hlt =>
        by_cases hsize : p < ((V.volume s).node ino).size.toNat
        · exact hclean p hp hsize fun _ => hlt
        · exact hh ino p (by omega)
      next => rfl
    · rw [hcut.kept hpunch]
      by_cases hsize : p < ((V.volume s).node ino).size.toNat
      · refine hclean p hp hsize fun hpunches => absurd ⟨?_, hpunches⟩ hpunch
        rw [UInt64.lt_iff_toNat_lt]
        omega
      · exact hh ino p (by omega)
  have hown : (V.volume s').content ino =
      FlatFile.resize 0 ((V.volume s).content ino) newsize.toNat := by
    unfold Volume.content
    rw [hcut.size]
    refine resize_slice (fun p _ hp => hkept p hp) fun p hsize hp => ?_
    rw [hkept p hp]
    exact hh ino p hsize
  simp only [c, dataStep, hrun]
  constructor
  · have hstore := store_of_update (V := V) (s := s) hown fun i hi => by
      simp only [Volume.content, hcut.nodes i hi, hcut.others i hi]
    rw [hstore]
    exact .resize newsize.toNat rfl
  · intro i p hp
    by_cases hi : i = ino
    · subst hi
      rw [hcut.size] at hp
      exact hzero p hp
    · rw [hcut.nodes i hi] at hp
      rw [hcut.others i hi]
      exact hh i p hp

/-- A run of calls for any files, on a volume that hides nothing but zeros, answers as files do that
are nothing but their bytes and leaves a volume that hides nothing but zeros, as long as its calls go
through. -/
theorem dataRun_refines (hL : Lawful fs V) (hP : LawfulPunch fs V blocksize)
    (hbs : Mask.IsPow2 blocksize) (hh : ZeroPast (V.volume s)) {calls : List DataRequest}
    (hcalls : Along (fun s c => (dataStep fs blocksize s c).1) (Through fs V blocksize) s calls) :
    Serves Answered (V.store s) (history (dataStep fs blocksize) s calls)
        (V.store (after (dataStep fs blocksize) s calls)) ∧
      ZeroPast (V.volume (after (dataStep fs blocksize) s calls)) := by
  refine serves_of_steps (I := fun s => ZeroPast (V.volume s)) ?_ hh hcalls
  intro s c hh hc
  cases c with
  | read ino offset len => exact read_answered hL hh hc.1 hc.2
  | write ino offset buf => exact write_answered hL hh hc
  | truncate ino newsize => exact truncate_answered hL hP hbs hh hc

end Refinement

/-- Files of a hundred ones, and zeros after them. -/
def onesThenZeros : RefState := oneFile 12 100 fun p => if p < 100 then 1 else 0

theorem onesThenZeros_zeroPast : ZeroPast onesThenZeros.volume := by
  intro ino p hp
  have hp' : 100 ≤ p := hp
  exact if_neg (by omega)

/-- Two bytes are appended, the file grows, and its first bytes are read. -/
def appendAndGrow : List DataRequest := [.write 12 100 [7, 8], .truncate 12 2000, .read 12 98 10]

theorem dataRun_refines_grown :
    let last := after (dataStep (punchLibrary 1024) 1024) onesThenZeros appendAndGrow
    Serves Answered (RefState.view.store onesThenZeros)
        (history (dataStep (punchLibrary 1024) 1024) onesThenZeros appendAndGrow)
        (RefState.view.store last) ∧
      ZeroPast (RefState.view.volume last) := by
  refine dataRun_refines (s := onesThenZeros) (punchLibrary_lawful 1024) (punchLibrary_punches 1024) ⟨10, rfl⟩
    onesThenZeros_zeroPast ⟨⟨⟨2, _, rfl⟩, ⟨by decide, by decide⟩, by decide, nofun⟩, ?_, ?_, trivial⟩
  · refine ⟨⟨_, rfl⟩, by decide, fun p hp hsize => ?_⟩
    have hsize' : p < 102 := hsize
    have hp' : 2000 ≤ p := hp
    omega
  · exact ⟨by decide, by decide⟩

end Ext
end Usbrw
