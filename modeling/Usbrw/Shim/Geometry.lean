import Mathlib.Algebra.Order.Ring.Nat
import Mathlib.Data.Nat.ModEq
import Mathlib.Data.Nat.Prime.Basic
import Usbrw.Shim.Logged

/-!
# Shim.Geometry

The geometry of `nfsk_blockio`, for any callbacks and any block size the header admits.

* `HonoursGeometry`  — the requests of any call are whole blocks inside the device, and a call inside
  the device whose requests all succeed transfers everything.
* `Supported`        — the geometries for which the quantum is a whole number of the caller's blocks
  and the end of the device is cut where the caller has it.
* `honours_iff`      — the shim honours exactly those.
-/

namespace Usbrw
namespace Shim

open Region Mask

variable {σ : Type}

section Property

variable (io : NfskBlockio σ)

/-- A request in whole blocks of the caller's size, and inside the device when it has an end. -/
def InGeometry (q : Request) : Prop :=
  Accepts (quantumOf io.blockSize) (capacity io.blockSize io.blockCount) q.off.toNat q.len.toNat

/-- The device holds all of `count` bytes from `offset` on. -/
def Inside (count offset : Int64) : Prop :=
  ∀ c ∈ capacity io.blockSize io.blockCount, offset.toNatClampNeg + count.toNatClampNeg ≤ c

def ReadHonoured (s : σ) (count offset : Int64) : Prop :=
  ∀ t r out, fskitPread (logged io) (s, []) count offset = (t, r, out) →
    (∀ q ∈ t.2, InGeometry io q) ∧
    (Inside io count offset → (∀ q ∈ t.2, q.rc = 0) → r.ret = count ∧
      ∀ image, Transfers io image →
        out = slice (image s) offset.toNatClampNeg count.toNatClampNeg)

/-- A write is served by a device that takes writes. -/
def WriteHonoured (s : σ) (src : List UInt8) (count offset : Int64) : Prop :=
  ∀ t r, fskitPwrite (logged io) (s, []) src count offset = (t, r) →
    (∀ q ∈ t.2, InGeometry io q) ∧
    (io.readonly = false → io.write.isSome → Inside io count offset → (∀ q ∈ t.2, q.rc = 0) →
      r.ret = count ∧
      ∀ image, Transfers io image →
        image t.1 = overwrite (image s) offset.toNatClampNeg src)

/-- Every call in the state `s` keeps to the geometry. -/
def HonoursGeometry (s : σ) : Prop :=
  ∀ count offset : Int64, 0 ≤ count → 0 ≤ offset → ReadHonoured io s count offset ∧
    ∀ src : List UInt8, src.length = count.toNatClampNeg → WriteHonoured io s src count offset

end Property

/-- From 512 to 4096 (0 standing for 512), or less on a device of unknown length. -/
def Supported (b : UInt32) (n : UInt64) : Prop := b ≤ 4096 ∧ (b = 0 ∨ 512 ≤ b ∨ n = 0)

/-! ## The supported geometries -/

section Supported

variable {io : NfskBlockio σ} {s : σ}

/-- On a supported geometry the quantum is a whole number of the caller's blocks, and a call ends
where the caller has the end of the device. -/
theorem supported_bounds (hb : io.blockSize = 0 ∨ IsPow2 io.blockSize)
    (hcap : io.blockCount.toNat * quantumOf io.blockSize < 2 ^ 63)
    (hs : Supported io.blockSize io.blockCount) (off count : UInt64)
    (hsum : off.toNat + count.toNat < 2 ^ 64) :
    ∃ d, (nfskAlignQuantum io).toNat = d * quantumOf io.blockSize ∧
      (nfskClampEnd io (nfskAlignQuantum io) off (off + count)).toNat =
        off.toNat + served io.blockSize io.blockCount off.toNat count.toNat ∧
      IsPow2 (nfskAlignQuantum io) ∧
      ∀ c ∈ capacity io.blockSize io.blockCount, c % (nfskAlignQuantum io).toNat = 0 := by
  by_cases hlegal : LegalBlockSize io.blockSize
  · have hal := alignQuantum_toNat hlegal
    refine ⟨1, by rw [hal, Nat.one_mul], clampEnd_toNat hlegal (by omega) hsum,
      alignQuantum_isPow2 hlegal, ?_⟩
    intro c hc
    unfold capacity at hc
    split at hc
    · cases hc
    · rw [hal, ← Option.some.inj hc, Nat.mul_mod_left]
  · have h0 : io.blockSize ≠ 0 := fun h => hlegal (Or.inl h)
    obtain ⟨k, hk⟩ := hb.resolve_left h0
    have hsmall : ¬ 512 ≤ io.blockSize := fun h => hlegal (Or.inr ⟨⟨k, hk⟩, h, hs.1⟩)
    have hn : io.blockCount = 0 := by
      rcases hs.2 with h | h | h
      · exact absurd h h0
      · exact absurd h hsmall
      · exact h
    have hlt : io.blockSize < 512 := UInt32.not_le.mp hsmall
    have hal : nfskAlignQuantum io = 512 := by simp [nfskAlignQuantum, h0, hlt]
    have hk9 : k ≤ 9 := by
      have hlt' : 2 ^ k < 2 ^ 9 := by
        rw [← hk]
        exact UInt32.lt_iff_toNat_lt.mp hlt
      exact Nat.le_of_lt ((Nat.pow_lt_pow_iff_right (by omega)).mp hlt')
    refine ⟨2 ^ (9 - k), ?_, ?_, ?_, ?_⟩
    · rw [hal, quantumOf, if_neg h0, hk, ← Nat.pow_add, Nat.sub_add_cancel hk9]
      rfl
    · simp only [nfskClampEnd, served, hn, if_true]
      rw [UInt64.toNat_add, Nat.mod_eq_of_lt hsum]
    · rw [hal]
      exact ⟨9, rfl⟩
    · simp [capacity, hn]

theorem InQuanta.inGeometry {al : UInt32} {d : Nat} {q : Request}
    (hd : al.toNat = d * quantumOf io.blockSize)
    (h : InQuanta al (capacity io.blockSize io.blockCount) q) : InGeometry io q := by
  obtain ⟨h1, h2, h3⟩ := h
  have hdvd : quantumOf io.blockSize ∣ al.toNat := ⟨d, by rw [hd, Nat.mul_comm]⟩
  exact ⟨Nat.mod_eq_zero_of_dvd (Nat.dvd_trans hdvd (Nat.dvd_of_mod_eq_zero h1)),
    Nat.mod_eq_zero_of_dvd (Nat.dvd_trans hdvd (Nat.dvd_of_mod_eq_zero h2)), h3⟩

theorem add_served_le {b : UInt32} {n : UInt64} {off count c : Nat} (hc : c ∈ capacity b n)
    (hpos : 0 < served b n off count) : off + served b n off count ≤ c := by
  unfold capacity at hc
  unfold served at hpos ⊢
  split at hc
  · cases hc
  · rename_i hn
    have hc' := Option.some.inj hc
    rw [if_neg hn] at hpos ⊢
    omega

theorem served_of_inside {b : UInt32} {n : UInt64} {off count : Nat}
    (h : ∀ c ∈ capacity b n, off + count ≤ c) : served b n off count = count := by
  unfold served
  split
  · rfl
  · rename_i hn
    have hle := h (n.toNat * quantumOf b) (by simp [capacity, hn])
    omega

theorem nonneg_count_offset {count offset : Int64} (hc : 0 ≤ count) (ho : 0 ≤ offset) :
    ¬ (count < 0 ∨ offset < 0) := by
  rintro (h | h)
  · exact absurd hc (Int64.not_le.mpr h)
  · exact absurd ho (Int64.not_le.mpr h)

theorem eq_zero_of_toNatClampNeg {count : Int64} (hc : 0 ≤ count)
    (h : count.toNatClampNeg = 0) : count = 0 := by
  apply Int64.toInt_inj.mp
  rw [← Int.toNat_of_nonneg (Int64.le_iff_toInt_le.mp hc)]
  exact congrArg Int.ofNat h

theorem toInt64_eq_of_toNat {x : UInt64} {count : Int64} (hc : 0 ≤ count)
    (h : x.toNat = count.toNatClampNeg) : x.toInt64 = count := by
  have hlt := count.toNatClampNeg_lt
  apply Int64.toInt_inj.mp
  rw [toInt_toInt64 (by omega), h]
  exact Int.toNat_of_nonneg (Int64.le_iff_toInt_le.mp hc)

theorem logged_read_isSome (hread : io.read.isSome) : ¬ (logged io).read.isNone = true := by
  obtain ⟨read, hr⟩ := Option.isSome_iff_exists.mp hread
  simp [logged, hr]

/-- The quantum `al` and the end `stop` that the code gives a call of `count` bytes at `offset`. -/
structure Cut (io : NfskBlockio σ) (al : UInt32) (stop : UInt64) (count offset : Int64) :
    Prop where
  inGeometry : ∀ q, InQuanta al (capacity io.blockSize io.blockCount) q → InGeometry io q
  bounds : offset.toUInt64 < stop → Bounds al (capacity io.blockSize io.blockCount) stop
  le : stop.toNat ≤ offset.toNatClampNeg + count.toNatClampNeg
  inside : Inside io count offset → stop.toNat = offset.toNatClampNeg + count.toNatClampNeg

theorem supported_cut (hb : io.blockSize = 0 ∨ IsPow2 io.blockSize)
    (hcap : io.blockCount.toNat * quantumOf io.blockSize < 2 ^ 63)
    (hs : Supported io.blockSize io.blockCount) {count offset : Int64} (hc : 0 ≤ count)
    (ho : 0 ≤ offset) :
    Cut io (nfskAlignQuantum io) (nfskClampEnd io (nfskAlignQuantum io) offset.toUInt64
      (offset.toUInt64 + count.toUInt64)) count offset := by
  have hoff := Int64.toNat_toUInt64_of_le ho
  have hcount := Int64.toNat_toUInt64_of_le hc
  have h1 := offset.toNatClampNeg_lt
  have h2 := count.toNatClampNeg_lt
  obtain ⟨d, hd, hstop, hpow, hmul⟩ := supported_bounds hb hcap hs
    offset.toUInt64 count.toUInt64 (by omega)
  rw [hoff, hcount] at hstop
  have hserved := served_le io.blockSize io.blockCount offset.toNatClampNeg count.toNatClampNeg
  refine ⟨fun q hq => hq.inGeometry hd, fun hlt => ⟨hpow, fun c hc' => ⟨?_, hmul c hc'⟩⟩,
    by omega, fun hin => ?_⟩
  · have hlt' := UInt64.lt_iff_toNat_lt.mp hlt
    rw [hstop]
    exact add_served_le hc' (by omega)
  · rw [hstop, served_of_inside hin]

/-- Only a call of no bytes ends where it begins, inside the device. -/
theorem Cut.eq_zero {al : UInt32} {stop : UInt64} {count offset : Int64}
    (h : Cut io al stop count offset) (hc : 0 ≤ count) (ho : 0 ≤ offset)
    (hle : stop ≤ offset.toUInt64) (hin : Inside io count offset) : count = 0 := by
  have hle' := UInt64.le_iff_toNat_le.mp hle
  have hstop := h.inside hin
  rw [Int64.toNat_toUInt64_of_le ho] at hle'
  exact eq_zero_of_toNatClampNeg hc (by omega)

/-- All the bytes of a call inside the device are between its offset and its end. -/
theorem Cut.sub_toInt64 {al : UInt32} {stop : UInt64} {count offset : Int64}
    (h : Cut io al stop count offset) (hc : 0 ≤ count) (ho : 0 ≤ offset)
    (hin : Inside io count offset) : (stop - offset.toUInt64).toInt64 = count := by
  have hstop := h.inside hin
  have hoff := Int64.toNat_toUInt64_of_le ho
  refine toInt64_eq_of_toNat hc ?_
  rw [toNat_stop_sub (by omega)]
  omega

theorem readHonoured_of_supported (hread : io.read.isSome)
    (hb : io.blockSize = 0 ∨ IsPow2 io.blockSize)
    (hcap : io.blockCount.toNat * quantumOf io.blockSize < 2 ^ 63)
    (hs : Supported io.blockSize io.blockCount) {count offset : Int64} (hc : 0 ≤ count)
    (ho : 0 ≤ offset) : ReadHonoured io s count offset := by
  intro t r out h
  have hcut := supported_cut hb hcap hs hc ho
  have hal : nfskAlignQuantum (logged io) = nfskAlignQuantum io := rfl
  have hclamp : nfskClampEnd (logged io) = nfskClampEnd io := rfl
  simp only [fskitPread, if_neg (logged_read_isSome hread), if_neg (nonneg_count_offset hc ho),
    hal, hclamp] at h
  by_cases hz : count = 0
  · rw [if_pos hz] at h
    obtain ⟨rfl, rfl, rfl⟩ := h
    refine ⟨by simp, fun _ _ => ⟨by rw [hz]; rfl, fun image _ => by simp [hz]⟩⟩
  · rw [if_neg hz] at h
    generalize nfskClampEnd io _ offset.toUInt64 (offset.toUInt64 + count.toUInt64) = stop
      at hcut h
    by_cases hle : stop ≤ offset.toUInt64
    · rw [if_pos hle] at h
      obtain ⟨rfl, rfl, rfl⟩ := h
      exact ⟨by simp, fun hin _ => absurd (hcut.eq_zero hc ho hle hin) hz⟩
    · rw [if_neg hle] at h
      have hlt : offset.toUInt64 < stop := UInt64.not_le.mp hle
      have hspec := preadBody_outcome hread (hcut.bounds hlt) s hlt
      generalize preadBody (logged io) _ offset.toUInt64 stop (s, []) = res at hspec h
      rcases res with ⟨t', rc | c⟩
      · obtain ⟨rfl, rfl, rfl⟩ := h
        obtain ⟨hfit, q, hq, hrc⟩ := hspec
        exact ⟨fun q hq => hcut.inGeometry q (hfit q hq), fun _ hok => absurd (hok q hq) hrc⟩
      · obtain ⟨rfl, rfl, rfl⟩ := h
        obtain ⟨hfit, htaken, hcur⟩ := hspec
        refine ⟨fun q hq => hcut.inGeometry q (hfit q hq), fun hin _ => ?_⟩
        refine ⟨hcut.sub_toInt64 hc ho hin, fun image hT => ?_⟩
        have hstop := hcut.inside hin
        rw [(htaken.data image hT).2, hcur, Int64.toNat_toUInt64_of_le ho]
        congr 1
        omega

theorem writeHonoured_of_supported (hread : io.read.isSome)
    (hb : io.blockSize = 0 ∨ IsPow2 io.blockSize)
    (hcap : io.blockCount.toNat * quantumOf io.blockSize < 2 ^ 63)
    (hs : Supported io.blockSize io.blockCount) {count offset : Int64} (hc : 0 ≤ count)
    (ho : 0 ≤ offset) {src : List UInt8} (hlen : src.length = count.toNatClampNeg) :
    WriteHonoured io s src count offset := by
  intro t r h
  have hcut := supported_cut hb hcap hs hc ho
  have hal : nfskAlignQuantum (logged io) = nfskAlignQuantum io := rfl
  have hclamp : nfskClampEnd (logged io) = nfskClampEnd io := rfl
  cases hw : io.write with
  | none =>
    have hnone : (logged io).write = none := by simp [logged, hw]
    rw [fskitPwrite, hnone] at h
    obtain ⟨rfl, rfl⟩ := h
    exact ⟨by simp, fun _ hsome => by simp at hsome⟩
  | some write =>
    have hsome : (logged io).write = some (logWrite write) := by
      simp only [logged, hw, Option.map_some]
      rfl
    rw [fskitPwrite, hsome] at h
    simp only [if_neg (nonneg_count_offset hc ho), hal, hclamp, logged_readonly] at h
    by_cases hz : count = 0
    · rw [if_pos hz] at h
      obtain ⟨rfl, rfl⟩ := h
      have hsrc : src = [] := List.eq_nil_of_length_eq_zero (by rw [hlen, hz]; rfl)
      exact ⟨by simp, fun _ _ _ _ => ⟨by rw [hz]; rfl, fun image _ => by simp [hsrc]⟩⟩
    · rw [if_neg hz] at h
      by_cases hro : io.readonly = true
      · rw [if_pos hro] at h
        obtain ⟨rfl, rfl⟩ := h
        exact ⟨by simp, fun hrw => by rw [hro] at hrw; cases hrw⟩
      · rw [if_neg hro] at h
        generalize nfskClampEnd io _ offset.toUInt64 (offset.toUInt64 + count.toUInt64) = stop
          at hcut h
        by_cases hle : stop ≤ offset.toUInt64
        · rw [if_pos hle] at h
          obtain ⟨rfl, rfl⟩ := h
          exact ⟨by simp, fun _ _ hin _ => absurd (hcut.eq_zero hc ho hle hin) hz⟩
        · rw [if_neg hle] at h
          have hlt : offset.toUInt64 < stop := UInt64.not_le.mp hle
          have hoff := Int64.toNat_toUInt64_of_le ho
          have hend := hcut.le
          have hspec := pwriteBody_outcome src hread hw (hcut.bounds hlt) s hlt (by omega)
          generalize pwriteBody (logged io) _ _ stop offset.toUInt64 src (s, []) = res at hspec h
          rcases res with ⟨t', rc | c⟩
          · obtain ⟨rfl, rfl⟩ := h
            obtain ⟨hfit, q, hq, hrc⟩ := hspec
            exact ⟨fun q hq => hcut.inGeometry q (hfit q hq),
              fun _ _ _ hok => absurd (hok q hq) hrc⟩
          · obtain ⟨rfl, rfl⟩ := h
            obtain ⟨hfit, hstored, hcur⟩ := hspec
            refine ⟨fun q hq => hcut.inGeometry q (hfit q hq), fun _ _ hin _ => ?_⟩
            refine ⟨hcut.sub_toInt64 hc ho hin, fun image hT => ?_⟩
            have hstop := hcut.inside hin
            rw [hstored.data image hT, hcur, hoff, List.take_of_length_le (by omega)]

end Supported

/-! ## The others

A one-byte read is bounced, so it asks for the whole quantum that holds the byte. -/

section Unsupported

variable {io : NfskBlockio σ} {s : σ}

theorem preadMid_none {al : UInt32} {stop : UInt64} (hp : IsPow2 al) (t : σ × List Request)
    {c : ReadPos} (h : (stop - c.cur).toNat < al.toNat) :
    preadMid (logged io) al stop t c = (t, .ok c) := by
  have h0 : (stop - c.cur) &&& ~~~(al - 1).toUInt64 = 0 := by
    apply UInt64.toNat_inj.mp
    rw [toNat_and_not_pred hp, Nat.div_eq_of_lt h]
    simp
  simp only [preadMid]
  rw [if_neg (fun h => h h0)]

theorem preadBody_one (hread : io.read.isSome) {al : UInt32} (hp : IsPow2 al)
    (hal : 1 < al.toNat) {off stop : UInt64} (hstop : stop.toNat = off.toNat + 1) :
    ∃ q ∈ (preadBody (logged io) al off stop (s, [])).1.2,
      q.off.toNat = off.toNat - off.toNat % al.toNat ∧ q.len.toNat = al.toNat := by
  have hlt : off < stop := UInt64.lt_iff_toNat_lt.mpr (by omega)
  have hsub : (stop - off).toNat = 1 := by
    rw [toNat_stop_sub (by omega)]
    omega
  by_cases h0 : off &&& (al - 1).toUInt64 = 0
  · -- at a boundary: no head and no middle, the tail reads the block that begins at `off`
    have hmod := (and_pred_eq_zero hp off).mp h0
    have hne : ¬ stop &&& (al - 1).toUInt64 = 0 := by
      intro h
      have hmod' := (and_pred_eq_zero hp stop).mp h
      rw [hstop, Nat.add_mod, hmod, Nat.zero_add, Nat.mod_mod, Nat.mod_eq_of_lt hal] at hmod'
      omega
    have hhead : preadHead (logged io) al stop (s, []) ⟨off, []⟩ = ((s, []), .ok ⟨off, []⟩) := by
      simp only [preadHead]
      rw [if_neg (fun h => h h0)]
    rw [preadBody, if_neg (fun h => hne h.2), hhead]
    simp only [andThen]
    rw [preadMid_none hp _ (by simp only [hsub]; exact hal)]
    simp only [preadTail, hlt, if_true, callRead_logged hread, List.nil_append]
    refine ⟨⟨off, al.toUInt64, (io.callRead s off al.toUInt64).2.1⟩, ?_, by simp [hmod], by simp⟩
    split <;> simp
  · -- inside a block: the head reads that block and takes the byte
    obtain ⟨hbase, -, -⟩ := block_position hp off
    obtain ⟨hn, hcur, -⟩ := head_window hp hlt
    have hmodlt : off.toNat % al.toNat < al.toNat := Nat.mod_lt _ hp.pos
    have hend : off + headLen al stop off = stop := UInt64.toNat_inj.mp (by omega)
    refine ⟨⟨off &&& ~~~(al - 1).toUInt64, al.toUInt64,
      (io.callRead s (off &&& ~~~(al - 1).toUInt64) al.toUInt64).2.1⟩, ?_, hbase, by simp⟩
    rw [preadBody, if_neg (fun h => h0 h.1)]
    simp only [preadHead, if_pos h0, callRead_logged hread, List.nil_append, hend]
    by_cases hrc : (io.callRead s (off &&& ~~~(al - 1).toUInt64) al.toUInt64).2.1 = 0
    · simp only [hrc, ne_eq, not_true_eq_false, if_false, andThen]
      rw [preadMid_none hp _ (by simp; omega)]
      simp [preadTail]
    · simp only [hrc, ne_eq, not_false_eq_true, if_true, andThen, List.mem_singleton]

/-- What a one-byte read inside the cut device asks for. -/
theorem pread_one_request (hread : io.read.isSome) {al : UInt32} (hq : nfskAlignQuantum io = al)
    (hp : IsPow2 al) (hal : 1 < al.toNat) {offset : Int64} (ho : 0 ≤ offset)
    (hstop : nfskClampEnd io al offset.toUInt64 (offset.toUInt64 + 1) = offset.toUInt64 + 1)
    (h : ReadHonoured io s 1 offset) :
    ∃ q, InGeometry io q ∧
      q.off.toNat = offset.toNatClampNeg - offset.toNatClampNeg % al.toNat ∧
      q.len.toNat = al.toNat := by
  have hoff := Int64.toNat_toUInt64_of_le ho
  have hlt := offset.toNatClampNeg_lt
  have hadd : (offset.toUInt64 + 1).toNat = offset.toUInt64.toNat + 1 := by
    rw [UInt64.toNat_add, Nat.mod_eq_of_lt (by simp; omega)]
    rfl
  obtain ⟨q, hq', hqoff, hqlen⟩ := preadBody_one (s := s) hread hp hal hadd
  rw [hoff] at hqoff
  refine ⟨q, ?_, hqoff, hqlen⟩
  have hne : ¬ offset.toUInt64 + 1 ≤ offset.toUInt64 := by
    rw [UInt64.le_iff_toNat_le, hadd]
    omega
  have hcall : (fskitPread (logged io) (s, []) 1 offset).1 =
      (preadBody (logged io) al offset.toUInt64 (offset.toUInt64 + 1) (s, [])).1 := by
    have hal' : nfskAlignQuantum (logged io) = al := hq
    have hclamp : nfskClampEnd (logged io) = nfskClampEnd io := rfl
    have hone : (1 : Int64).toUInt64 = 1 := rfl
    rw [fskitPread, if_neg (logged_read_isSome hread), if_neg (nonneg_count_offset (by decide) ho),
      if_neg (by decide)]
    simp only [hal', hclamp, hone, hstop, if_neg hne]
    split <;> (rename_i hbody; rw [hbody])
  rw [← hcall] at hq'
  exact (h _ _ _ rfl).1 q hq'

/-- A nonzero word times an even factor is another word. -/
theorem mul_even_mod_ne {x m : Nat} (hx : 0 < x) (hlt : x < 2 ^ 64) (hm : m % 2 = 0)
    (hpos : 0 < m) : x * m % 2 ^ 64 ≠ x := by
  intro h
  have hmod : x ≡ x * m [MOD 2 ^ 64] := by
    rw [Nat.ModEq, h, Nat.mod_eq_of_lt hlt]
  have hle : x ≤ x * m := Nat.le_mul_of_pos_right x hpos
  have hdvd : 2 ^ 64 ∣ x * (m - 1) := by
    have := (Nat.modEq_iff_dvd' hle).mp hmod
    rwa [Nat.mul_sub_one]
  have hodd : Nat.Coprime (2 ^ 64) (m - 1) := by
    apply Nat.Coprime.pow_left
    rw [Nat.coprime_two_left, Nat.odd_iff]
    omega
  exact absurd (Nat.le_of_dvd hx (hodd.dvd_of_dvd_mul_right hdvd)) (by omega)

theorem int64_ofNat {x : Nat} (hx : x < 2 ^ 63) :
    0 ≤ Int64.ofNat x ∧ (Int64.ofNat x).toNatClampNeg = x := by
  have hx' : (Int64.ofNat x).toInt = x := Int64.toInt_ofNat_of_lt hx
  refine ⟨?_, ?_⟩
  · rw [Int64.le_iff_toInt_le, hx']
    exact Int.natCast_nonneg x
  · show (Int64.ofNat x).toInt.toNat = x
    rw [hx', Int.toNat_natCast]

theorem clampEnd_add_one {al : UInt32} {off : UInt64} (h : off.toNat + 1 < 2 ^ 64)
    (hlim : io.blockCount = 0 ∨ off < io.blockCount * al.toUInt64) :
    nfskClampEnd io al off (off + 1) = off + 1 := by
  by_cases hn : io.blockCount = 0
  · simp only [nfskClampEnd, hn, if_true]
  · have hlt := hlim.resolve_left hn
    have hadd : (off + 1).toNat = off.toNat + 1 := by
      rw [UInt64.toNat_add, Nat.mod_eq_of_lt (by simpa using h)]
      rfl
    have hnot : ¬ io.blockCount * al.toUInt64 < off + 1 := by
      rw [UInt64.lt_iff_toNat_lt] at hlt ⊢
      omega
    simp only [nfskClampEnd, hn, if_false, if_neg (UInt64.not_le.mpr hlt), if_neg hnot]

/-- A quantum above 4096 falls back to 512, less than one of the caller's blocks. -/
theorem not_honours_large (hread : io.read.isSome) (hlarge : 4096 < io.blockSize)
    (hcap : io.blockCount.toNat * quantumOf io.blockSize < 2 ^ 63) :
    ¬ ReadHonoured io s 1 0 := by
  intro h
  have hlarge' := UInt32.lt_iff_toNat_lt.mp hlarge
  simp only [UInt32.reduceToNat] at hlarge'
  have h0 : io.blockSize ≠ 0 := by
    intro h0
    rw [h0] at hlarge'
    exact absurd hlarge' (by decide)
  have hmax : nfskAlignMax < io.blockSize := hlarge
  have hal : nfskAlignQuantum io = 512 := by simp [nfskAlignQuantum, h0, hmax]
  have hquantum : quantumOf io.blockSize = io.blockSize.toNat := by simp [quantumOf, h0]
  have hlim : io.blockCount = 0 ∨
      (0 : Int64).toUInt64 < io.blockCount * (512 : UInt32).toUInt64 := by
    by_cases hn : io.blockCount = 0
    · exact Or.inl hn
    · right
      have hpos : 0 < io.blockCount.toNat := Nat.pos_of_ne_zero fun h => hn (UInt64.toNat_inj.mp h)
      have hle : io.blockCount.toNat * 512 ≤ io.blockCount.toNat * quantumOf io.blockSize :=
        Nat.mul_le_mul_left _ (by omega)
      rw [UInt64.lt_iff_toNat_lt, UInt64.toNat_mul]
      show 0 < io.blockCount.toNat * 512 % 2 ^ 64
      rw [Nat.mod_eq_of_lt (by omega)]
      omega
  obtain ⟨q, ⟨_, hlen, _⟩, _, hqlen⟩ := pread_one_request hread hal ⟨9, rfl⟩ (by decide)
    (by decide) (clampEnd_add_one (by decide) hlim) h
  rw [hqlen, hquantum, show (512 : UInt32).toNat = 512 from rfl,
    Nat.mod_eq_of_lt (by omega)] at hlen
  cases hlen

/-- Below 512 the end of the device is cut in units of 512 and not of the caller's blocks, and even
where the product wraps that is another one. -/
theorem limit_ne_capacity (hp : IsPow2 io.blockSize) (hsmall : io.blockSize < 512)
    (hpos : 0 < io.blockCount.toNat * io.blockSize.toNat)
    (hcap : io.blockCount.toNat * io.blockSize.toNat < 2 ^ 63) :
    (io.blockCount * (512 : UInt32).toUInt64).toNat ≠
      io.blockCount.toNat * io.blockSize.toNat := by
  obtain ⟨k, hk⟩ := hp
  have hk9 : k < 9 := by
    apply (Nat.pow_lt_pow_iff_right (a := 2) (by omega)).mp
    rw [← hk]
    exact UInt32.lt_iff_toNat_lt.mp hsmall
  have hsplit : io.blockCount.toNat * 512 =
      io.blockCount.toNat * io.blockSize.toNat * (2 * 2 ^ (8 - k)) := by
    rw [hk, Nat.mul_assoc, ← Nat.pow_succ', ← Nat.pow_add, show k + (8 - k).succ = 9 by omega]
  rw [UInt64.toNat_mul]
  show io.blockCount.toNat * 512 % 2 ^ 64 ≠ _
  rw [hsplit]
  exact mul_even_mod_ne hpos (by omega) (Nat.mul_mod_right ..)
    (Nat.mul_pos (by omega) (Nat.two_pow_pos _))

/-- Where the cut is behind the end, a read of the byte after the last one is passed on. -/
theorem not_honours_past (hread : io.read.isSome) (hal : nfskAlignQuantum io = 512) {c : Nat}
    (hcapacity : capacity io.blockSize io.blockCount = some c) (hcap : c < 2 ^ 63)
    (hlt : c < (io.blockCount * (512 : UInt32).toUInt64).toNat) :
    ¬ ReadHonoured io s 1 (Int64.ofNat c) := by
  intro h
  obtain ⟨hnn, hclamp⟩ := int64_ofNat hcap
  have hoff : (Int64.ofNat c).toUInt64.toNat = c := by
    rw [Int64.toNat_toUInt64_of_le hnn, hclamp]
  obtain ⟨q, ⟨_, _, hin⟩, hqoff, hqlen⟩ := pread_one_request hread hal ⟨9, rfl⟩ (by decide) hnn
    (clampEnd_add_one (by omega) (Or.inr (by rw [UInt64.lt_iff_toNat_lt, hoff]; exact hlt))) h
  have hend := hin c (by rw [hcapacity]; rfl)
  rw [hqoff, hqlen, hclamp] at hend
  have hmodlt : c % 512 < 512 := Nat.mod_lt _ (by omega)
  have hmodle := Nat.mod_le c 512
  simp only [show (512 : UInt32).toNat = 512 from rfl] at hend
  omega

/-- Where the cut is before the end, a read of the byte at the cut delivers nothing. -/
theorem not_honours_cut (hread : io.read.isSome) (hal : nfskAlignQuantum io = 512)
    (hn : io.blockCount ≠ 0) {c : Nat}
    (hcapacity : capacity io.blockSize io.blockCount = some c) (hcap : c < 2 ^ 63) {limit : UInt64}
    (hlimit : io.blockCount * (512 : UInt32).toUInt64 = limit) (hlt : limit.toNat < c) :
    ¬ ReadHonoured io s 1 (Int64.ofNat limit.toNat) := by
  intro h
  obtain ⟨hnn, hclamp⟩ := int64_ofNat (x := limit.toNat) (by omega)
  have hoff : (Int64.ofNat limit.toNat).toUInt64 = limit := by
    apply UInt64.toNat_inj.mp
    rw [Int64.toNat_toUInt64_of_le hnn, hclamp]
  have hstop : nfskClampEnd io 512 limit (limit + (1 : Int64).toUInt64) = limit := by
    rw [nfskClampEnd, if_neg hn]
    show (if io.blockCount * (512 : UInt32).toUInt64 ≤ limit then limit else _) = limit
    rw [hlimit, if_pos (UInt64.le_refl limit)]
  have hcall : fskitPread (logged io) (s, []) 1 (Int64.ofNat limit.toNat) =
      ((s, []), .done 0, []) := by
    rw [fskitPread, if_neg (logged_read_isSome hread),
      if_neg (nonneg_count_offset (by decide) hnn), if_neg (by decide)]
    have hal' : nfskAlignQuantum (logged io) = 512 := hal
    have hclampEq : nfskClampEnd (logged io) = nfskClampEnd io := rfl
    simp only [hal', hclampEq, hoff, hstop, UInt64.le_refl, if_true]
  have hin : Inside io 1 (Int64.ofNat limit.toNat) := by
    intro c' hc
    rw [hcapacity] at hc
    rw [← Option.some.inj hc, hclamp]
    exact hlt
  have hret := ((h _ _ _ hcall).2 hin (by simp)).1
  exact absurd hret (by decide)

/-- Blocks of less than 512 bytes are not honoured on a device of known length. -/
theorem not_honours_small (hread : io.read.isSome) (hp : IsPow2 io.blockSize)
    (hsmall : io.blockSize < 512) (hn : io.blockCount ≠ 0)
    (hcap : io.blockCount.toNat * quantumOf io.blockSize < 2 ^ 63) :
    ∃ offset : Int64, 0 ≤ offset ∧ ¬ ReadHonoured io s 1 offset := by
  have h0 : io.blockSize ≠ 0 := by
    intro h0
    have := hp.pos
    rw [h0] at this
    exact absurd this (by decide)
  have hal : nfskAlignQuantum io = 512 := by simp [nfskAlignQuantum, h0, hsmall]
  have hquantum : quantumOf io.blockSize = io.blockSize.toNat := by simp [quantumOf, h0]
  have hcapacity : capacity io.blockSize io.blockCount =
      some (io.blockCount.toNat * io.blockSize.toNat) := by simp [capacity, hn, hquantum]
  have hpos : 0 < io.blockCount.toNat := Nat.pos_of_ne_zero fun h => hn (UInt64.toNat_inj.mp h)
  rw [hquantum] at hcap
  have hne := limit_ne_capacity hp hsmall (Nat.mul_pos hpos hp.pos) hcap
  rcases Nat.lt_or_gt_of_ne hne with hlt | hlt
  · exact ⟨_, (int64_ofNat (by omega)).1, not_honours_cut hread hal hn hcapacity hcap rfl hlt⟩
  · exact ⟨_, (int64_ofNat hcap).1, not_honours_past hread hal hcapacity hcap hlt⟩

end Unsupported

/-- The shim honours the geometries it supports, and no other. -/
theorem honours_iff (io : NfskBlockio σ) (s : σ) (hread : io.read.isSome)
    (hb : io.blockSize = 0 ∨ IsPow2 io.blockSize)
    (hcap : io.blockCount.toNat * quantumOf io.blockSize < 2 ^ 63) :
    HonoursGeometry io s ↔ Supported io.blockSize io.blockCount := by
  constructor
  · intro h
    by_contra hs
    by_cases hlarge : 4096 < io.blockSize
    · exact not_honours_large hread hlarge hcap (h 1 0 (by decide) (by decide)).1
    · have hle := UInt32.not_lt.mp hlarge
      have h0 : io.blockSize ≠ 0 := fun h0 => hs ⟨hle, Or.inl h0⟩
      have hsmall : io.blockSize < 512 :=
        UInt32.not_le.mp fun h512 => hs ⟨hle, Or.inr (Or.inl h512)⟩
      have hn : io.blockCount ≠ 0 := fun hn => hs ⟨hle, Or.inr (Or.inr hn)⟩
      obtain ⟨offset, ho, hnot⟩ := not_honours_small (s := s) hread (hb.resolve_left h0) hsmall hn
        hcap
      exact hnot (h 1 offset (by decide) ho).1
  · intro hs count offset hc ho
    exact ⟨readHonoured_of_supported hread hb hcap hs hc ho,
      fun src hlen => writeHonoured_of_supported hread hb hcap hs hc ho hlen⟩

theorem honours_iff_legal : HonoursGeometry (strictIo false 512 8 fun _ => 0)
    (Disk.fresh fun _ => 0) ↔ Supported 512 8 :=
  honours_iff (strictIo false 512 8 fun _ => 0) (Disk.fresh fun _ => 0) rfl (Or.inr ⟨9, rfl⟩)
    (by decide)

/-- Blocks of 8192 bytes are asked for in pieces of 512; a device of 16 blocks of 256 bytes is
read past its end. -/
theorem geometry_missed :
    ¬ HonoursGeometry (strictIo false 8192 1 fun _ => 0) (Disk.fresh fun _ => 0) ∧
    ¬ HonoursGeometry (strictIo false 256 16 fun _ => 0) (Disk.fresh fun _ => 0) := by
  constructor
  · intro h
    exact not_honours_large rfl (by decide) (by decide) (h 1 0 (by decide) (by decide)).1
  · intro h
    have hread : (strictIo false 256 16 fun _ => 0).read.isSome := rfl
    obtain ⟨offset, ho, hnot⟩ := not_honours_small hread ⟨8, rfl⟩ (by decide) (by decide)
      (by decide)
    exact hnot (h 1 offset (by decide) ho).1

end Shim
end Usbrw
