import Usbrw.Shim.Strict

/-!
# Shim.Window

The arithmetic of one request: which blocks the head, the middle and the tail of a range touch.
`Setup` is what a transfer relies on; from it, every request the shim makes is one the device
accepts (`Bounds.accepts_block`, `mid_window`, `direct_window`).
-/

namespace Usbrw
namespace Shim

open Mask

/-- A quantum that is a power of two, and a request that ends on the device. -/
structure Bounds (al : UInt32) (cap : Option Nat) (stop : UInt64) : Prop where
  pow2 : IsPow2 al
  inside : ∀ c ∈ cap, stop.toNat ≤ c ∧ c % al.toNat = 0

/-- What a transfer relies on: the strict read callback, and a request that ends on the device. -/
structure Setup (io : NfskBlockio Disk) (al : UInt32) (cap : Option Nat) (faults : Nat → Int)
    (stop : UInt64) : Prop where
  pow2 : IsPow2 al
  read : io.read = some (strictRead al.toNat cap faults)
  inside : ∀ c ∈ cap, stop.toNat ≤ c ∧ c % al.toNat = 0

theorem Setup.bounds {io : NfskBlockio Disk} {al : UInt32} {cap : Option Nat}
    {faults : Nat → Int} {stop : UInt64} (hS : Setup io al cap faults stop) : Bounds al cap stop :=
  ⟨hS.pow2, hS.inside⟩

theorem strictIo_setup (readonly : Bool) (faults : Nat → Int) {b : UInt32} {n : UInt64}
    {stop off : UInt64} {o count : Nat} (hb : LegalBlockSize b)
    (hstop : stop.toNat = off.toNat + served b n o count) (ho : off.toNat = o)
    (hpos : 0 < served b n o count) :
    Setup (strictIo readonly b n faults) (nfskAlignQuantum (strictIo readonly b n faults))
      (capacity b n) faults stop := by
  have hal : (nfskAlignQuantum (strictIo readonly b n faults)).toNat = quantumOf b :=
    alignQuantum_toNat hb
  refine ⟨alignQuantum_isPow2 hb, by rw [hal]; rfl, ?_⟩
  intro c hc
  rw [hal, hstop]
  unfold capacity at hc
  unfold served at hpos ⊢
  by_cases hn : n = 0
  · simp [hn] at hc
  · simp only [hn, if_false, Option.mem_def, Option.some.injEq] at hc hpos ⊢
    subst hc
    exact ⟨by omega, Nat.mul_mod_left ..⟩

section Windows

variable {al : UInt32} {cap : Option Nat} {stop cur : UInt64}

/-- A block that begins before the end of the request is one the device accepts. -/
theorem Bounds.accepts_block (hS : Bounds al cap stop) {base : UInt64}
    (hbase : base.toNat % al.toNat = 0) (hin : base.toNat < stop.toNat) :
    Accepts al.toNat cap base.toNat al.toUInt64.toNat := by
  refine ⟨hbase, by simp, ?_⟩
  intro c hc
  obtain ⟨h1, h2⟩ := hS.inside c hc
  rw [UInt32.toNat_toUInt64]
  exact block_le hbase h2 (by omega)

/-- At a block boundary, or at the end of the request. -/
def AtBoundary (al : UInt32) (stop cur : UInt64) : Prop := cur.toNat % al.toNat = 0 ∨ cur = stop

theorem toNat_stop_sub (h : cur.toNat ≤ stop.toNat) :
    (stop - cur).toNat = stop.toNat - cur.toNat :=
  UInt64.toNat_sub_of_le _ _ (UInt64.le_iff_toNat_le.mpr h)

theorem toNat_add_of_le {n : UInt64} (stop : UInt64) (h : cur.toNat + n.toNat ≤ stop.toNat) :
    (cur + n).toNat = cur.toNat + n.toNat := by
  have := stop.toNat_lt
  rw [UInt64.toNat_add, Nat.mod_eq_of_lt (by omega)]

theorem eq_stop_of_not_lt (h : cur.toNat ≤ stop.toNat) (hlt : ¬ cur < stop) : cur = stop := by
  have hge := UInt64.le_iff_toNat_le.mp (UInt64.not_lt.mp hlt)
  exact UInt64.toNat_inj.mp (by omega)

/-- Where the block that holds `x` begins, and how far inside it `x` is. -/
theorem block_position (hp : IsPow2 al) (x : UInt64) :
    (x &&& ~~~(al - 1).toUInt64).toNat = x.toNat - x.toNat % al.toNat ∧
    (x - (x &&& ~~~(al - 1).toUInt64)).toNat = x.toNat % al.toNat ∧
    (x &&& ~~~(al - 1).toUInt64).toNat % al.toNat = 0 := by
  have hb := toNat_and_not_pred hp x
  have hdm := Nat.div_add_mod' x.toNat al.toNat
  refine ⟨by omega, ?_, by rw [hb, Nat.mul_mod_left]⟩
  rw [toNat_stop_sub (by omega), hb]; omega

/-- The head ends at a block boundary or with the request. -/
theorem head_window (hp : IsPow2 al) (hlt : cur < stop) :
    (headLen al stop cur).toNat =
      min (al.toNat - cur.toNat % al.toNat) (stop.toNat - cur.toNat) ∧
    (cur + headLen al stop cur).toNat = cur.toNat + (headLen al stop cur).toNat ∧
    AtBoundary al stop (cur + headLen al stop cur) := by
  obtain ⟨_, hskip, _⟩ := block_position hp cur
  have hlt' : cur.toNat < stop.toNat := UInt64.lt_iff_toNat_lt.mp hlt
  have hmod : cur.toNat % al.toNat < al.toNat := Nat.mod_lt _ hp.pos
  have hsub := toNat_stop_sub (Nat.le_of_lt hlt')
  have hrest : (al.toUInt64 - (cur - (cur &&& ~~~(al - 1).toUInt64))).toNat =
      al.toNat - cur.toNat % al.toNat := by
    rw [toNat_stop_sub (by rw [UInt32.toNat_toUInt64]; omega), UInt32.toNat_toUInt64, hskip]
  have hn : (headLen al stop cur).toNat =
      min (al.toNat - cur.toNat % al.toNat) (stop.toNat - cur.toNat) := by
    simp only [headLen, UInt64.lt_iff_toNat_lt, hsub, hrest]
    split
    · rw [hsub]; omega
    · rw [hrest]; omega
  have hcur : (cur + headLen al stop cur).toNat = cur.toNat + (headLen al stop cur).toNat :=
    toNat_add_of_le stop (by omega)
  refine ⟨hn, hcur, ?_⟩
  by_cases he : stop.toNat - cur.toNat ≤ al.toNat - cur.toNat % al.toNat
  · right
    exact UInt64.toNat_inj.mp (by omega)
  · left
    have hdm := Nat.div_add_mod' cur.toNat al.toNat
    rw [hcur, show cur.toNat + (headLen al stop cur).toNat =
      (cur.toNat / al.toNat + 1) * al.toNat by rw [Nat.succ_mul]; omega, Nat.mul_mod_left]

/-- The head is a window of the block that holds `cur`. -/
structure HeadBlock (al : UInt32) (stop cur : UInt64) : Prop where
  aligned : (cur &&& ~~~(al - 1).toUInt64).toNat % al.toNat = 0
  begins : (cur &&& ~~~(al - 1).toUInt64).toNat < stop.toNat
  start : (cur &&& ~~~(al - 1).toUInt64).toNat +
    (cur - (cur &&& ~~~(al - 1).toUInt64)).toNat = cur.toNat
  fits : (cur - (cur &&& ~~~(al - 1).toUInt64)).toNat + (headLen al stop cur).toNat ≤ al.toNat
  ends : cur.toNat + (headLen al stop cur).toNat ≤ stop.toNat
  next : (cur + headLen al stop cur).toNat = cur.toNat + (headLen al stop cur).toNat
  boundary : AtBoundary al stop (cur + headLen al stop cur)

theorem headBlock (hp : IsPow2 al) (hlt : cur < stop) : HeadBlock al stop cur := by
  obtain ⟨hbase, hskip, hal⟩ := block_position hp cur
  obtain ⟨hn, hcur, hat⟩ := head_window hp hlt
  have hlt' : cur.toNat < stop.toNat := UInt64.lt_iff_toNat_lt.mp hlt
  have hmod : cur.toNat % al.toNat < al.toNat := Nat.mod_lt _ hp.pos
  have hle := Nat.mod_le cur.toNat al.toNat
  exact ⟨hal, by omega, by omega, by omega, by omega, hcur, hat⟩

/-- The middle is empty, or whole blocks the device accepts; less than a block is left of it. -/
theorem mid_window (hS : Bounds al cap stop) (hat : AtBoundary al stop cur)
    (hle : cur.toNat ≤ stop.toNat) :
    let mid := (stop - cur) &&& ~~~(al - 1).toUInt64
    (mid = 0 ∧ stop.toNat < cur.toNat + al.toNat) ∨
    (mid ≠ 0 ∧ Accepts al.toNat cap cur.toNat mid.toNat ∧
      (cur + mid).toNat = cur.toNat + mid.toNat ∧ cur.toNat + mid.toNat ≤ stop.toNat ∧
      AtBoundary al stop (cur + mid) ∧ stop.toNat < (cur + mid).toNat + al.toNat) := by
  intro mid
  have hsub := toNat_stop_sub hle
  have hmid : mid.toNat = (stop - cur).toNat / al.toNat * al.toNat :=
    toNat_and_not_pred hS.pow2 (stop - cur)
  have hdm := Nat.div_add_mod' (stop - cur).toNat al.toNat
  have hlt : (stop - cur).toNat % al.toNat < al.toNat := Nat.mod_lt _ hS.pow2.pos
  by_cases h0 : mid = 0
  · left
    have hz : mid.toNat = 0 := by rw [h0]; rfl
    exact ⟨h0, by omega⟩
  · right
    have hz : mid.toNat ≠ 0 := fun e => h0 (UInt64.toNat_inj.mp e)
    have hbound : cur.toNat % al.toNat = 0 := by
      rcases hat with ha | ha
      · exact ha
      · have := congrArg UInt64.toNat ha
        omega
    have hmod : mid.toNat % al.toNat = 0 := by rw [hmid, Nat.mul_mod_left]
    have hcur : (cur + mid).toNat = cur.toNat + mid.toNat :=
      toNat_add_of_le stop (by omega)
    refine ⟨h0, ⟨hbound, hmod, ?_⟩, hcur, by omega, Or.inl ?_, by omega⟩
    · intro c hc
      have := (hS.inside c hc).1
      omega
    · rw [hcur, Nat.add_mod, hbound, hmod]; rfl

theorem tail_window (hlt : cur < stop) (hat : AtBoundary al stop cur) :
    cur.toNat < stop.toNat ∧ (stop - cur).toNat = stop.toNat - cur.toNat ∧
      cur.toNat % al.toNat = 0 := by
  have hlt' : cur.toNat < stop.toNat := UInt64.lt_iff_toNat_lt.mp hlt
  refine ⟨hlt', toNat_stop_sub (Nat.le_of_lt hlt'), ?_⟩
  rcases hat with ha | ha
  · exact ha
  · rw [ha] at hlt'
    exact absurd hlt' (Nat.lt_irrefl _)

/-- A request whose two ends are at block boundaries is one the device accepts as it is. -/
theorem direct_window (hS : Bounds al cap stop) (hlt : cur < stop)
    (h1 : cur &&& (al - 1).toUInt64 = 0) (h2 : stop &&& (al - 1).toUInt64 = 0) :
    Accepts al.toNat cap cur.toNat (stop - cur).toNat ∧
      cur.toNat + (stop - cur).toNat = stop.toNat := by
  rw [and_pred_eq_zero hS.pow2] at h1 h2
  have hlt' : cur.toNat < stop.toNat := UInt64.lt_iff_toNat_lt.mp hlt
  have hsub := toNat_stop_sub (Nat.le_of_lt hlt')
  refine ⟨⟨h1, ?_, ?_⟩, by omega⟩
  · rw [hsub]
    exact Nat.mod_eq_zero_of_dvd (Nat.dvd_sub (Nat.dvd_of_mod_eq_zero h2)
      (Nat.dvd_of_mod_eq_zero h1))
  · intro c hc
    have := (hS.inside c hc).1
    omega

end Windows

theorem toInt_toInt64 {x : UInt64} (h : x.toNat < 2 ^ 63) : x.toInt64.toInt = x.toNat := by
  have e : x.toInt64 = Int64.ofNat x.toNat := by
    rw [← UInt64.toInt64_ofNat', UInt64.ofNat_toNat]
  rw [e, Int64.toInt_ofNat_of_lt h]

end Shim
end Usbrw
