import Usbrw.Shim.Window

/-!
# Shim.Write

The write law of the alignment shim. `fskit_pwrite` splits a request into a head, a middle and a
tail; `Written` is what holds between the stages: the device is the old one with the bytes up to
the current position stored, and the source buffer has advanced by as much.

* `rmwBlock_spec`    — read-modify-write of one block stores its window and nothing else.
* `pwriteBody_spec`  — the three stages (or the direct write) carry `Written` to the end.
* `fskitPwrite_law`  — the law for a whole call.
-/

namespace Usbrw
namespace Shim

open Region Mask

/-- The outcome of a stage: `P` at the position reached, or a prefix of `buf` stored from `o` on
and a failure that the schedule caused. -/
def WriteStage (faults : Nat → Int) (d0 : Disk) (o : Nat) (buf : List UInt8)
    (P : Disk → WritePos → Prop) : Disk × Except Int WritePos → Prop
  | (d, .ok c) => P d c
  | (d, .error rc) => rc ≠ 0 ∧ d.failed = true ∧ (∃ i, faults i ≠ 0) ∧
      ∃ k, k ≤ buf.length ∧ d.bytes = overwrite d0.bytes o (buf.take k)

theorem WriteStage.andThen {faults : Nat → Int} {d0 : Disk} {o : Nat} {buf : List UInt8}
    {P Q : Disk → WritePos → Prop} {r : Disk × Except Int WritePos}
    {f : Disk → WritePos → Disk × Except Int WritePos} (h : WriteStage faults d0 o buf P r)
    (hf : ∀ d c, P d c → WriteStage faults d0 o buf Q (f d c)) :
    WriteStage faults d0 o buf Q (Shim.andThen r f) := by
  rcases r with ⟨d, rc | c⟩
  · exact h
  · exact hf d c h

/-- Between the stages: everything before `cur` is stored, `src` is what is left of `buf`. -/
structure Written (d0 : Disk) (o stop : Nat) (buf : List UInt8) (d : Disk) (c : WritePos) :
    Prop where
  low : o ≤ c.cur.toNat
  high : c.cur.toNat ≤ stop
  bytes : d.bytes = overwrite d0.bytes o (buf.take (c.cur.toNat - o))
  src : c.src = buf.drop (c.cur.toNat - o)
  failed : d.failed = false

section Stages

variable {io : NfskBlockio Disk} {al : UInt32} {cap : Option Nat} {faults : Nat → Int}
  {stop : UInt64} {d0 : Disk} {o : Nat} {buf : List UInt8}

/-- Storing `n` more bytes from the current position keeps `Written`. -/
theorem Written.advance {d d' : Disk} {c : WritePos} {n : Nat} {cur : UInt64}
    (h : Written d0 o stop.toNat buf d c) (hn : c.cur.toNat + n ≤ stop.toNat)
    (hcur : cur.toNat = c.cur.toNat + n) (hlen : stop.toNat ≤ o + buf.length)
    (hb : d'.bytes = overwrite d.bytes c.cur.toNat (c.src.take n)) (hf : d'.failed = d.failed) :
    Written d0 o stop.toNat buf d' ⟨cur, c.src.drop n⟩ := by
  obtain ⟨low, high, bytes, src, failed⟩ := h
  have hk : (buf.take (c.cur.toNat - o)).length = c.cur.toNat - o := by
    rw [List.length_take]; omega
  refine ⟨by simp only [hcur]; omega, by simp only [hcur]; omega, ?_, ?_, hf.trans failed⟩
  · have e : o + (buf.take (c.cur.toNat - o)).length = c.cur.toNat := by omega
    simp only [hcur]
    rw [hb, bytes, src, show c.cur.toNat + n - o = (c.cur.toNat - o) + n by omega, List.take_add,
      overwrite_append, e]
  · simp only [hcur]
    rw [src, List.drop_drop, show c.cur.toNat - o + n = c.cur.toNat + n - o by omega]

theorem Written.broken {d d' : Disk} {c : WritePos} {rc : Int}
    (h : Written d0 o stop.toNat buf d c) (hlen : stop.toNat ≤ o + buf.length)
    (hf : Failed faults d d' rc) (P : Disk → WritePos → Prop) :
    WriteStage faults d0 o buf P (d', .error rc) := by
  obtain ⟨low, high, bytes, _, _⟩ := h
  obtain ⟨hrc, hb, hfail, hi⟩ := hf
  exact ⟨hrc, hfail, hi, c.cur.toNat - o, by omega, hb.trans bytes⟩

/-- A call whose return code decides about the next position: it fails, or the device is as `hok`
needs it. -/
theorem Written.call {d : Disk} {c c' : WritePos} {r : Disk × Int} {img : Nat → UInt8}
    {P : Disk → WritePos → Prop} (h : Written d0 o stop.toNat buf d c)
    (hlen : stop.toNat ≤ o + buf.length)
    (hr : (∃ d', r = (d', 0) ∧ d'.bytes = img ∧ d'.failed = d.failed) ∨
      ∃ d' rc, r = (d', rc) ∧ Failed faults d d' rc)
    (hok : ∀ d' : Disk, d'.bytes = img → d'.failed = d.failed → P d' c') :
    WriteStage faults d0 o buf P
      (if r.2 ≠ 0 then (r.1, .error r.2) else (r.1, .ok c')) := by
  rcases hr with ⟨d', rfl, hb, hf⟩ | ⟨d', rc, rfl, hfail⟩
  · rw [if_neg (fun h0 => h0 rfl)]
    exact hok d' hb hf
  · rw [if_pos hfail.1]
    exact h.broken hlen hfail P

/-- Read-modify-write of an accepted block stores the window alone, or fails storing nothing. -/
theorem rmwBlock_spec (hS : Setup io al cap faults stop) (d : Disk) (base skip n : UInt64)
    (src : List UInt8) (hbase : base.toNat % al.toNat = 0) (hin : base.toNat < stop.toNat)
    (hn : skip.toNat + n.toNat ≤ al.toNat) :
    (∃ d', rmwBlock io (strictWrite al.toNat cap faults) al d base skip n src = (d', 0) ∧
      d'.bytes = overwrite d.bytes (base.toNat + skip.toNat) (src.take n.toNat) ∧
      d'.failed = d.failed) ∨
    ∃ d' rc, rmwBlock io (strictWrite al.toNat cap faults) al d base skip n src = (d', rc) ∧
      Failed faults d d' rc := by
  have hacc := hS.bounds.accepts_block hbase hin
  simp only [rmwBlock, NfskBlockio.callRead, hS.read]
  rcases strictRead_accepted hacc with
    ⟨d1, e1, hb1, hf1⟩ | ⟨d1, rc, e1, hrc⟩
  · have hw : (src.take n.toNat).length ≤ n.toNat := List.length_take_le ..
    have hlen : (patch (slice d.bytes base.toNat al.toUInt64.toNat) skip.toNat
        (src.take n.toNat)).length = al.toUInt64.toNat := by
      rw [length_patch (by rw [length_slice, UInt32.toNat_toUInt64]; omega), length_slice]
    rw [e1]
    simp only [ne_eq, not_true, if_false]
    rcases strictWrite_accepted
        (patch (slice d.bytes base.toNat al.toUInt64.toNat) skip.toNat (src.take n.toNat)) hacc with
      ⟨d2, e2, hb2, hf2⟩ | ⟨d2, rc, e2, hrc, hb2, hf2, hi⟩
    · left
      refine ⟨d2, e2, ?_, hf2.trans hf1⟩
      rw [hb2, List.take_of_length_le (by rw [hlen]), hb1,
        overwrite_patch_slice (by rw [UInt32.toNat_toUInt64]; omega)]
    · right
      exact ⟨d2, rc, e2, hrc, hb2.trans hb1, hf2, hi⟩
  · right
    refine ⟨d1, rc, ?_, hrc⟩
    rw [e1]
    simp only [ne_eq, hrc.1, not_false_iff, if_true]

theorem pwriteHead_spec (hS : Setup io al cap faults stop) {d : Disk} {c : WritePos}
    (h : Written d0 o stop.toNat buf d c) (hlen : stop.toNat ≤ o + buf.length)
    (hlt : c.cur < stop) :
    WriteStage faults d0 o buf
      (fun d c => Written d0 o stop.toNat buf d c ∧ AtBoundary al stop c.cur)
      (pwriteHead io (strictWrite al.toNat cap faults) al stop d c) := by
  simp only [pwriteHead]
  by_cases h0 : c.cur &&& (al - 1).toUInt64 = 0
  · rw [if_neg (fun hne => hne h0)]
    exact ⟨h, Or.inl ((and_pred_eq_zero hS.pow2 c.cur).mp h0)⟩
  · rw [if_pos h0]
    have hw := headBlock hS.pow2 hlt
    refine h.call hlen (rmwBlock_spec hS d (c.cur &&& ~~~(al - 1).toUInt64)
      (c.cur - (c.cur &&& ~~~(al - 1).toUInt64)) (headLen al stop c.cur) c.src hw.aligned hw.begins
      hw.fits) ?_
    intro d' hb hf
    refine ⟨h.advance hw.ends hw.next hlen ?_ hf, hw.boundary⟩
    rw [hb, hw.start]

/-- The middle stores a whole number of blocks and leaves less than one. -/
theorem pwriteMid_spec (hS : Setup io al cap faults stop) {d : Disk} {c : WritePos}
    (h : Written d0 o stop.toNat buf d c) (hlen : stop.toNat ≤ o + buf.length)
    (hat : AtBoundary al stop c.cur) :
    WriteStage faults d0 o buf
      (fun d c => Written d0 o stop.toNat buf d c ∧ AtBoundary al stop c.cur ∧
        stop.toNat < c.cur.toNat + al.toNat)
      (pwriteMid (strictWrite al.toNat cap faults) al stop d c) := by
  simp only [pwriteMid]
  rcases mid_window hS.bounds hat h.high with ⟨h0, hlast⟩ | ⟨hne, hacc, hcur, hle, hat', hlast⟩
  · rw [if_neg (fun hne => hne h0)]
    exact ⟨h, hat, hlast⟩
  · rw [if_pos hne]
    refine h.call hlen (strictWrite_accepted c.src hacc) ?_
    intro d' hb hf
    exact ⟨h.advance hle hcur hlen hb hf, hat', hlast⟩

theorem pwriteTail_spec (hS : Setup io al cap faults stop) {d : Disk} {c : WritePos}
    (h : Written d0 o stop.toNat buf d c) (hlen : stop.toNat ≤ o + buf.length)
    (hat : AtBoundary al stop c.cur) (hlast : stop.toNat < c.cur.toNat + al.toNat) :
    WriteStage faults d0 o buf
      (fun d c => Written d0 o stop.toNat buf d c ∧ c.cur = stop)
      (pwriteTail io (strictWrite al.toNat cap faults) al stop d c) := by
  simp only [pwriteTail]
  by_cases hlt : c.cur < stop
  · rw [if_pos hlt]
    obtain ⟨hlt', hsub, hbound⟩ := tail_window hlt hat
    refine h.call hlen
      (rmwBlock_spec hS d c.cur 0 (stop - c.cur) c.src hbound hlt' (by simp; omega)) ?_
    intro d' hb hf
    exact ⟨h.advance (by omega) (by omega) hlen hb hf, rfl⟩
  · rw [if_neg hlt]
    exact ⟨h, eq_stop_of_not_lt h.high hlt⟩

/-- From the start of a request that lies on the device, both routes store all of it. -/
theorem pwriteBody_spec (hS : Setup io al cap faults stop) {d : Disk} {off : UInt64}
    (hd : d.failed = false) (hlt : off < stop) (hlen : stop.toNat ≤ off.toNat + buf.length) :
    WriteStage faults d off.toNat buf
      (fun d' c => Written d off.toNat stop.toNat buf d' c ∧ c.cur = stop)
      (pwriteBody io (strictWrite al.toNat cap faults) al stop off buf d) := by
  have hlt' : off.toNat < stop.toNat := UInt64.lt_iff_toNat_lt.mp hlt
  have h0 : Written d off.toNat stop.toNat buf d ⟨off, buf⟩ :=
    ⟨Nat.le_refl _, Nat.le_of_lt hlt', by simp, by simp, hd⟩
  simp only [pwriteBody]
  split
  · rename_i hal
    obtain ⟨hacc, hend⟩ := direct_window hS.bounds hlt hal.1 hal.2
    refine h0.call hlen (strictWrite_accepted buf hacc) ?_
    intro d' hb hf
    exact ⟨h0.advance (Nat.le_of_eq hend) hend.symm hlen hb hf, rfl⟩
  · have h1 := (pwriteHead_spec hS h0 hlen hlt).andThen
      fun _ _ h => pwriteMid_spec hS h.1 hlen h.2
    exact h1.andThen fun _ _ h => pwriteTail_spec hS h.1 hlen h.2.1 h.2.2

end Stages

/-! ## The law -/

/-- Whatever fails, `fskit_pwrite` stores a prefix of the request and touches no other byte; it
reports the stored length when nothing fails and -1 otherwise. -/
theorem fskitPwrite_law (b : UInt32) (n : UInt64) (faults : Nat → Int) (hb : LegalBlockSize b)
    (hcap : n.toNat * quantumOf b < 2 ^ 64) (bytes : Nat → UInt8) (buf : List UInt8)
    (count offset : Int64) (ho : 0 ≤ offset) (hc : 0 < count)
    (hbuf : buf.length = count.toNatClampNeg) :
    ∃ d' r k, fskitPwrite (strictIo false b n faults) (Disk.fresh bytes) buf count offset = (d', r) ∧
      k ≤ buf.length ∧ d'.bytes = overwrite bytes offset.toNatClampNeg (buf.take k) ∧
      (d'.failed = false → r.ret.toInt = k ∧
        k = served b n offset.toNatClampNeg count.toNatClampNeg) ∧
      (d'.failed = true → r.ret = -1) ∧ ((∀ i, faults i = 0) → d'.failed = false) := by
  have hstop := request_toNat false hb hcap faults ho (Int64.le_of_lt hc)
  have hoff := Int64.toNat_toUInt64_of_le ho
  have hneg : ¬ (count < 0 ∨ offset < 0) := by
    rintro (h | h)
    · exact Int64.lt_irrefl (Int64.lt_trans hc h)
    · exact absurd ho (Int64.not_le.mpr h)
  have hne : count ≠ 0 := fun e => absurd hc (by rw [e]; decide)
  simp only [fskitPwrite, strictIo_write, strictIo_readonly, hneg, hne, if_false,
    Bool.false_eq_true]
  generalize nfskClampEnd (strictIo false b n faults) _ offset.toUInt64
    (offset.toUInt64 + count.toUInt64) = stop at hstop ⊢
  by_cases hle : stop ≤ offset.toUInt64
  · rw [if_pos hle]
    have : stop.toNat ≤ offset.toUInt64.toNat := UInt64.le_iff_toNat_le.mp hle
    refine ⟨_, _, 0, rfl, Nat.zero_le _, by simp [Disk.fresh], ?_, ?_, fun _ => rfl⟩
    · intro _
      exact ⟨rfl, by omega⟩
    · intro h; cases h
  · rw [if_neg hle]
    have hlt : offset.toUInt64 < stop := UInt64.not_le.mp hle
    have hlt' := UInt64.lt_iff_toNat_lt.mp hlt
    have hserved := served_le b n offset.toNatClampNeg count.toNatClampNeg
    have hspec := pwriteBody_spec (strictIo_setup false faults hb hstop hoff (by omega))
      (d := Disk.fresh bytes) rfl hlt (show stop.toNat ≤ offset.toUInt64.toNat + buf.length by omega)
    rw [alignQuantum_toNat hb] at hspec
    simp only [strictIo_blockSize] at hspec
    generalize pwriteBody (strictIo false b n faults) _ _ stop offset.toUInt64 buf
      (Disk.fresh bytes) = r at hspec ⊢
    rcases r with ⟨d', rc | c⟩
    · obtain ⟨_, hf, hi, k, hk, hbytes⟩ := hspec
      refine ⟨d', _, k, rfl, hk, by rwa [hoff] at hbytes, ?_, fun _ => rfl, ?_⟩
      · intro h; rw [hf] at h; cases h
      · intro h
        obtain ⟨i, hi⟩ := hi
        exact absurd (h i) hi
    · obtain ⟨⟨low, _, hbytes, _, hf⟩, hcur⟩ := hspec
      have hsub : (stop - offset.toUInt64).toNat = stop.toNat - offset.toUInt64.toNat :=
        UInt64.toNat_sub_of_le _ _ (UInt64.le_of_lt hlt)
      have hcount := count.toNatClampNeg_lt
      refine ⟨d', _, stop.toNat - offset.toUInt64.toNat, rfl, by omega, ?_, ?_, ?_, fun _ => hf⟩
      · rw [hbytes, hcur, hoff]; rfl
      · intro _
        refine ⟨?_, by omega⟩
        simp only [Ret.done]
        rw [toInt_toInt64 (by omega), hsub]
      · intro h; rw [hf] at h; cases h

/-- Five bytes into the middle of a block, with no fault. -/
theorem fskitPwrite_law_head :
    ∃ d' r k, fskitPwrite (strictIo false 512 8 fun _ => 0) (Disk.fresh fun _ => 0) [1, 2, 3, 4, 5]
        5 3 = (d', r) ∧
      k ≤ 5 ∧ d'.bytes = overwrite (fun _ => 0) 3 (([1, 2, 3, 4, 5] : List UInt8).take k) ∧
      (d'.failed = false → r.ret.toInt = k ∧ k = served 512 8 3 5) ∧
      (d'.failed = true → r.ret = -1) ∧ ((∀ _ : Nat, (0 : Int) = 0) → d'.failed = false) :=
  fskitPwrite_law 512 8 (fun _ => 0) (Or.inr ⟨⟨9, rfl⟩, by decide, by decide⟩) (by decide)
    (fun _ => 0) [1, 2, 3, 4, 5] 5 3 (by decide) (by decide) rfl

end Shim
end Usbrw
