import Usbrw.Shim.Window

/-!
# Shim.Read

The read law of the alignment shim. `Gathered` is what holds between the stages of `fskit_pread`:
the buffer holds the device bytes from the offset up to the current position. The direct route
and the head, middle and tail route both carry it to the end (`preadBody_spec`), so they deliver
the same bytes (`fskitPread_law`).
-/

namespace Usbrw
namespace Shim

open Region Mask

/-- The outcome of a stage over the device image `img`: `P` at the position reached, or a failure
that the schedule caused. -/
def ReadStage (faults : Nat → Int) (img : Nat → UInt8) (P : Disk → ReadPos → Prop) :
    Disk × Except Int ReadPos → Prop
  | (d, .ok c) => P d c
  | (d, .error rc) => rc ≠ 0 ∧ d.bytes = img ∧ d.failed = true ∧ ∃ i, faults i ≠ 0

theorem ReadStage.andThen {faults : Nat → Int} {img : Nat → UInt8}
    {P Q : Disk → ReadPos → Prop}
    {r : Disk × Except Int ReadPos} {f : Disk → ReadPos → Disk × Except Int ReadPos}
    (h : ReadStage faults img P r) (hf : ∀ d c, P d c → ReadStage faults img Q (f d c)) :
    ReadStage faults img Q (Shim.andThen r f) := by
  rcases r with ⟨d, rc | c⟩
  · exact h
  · exact hf d c h

/-- Between the stages: the bytes before `cur` are in the buffer. -/
structure Gathered (img : Nat → UInt8) (o stop : Nat) (d : Disk) (c : ReadPos) : Prop where
  low : o ≤ c.cur.toNat
  high : c.cur.toNat ≤ stop
  bytes : d.bytes = img
  out : c.out = slice img o (c.cur.toNat - o)
  failed : d.failed = false

section Stages

variable {io : NfskBlockio Disk} {al : UInt32} {cap : Option Nat} {faults : Nat → Int}
  {stop : UInt64} {img : Nat → UInt8} {o : Nat}

/-- Taking in `n` more bytes from the current position keeps `Gathered`. -/
theorem Gathered.advance {d d' : Disk} {c : ReadPos} {n : Nat} {cur : UInt64} {bs : List UInt8}
    (h : Gathered img o stop.toNat d c) (hn : c.cur.toNat + n ≤ stop.toNat)
    (hcur : cur.toNat = c.cur.toNat + n) (hbs : bs = slice d.bytes c.cur.toNat n)
    (hb : d'.bytes = d.bytes) (hf : d'.failed = d.failed) :
    Gathered img o stop.toNat d' ⟨cur, c.out ++ bs⟩ := by
  obtain ⟨low, high, hbytes, out, failed⟩ := h
  refine ⟨by simp only [hcur]; omega, by simp only [hcur]; omega, hb.trans hbytes, ?_,
    hf.trans failed⟩
  have e : o + (c.cur.toNat - o) = c.cur.toNat := by omega
  simp only [hcur]
  rw [hbs, out, hbytes, show c.cur.toNat + n - o = (c.cur.toNat - o) + n by omega, slice_add, e]

theorem Gathered.broken {d d' : Disk} {c : ReadPos} {rc : Int}
    (h : Gathered img o stop.toNat d c) (hf : Failed faults d d' rc)
    (P : Disk → ReadPos → Prop) : ReadStage faults img P (d', .error rc) := by
  obtain ⟨hrc, hb, hfail, hi⟩ := hf
  exact ⟨hrc, hb.trans h.bytes, hfail, hi⟩

/-- A call whose return code decides about the next position, which depends on what it read. -/
theorem Gathered.call {d : Disk} {c c' : ReadPos} {r : Disk × Int × List UInt8} {bs : List UInt8}
    {P : Disk → ReadPos → Prop} (h : Gathered img o stop.toNat d c)
    (hr : (∃ d', r = (d', 0, bs) ∧ d'.bytes = d.bytes ∧ d'.failed = d.failed) ∨
      ∃ d' rc, r = (d', rc, []) ∧ Failed faults d d' rc)
    (hok : ∀ d' : Disk, r.2.2 = bs → d'.bytes = d.bytes → d'.failed = d.failed → P d' c') :
    ReadStage faults img P
      (if r.2.1 ≠ 0 then (r.1, .error r.2.1) else (r.1, .ok c')) := by
  rcases hr with ⟨d', rfl, hb, hf⟩ | ⟨d', rc, rfl, hfail⟩
  · rw [if_neg (fun h0 => h0 rfl)]
    exact hok d' rfl hb hf
  · rw [if_pos hfail.1]
    exact h.broken hfail P

/-- A block that begins before the end of the request is read whole, or the read fails. -/
theorem callRead_block (hS : Setup io al cap faults stop) (d : Disk) {base : UInt64}
    (hbase : base.toNat % al.toNat = 0) (hin : base.toNat < stop.toNat) :
    (∃ d', io.callRead d base al.toUInt64 = (d', 0, slice d.bytes base.toNat al.toNat) ∧
      d'.bytes = d.bytes ∧ d'.failed = d.failed) ∨
    ∃ d' rc, io.callRead d base al.toUInt64 = (d', rc, []) ∧ Failed faults d d' rc := by
  have hacc := hS.bounds.accepts_block hbase hin
  simp only [NfskBlockio.callRead, hS.read]
  rcases strictRead_accepted (d := d) hacc with ⟨d', e, h⟩ | h
  · rw [UInt32.toNat_toUInt64] at e
    exact Or.inl ⟨d', e, h⟩
  · exact Or.inr h

theorem preadHead_spec (hS : Setup io al cap faults stop) {d : Disk} {c : ReadPos}
    (h : Gathered img o stop.toNat d c) (hlt : c.cur < stop) :
    ReadStage faults img
      (fun d c => Gathered img o stop.toNat d c ∧ AtBoundary al stop c.cur)
      (preadHead io al stop d c) := by
  simp only [preadHead]
  by_cases h0 : c.cur &&& (al - 1).toUInt64 = 0
  · rw [if_neg (fun hne => hne h0)]
    exact ⟨h, Or.inl ((and_pred_eq_zero hS.pow2 c.cur).mp h0)⟩
  · rw [if_pos h0]
    have hw := headBlock hS.pow2 hlt
    refine h.call (callRead_block hS d hw.aligned hw.begins) ?_
    intro d' hbs hb hf
    refine ⟨h.advance hw.ends hw.next ?_ hb hf, hw.boundary⟩
    rw [hbs, window_slice hw.fits, hw.start]

theorem preadMid_spec (hS : Setup io al cap faults stop) {d : Disk} {c : ReadPos}
    (h : Gathered img o stop.toNat d c) (hat : AtBoundary al stop c.cur) :
    ReadStage faults img
      (fun d c => Gathered img o stop.toNat d c ∧ AtBoundary al stop c.cur ∧
        stop.toNat < c.cur.toNat + al.toNat)
      (preadMid io al stop d c) := by
  simp only [preadMid]
  rcases mid_window hS.bounds hat h.high with ⟨h0, hlast⟩ | ⟨hne, hacc, hcur, hle, hat', hlast⟩
  · rw [if_neg (fun hne => hne h0)]
    exact ⟨h, hat, hlast⟩
  · rw [if_pos hne]
    simp only [NfskBlockio.callRead, hS.read]
    refine h.call (strictRead_accepted hacc) ?_
    intro d' hbs hb hf
    exact ⟨h.advance hle hcur hbs hb hf, hat', hlast⟩

theorem preadTail_spec (hS : Setup io al cap faults stop) {d : Disk} {c : ReadPos}
    (h : Gathered img o stop.toNat d c) (hat : AtBoundary al stop c.cur)
    (hlast : stop.toNat < c.cur.toNat + al.toNat) :
    ReadStage faults img
      (fun d c => Gathered img o stop.toNat d c ∧ c.cur = stop)
      (preadTail io al stop d c) := by
  simp only [preadTail]
  by_cases hlt : c.cur < stop
  · rw [if_pos hlt]
    obtain ⟨hlt', hsub, hbound⟩ := tail_window hlt hat
    refine h.call (callRead_block hS d hbound hlt') ?_
    intro d' hbs hb hf
    refine ⟨h.advance (n := (stop - c.cur).toNat) (by omega) (by omega) ?_ hb hf, rfl⟩
    rw [hbs, take_slice (by omega)]
  · rw [if_neg hlt]
    exact ⟨h, eq_stop_of_not_lt h.high hlt⟩

/-- From the start of a request that lies on the device, both routes deliver all of it. -/
theorem preadBody_spec (hS : Setup io al cap faults stop) {d : Disk} {off : UInt64}
    (hd : d.failed = false) (hlt : off < stop) :
    ReadStage faults d.bytes
      (fun d' c => Gathered d.bytes off.toNat stop.toNat d' c ∧ c.cur = stop)
      (preadBody io al off stop d) := by
  have hlt' : off.toNat < stop.toNat := UInt64.lt_iff_toNat_lt.mp hlt
  have h0 : Gathered d.bytes off.toNat stop.toNat d ⟨off, []⟩ :=
    ⟨Nat.le_refl _, Nat.le_of_lt hlt', rfl, by simp, hd⟩
  simp only [preadBody]
  split
  · rename_i hal
    obtain ⟨hacc, hend⟩ := direct_window hS.bounds hlt hal.1 hal.2
    simp only [NfskBlockio.callRead, hS.read]
    refine h0.call (strictRead_accepted hacc) ?_
    intro d' hbs hb hf
    exact ⟨h0.advance (Nat.le_of_eq hend) hend.symm hbs hb hf, rfl⟩
  · have h1 := (preadHead_spec hS h0 hlt).andThen fun _ _ h => preadMid_spec hS h.1 h.2
    exact h1.andThen fun _ _ h => preadTail_spec hS h.1 h.2.1 h.2.2

end Stages

/-! ## The law -/

/-- `fskit_pread` delivers exactly the device bytes of its range that lie on the device, by
either route; it returns -1 when a callback fails. -/
theorem fskitPread_law (readonly : Bool) (b : UInt32) (n : UInt64) (faults : Nat → Int)
    (hb : LegalBlockSize b) (hcap : n.toNat * quantumOf b < 2 ^ 64) (bytes : Nat → UInt8)
    (count offset : Int64) (ho : 0 ≤ offset) (hc : 0 ≤ count) :
    ∃ d' r out, fskitPread (strictIo readonly b n faults) (Disk.fresh bytes) count offset =
        (d', r, out) ∧
      d'.bytes = bytes ∧
      (d'.failed = false →
        r.ret.toInt = served b n offset.toNatClampNeg count.toNatClampNeg ∧
        out = slice bytes offset.toNatClampNeg
          (served b n offset.toNatClampNeg count.toNatClampNeg)) ∧
      (d'.failed = true → r.ret = -1) ∧ ((∀ i, faults i = 0) → d'.failed = false) := by
  have hstop := request_toNat readonly hb hcap faults ho hc
  have hoff := Int64.toNat_toUInt64_of_le ho
  have hneg : ¬ (count < 0 ∨ offset < 0) := by
    rintro (h | h)
    · exact absurd hc (Int64.not_le.mpr h)
    · exact absurd ho (Int64.not_le.mpr h)
  simp only [fskitPread, strictIo_read, Option.isNone_some, Bool.false_eq_true, hneg, if_false]
  by_cases hz : count = 0
  · rw [if_pos hz]
    have hs : served b n offset.toNatClampNeg count.toNatClampNeg = 0 := by
      have := served_le b n offset.toNatClampNeg count.toNatClampNeg
      rw [hz] at this ⊢
      exact Nat.le_zero.mp this
    refine ⟨_, _, _, rfl, rfl, fun _ => ?_, ?_, fun _ => rfl⟩
    · rw [hs]; exact ⟨rfl, rfl⟩
    · intro h; cases h
  · rw [if_neg hz]
    generalize nfskClampEnd (strictIo readonly b n faults) _ offset.toUInt64
      (offset.toUInt64 + count.toUInt64) = stop at hstop ⊢
    by_cases hle : stop ≤ offset.toUInt64
    · rw [if_pos hle]
      have hle' : stop.toNat ≤ offset.toUInt64.toNat := UInt64.le_iff_toNat_le.mp hle
      have hs : served b n offset.toNatClampNeg count.toNatClampNeg = 0 := by omega
      refine ⟨_, _, _, rfl, rfl, fun _ => ?_, ?_, fun _ => rfl⟩
      · rw [hs]; exact ⟨rfl, rfl⟩
      · intro h; cases h
    · rw [if_neg hle]
      have hlt : offset.toUInt64 < stop := UInt64.not_le.mp hle
      have hlt' := UInt64.lt_iff_toNat_lt.mp hlt
      have hsub := toNat_stop_sub (Nat.le_of_lt hlt')
      have hcount := count.toNatClampNeg_lt
      have hserved := served_le b n offset.toNatClampNeg count.toNatClampNeg
      have hspec := preadBody_spec (strictIo_setup readonly faults hb hstop hoff (by omega))
        (d := Disk.fresh bytes) rfl hlt
      generalize preadBody (strictIo readonly b n faults) _ offset.toUInt64 stop
        (Disk.fresh bytes) = r at hspec ⊢
      rcases r with ⟨d', rc | c⟩
      · obtain ⟨_, hbytes, hf, hi⟩ := hspec
        refine ⟨d', _, _, rfl, hbytes, ?_, fun _ => rfl, ?_⟩
        · intro h; rw [hf] at h; cases h
        · intro h
          obtain ⟨i, hi⟩ := hi
          exact absurd (h i) hi
      · obtain ⟨⟨_, _, hbytes, hout, hf⟩, hcur⟩ := hspec
        refine ⟨d', _, _, rfl, hbytes, ?_, ?_, fun _ => hf⟩
        · intro _
          simp only [Ret.done]
          rw [toInt_toInt64 (by omega), hsub, hout, hcur, hoff]
          exact ⟨by omega, by congr 1; omega⟩
        · intro h; rw [hf] at h; cases h

/-- Five bytes from the middle of the last block of a device, cut at its end. -/
theorem fskitPread_law_tail :
    ∃ d' r out, fskitPread (strictIo true 512 8 fun _ => 0) (Disk.fresh fun p => p.toUInt8) 5 4093 =
        (d', r, out) ∧
      d'.bytes = (fun p => p.toUInt8) ∧
      (d'.failed = false → r.ret.toInt = served 512 8 4093 5 ∧
        out = slice (fun p => p.toUInt8) 4093 (served 512 8 4093 5)) ∧
      (d'.failed = true → r.ret = -1) ∧ ((∀ _ : Nat, (0 : Int) = 0) → d'.failed = false) :=
  fskitPread_law true 512 8 (fun _ => 0) (Or.inr ⟨⟨9, rfl⟩, by decide, by decide⟩) (by decide)
    (fun p => p.toUInt8) 5 4093 (by decide) (by decide)

end Shim
end Usbrw
