import Usbrw.Shim.Window

/-!
# Shim.Logged

The requests of one call, for any callbacks.

* `logged`    — the callbacks, with every request and its return code kept in a log.
* `Transfers` — what the callbacks are for, as far as a caller can tell.
* `Outcome`   — a stage whose requests all fit, and that goes on unless one of them failed.
* `preadBody_outcome`, `pwriteBody_outcome` — the requests are whole quanta on the device, and the
  stages transfer everything.
-/

namespace Usbrw
namespace Shim

open Region Mask

variable {σ α β : Type}

structure Request where
  off : UInt64
  len : UInt64
  rc : Int

def logged (io : NfskBlockio σ) : NfskBlockio (σ × List Request) where
  read := io.read.map fun read t off len =>
    match read t.1 off len with
    | (s, rc, bs) => ((s, t.2 ++ [⟨off, len, rc⟩]), rc, bs)
  write := io.write.map fun write t off len buf =>
    match write t.1 off len buf with
    | (s, rc) => ((s, t.2 ++ [⟨off, len, rc⟩]), rc)
  sync := io.sync.map fun sync t =>
    match sync t.1 with
    | (s, rc) => ((s, t.2), rc)
  readonly := io.readonly
  blockSize := io.blockSize
  blockCount := io.blockCount

/-- What the callbacks are for: a read that succeeds delivers the bytes of the device, and a write
that succeeds stores them. -/
structure Transfers (io : NfskBlockio σ) (image : σ → Nat → UInt8) : Prop where
  read : ∀ {s s' off len bs}, io.callRead s off len = (s', 0, bs) →
    bs = slice (image s) off.toNat len.toNat ∧ image s' = image s
  write : ∀ {write s s' off len buf}, io.write = some write → write s off len buf = (s', 0) →
    image s' = overwrite (image s) off.toNat (buf.take len.toNat)

/-! ## The log -/

section Log

variable {io : NfskBlockio σ} {fits : Request → Prop}

@[simp] theorem logged_readonly : (logged io).readonly = io.readonly := rfl
@[simp] theorem logged_blockSize : (logged io).blockSize = io.blockSize := rfl
@[simp] theorem logged_blockCount : (logged io).blockCount = io.blockCount := rfl

theorem callRead_logged (hread : io.read.isSome) (t : σ × List Request) (off len : UInt64) :
    (logged io).callRead t off len =
      (((io.callRead t.1 off len).1, t.2 ++ [⟨off, len, (io.callRead t.1 off len).2.1⟩]),
        (io.callRead t.1 off len).2) := by
  obtain ⟨read, hr⟩ := Option.isSome_iff_exists.mp hread
  simp [NfskBlockio.callRead, logged, hr]

/-- The write callback of `logged io`. -/
def logWrite (write : σ → UInt64 → UInt64 → List UInt8 → σ × Int) (t : σ × List Request)
    (off len : UInt64) (buf : List UInt8) : (σ × List Request) × Int :=
  match write t.1 off len buf with
  | (s, rc) => ((s, t.2 ++ [⟨off, len, rc⟩]), rc)

/-- A stage whose requests all fit: it reaches `P`, or one of the requests failed. -/
def Outcome (fits : Request → Prop) (P : σ × List Request → α → Prop) :
    (σ × List Request) × Except Int α → Prop
  | (t, .ok a) => (∀ q ∈ t.2, fits q) ∧ P t a
  | (t, .error _) => (∀ q ∈ t.2, fits q) ∧ ∃ q ∈ t.2, q.rc ≠ 0

theorem Outcome.andThen {P : σ × List Request → α → Prop} {Q : σ × List Request → β → Prop}
    {r : (σ × List Request) × Except Int α}
    {f : σ × List Request → α → (σ × List Request) × Except Int β} (h : Outcome fits P r)
    (hf : ∀ t a, (∀ q ∈ t.2, fits q) → P t a → Outcome fits Q (f t a)) :
    Outcome fits Q (Shim.andThen r f) := by
  rcases r with ⟨t, rc | a⟩
  · exact h
  · exact hf t a h.1 h.2

theorem fits_append {l : List Request} {q : Request} (hl : ∀ p ∈ l, fits p) (hq : fits q) :
    ∀ p ∈ l ++ [q], fits p := by
  intro p hp
  rcases List.mem_append.mp hp with h | h
  · exact hl p h
  · rwa [List.mem_singleton.mp h]

/-- A stage that is one request, whose return code decides. -/
theorem outcome_request {P : σ × List Request → α → Prop} {l : List Request} {s : σ}
    {off len : UInt64} {rc : Int} {a : α} (hl : ∀ q ∈ l, fits q) (hq : fits ⟨off, len, rc⟩)
    (hok : rc = 0 → P (s, l ++ [⟨off, len, rc⟩]) a) :
    Outcome fits P (if rc ≠ 0 then ((s, l ++ [⟨off, len, rc⟩]), .error rc)
      else ((s, l ++ [⟨off, len, rc⟩]), .ok a)) := by
  by_cases h : rc = 0
  · rw [if_neg (not_not.mpr h)]
    exact ⟨fits_append hl hq, hok h⟩
  · rw [if_pos h]
    exact ⟨fits_append hl hq, ⟨off, len, rc⟩, by simp, h⟩

theorem outcome_read (hread : io.read.isSome) {P : σ × List Request → α → Prop}
    {t : σ × List Request} {off len : UInt64} {a : α}
    (hl : ∀ q ∈ t.2, fits q) (hq : ∀ rc, fits ⟨off, len, rc⟩)
    (hok : ∀ s' bs, ((logged io).callRead t off len).2.2 = bs →
      io.callRead t.1 off len = (s', 0, bs) → P (s', t.2 ++ [⟨off, len, 0⟩]) a) :
    Outcome fits P
      (if ((logged io).callRead t off len).2.1 ≠ 0 then
        (((logged io).callRead t off len).1, .error ((logged io).callRead t off len).2.1)
      else (((logged io).callRead t off len).1, .ok a)) := by
  rw [callRead_logged hread] at hok ⊢
  refine outcome_request hl (hq _) ?_
  intro h0
  have h := hok (io.callRead t.1 off len).1 (io.callRead t.1 off len).2.2 rfl
    (Prod.ext rfl (Prod.ext h0 rfl))
  rwa [h0]

theorem outcome_write {write : σ → UInt64 → UInt64 → List UInt8 → σ × Int}
    {P : σ × List Request → α → Prop} {t : σ × List Request} {off len : UInt64} {buf : List UInt8}
    {a : α} (hl : ∀ q ∈ t.2, fits q) (hq : ∀ rc, fits ⟨off, len, rc⟩)
    (hok : ∀ s', write t.1 off len buf = (s', 0) → P (s', t.2 ++ [⟨off, len, 0⟩]) a) :
    Outcome fits P
      (if (logWrite write t off len buf).2 ≠ 0 then
        ((logWrite write t off len buf).1, .error (logWrite write t off len buf).2)
      else ((logWrite write t off len buf).1, .ok a)) := by
  refine outcome_request hl (hq _) ?_
  intro h0
  have h := hok (write t.1 off len buf).1 (Prod.ext rfl h0)
  rwa [h0]

end Log

/-- A request in whole quanta, inside the device when it has an end. -/
def InQuanta (al : UInt32) (cap : Option Nat) (q : Request) : Prop :=
  Accepts al.toNat cap q.off.toNat q.len.toNat

section Stages

variable {io : NfskBlockio σ} {al : UInt32} {cap : Option Nat} {stop : UInt64} {s₀ : σ} {o : Nat}
  {t : σ × List Request}

theorem block_inQuanta (hB : Bounds al cap stop) {base : UInt64}
    (hbase : base.toNat % al.toNat = 0) (hin : base.toNat < stop.toNat) (rc : Int) :
    InQuanta al cap ⟨base, al.toUInt64, rc⟩ := hB.accepts_block hbase hin

/-! ## `fskit_pread` -/

/-- Between the stages of a read: the bytes before `cur` are in the buffer. -/
structure Taken (io : NfskBlockio σ) (s₀ : σ) (o stop : Nat) (t : σ × List Request)
    (c : ReadPos) : Prop where
  low : o ≤ c.cur.toNat
  high : c.cur.toNat ≤ stop
  data : ∀ image, Transfers io image →
    image t.1 = image s₀ ∧ c.out = slice (image s₀) o (c.cur.toNat - o)

/-- Taking in `n` bytes that a successful read delivered. -/
theorem Taken.advance {c : ReadPos} {n : Nat} {cur off len : UInt64} {bs bs' : List UInt8}
    {s' : σ} (l : List Request) (h : Taken io s₀ o stop.toNat t c)
    (hn : c.cur.toNat + n ≤ stop.toNat) (hcur : cur.toNat = c.cur.toNat + n)
    (hcall : io.callRead t.1 off len = (s', 0, bs))
    (hbs : ∀ img : Nat → UInt8, bs = slice img off.toNat len.toNat →
      bs' = slice img c.cur.toNat n) :
    Taken io s₀ o stop.toNat (s', l) ⟨cur, c.out ++ bs'⟩ := by
  obtain ⟨low, high, data⟩ := h
  refine ⟨by simp only [hcur]; omega, by simp only [hcur]; omega, ?_⟩
  intro image hT
  obtain ⟨himg, hout⟩ := data image hT
  obtain ⟨hslice, hsame⟩ := hT.read hcall
  have e : o + (c.cur.toNat - o) = c.cur.toNat := by omega
  refine ⟨hsame.trans himg, ?_⟩
  simp only [hcur]
  rw [hbs _ hslice, himg, hout, show c.cur.toNat + n - o = (c.cur.toNat - o) + n by omega,
    slice_add, e]

theorem preadHead_outcome (hread : io.read.isSome) (hB : Bounds al cap stop) {c : ReadPos}
    (hl : ∀ q ∈ t.2, InQuanta al cap q) (h : Taken io s₀ o stop.toNat t c) (hlt : c.cur < stop) :
    Outcome (InQuanta al cap)
      (fun t c => Taken io s₀ o stop.toNat t c ∧ AtBoundary al stop c.cur)
      (preadHead (logged io) al stop t c) := by
  simp only [preadHead]
  by_cases h0 : c.cur &&& (al - 1).toUInt64 = 0
  · rw [if_neg (fun hne => hne h0)]
    exact ⟨hl, h, Or.inl ((and_pred_eq_zero hB.pow2 c.cur).mp h0)⟩
  · rw [if_pos h0]
    have hw := headBlock hB.pow2 hlt
    refine outcome_read hread hl (block_inQuanta hB hw.aligned hw.begins) ?_
    rintro s' bs rfl hcall
    refine ⟨h.advance _ hw.ends hw.next hcall ?_, hw.boundary⟩
    intro img hbs
    rw [hbs, UInt32.toNat_toUInt64, window_slice hw.fits, hw.start]

theorem preadMid_outcome (hread : io.read.isSome) (hB : Bounds al cap stop) {c : ReadPos}
    (hl : ∀ q ∈ t.2, InQuanta al cap q) (h : Taken io s₀ o stop.toNat t c)
    (hat : AtBoundary al stop c.cur) :
    Outcome (InQuanta al cap)
      (fun t c => Taken io s₀ o stop.toNat t c ∧ AtBoundary al stop c.cur ∧
        stop.toNat < c.cur.toNat + al.toNat)
      (preadMid (logged io) al stop t c) := by
  simp only [preadMid]
  rcases mid_window hB hat h.high with ⟨h0, hlast⟩ | ⟨hne, hacc, hcur, hle, hat', hlast⟩
  · rw [if_neg (fun hne => hne h0)]
    exact ⟨hl, h, hat, hlast⟩
  · rw [if_pos hne]
    refine outcome_read hread hl (fun _ => hacc) ?_
    rintro s' bs rfl hcall
    exact ⟨h.advance _ hle hcur hcall fun _ hbs => hbs, hat', hlast⟩

theorem preadTail_outcome (hread : io.read.isSome) (hB : Bounds al cap stop) {c : ReadPos}
    (hl : ∀ q ∈ t.2, InQuanta al cap q) (h : Taken io s₀ o stop.toNat t c)
    (hat : AtBoundary al stop c.cur) (hlast : stop.toNat < c.cur.toNat + al.toNat) :
    Outcome (InQuanta al cap) (fun t c => Taken io s₀ o stop.toNat t c ∧ c.cur = stop)
      (preadTail (logged io) al stop t c) := by
  simp only [preadTail]
  by_cases hlt : c.cur < stop
  · rw [if_pos hlt]
    obtain ⟨hlt', hsub, hbound⟩ := tail_window hlt hat
    refine outcome_read hread hl (block_inQuanta hB hbound hlt') ?_
    rintro s' bs rfl hcall
    refine ⟨h.advance _ (n := (stop - c.cur).toNat) (by omega) (by omega) hcall ?_, rfl⟩
    intro img hbs
    rw [hbs, UInt32.toNat_toUInt64, take_slice (by omega)]
  · rw [if_neg hlt]
    exact ⟨hl, h, eq_stop_of_not_lt h.high hlt⟩

theorem preadBody_outcome (hread : io.read.isSome) (hB : Bounds al cap stop) (s : σ)
    {off : UInt64} (hlt : off < stop) :
    Outcome (InQuanta al cap) (fun t c => Taken io s off.toNat stop.toNat t c ∧ c.cur = stop)
      (preadBody (logged io) al off stop (s, [])) := by
  have hlt' : off.toNat < stop.toNat := UInt64.lt_iff_toNat_lt.mp hlt
  have h0 : Taken io s off.toNat stop.toNat (s, []) ⟨off, []⟩ :=
    ⟨Nat.le_refl _, Nat.le_of_lt hlt', fun image _ => ⟨rfl, by simp⟩⟩
  have hl : ∀ q ∈ ([] : List Request), InQuanta al cap q := by simp
  simp only [preadBody]
  split
  · rename_i hal
    obtain ⟨hacc, hend⟩ := direct_window hB hlt hal.1 hal.2
    refine outcome_read hread hl (fun _ => hacc) ?_
    rintro s' bs rfl hcall
    exact ⟨h0.advance _ (Nat.le_of_eq hend) hend.symm hcall fun _ hbs => hbs, rfl⟩
  · have h1 := (preadHead_outcome hread hB hl h0 hlt).andThen
      fun _ _ hl h => preadMid_outcome hread hB hl h.1 h.2
    exact h1.andThen fun _ _ hl h => preadTail_outcome hread hB hl h.1 h.2.1 h.2.2

/-! ## `fskit_pwrite` -/

/-- Between the stages of a write: everything before `cur` is stored, `src` is what is left. -/
structure Stored (io : NfskBlockio σ) (s₀ : σ) (o stop : Nat) (buf : List UInt8)
    (t : σ × List Request) (c : WritePos) : Prop where
  low : o ≤ c.cur.toNat
  high : c.cur.toNat ≤ stop
  src : c.src = buf.drop (c.cur.toNat - o)
  data : ∀ image, Transfers io image →
    image t.1 = overwrite (image s₀) o (buf.take (c.cur.toNat - o))

variable {write : σ → UInt64 → UInt64 → List UInt8 → σ × Int} {buf : List UInt8}

theorem Stored.advance {c : WritePos} {n : Nat} {cur : UInt64} {s' : σ} (l : List Request)
    (h : Stored io s₀ o stop.toNat buf t c) (hn : c.cur.toNat + n ≤ stop.toNat)
    (hcur : cur.toNat = c.cur.toNat + n) (hlen : stop.toNat ≤ o + buf.length)
    (hdata : ∀ image, Transfers io image →
      image s' = overwrite (image t.1) c.cur.toNat (c.src.take n)) :
    Stored io s₀ o stop.toNat buf (s', l) ⟨cur, c.src.drop n⟩ := by
  obtain ⟨low, high, src, data⟩ := h
  have hk : (buf.take (c.cur.toNat - o)).length = c.cur.toNat - o := by
    rw [List.length_take]; omega
  have e : o + (buf.take (c.cur.toNat - o)).length = c.cur.toNat := by omega
  refine ⟨by simp only [hcur]; omega, by simp only [hcur]; omega, ?_, ?_⟩
  · simp only [hcur]
    rw [src, List.drop_drop, show c.cur.toNat - o + n = c.cur.toNat + n - o by omega]
  · intro image hT
    simp only [hcur]
    rw [hdata image hT, data image hT, src,
      show c.cur.toNat + n - o = (c.cur.toNat - o) + n by omega, List.take_add,
      overwrite_append, e]

/-- A block that is read, changed and written back. -/
theorem outcome_rmw (hread : io.read.isSome) (hwrite : io.write = some write)
    (hB : Bounds al cap stop) {P : σ × List Request → α → Prop} {base skip n : UInt64}
    {src : List UInt8} {a : α} (hl : ∀ q ∈ t.2, InQuanta al cap q)
    (hbase : base.toNat % al.toNat = 0) (hin : base.toNat < stop.toNat)
    (hn : skip.toNat + n.toNat ≤ al.toNat)
    (hok : ∀ s' l, (∀ image, Transfers io image →
      image s' = overwrite (image t.1) (base.toNat + skip.toNat) (src.take n.toNat)) →
      P (s', l) a) :
    Outcome (InQuanta al cap) P
      (if (rmwBlock (logged io) (logWrite write) al t base skip n src).2 ≠ 0 then
        ((rmwBlock (logged io) (logWrite write) al t base skip n src).1,
          .error (rmwBlock (logged io) (logWrite write) al t base skip n src).2)
      else ((rmwBlock (logged io) (logWrite write) al t base skip n src).1, .ok a)) := by
  have hboth := (outcome_read (a := ((logged io).callRead t base al.toUInt64).2.2)
    (P := fun t' bs => (∀ image, Transfers io image →
      bs = slice (image t.1) base.toNat al.toNat ∧ image t'.1 = image t.1)) hread hl
    (block_inQuanta hB hbase hin) (by
      rintro s' bs rfl hcall image hT
      have h := hT.read hcall
      rwa [UInt32.toNat_toUInt64] at h)).andThen
    (f := fun t' tmp =>
      if (logWrite write t' base al.toUInt64 (patch tmp skip.toNat (src.take n.toNat))).2 ≠ 0 then
        ((logWrite write t' base al.toUInt64 (patch tmp skip.toNat (src.take n.toNat))).1,
          .error (logWrite write t' base al.toUInt64
            (patch tmp skip.toNat (src.take n.toNat))).2)
      else ((logWrite write t' base al.toUInt64 (patch tmp skip.toNat (src.take n.toNat))).1,
        .ok a))
    (Q := P) (by
      intro t' tmp hl' hread'
      refine outcome_write hl' (block_inQuanta hB hbase hin) ?_
      intro s' hcall
      refine hok s' _ ?_
      intro image hT
      obtain ⟨htmp, hsame⟩ := hread' image hT
      have hw : (src.take n.toNat).length ≤ n.toNat := List.length_take_le ..
      have hlen : (patch (slice (image t.1) base.toNat al.toNat) skip.toNat
          (src.take n.toNat)).length = al.toNat := by
        rw [length_patch (by rw [length_slice]; omega), length_slice]
      rw [hT.write hwrite hcall, htmp, hsame, UInt32.toNat_toUInt64,
        List.take_of_length_le (by rw [hlen]), overwrite_patch_slice (by omega)])
  unfold rmwBlock
  by_cases h : ((logged io).callRead t base al.toUInt64).2.1 ≠ 0
  · simpa [andThen, h] using hboth
  · simpa [andThen, h] using hboth

theorem pwriteHead_outcome (hread : io.read.isSome) (hwrite : io.write = some write)
    (hB : Bounds al cap stop) {c : WritePos} (hl : ∀ q ∈ t.2, InQuanta al cap q)
    (h : Stored io s₀ o stop.toNat buf t c) (hlen : stop.toNat ≤ o + buf.length)
    (hlt : c.cur < stop) :
    Outcome (InQuanta al cap)
      (fun t c => Stored io s₀ o stop.toNat buf t c ∧ AtBoundary al stop c.cur)
      (pwriteHead (logged io) (logWrite write) al stop t c) := by
  simp only [pwriteHead]
  by_cases h0 : c.cur &&& (al - 1).toUInt64 = 0
  · rw [if_neg (fun hne => hne h0)]
    exact ⟨hl, h, Or.inl ((and_pred_eq_zero hB.pow2 c.cur).mp h0)⟩
  · rw [if_pos h0]
    have hw := headBlock hB.pow2 hlt
    refine outcome_rmw hread hwrite hB hl hw.aligned hw.begins hw.fits ?_
    intro s' l hdata
    refine ⟨h.advance l hw.ends hw.next hlen ?_, hw.boundary⟩
    intro image hT
    rw [hdata image hT, hw.start]

theorem pwriteMid_outcome (hwrite : io.write = some write) (hB : Bounds al cap stop)
    {c : WritePos} (hl : ∀ q ∈ t.2, InQuanta al cap q) (h : Stored io s₀ o stop.toNat buf t c)
    (hlen : stop.toNat ≤ o + buf.length) (hat : AtBoundary al stop c.cur) :
    Outcome (InQuanta al cap)
      (fun t c => Stored io s₀ o stop.toNat buf t c ∧ AtBoundary al stop c.cur ∧
        stop.toNat < c.cur.toNat + al.toNat)
      (pwriteMid (logWrite write) al stop t c) := by
  simp only [pwriteMid]
  rcases mid_window hB hat h.high with ⟨h0, hlast⟩ | ⟨hne, hacc, hcur, hle, hat', hlast⟩
  · rw [if_neg (fun hne => hne h0)]
    exact ⟨hl, h, hat, hlast⟩
  · rw [if_pos hne]
    refine outcome_write hl (fun _ => hacc) ?_
    intro s' hcall
    exact ⟨h.advance _ hle hcur hlen fun image hT => hT.write hwrite hcall, hat', hlast⟩

theorem pwriteTail_outcome (hread : io.read.isSome) (hwrite : io.write = some write)
    (hB : Bounds al cap stop) {c : WritePos} (hl : ∀ q ∈ t.2, InQuanta al cap q)
    (h : Stored io s₀ o stop.toNat buf t c) (hlen : stop.toNat ≤ o + buf.length)
    (hat : AtBoundary al stop c.cur) (hlast : stop.toNat < c.cur.toNat + al.toNat) :
    Outcome (InQuanta al cap) (fun t c => Stored io s₀ o stop.toNat buf t c ∧ c.cur = stop)
      (pwriteTail (logged io) (logWrite write) al stop t c) := by
  simp only [pwriteTail]
  by_cases hlt : c.cur < stop
  · rw [if_pos hlt]
    obtain ⟨hlt', hsub, hbound⟩ := tail_window hlt hat
    refine outcome_rmw hread hwrite hB hl hbound hlt' (by simp; omega) ?_
    intro s' l hdata
    exact ⟨h.advance l (by omega) (by omega) hlen hdata, rfl⟩
  · rw [if_neg hlt]
    exact ⟨hl, h, eq_stop_of_not_lt h.high hlt⟩

theorem pwriteBody_outcome (buf : List UInt8) (hread : io.read.isSome)
    (hwrite : io.write = some write) (hB : Bounds al cap stop) (s : σ) {off : UInt64} (hlt : off < stop)
    (hlen : stop.toNat ≤ off.toNat + buf.length) :
    Outcome (InQuanta al cap)
      (fun t c => Stored io s off.toNat stop.toNat buf t c ∧ c.cur = stop)
      (pwriteBody (logged io) (logWrite write) al stop off buf (s, [])) := by
  have hlt' : off.toNat < stop.toNat := UInt64.lt_iff_toNat_lt.mp hlt
  have h0 : Stored io s off.toNat stop.toNat buf (s, []) ⟨off, buf⟩ :=
    ⟨Nat.le_refl _, Nat.le_of_lt hlt', by simp, fun image _ => by simp⟩
  have hl : ∀ q ∈ ([] : List Request), InQuanta al cap q := by simp
  simp only [pwriteBody]
  split
  · rename_i hal
    obtain ⟨hacc, hend⟩ := direct_window hB hlt hal.1 hal.2
    refine outcome_write hl (fun _ => hacc) ?_
    intro s' hcall
    exact ⟨h0.advance _ (Nat.le_of_eq hend) hend.symm hlen fun image hT => hT.write hwrite hcall,
      rfl⟩
  · have h1 := (pwriteHead_outcome hread hwrite hB hl h0 hlen hlt).andThen
      fun _ _ hl h => pwriteMid_outcome hwrite hB hl h.1 hlen h.2
    exact h1.andThen fun _ _ hl h => pwriteTail_outcome hread hwrite hB hl h.1 hlen h.2.1 h.2.2

end Stages

end Shim
end Usbrw
