import Usbrw.Shim.Failure
import Usbrw.Shim.Window

/-!
# Shim.Stack

The stages of the shim over callbacks that stand for an image only as long as their calls meet a
condition, which may depend on the state a call is made in.

* `noted`    — the callbacks, with every call kept, and the state it is made in.
* `Follows`  — a stage, on the callbacks and on the noted ones.
* `Mirrors`  — callbacks that read and store the bytes of an image.
* `preadBody_follows`, `pwriteBody_follows` — when all their calls meet the condition, the stages
  deliver the bytes of the image, and store among them.
-/

namespace Usbrw
namespace Shim

open Region Mask

variable {σ α β : Type}

/-- The callbacks, with every call of them kept, and the state it is made in. -/
def noted (io : NfskBlockio σ) : NfskBlockio (σ × List (σ × Call)) where
  read := io.read.map fun read t off len =>
    match read t.1 off len with
    | (s, rc, bs) => ((s, t.2 ++ [(t.1, .read off len)]), rc, bs)
  write := io.write.map fun write t off len src =>
    match write t.1 off len src with
    | (s, rc) => ((s, t.2 ++ [(t.1, .write off len src)]), rc)
  sync := io.sync.map fun sync t =>
    match sync t.1 with
    | (s, rc) => ((s, t.2), rc)
  readonly := io.readonly
  blockSize := io.blockSize
  blockCount := io.blockCount

@[simp] theorem noted_readonly (io : NfskBlockio σ) : (noted io).readonly = io.readonly := rfl
@[simp] theorem noted_blockSize (io : NfskBlockio σ) : (noted io).blockSize = io.blockSize := rfl
@[simp] theorem noted_blockCount (io : NfskBlockio σ) : (noted io).blockCount = io.blockCount := rfl
@[simp] theorem noted_quantum (io : NfskBlockio σ) :
    nfskAlignQuantum (noted io) = nfskAlignQuantum io := rfl
@[simp] theorem noted_clampEnd (io : NfskBlockio σ) (al : UInt32) (off stop : UInt64) :
    nfskClampEnd (noted io) al off stop = nfskClampEnd io al off stop := rfl

theorem callRead_noted {io : NfskBlockio σ} (hread : io.read.isSome) (t : σ × List (σ × Call))
    (off len : UInt64) :
    (noted io).callRead t off len =
      (((io.callRead t.1 off len).1, t.2 ++ [(t.1, .read off len)]),
        (io.callRead t.1 off len).2) := by
  obtain ⟨read, hr⟩ := Option.isSome_iff_exists.mp hread
  simp [NfskBlockio.callRead, noted, hr]

/-- The write callback of `noted io`. -/
def noteWrite (write : σ → UInt64 → UInt64 → List UInt8 → σ × Int) (t : σ × List (σ × Call))
    (off len : UInt64) (src : List UInt8) : (σ × List (σ × Call)) × Int :=
  match write t.1 off len src with
  | (s, rc) => ((s, t.2 ++ [(t.1, .write off len src)]), rc)

theorem noted_write {io : NfskBlockio σ} {write : σ → UInt64 → UInt64 → List UInt8 → σ × Int}
    (hw : io.write = some write) : (noted io).write = some (noteWrite write) := by
  simp only [noted, hw]
  rfl

/-! ## Stages -/

/-- A stage ends with `P`, or fails with `Q`. -/
def Reaches (P : σ → α → Prop) (Q : σ → Prop) : σ × Except Int α → Prop
  | (s, .ok a) => P s a
  | (s, .error _) => Q s

/-- `r` is what a stage does on the noted callbacks, from the calls `l` on, and `r'` what it does on
the callbacks. If `H` holds before it and all its calls meet `met`, it ends as it should. -/
def Follows (met : σ → Call → Prop) (H : Prop) (P : σ → α → Prop) (Q : σ → Prop)
    (l : List (σ × Call)) (r : (σ × List (σ × Call)) × Except Int α) (r' : σ × Except Int α) :
    Prop :=
  ∃ new, r = ((r'.1, l ++ new), r'.2) ∧ (H → (∀ e ∈ new, met e.1 e.2) → Reaches P Q r')

section Stages

variable {met : σ → Call → Prop} {H : Prop} {P : σ → α → Prop} {Q : σ → Prop}
  {l : List (σ × Call)} {s : σ}

theorem Follows.andThen {R : σ → β → Prop} {r : (σ × List (σ × Call)) × Except Int α}
    {r' : σ × Except Int α} {f : σ × List (σ × Call) → α → (σ × List (σ × Call)) × Except Int β}
    {g : σ → α → σ × Except Int β} (h : Follows met H P Q l r r')
    (hf : ∀ s l a, Follows met (P s a) R Q l (f (s, l) a) (g s a)) :
    Follows met H R Q l (Shim.andThen r f) (Shim.andThen r' g) := by
  obtain ⟨new, rfl, hend⟩ := h
  obtain ⟨s', res⟩ := r'
  cases res with
  | error rc => exact ⟨new, rfl, hend⟩
  | ok a =>
    obtain ⟨more, hr, hmore⟩ := hf s' (l ++ new) a
    refine ⟨new ++ more, ?_, fun hH hmet => ?_⟩
    · simp only [Shim.andThen]
      rw [hr, List.append_assoc]
    · have hP : P s' a := hend hH fun e he => hmet e (List.mem_append_left more he)
      exact hmore hP fun e he => hmet e (List.mem_append_right new he)

theorem follows_ok {a : α} (h : H → P s a) : Follows met H P Q l ((s, l), .ok a) (s, .ok a) :=
  ⟨[], by rw [List.append_nil], fun hH _ => h hH⟩

/-- A stage that is one call, whose return code decides. -/
theorem follows_call (rc : Int) {s' : σ} {c : Call} {a : α}
    (hok : H → met s c → rc = 0 → P s' a) (hfail : H → met s c → rc ≠ 0 → Q s') :
    Follows met H P Q l
      (if rc ≠ 0 then ((s', l ++ [(s, c)]), .error rc) else ((s', l ++ [(s, c)]), .ok a))
      (if rc ≠ 0 then (s', .error rc) else (s', .ok a)) := by
  have hmet : (∀ e ∈ [(s, c)], met e.1 e.2) → met s c := fun h => h _ (List.mem_singleton.mpr rfl)
  by_cases h : rc ≠ 0
  · rw [if_pos h, if_pos h]
    exact ⟨[(s, c)], rfl, fun hH hm => hfail hH (hmet hm) h⟩
  · rw [if_neg h, if_neg h]
    exact ⟨[(s, c)], rfl, fun hH hm => hok hH (hmet hm) (not_not.mp h)⟩

end Stages

/-! ## Callbacks that stand for an image -/

/-- `I s img`: in the state `s` the callbacks stand for the bytes `img`. A read that meets its
condition delivers them, and a write stores among them or, when it fails, does not. -/
structure Mirrors (io : NfskBlockio σ) (I : σ → (Nat → UInt8) → Prop) (met : σ → Call → Prop) :
    Prop where
  read : ∀ {s off len img}, off.toNat < 2 ^ 63 → met s (.read off len) → I s img →
    I (io.callRead s off len).1 img ∧ ((io.callRead s off len).2.1 = 0 →
      (io.callRead s off len).2.2 = slice img off.toNat len.toNat)
  write : ∀ {write s off len src img}, io.write = some write → off.toNat < 2 ^ 63 →
    met s (.write off len src) → I s img →
    I (write s off len src).1 (if (write s off len src).2 = 0 then
      overwrite img off.toNat (src.take len.toNat) else img)

section Image

variable {io : NfskBlockio σ} {I : σ → (Nat → UInt8) → Prop} {met : σ → Call → Prop}
  {al : UInt32} {stop : UInt64} {img : Nat → UInt8} {o : Nat} {l : List (σ × Call)}

/-! ### `fskit_pread` -/

/-- Between the stages of a read: the bytes before `cur` are in the buffer. -/
structure Copied (I : σ → (Nat → UInt8) → Prop) (img : Nat → UInt8) (o stop : Nat) (s : σ)
    (c : ReadPos) : Prop where
  low : o ≤ c.cur.toNat
  high : c.cur.toNat ≤ stop
  out : c.out = slice img o (c.cur.toNat - o)
  image : I s img

theorem Copied.advance {s s' : σ} {c : ReadPos} {n : Nat} {cur : UInt64} {bs : List UInt8}
    (h : Copied I img o stop.toNat s c) (hn : c.cur.toNat + n ≤ stop.toNat)
    (hcur : cur.toNat = c.cur.toNat + n) (hbs : bs = slice img c.cur.toNat n) (hI : I s' img) :
    Copied I img o stop.toNat s' ⟨cur, c.out ++ bs⟩ := by
  obtain ⟨low, high, out, _⟩ := h
  refine ⟨by simp only [hcur]; omega, by simp only [hcur]; omega, ?_, hI⟩
  have e : o + (c.cur.toNat - o) = c.cur.toNat := by omega
  simp only [hcur]
  rw [hbs, out, show c.cur.toNat + n - o = (c.cur.toNat - o) + n by omega, slice_add, e]

/-- A stage that is one read. -/
theorem follows_read (hM : Mirrors io I met) {H : Prop} {P : σ → α → Prop} {s : σ}
    {off len : UInt64} {a : α} (hI : H → I s img ∧ off.toNat < 2 ^ 63)
    (hok : H → I (io.callRead s off len).1 img →
      (io.callRead s off len).2.2 = slice img off.toNat len.toNat →
      P (io.callRead s off len).1 a) :
    Follows met H P (fun s => I s img) l
      (if (io.callRead s off len).2.1 ≠ 0 then
        (((io.callRead s off len).1, l ++ [(s, .read off len)]),
          .error (io.callRead s off len).2.1)
      else (((io.callRead s off len).1, l ++ [(s, .read off len)]), .ok a))
      (if (io.callRead s off len).2.1 ≠ 0 then
        ((io.callRead s off len).1, .error (io.callRead s off len).2.1)
      else ((io.callRead s off len).1, .ok a)) := by
  refine follows_call _ (fun hH hm h0 => ?_) (fun hH hm _ => ?_)
  · obtain ⟨hI', hbs⟩ := hM.read (hI hH).2 hm (hI hH).1
    exact hok hH hI' (hbs h0)
  · exact (hM.read (hI hH).2 hm (hI hH).1).1

theorem preadHead_follows (hM : Mirrors io I met) (hread : io.read.isSome) (hp : IsPow2 al)
    (hstop : stop.toNat ≤ 2 ^ 63) (s : σ) (c : ReadPos) :
    Follows met (Copied I img o stop.toNat s c ∧ c.cur < stop)
      (fun s c => Copied I img o stop.toNat s c ∧ AtBoundary al stop c.cur) (fun s => I s img) l
      (preadHead (noted io) al stop (s, l) c) (preadHead io al stop s c) := by
  simp only [preadHead]
  by_cases h0 : c.cur &&& (al - 1).toUInt64 = 0
  · rw [if_neg (fun hne => hne h0), if_neg (fun hne => hne h0)]
    exact follows_ok fun h => ⟨h.1, Or.inl ((and_pred_eq_zero hp c.cur).mp h0)⟩
  · rw [if_pos h0, if_pos h0, callRead_noted hread]
    refine follows_read hM (fun h => ?_) ?_
    · exact ⟨h.1.image, Nat.lt_of_lt_of_le (headBlock hp h.2).begins hstop⟩
    · intro h hI hbs
      have hw := headBlock hp h.2
      refine ⟨h.1.advance hw.ends hw.next ?_ hI, hw.boundary⟩
      rw [hbs, UInt32.toNat_toUInt64, window_slice hw.fits, hw.start]

theorem preadMid_follows (hM : Mirrors io I met) (hread : io.read.isSome) (hp : IsPow2 al)
    (hstop : stop.toNat ≤ 2 ^ 63) (s : σ) (c : ReadPos) :
    Follows met (Copied I img o stop.toNat s c ∧ AtBoundary al stop c.cur)
      (fun s c => Copied I img o stop.toNat s c ∧ AtBoundary al stop c.cur ∧
        stop.toNat < c.cur.toNat + al.toNat) (fun s => I s img) l
      (preadMid (noted io) al stop (s, l) c) (preadMid io al stop s c) := by
  have hB : Bounds al none stop := ⟨hp, by simp⟩
  simp only [preadMid]
  by_cases h0 : (stop - c.cur) &&& ~~~(al - 1).toUInt64 = 0
  · rw [if_neg (fun hne => hne h0), if_neg (fun hne => hne h0)]
    refine follows_ok fun h => ⟨h.1, h.2, ?_⟩
    obtain ⟨_, hlast⟩ | ⟨hne, _⟩ := mid_window hB h.2 h.1.high
    · exact hlast
    · exact absurd h0 hne
  · rw [if_pos h0, if_pos h0, callRead_noted hread]
    refine follows_read hM (fun h => ?_) ?_
    · obtain ⟨hz, _⟩ | ⟨_, _, _, hle, _⟩ := mid_window hB h.2 h.1.high
      · exact absurd hz h0
      · have hmid := mt UInt64.toNat_inj.mp h0
        rw [UInt64.toNat_zero] at hmid
        exact ⟨h.1.image, by omega⟩
    · intro h hI hbs
      obtain ⟨hz, _⟩ | ⟨_, _, hcur, hle, hat', hlast⟩ := mid_window hB h.2 h.1.high
      · exact absurd hz h0
      · exact ⟨h.1.advance hle hcur hbs hI, hat', hlast⟩

theorem preadTail_follows (hM : Mirrors io I met) (hread : io.read.isSome)
    (hstop : stop.toNat ≤ 2 ^ 63) (s : σ) (c : ReadPos) :
    Follows met (Copied I img o stop.toNat s c ∧ AtBoundary al stop c.cur ∧
        stop.toNat < c.cur.toNat + al.toNat)
      (fun s c => Copied I img o stop.toNat s c ∧ c.cur = stop) (fun s => I s img) l
      (preadTail (noted io) al stop (s, l) c) (preadTail io al stop s c) := by
  simp only [preadTail]
  by_cases hlt : c.cur < stop
  · rw [if_pos hlt, if_pos hlt, callRead_noted hread]
    have hlt' := UInt64.lt_iff_toNat_lt.mp hlt
    have hsub := toNat_stop_sub (Nat.le_of_lt hlt')
    refine follows_read hM (fun h => ⟨h.1.image, Nat.lt_of_lt_of_le hlt' hstop⟩) ?_
    intro h hI hbs
    refine ⟨h.1.advance (n := (stop - c.cur).toNat) (by omega) (by omega) ?_ hI, rfl⟩
    have hlast := h.2.2
    rw [hbs, UInt32.toNat_toUInt64, take_slice (by omega)]
  · rw [if_neg hlt, if_neg hlt]
    exact follows_ok fun h => ⟨h.1, eq_stop_of_not_lt h.1.high hlt⟩

theorem preadBody_follows (hM : Mirrors io I met) (hread : io.read.isSome) (hp : IsPow2 al)
    (hstop : stop.toNat ≤ 2 ^ 63) {off : UInt64} (hlt : off < stop) (s : σ) :
    Follows met (I s img)
      (fun s c => Copied I img off.toNat stop.toNat s c ∧ c.cur = stop) (fun s => I s img) l
      (preadBody (noted io) al off stop (s, l)) (preadBody io al off stop s) := by
  have hlt' := UInt64.lt_iff_toNat_lt.mp hlt
  have h0 : I s img → Copied I img off.toNat stop.toNat s ⟨off, []⟩ := fun hI =>
    ⟨Nat.le_refl _, Nat.le_of_lt hlt', by simp, hI⟩
  simp only [preadBody]
  split
  · rename_i hal
    obtain ⟨_, hend⟩ := direct_window (⟨hp, by simp⟩ : Bounds al none stop) hlt hal.1 hal.2
    rw [callRead_noted hread]
    refine follows_read hM (fun hI => ⟨hI, Nat.lt_of_lt_of_le hlt' hstop⟩) ?_
    intro hI hI' hbs
    refine ⟨?_, rfl⟩
    have hc := (h0 hI).advance (Nat.le_of_eq hend) hend.symm hbs hI'
    rwa [List.nil_append] at hc
  · have hstart : Follows met (I s img)
        (fun s c => Copied I img off.toNat stop.toNat s c ∧ c.cur < stop) (fun s => I s img) l
        ((s, l), .ok ⟨off, []⟩) (s, .ok ⟨off, []⟩) := follows_ok fun hI => ⟨h0 hI, hlt⟩
    exact ((hstart.andThen fun s _ c => preadHead_follows hM hread hp hstop s c).andThen
      fun s _ c => preadMid_follows hM hread hp hstop s c).andThen
        fun s _ c => preadTail_follows hM hread hstop s c

/-! ### `fskit_pwrite` -/

/-- Between the stages of a write: everything before `cur` is stored, `src` is what is left. -/
structure Saved (I : σ → (Nat → UInt8) → Prop) (img : Nat → UInt8) (o stop : Nat)
    (buf : List UInt8) (s : σ) (c : WritePos) : Prop where
  low : o ≤ c.cur.toNat
  high : c.cur.toNat ≤ stop
  src : c.src = buf.drop (c.cur.toNat - o)
  image : I s (overwrite img o (buf.take (c.cur.toNat - o)))

/-- Of the bytes `buf` some are stored, from the first one on. -/
def PartlySaved (I : σ → (Nat → UInt8) → Prop) (img : Nat → UInt8) (o : Nat) (buf : List UInt8)
    (s : σ) : Prop := ∃ k, k ≤ buf.length ∧ I s (overwrite img o (buf.take k))

variable {write : σ → UInt64 → UInt64 → List UInt8 → σ × Int} {buf : List UInt8}

theorem Saved.advance {s s' : σ} {c : WritePos} {n : Nat} {cur : UInt64}
    (h : Saved I img o stop.toNat buf s c) (hn : c.cur.toNat + n ≤ stop.toNat)
    (hcur : cur.toNat = c.cur.toNat + n) (hlen : stop.toNat ≤ o + buf.length)
    (hI : I s' (overwrite (overwrite img o (buf.take (c.cur.toNat - o))) c.cur.toNat
      (c.src.take n))) :
    Saved I img o stop.toNat buf s' ⟨cur, c.src.drop n⟩ := by
  obtain ⟨low, high, src, _⟩ := h
  have hk : (buf.take (c.cur.toNat - o)).length = c.cur.toNat - o := by
    rw [List.length_take]; omega
  have e : o + (buf.take (c.cur.toNat - o)).length = c.cur.toNat := by omega
  refine ⟨by simp only [hcur]; omega, by simp only [hcur]; omega, ?_, ?_⟩
  · simp only [hcur]
    rw [src, List.drop_drop, show c.cur.toNat - o + n = c.cur.toNat + n - o by omega]
  · simp only [hcur]
    rw [src] at hI
    rwa [show c.cur.toNat + n - o = (c.cur.toNat - o) + n by omega, List.take_add,
      overwrite_append, e]

theorem Saved.partly {s s' : σ} {c : WritePos} (h : Saved I img o stop.toNat buf s c)
    (hlen : stop.toNat ≤ o + buf.length)
    (hI : I s' (overwrite img o (buf.take (c.cur.toNat - o)))) : PartlySaved I img o buf s' := by
  have hhigh := h.high
  exact ⟨c.cur.toNat - o, by omega, hI⟩

/-- A stage that is one write. -/
theorem follows_write (was : Nat → UInt8) (hM : Mirrors io I met) (hw : io.write = some write)
    {H : Prop} {P : σ → α → Prop} {Q : σ → Prop} {s : σ} {off len : UInt64} {src : List UInt8}
    {a : α} (hI : H → I s was ∧ off.toNat < 2 ^ 63)
    (hok : ∀ s', H → I s' (overwrite was off.toNat (src.take len.toNat)) → P s' a)
    (hfail : ∀ s', H → I s' was → Q s') :
    Follows met H P Q l
      (if (noteWrite write (s, l) off len src).2 ≠ 0 then
        ((noteWrite write (s, l) off len src).1, .error (noteWrite write (s, l) off len src).2)
      else ((noteWrite write (s, l) off len src).1, .ok a))
      (if (write s off len src).2 ≠ 0 then
        ((write s off len src).1, .error (write s off len src).2)
      else ((write s off len src).1, .ok a)) := by
  refine follows_call (write s off len src).2 (fun hH hm h0 => hok _ hH ?_)
    (fun hH hm h0 => hfail _ hH ?_)
  · have h := hM.write hw (hI hH).2 hm (hI hH).1
    rwa [if_pos h0] at h
  · have h := hM.write hw (hI hH).2 hm (hI hH).1
    rwa [if_neg h0] at h

/-- A block that is read, changed and written back. -/
theorem follows_rmw (hM : Mirrors io I met) (hread : io.read.isSome) (hw : io.write = some write)
    {H : Prop} {P : σ → α → Prop} {Q : σ → Prop} {s : σ} {base skip n : UInt64}
    {src : List UInt8} {a : α} {was : Nat → UInt8}
    (hI : H → I s was ∧ base.toNat < 2 ^ 63 ∧ skip.toNat + n.toNat ≤ al.toNat)
    (hok : ∀ s', H → I s' (overwrite was (base.toNat + skip.toNat) (src.take n.toNat)) → P s' a)
    (hfail : ∀ s', H → I s' was → Q s') :
    Follows met H P Q l
      (if (rmwBlock (noted io) (noteWrite write) al (s, l) base skip n src).2 ≠ 0 then
        ((rmwBlock (noted io) (noteWrite write) al (s, l) base skip n src).1,
          .error (rmwBlock (noted io) (noteWrite write) al (s, l) base skip n src).2)
      else ((rmwBlock (noted io) (noteWrite write) al (s, l) base skip n src).1, .ok a))
      (if (rmwBlock io write al s base skip n src).2 ≠ 0 then
        ((rmwBlock io write al s base skip n src).1, .error (rmwBlock io write al s base skip n src).2)
      else ((rmwBlock io write al s base skip n src).1, .ok a)) := by
  have hfirst : Follows met H
      (fun s' tmp => H ∧ I s' was ∧ tmp = slice was base.toNat al.toNat) Q l
      (if (io.callRead s base al.toUInt64).2.1 ≠ 0 then
        (((io.callRead s base al.toUInt64).1, l ++ [(s, .read base al.toUInt64)]),
          .error (io.callRead s base al.toUInt64).2.1)
      else (((io.callRead s base al.toUInt64).1, l ++ [(s, .read base al.toUInt64)]),
        .ok (io.callRead s base al.toUInt64).2.2))
      (if (io.callRead s base al.toUInt64).2.1 ≠ 0 then
        ((io.callRead s base al.toUInt64).1, .error (io.callRead s base al.toUInt64).2.1)
      else ((io.callRead s base al.toUInt64).1, .ok (io.callRead s base al.toUInt64).2.2)) := by
    refine follows_call _ (fun hH hm h0 => ?_) (fun hH hm _ => ?_)
    · obtain ⟨hI', hbs⟩ := hM.read (hI hH).2.1 hm (hI hH).1
      rw [UInt32.toNat_toUInt64] at hbs
      exact ⟨hH, hI', hbs h0⟩
    · exact hfail _ hH (hM.read (hI hH).2.1 hm (hI hH).1).1
  have hboth := hfirst.andThen (R := P)
    (f := fun t tmp =>
      if (noteWrite write t base al.toUInt64 (patch tmp skip.toNat (src.take n.toNat))).2 ≠ 0 then
        ((noteWrite write t base al.toUInt64 (patch tmp skip.toNat (src.take n.toNat))).1,
          .error (noteWrite write t base al.toUInt64 (patch tmp skip.toNat (src.take n.toNat))).2)
      else ((noteWrite write t base al.toUInt64 (patch tmp skip.toNat (src.take n.toNat))).1, .ok a))
    (g := fun s' tmp =>
      if (write s' base al.toUInt64 (patch tmp skip.toNat (src.take n.toNat))).2 ≠ 0 then
        ((write s' base al.toUInt64 (patch tmp skip.toNat (src.take n.toNat))).1,
          .error (write s' base al.toUInt64 (patch tmp skip.toNat (src.take n.toNat))).2)
      else ((write s' base al.toUInt64 (patch tmp skip.toNat (src.take n.toNat))).1, .ok a))
    (fun s' l' tmp => by
      refine follows_write was hM hw (fun h => ⟨h.2.1, (hI h.1).2.1⟩) ?_
        fun s'' h hI' => hfail s'' h.1 hI'
      intro s'' h hI'
      refine hok s'' h.1 ?_
      have hn := (hI h.1).2.2
      have hlen : (src.take n.toNat).length ≤ n.toNat := List.length_take_le ..
      have hall : (patch (slice was base.toNat al.toNat) skip.toNat (src.take n.toNat)).length =
          al.toNat := by
        rw [length_patch (by rw [length_slice]; omega), length_slice]
      rwa [h.2.2, UInt32.toNat_toUInt64, List.take_of_length_le (by rw [hall]),
        overwrite_patch_slice (by omega)] at hI')
  unfold rmwBlock
  rw [callRead_noted hread]
  by_cases h : (io.callRead s base al.toUInt64).2.1 ≠ 0
  · simpa [andThen, h] using hboth
  · simpa [andThen, h] using hboth

section Write

variable (hM : Mirrors io I met) (hread : io.read.isSome) (hw : io.write = some write)
  (hp : IsPow2 al) (hstop : stop.toNat ≤ 2 ^ 63) (hlen : stop.toNat ≤ o + buf.length) (s : σ)
  (c : WritePos)
include hM hread hw hp hstop hlen

theorem pwriteHead_follows :
    Follows met (Saved I img o stop.toNat buf s c ∧ c.cur < stop)
      (fun s c => Saved I img o stop.toNat buf s c ∧ AtBoundary al stop c.cur)
      (PartlySaved I img o buf) l
      (pwriteHead (noted io) (noteWrite write) al stop (s, l) c)
      (pwriteHead io write al stop s c) := by
  simp only [pwriteHead]
  by_cases h0 : c.cur &&& (al - 1).toUInt64 = 0
  · rw [if_neg (fun hne => hne h0), if_neg (fun hne => hne h0)]
    exact follows_ok fun h => ⟨h.1, Or.inl ((and_pred_eq_zero hp c.cur).mp h0)⟩
  · rw [if_pos h0, if_pos h0]
    refine follows_rmw hM hread hw (fun h => ?_) (fun s' h hI => ?_) fun s' h hI =>
      h.1.partly hlen hI
    · have hb := headBlock hp h.2
      exact ⟨h.1.image, Nat.lt_of_lt_of_le hb.begins hstop, hb.fits⟩
    · have hb := headBlock hp h.2
      rw [hb.start] at hI
      exact ⟨h.1.advance hb.ends hb.next hlen hI, hb.boundary⟩

omit hread in
theorem pwriteMid_follows :
    Follows met (Saved I img o stop.toNat buf s c ∧ AtBoundary al stop c.cur)
      (fun s c => Saved I img o stop.toNat buf s c ∧ AtBoundary al stop c.cur ∧
        stop.toNat < c.cur.toNat + al.toNat) (PartlySaved I img o buf) l
      (pwriteMid (noteWrite write) al stop (s, l) c) (pwriteMid write al stop s c) := by
  have hB : Bounds al none stop := ⟨hp, by simp⟩
  simp only [pwriteMid]
  by_cases h0 : (stop - c.cur) &&& ~~~(al - 1).toUInt64 = 0
  · rw [if_neg (fun hne => hne h0), if_neg (fun hne => hne h0)]
    refine follows_ok fun h => ⟨h.1, h.2, ?_⟩
    obtain ⟨_, hlast⟩ | ⟨hne, _⟩ := mid_window hB h.2 h.1.high
    · exact hlast
    · exact absurd h0 hne
  · rw [if_pos h0, if_pos h0]
    have hmid := mt UInt64.toNat_inj.mp h0
    rw [UInt64.toNat_zero] at hmid
    refine follows_write _ hM hw (fun h => ⟨h.1.image, ?_⟩) (fun s' h hI => ?_) fun s' h hI =>
      h.1.partly hlen hI
    · obtain ⟨hz, _⟩ | ⟨_, _, _, hle, _⟩ := mid_window hB h.2 h.1.high
      · exact absurd hz h0
      · omega
    · obtain ⟨hz, _⟩ | ⟨_, _, hcur, hle, hat', hlast⟩ := mid_window hB h.2 h.1.high
      · exact absurd hz h0
      · exact ⟨h.1.advance hle hcur hlen hI, hat', hlast⟩

omit hp in
theorem pwriteTail_follows :
    Follows met (Saved I img o stop.toNat buf s c ∧ AtBoundary al stop c.cur ∧
        stop.toNat < c.cur.toNat + al.toNat)
      (fun s c => Saved I img o stop.toNat buf s c ∧ c.cur = stop) (PartlySaved I img o buf) l
      (pwriteTail (noted io) (noteWrite write) al stop (s, l) c)
      (pwriteTail io write al stop s c) := by
  simp only [pwriteTail]
  by_cases hlt : c.cur < stop
  · rw [if_pos hlt, if_pos hlt]
    have hlt' := UInt64.lt_iff_toNat_lt.mp hlt
    have hsub := toNat_stop_sub (Nat.le_of_lt hlt')
    refine follows_rmw hM hread hw (fun h => ?_) (fun s' h hI => ?_) fun s' h hI =>
      h.1.partly hlen hI
    · have hlast := h.2.2
      exact ⟨h.1.image, Nat.lt_of_lt_of_le hlt' hstop, by rw [UInt64.toNat_zero]; omega⟩
    · rw [UInt64.toNat_zero, Nat.add_zero] at hI
      exact ⟨h.1.advance (by omega) (by omega) hlen hI, rfl⟩
  · rw [if_neg hlt, if_neg hlt]
    exact follows_ok fun h => ⟨h.1, eq_stop_of_not_lt h.1.high hlt⟩

end Write

theorem pwriteBody_follows (src : List UInt8) (hM : Mirrors io I met) (hread : io.read.isSome)
    (hw : io.write = some write) (hp : IsPow2 al) (hstop : stop.toNat ≤ 2 ^ 63) {off : UInt64}
    (hlt : off < stop) (hlen : stop.toNat ≤ off.toNat + src.length) (s : σ) :
    Follows met (I s img)
      (fun s c => Saved I img off.toNat stop.toNat src s c ∧ c.cur = stop)
      (PartlySaved I img off.toNat src) l
      (pwriteBody (noted io) (noteWrite write) al stop off src (s, l))
      (pwriteBody io write al stop off src s) := by
  have hlt' := UInt64.lt_iff_toNat_lt.mp hlt
  have h0 : I s img → Saved I img off.toNat stop.toNat src s ⟨off, src⟩ := fun hI =>
    ⟨Nat.le_refl _, Nat.le_of_lt hlt', by simp, by simpa using hI⟩
  simp only [pwriteBody]
  split
  · rename_i hal
    obtain ⟨_, hend⟩ := direct_window (⟨hp, by simp⟩ : Bounds al none stop) hlt hal.1 hal.2
    refine follows_write _ hM hw (fun hI => ⟨(h0 hI).image, Nat.lt_of_lt_of_le hlt' hstop⟩)
      (fun s' hI hI' => ?_) fun s' hI hI' => (h0 hI).partly hlen hI'
    exact ⟨(h0 hI).advance (Nat.le_of_eq hend) hend.symm hlen hI', rfl⟩
  · have hstart : Follows met (I s img)
        (fun s c => Saved I img off.toNat stop.toNat src s c ∧ c.cur < stop)
        (PartlySaved I img off.toNat src) l
        ((s, l), .ok ⟨off, src⟩) (s, .ok ⟨off, src⟩) := follows_ok fun hI => ⟨h0 hI, hlt⟩
    exact ((hstart.andThen fun s _ c => pwriteHead_follows hM hread hw hp hstop hlen s c).andThen
      fun s _ c => pwriteMid_follows hM hw hp hstop hlen s c).andThen
        fun s _ c => pwriteTail_follows hM hread hw hstop hlen s c

end Image

end Shim
end Usbrw
