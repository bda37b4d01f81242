import Mathlib.Algebra.Group.Int.Defs
import Usbrw.Ntfs.Setattr

/-!
# Ntfs.Transfer

What `nfsk_read` and `nfsk_write` transfer, however the library splits it and wherever it fails.

* `LawfulData`  — what the calls of `Ntfs.Data` do to the data of every record.
* `withLog`   — the library, with the calls that change a record kept in a log.
* `readLoop_spec`, `writeLoop_spec` — what the loops have transferred when they end.
* `CutShort`    — a write that may take from a file what it was not to touch.
* `transfers_iff` — but for that, the two entry points transfer what they report.
-/

namespace Usbrw
namespace Ntfs

open Region

variable {τ : Type}

/-- A transfer of at least a byte transfers some of it or fails. A call that fails sets `errno`. -/
structure LawfulData (lib : Libdata τ) (V : DataView τ) : Prop where
  inodeOpen : ∀ {r env env' ni}, lib.inodeOpen r env = (env', some ni) →
    ni.mftNo = r ∧ V env'.state = V env.state
  inodeOpen_none : ∀ {r env env'}, lib.inodeOpen r env = (env', none) →
    0 < env'.errno ∧ V env'.state = V env.state
  inodeClose : ∀ {ni env env' fails}, lib.inodeClose ni env = (env', fails) →
    (fails = true → 0 < env'.errno) ∧ V env'.state = V env.state
  attrOpen : ∀ {ni env env' na d}, lib.attrOpen ni env = (env', some na) →
    V env.state ni.mftNo = some d →
    (na.inode = ni ∧ na.dataSize.toInt = d.size) ∧ V env'.state = V env.state
  attrOpen_none : ∀ {ni env env'}, lib.attrOpen ni env = (env', none) →
    0 < env'.errno ∧ V env'.state = V env.state
  attrClose : ∀ na env, V (lib.attrClose na env).state = V env.state
  attrPread : ∀ {na off size env env' ret bytes d}, lib.attrPread na off size env = (env', ret, bytes) →
    V env.state na.inode.mftNo = some d → 0 ≤ off.toInt → 0 < size → off.toInt + size.toInt ≤ d.size →
    ((ret < 0 ∧ 0 < env'.errno) ∨ ((0 < ret ∧ ret ≤ size) ∧
      bytes = slice d.byte off.toInt.toNat ret.toInt.toNat)) ∧ V env'.state = V env.state
  attrPwrite : ∀ {na off size buf env env' ret d}, lib.attrPwrite na off size buf env = (env', ret) →
    V env.state na.inode.mftNo = some d → 0 ≤ off.toInt → 0 < size → size.toInt = buf.length →
    ((ret < 0 ∧ 0 < env'.errno) ∨ (0 < ret ∧ ret ≤ size)) ∧
    ∃ d', d.Attempted off.toInt.toNat buf ret.toInt.toNat d' ∧
      V env'.state = Function.update (V env.state) na.inode.mftNo (some d')
  setArchive : ∀ ni env, V (lib.setArchive ni env).state = V env.state
  inodeUpdateTimes : ∀ ni w env, V (lib.inodeUpdateTimes ni w env).state = V env.state

/-! ## The arithmetic of a step -/

theorem toInt_pos {x : Int64} (h : 0 < x) : 0 < x.toInt := Int64.lt_iff_toInt_lt.mp h

theorem toInt_le {x y : Int64} (h : x ≤ y) : x.toInt ≤ y.toInt := Int64.le_iff_toInt_le.mp h

theorem toInt_add_of_lt {x y : Int64} (hx : 0 ≤ x.toInt) (hy : 0 ≤ y.toInt)
    (h : x.toInt + y.toInt < 2 ^ 63) : (x + y).toInt = x.toInt + y.toInt := by
  rw [Int64.toInt_add]
  exact Int.bmod_eq_of_le (by omega) (by omega)

/-- `ret` of `size` bytes were transferred at `off`, after `total`. -/
structure Advance (off size total ret : Int64) : Prop where
  off : (off + ret).toInt = off.toInt + ret.toInt
  size : (size - ret).toInt = size.toInt - ret.toInt
  total : (total + ret).toInt = total.toInt + ret.toInt

theorem advance {off size total ret : Int64} (hret : 0 < ret) (hle : ret ≤ size)
    (hoff : 0 ≤ off.toInt) (htotal : 0 ≤ total.toInt) (hend : off.toInt + size.toInt < 2 ^ 63)
    (hall : total.toInt + size.toInt < 2 ^ 63) : Advance off size total ret where
  off := by
    have h1 := toInt_pos hret
    have h2 := toInt_le hle
    exact toInt_add_of_lt hoff (by omega) (by omega)
  size := toInt_sub_of_pos (Int64.lt_of_lt_of_le hret hle) hret
  total := by
    have h1 := toInt_pos hret
    have h2 := toInt_le hle
    exact toInt_add_of_lt htotal (by omega) (by omega)

/-! ## Reading -/

section Read

variable {lib : Libdata τ} {V : DataView τ} {na : NtfsAttr} {d : DataStream}

/-- Everything was read, or nothing is reported. -/
def ReadsAll (count : Int) (bytes : List UInt8) : Except Int (Int64 × List UInt8) → Prop
  | .error e => 0 < e
  | .ok (total, out) => total.toInt = count ∧ out = bytes

theorem readLoop_spec (hL : LawfulData lib V) (off size total : Int64) (out : List UInt8)
    (env : Env τ) (hd : V env.state na.inode.mftNo = some d) (hoff : 0 ≤ off.toInt)
    (hsize : 0 ≤ size.toInt) (htotal : 0 ≤ total.toInt) (hin : off.toInt + size.toInt ≤ d.size)
    (hend : off.toInt + size.toInt < 2 ^ 63) (hall : total.toInt + size.toInt < 2 ^ 63) :
    ReadsAll (total.toInt + size.toInt) (out ++ slice d.byte off.toInt.toNat size.toInt.toNat)
      (readLoop lib na off size total out env).2 := by
  fun_induction readLoop lib na off size total out env with
  | case1 off size total out env hpos env' ret bs hread hret =>
    obtain ⟨hor | ⟨⟨hpos', _⟩, _⟩, _⟩ := hL.attrPread hread hd hoff hpos hin
    · simp only [ReadsAll, if_pos hor.1]
      exact hor.2
    · exact absurd hret (Int64.not_le.mpr hpos')
  | case2 off size total out env hpos env' ret bs hread hret hlt =>
    obtain ⟨hor | ⟨⟨_, hle⟩, _⟩, _⟩ := hL.attrPread hread hd hoff hpos hin
    · exact absurd (Int64.le_of_lt hor.1) hret
    · exact absurd hlt (Int64.not_lt.mpr hle)
  | case3 off size total out env hpos env' ret bs hread hret hlt ih =>
    obtain ⟨hor | ⟨⟨hpos', hle⟩, rfl⟩, hsame⟩ := hL.attrPread hread hd hoff hpos hin
    · exact absurd (Int64.le_of_lt hor.1) hret
    have hadv := advance hpos' hle hoff htotal hend hall
    have h1 := toInt_pos hpos'
    have h2 := toInt_le hle
    rw [hadv.off, hadv.size, hadv.total, hsame] at ih
    have hrest := ih hd (by omega) (by omega) (by omega) (by omega) (by omega) (by omega)
    have hsplit : size.toInt.toNat = ret.toInt.toNat + (size.toInt - ret.toInt).toNat := by omega
    have hnext : off.toInt.toNat + ret.toInt.toNat = (off.toInt + ret.toInt).toNat := by omega
    rw [hsplit, slice_add, hnext, ← List.append_assoc]
    rw [show total.toInt + ret.toInt + (size.toInt - ret.toInt) = total.toInt + size.toInt by omega]
      at hrest
    exact hrest
  | case4 off size total out env hpos =>
    have hzero : size.toInt = 0 := by
      have hle := toInt_le (Int64.not_lt.mp hpos)
      rw [Int64.toInt_zero] at hle
      omega
    simp [ReadsAll, hzero]

/-- What is left of a request of `len` bytes at the end of the data. -/
def DataStream.available (d : DataStream) (offset len : Nat) : Nat := min len (d.size - offset)

variable (noatime : Bool)

/-- The request is clipped at the end of the data. -/
theorem readAttr_spec (hL : LawfulData lib V) (ni : NtfsInode) {off size : Int64} {env : Env τ}
    (hd : V env.state na.inode.mftNo = some d) (hdata : na.dataSize.toInt = d.size)
    (hoff : 0 ≤ off.toInt) (hsize : 0 ≤ size.toInt) (hend : off.toInt + size.toInt < 2 ^ 63) :
    ReadsAll (d.available off.toInt.toNat size.toInt.toNat)
      (slice d.byte off.toInt.toNat (d.available off.toInt.toNat size.toInt.toNat))
      (readAttr lib noatime ni na off size env).2 := by
  have hbound := na.dataSize.toInt_lt
  unfold readAttr DataStream.available
  by_cases hlt : off < na.dataSize
  · have hlt' := Int64.lt_iff_toInt_lt.mp hlt
    have hsum : (off + size).toInt = off.toInt + size.toInt := toInt_add_of_lt hoff hsize hend
    have hclip : (clipped na off size).toInt =
        (min size.toInt.toNat (d.size - off.toInt.toNat) : Nat) := by
      unfold clipped
      by_cases hover : na.dataSize < off + size
      · have hover' := Int64.lt_iff_toInt_lt.mp hover
        rw [if_pos hover, Int64.toInt_sub]
        rw [Int.bmod_eq_of_le (by omega) (by omega)]
        omega
      · have hover' := toInt_le (Int64.not_lt.mp hover)
        rw [if_neg hover]
        omega
    have hzero : (0 : Int64).toInt = 0 := rfl
    have hloop := readLoop_spec hL off (clipped na off size) 0 [] env hd hoff (by omega) (by omega)
      (by omega) (by omega) (by omega)
    rw [hzero, Int.zero_add, List.nil_append, hclip, Int.toNat_natCast] at hloop
    simp only [if_pos hlt]
    cases hr : readLoop lib na off (clipped na off size) 0 [] env with
    | mk env' res =>
      rw [hr] at hloop
      cases res with
      | error e => exact hloop
      | ok p => exact hloop
  · have hle := toInt_le (Int64.not_lt.mp hlt)
    have hnone : min size.toInt.toNat (d.size - off.toInt.toNat) = 0 := by omega
    simp only [if_neg hlt, hnone]
    exact ⟨rfl, rfl⟩

theorem nfskRead_transfers (hL : LawfulData lib V) {mft offset len : UInt64} {env : Env τ}
    (hd : V env.state mft = some d) (hend : offset.toNat + len.toNat < 2 ^ 63) :
    (nfskRead lib noatime mft offset len env).2.1 < 0 ∨
    ((nfskRead lib noatime mft offset len env).2.1 = d.available offset.toNat len.toNat ∧
      (nfskRead lib noatime mft offset len env).2.2 =
        slice d.byte offset.toNat (d.available offset.toNat len.toNat)) := by
  have hoff : offset.toInt64.toInt = offset.toNat := Shim.toInt_toInt64 (by omega)
  have hlen : len.toInt64.toInt = len.toNat := Shim.toInt_toInt64 (by omega)
  unfold nfskRead
  by_cases hzero : len = 0
  · have hnone : d.available offset.toNat len.toNat = 0 := by simp [DataStream.available, hzero]
    rw [if_pos hzero, hnone]
    exact Or.inr ⟨rfl, rfl⟩
  rw [if_neg hzero]
  cases hopen : lib.inodeOpen mft env.clear with
  | mk env₁ oni =>
  cases oni with
  | none =>
    have herr := (hL.inodeOpen_none hopen).1
    exact Or.inl (by simpa using herr)
  | some ni =>
  obtain ⟨hmft, hsame₁⟩ := hL.inodeOpen hopen
  by_cases hrep : ni.reparsePoint = true
  · simp only [hrep, if_true]
    exact Or.inl (by decide)
  simp only [if_neg hrep]
  cases hattr : lib.attrOpen ni env₁ with
  | mk env₂ ona =>
  cases ona with
  | none =>
    have herr := (hL.attrOpen_none hattr).1
    exact Or.inl (by simpa using herr)
  | some na =>
  have hd₁ : V env₁.state ni.mftNo = some d := by rw [hsame₁, hmft]; exact hd
  obtain ⟨⟨hinode, hsize⟩, hsame₂⟩ := hL.attrOpen hattr hd₁
  have hd₂ : V env₂.state na.inode.mftNo = some d := by rw [hsame₂, hinode]; exact hd₁
  have hread : ReadsAll (d.available offset.toNat len.toNat)
      (slice d.byte offset.toNat (d.available offset.toNat len.toNat))
      (readAttr lib noatime ni na offset.toInt64 len.toInt64 env₂).2 := by
    have hspec := readAttr_spec noatime hL ni hd₂ hsize (show 0 ≤ offset.toInt64.toInt by omega)
      (show 0 ≤ len.toInt64.toInt by omega) (by omega)
    rwa [hoff, hlen, Int.toNat_natCast, Int.toNat_natCast] at hspec
  cases hr : readAttr lib noatime ni na offset.toInt64 len.toInt64 env₂ with
  | mk env₃ res =>
  rw [hr] at hread
  cases res with
  | error e =>
    have hpos : 0 < e := hread
    exact Or.inl (by simpa [hr] using hpos)
  | ok p =>
    obtain ⟨total, out⟩ := p
    obtain ⟨htotal, hout⟩ := hread
    cases hclose : lib.inodeClose ni (lib.attrClose na env₃) with
    | mk env₄ fails =>
    by_cases hfails : fails = true ∧ total = 0
    · have herr := (hL.inodeClose hclose).1 hfails.1
      exact Or.inl (by simpa [hr, hclose, hfails] using herr)
    · refine Or.inr ?_
      simp only [hr, hclose, if_neg hfails]
      exact ⟨htotal, hout⟩

end Read

/-! ## Writing -/

section Write

variable {lib : Libdata τ} {V : DataView τ} {na : NtfsAttr} {d : DataStream}

/-- The first `count` bytes of `buf` were stored, and nothing else changed since `D`. -/
def Wrote (V : DataView τ) (D : UInt64 → Option DataStream) (r : UInt64) (d : DataStream)
    (offset : Nat) (buf : List UInt8) (count : Nat) (env : Env τ) : Prop :=
  ∃ d', d.Stored offset (buf.take count) d' ∧ V env.state = Function.update D r (some d')

theorem Wrote.congr {D : UInt64 → Option DataStream} {r : UInt64} {offset count : Nat}
    {buf : List UInt8} {env env' : Env τ} (h : Wrote V D r d offset buf count env)
    (hsame : V env'.state = V env.state) : Wrote V D r d offset buf count env' := by
  obtain ⟨d', hd', hV⟩ := h
  exact ⟨d', hd', hsame.trans hV⟩

/-- The loop has still to write `size` bytes at `off`. -/
structure Left (V : DataView τ) (D : UInt64 → Option DataStream) (r : UInt64) (d : DataStream)
    (offset : Nat) (buf : List UInt8) (off size total : Int64) (env : Env τ) : Prop where
  position : off.toInt = offset + total.toInt
  length : total.toInt + size.toInt = buf.length
  done : 0 ≤ total.toInt
  rest : 0 ≤ size.toInt
  wrote : Wrote V D r d offset buf total.toInt.toNat env

/-- `F` holds once a write has failed. -/
structure Marks (lib : Libdata τ) (F : τ → Prop) : Prop where
  attrPwrite : ∀ {na off size buf env env' ret}, lib.attrPwrite na off size buf env = (env', ret) →
    ret ≤ 0 → F env'.state
  attrClose : ∀ na env, F env.state → F (lib.attrClose na env).state
  inodeClose : ∀ ni env, F env.state → F (lib.inodeClose ni env).1.state

/-- A write to the file that may take from it what it was not to touch. The one that does is not the
last one, or ends before the file. -/
def DataStream.CutShort (d : DataStream) (offset len : Nat) : Prop :=
  0 < len ∧ d.Ragged (offset + len) ∧ offset + 1 < d.size

instance (d : DataStream) (offset len : Nat) : Decidable (d.CutShort offset len) :=
  inferInstanceAs (Decidable (_ ∧ _ ∧ _))

/-- What the loop reports was stored, and all of it unless a write failed. Nothing is known of a file
that could be cut, when the first write fails. -/
structure WriteEnd (V : DataView τ) (F : τ → Prop) (D : UInt64 → Option DataStream) (r : UInt64)
    (d : DataStream) (offset : Nat) (buf : List UInt8) (res : Env τ × Int64 × Option Int) :
    Prop where
  total : 0 ≤ res.2.1.toInt ∧ res.2.1.toInt ≤ buf.length
  all : res.2.2 = none → res.2.1.toInt = buf.length
  failed : ∀ e, res.2.2 = some e → 0 < e ∧ F res.1.state
  wrote : (d.Ragged (offset + buf.length) → res.2.2 = none ∨ 0 < res.2.1.toInt) →
    Wrote V D r d offset buf res.2.1.toInt.toNat res.1

/-- A file that can be cut is cut by the first write, unless that ends beyond the file. -/
theorem ragged_stored {d' : DataStream} {offset n k : Nat} {buf : List UInt8}
    (hcut : d.Ragged n → d.size ≤ offset + 1) (hk : k ≤ buf.length)
    (h : d.Stored offset (buf.take k) d') (hr : d'.Ragged n) : k = 0 := by
  by_contra hne
  have hlen : (buf.take k).length = k := List.length_take_of_le hk
  have hnonempty : buf.take k ≠ [] := by
    intro hnil
    rw [hnil, List.length_nil] at hlen
    exact hne hlen.symm
  obtain ⟨hrag, hle⟩ := (h.written hnonempty).ragged hr
  have hsize := hcut hrag
  have hlt := hrag.2.2
  omega

/-- A write goes on where the last one ended, and stores what comes next. One that stores nothing has
failed, and must not be the first to a file that can be cut. -/
theorem stored_next {dk d' : DataStream} {offset k part : Nat} {buf : List UInt8}
    (hcut : d.Ragged (offset + buf.length) → d.size ≤ offset + 1) (hk : k ≤ buf.length)
    (h : d.Stored offset (buf.take k) dk)
    (hor : d.Ragged (offset + buf.length) → 0 < k ∨ 0 < part)
    (hd' : dk.Attempted (offset + k) (buf.drop k) part d') :
    d.Stored offset (buf.take (k + part)) d' := by
  have hlen : (buf.take k).length = k := List.length_take_of_le hk
  have hstop : offset + k + (buf.drop k).length = offset + buf.length := by
    rw [List.length_drop]
    omega
  unfold DataStream.Attempted at hd'
  rw [hstop] at hd'
  have hpart := hd' fun hr => by
    have hzero := ragged_stored hcut hk h hr
    have hdk : dk = d := h.nothing (by rw [hzero, List.take_zero])
    rw [hdk] at hr ⊢
    have hsize := hcut hr
    have hrag := hr.2.2
    have hpos := hor hr
    omega
  rw [List.take_add]
  by_cases hnil : (buf.drop k).take part = []
  · rw [hnil, List.append_nil, hpart.nothing hnil]
    exact h
  · refine h.append ?_ hnil
    rw [hlen]
    exact hpart.written hnil

/-- One pass through the loop. -/
theorem Left.next (hL : LawfulData lib V) {D : UInt64 → Option DataStream} {offset : Nat}
    {buf : List UInt8} {off size total ret : Int64} {env env' : Env τ}
    (hcut : ¬ d.CutShort offset buf.length)
    (h : Left V D na.inode.mftNo d offset buf off size total env) (hpos : 0 < size)
    (hend : offset + buf.length < 2 ^ 63)
    (hwrite : lib.attrPwrite na off size (buf.drop total.toInt.toNat) env = (env', ret)) :
    ((ret < 0 ∧ 0 < env'.errno) ∧ ((d.Ragged (offset + buf.length) → 0 < total.toInt) →
      Wrote V D na.inode.mftNo d offset buf total.toInt.toNat env')) ∨
    (0 < ret ∧ Left V D na.inode.mftNo d offset buf (off + ret) (size - ret) (total + ret) env') := by
  have hoff := h.position
  have hsize := h.length
  have htotal := h.done
  have hpos' := toInt_pos hpos
  obtain ⟨dk, hstored, hV⟩ := h.wrote
  have hk : V env.state na.inode.mftNo = some dk := by rw [hV, Function.update_self]
  have hrest : size.toInt = ((buf.drop total.toInt.toNat).length : Nat) := by
    rw [List.length_drop]
    omega
  have hshort : d.Ragged (offset + buf.length) → d.size ≤ offset + 1 := fun hr =>
    Nat.not_lt.mp fun hlt => hcut ⟨by omega, hr, hlt⟩
  obtain ⟨hor, d', hd', hV'⟩ := hL.attrPwrite hwrite hk (by omega) hpos hrest
  have hD : V env'.state = Function.update D na.inode.mftNo (some d') := by
    rw [hV', hV, Function.update_idem]
  rw [show off.toInt.toNat = offset + total.toInt.toNat by omega] at hd'
  have hnext := fun hor => stored_next hshort (by omega) hstored hor hd'
  rcases hor with ⟨hneg, herr⟩ | ⟨hret, hle⟩
  · have hnone : ret.toInt.toNat = 0 := by
      have hlt := Int64.lt_iff_toInt_lt.mp hneg
      rw [Int64.toInt_zero] at hlt
      omega
    rw [hnone, Nat.add_zero] at hnext
    refine Or.inl ⟨⟨hneg, herr⟩, fun hrag => ⟨d', hnext fun hr => .inl ?_, hD⟩⟩
    have hdone := hrag hr
    omega
  · have hadv : Advance off size total ret :=
      advance hret hle (by omega) htotal (by omega) (by omega)
    have h1 := toInt_pos hret
    have h2 := toInt_le hle
    refine Or.inr ⟨hret, ?_, ?_, ?_, ?_, d', ?_, hD⟩
    · rw [hadv.off, hadv.total]
      omega
    · rw [hadv.size, hadv.total]
      omega
    · rw [hadv.total]
      omega
    · rw [hadv.size]
      omega
    · rw [hadv.total, show (total.toInt + ret.toInt).toNat =
        total.toInt.toNat + ret.toInt.toNat by omega]
      exact hnext fun _ => .inr (by omega)

theorem writeLoop_spec (hL : LawfulData lib V) {F : τ → Prop} (hF : Marks lib F)
    {D : UInt64 → Option DataStream} {offset : Nat} {buf : List UInt8}
    (hcut : ¬ d.CutShort offset buf.length)
    (hend : offset + buf.length < 2 ^ 63) (off size total : Int64) (env : Env τ)
    (h : Left V D na.inode.mftNo d offset buf off size total env) :
    WriteEnd V F D na.inode.mftNo d offset buf (writeLoop lib na off size total buf env) := by
  have hlen := h.length
  fun_induction writeLoop lib na off size total buf env with
  | case1 off size total env hpos env' ret hwrite hret =>
    obtain ⟨⟨_, herr⟩, hwrote⟩ | ⟨hret', _⟩ := h.next hL hcut hpos hend hwrite
    · refine ⟨⟨h.done, ?_⟩, nofun, ?_, fun hor => hwrote fun hr => (hor hr).resolve_left nofun⟩
      · have hrest := h.rest
        show total.toInt ≤ buf.length
        omega
      · intro e he
        cases he
        exact ⟨herr, hF.attrPwrite hwrite hret⟩
    · exact absurd hret (Int64.not_le.mpr hret')
  | case2 off size total env hpos env' ret hwrite hret ih =>
    obtain ⟨⟨hneg, _⟩, _⟩ | ⟨_, hleft⟩ := h.next hL hcut hpos hend hwrite
    · exact absurd (Int64.le_of_lt hneg) hret
    · exact ih hleft hleft.length
  | case3 off size total env hpos =>
    have hzero : size.toInt = 0 := by
      have hle := toInt_le (Int64.not_lt.mp hpos)
      have hrest := h.rest
      rw [Int64.toInt_zero] at hle
      omega
    have hall : total.toInt = buf.length := by omega
    exact ⟨⟨h.done, Int.le_of_eq hall⟩, fun _ => hall, nofun, fun _ => h.wrote⟩

/-- The loop from its start, with the file open. -/
theorem writeLoop_opened (hL : LawfulData lib V) {F : τ → Prop} (hF : Marks lib F)
    {mft offset len : UInt64} {buf : List UInt8} {env env₁ env₂ : Env τ} {ni : NtfsInode}
    (hd : V env.state mft = some d) (hbuf : buf.length = len.toNat)
    (hend : offset.toNat + len.toNat < 2 ^ 63) (hcut : ¬ d.CutShort offset.toNat buf.length)
    (hopen : lib.inodeOpen mft env.clear = (env₁, some ni))
    (hattr : lib.attrOpen ni env₁ = (env₂, some na)) :
    WriteEnd V F (V env.state) mft d offset.toNat buf
      (writeLoop lib na offset.toInt64 len.toInt64 0 buf env₂) := by
  have hoff : offset.toInt64.toInt = offset.toNat := Shim.toInt_toInt64 (by omega)
  have hlen : len.toInt64.toInt = len.toNat := Shim.toInt_toInt64 (by omega)
  have hzero : (0 : Int64).toInt = 0 := rfl
  obtain ⟨rfl, hsame₁⟩ := hL.inodeOpen hopen
  have hd₁ : V env₁.state ni.mftNo = some d := by rw [hsame₁]; exact hd
  obtain ⟨⟨hinode, _⟩, hsame₂⟩ := hL.attrOpen hattr hd₁
  have hV : V env₂.state = V env.state := hsame₂.trans hsame₁
  have hno : na.inode.mftNo = ni.mftNo := by rw [hinode]
  have hleft : Left V (V env.state) na.inode.mftNo d offset.toNat buf offset.toInt64 len.toInt64 0
      env₂ := by
    refine ⟨by omega, by omega, by omega, by omega, d, .refl d _, ?_⟩
    rw [hno, hV, ← hd, Function.update_eq_self]
  rw [← hno]
  exact writeLoop_spec hL hF hcut (by omega) _ _ _ _ hleft

/-- What `nfsk_write` is to return: nothing but how much was stored, and all of it unless a write
failed. -/
structure Reported (V : DataView τ) (F : τ → Prop) (D : UInt64 → Option DataStream) (r : UInt64)
    (d : DataStream) (offset : Nat) (buf : List UInt8) (res : Env τ × Int) : Prop where
  count : 0 ≤ res.2 ∧ res.2 ≤ buf.length
  wrote : Wrote V D r d offset buf res.2.toNat res.1
  failed : res.2 < buf.length → F res.1.state

theorem nfskWrite_transfers (hL : LawfulData lib V) {F : τ → Prop} (hF : Marks lib F)
    {mft offset len : UInt64} {buf : List UInt8} {env : Env τ} (hd : V env.state mft = some d)
    (hbuf : buf.length = len.toNat) (hend : offset.toNat + len.toNat < 2 ^ 63)
    (hcut : ¬ d.CutShort offset.toNat buf.length) :
    (nfskWrite lib mft offset len buf env).2 < 0 ∨
    Reported V F (V env.state) mft d offset.toNat buf (nfskWrite lib mft offset len buf env) := by
  have hends := nfskWrite_ends lib mft offset len buf env
  generalize nfskWrite lib mft offset len buf env = res at hends ⊢
  cases hends with
  | nothing hlen0 =>
    have hnil : buf = [] := List.eq_nil_of_length_eq_zero (by rw [hbuf, hlen0]; rfl)
    subst hnil
    refine Or.inr ⟨⟨Int.le_refl 0, Int.le_refl 0⟩, ⟨d, .refl d _, ?_⟩, fun h => absurd h (by simp)⟩
    exact (Function.update_eq_self_iff.mpr hd.symm).symm
  | unopened hopen =>
    have herr := (hL.inodeOpen_none hopen).1
    exact Or.inl (by simpa using herr)
  | refused hopen hrc => exact Or.inl hrc
  | noData hopen hattr =>
    have herr := (hL.attrOpen_none hattr).1
    exact Or.inl (by simpa using herr)
  | @cutShort env₁ env₂ env₃ ni na total e hopen hattr hloop =>
    have hspec := writeLoop_opened hL hF hd hbuf hend hcut hopen hattr
    rw [hloop] at hspec
    obtain ⟨he, hfailed⟩ := hspec.failed e rfl
    by_cases hpos : 0 < total
    · rw [if_pos hpos]
      have hwrote := hspec.wrote fun _ => .inr (toInt_pos hpos)
      refine Or.inr ⟨hspec.total, hwrote.congr ?_, fun _ => ?_⟩
      · exact ((hL.inodeClose rfl).2).trans (hL.attrClose na env₃)
      · exact hF.inodeClose ni _ (hF.attrClose na env₃ hfailed)
    · rw [if_neg hpos]
      exact Or.inl (by show -e < 0; omega)
  | @stored env₁ env₂ env₃ env₄ ni na total fails hopen hattr hloop hclose =>
    have hspec := writeLoop_opened hL hF hd hbuf hend hcut hopen hattr
    rw [hloop] at hspec
    have hall : total.toInt = buf.length := hspec.all rfl
    obtain ⟨herr, hsame₄⟩ := hL.inodeClose hclose
    have hsame : V env₄.state = V env₃.state := by
      rw [hsame₄, ← hL.attrClose na env₃]
      split
      · rw [hL.inodeUpdateTimes, hL.setArchive]
      · rfl
    by_cases hfails : fails = true ∧ total = 0
    · have hpos := herr hfails.1
      rw [if_pos hfails]
      exact Or.inl (by show -env₄.errno < 0; omega)
    · rw [if_neg hfails]
      have hwrote := hspec.wrote fun _ => .inl rfl
      refine Or.inr ⟨hspec.total, hwrote.congr hsame, fun hlt => ?_⟩
      exact absurd (hall ▸ hlt) (Int.lt_irrefl _)

end Write

/-! ## The log -/

/-- A call that changes a record. -/
inductive DataEvent where
  | write (ni : NtfsInode) (ret : Int64)
  | setArchive (ni : NtfsInode)
  | updateTimes (ni : NtfsInode) (w : DataTimes)

/-- The state of the library, without the log. -/
def Env.plain (env : Env (τ × List DataEvent)) : Env τ := ⟨env.state.1, env.errno⟩

/-- A call of the library, and what it adds to the log. -/
def record {α : Type} (call : Env τ → Env τ × α) (note : α → List DataEvent)
    (env : Env (τ × List DataEvent)) : Env (τ × List DataEvent) × α :=
  (⟨((call env.plain).1.state, env.state.2 ++ note (call env.plain).2), (call env.plain).1.errno⟩,
    (call env.plain).2)

def recordUnit (call : Env τ → Env τ) (note : List DataEvent) (env : Env (τ × List DataEvent)) :
    Env (τ × List DataEvent) :=
  (record (fun e => (call e, ())) (fun _ => note) env).1

def withLog (lib : Libdata τ) : Libdata (τ × List DataEvent) where
  inodeOpen r := record (lib.inodeOpen r) fun _ => []
  inodeClose ni := record (lib.inodeClose ni) fun _ => []
  attrOpen ni := record (lib.attrOpen ni) fun _ => []
  attrClose na := recordUnit (lib.attrClose na) []
  attrPread na off size := record (lib.attrPread na off size) fun _ => []
  attrPwrite na off size buf :=
    record (lib.attrPwrite na off size buf) fun ret => [.write na.inode ret]
  setArchive ni := recordUnit (lib.setArchive ni) [.setArchive ni]
  inodeUpdateTimes ni w := recordUnit (lib.inodeUpdateTimes ni w) [.updateTimes ni w]

section Log

variable {lib : Libdata τ} {V : DataView τ} {na : NtfsAttr}

variable {env env' : Env (τ × List DataEvent)}

theorem plain_errno : env.plain.errno = env.errno := rfl

theorem plain_ite {α : Type} (p : Prop) [Decidable p] (x y : Env (τ × List DataEvent) × α) :
    ((if p then x else y).1.plain, (if p then x else y).2) =
      if p then (x.1.plain, x.2) else (y.1.plain, y.2) := by
  split
  · rfl
  · rfl

theorem plain_of_record {α : Type} {call : Env τ → Env τ × α} {a : α} (note : α → List DataEvent)
    (h : record call note env = (env', a)) : call env.plain = (env'.plain, a) := by
  cases h
  rfl

theorem inodeOpen_plain {r : UInt64} {oni : Option NtfsInode}
    (h : (withLog lib).inodeOpen r env = (env', oni)) :
    lib.inodeOpen r env.plain = (env'.plain, oni) :=
  plain_of_record (fun _ => []) h

theorem inodeClose_plain {ni : NtfsInode} {fails : Bool}
    (h : (withLog lib).inodeClose ni env = (env', fails)) :
    lib.inodeClose ni env.plain = (env'.plain, fails) :=
  plain_of_record (fun _ => []) h

theorem attrOpen_plain {ni : NtfsInode} {ona : Option NtfsAttr}
    (h : (withLog lib).attrOpen ni env = (env', ona)) :
    lib.attrOpen ni env.plain = (env'.plain, ona) :=
  plain_of_record (fun _ => []) h

theorem attrPread_plain {off size ret : Int64} {bytes : List UInt8}
    (h : (withLog lib).attrPread na off size env = (env', ret, bytes)) :
    lib.attrPread na off size env.plain = (env'.plain, ret, bytes) :=
  plain_of_record (fun _ => []) h

theorem attrPwrite_plain {off size ret : Int64} {buf : List UInt8}
    (h : (withLog lib).attrPwrite na off size buf env = (env', ret)) :
    lib.attrPwrite na off size buf env.plain = (env'.plain, ret) :=
  plain_of_record (fun ret => [.write na.inode ret]) h

/-- The log changes nothing. -/
theorem writeLoop_withLog (lib : Libdata τ) (na : NtfsAttr) (off size total : Int64)
    (buf : List UInt8) (env : Env (τ × List DataEvent)) :
    ((writeLoop (withLog lib) na off size total buf env).1.plain,
      (writeLoop (withLog lib) na off size total buf env).2) =
    writeLoop lib na off size total buf env.plain := by
  fun_induction writeLoop (withLog lib) na off size total buf env with
  | case1 off size total env hpos env' ret hwrite hret =>
    rw [writeLoop, dif_pos hpos, attrPwrite_plain hwrite]
    simp only [dif_pos hret, plain_errno]
  | case2 off size total env hpos env' ret hwrite hret ih =>
    rw [writeLoop.eq_def lib, dif_pos hpos, attrPwrite_plain hwrite]
    simp only [dif_neg hret]
    exact ih
  | case3 off size total env hpos =>
    rw [writeLoop, dif_neg hpos]

theorem nfskWrite_withLog (lib : Libdata τ) (mft offset len : UInt64) (buf : List UInt8)
    (env : Env (τ × List DataEvent)) :
    ((nfskWrite (withLog lib) mft offset len buf env).1.plain,
      (nfskWrite (withLog lib) mft offset len buf env).2) =
    nfskWrite lib mft offset len buf env.plain := by
  unfold nfskWrite
  by_cases hlen : len = 0
  · simp only [if_pos hlen]
    rfl
  simp only [if_neg hlen]
  cases hopen : (withLog lib).inodeOpen mft env.clear with
  | mk env₁ oni =>
  have hopen' : lib.inodeOpen mft env.plain.clear = (env₁.plain, oni) := inodeOpen_plain hopen
  rw [hopen']
  cases oni with
  | none => rfl
  | some ni =>
  by_cases huser : mft < FILE_first_user
  · simp only [if_pos huser]
    rfl
  by_cases hrep : ni.reparsePoint = true
  · simp only [if_neg huser, if_pos hrep]
    rfl
  simp only [if_neg huser, if_neg hrep]
  cases hattr : (withLog lib).attrOpen ni env₁ with
  | mk env₂ ona =>
  rw [attrOpen_plain hattr]
  cases ona with
  | none => rfl
  | some na =>
  have hloop := writeLoop_withLog lib na offset.toInt64 len.toInt64 0 buf env₂
  dsimp only
  rw [← hloop]
  cases hw : writeLoop (withLog lib) na offset.toInt64 len.toInt64 0 buf env₂ with
  | mk env₃ res =>
  obtain ⟨total, err⟩ := res
  cases err with
  | some e => rfl
  | none =>
    by_cases hpos : 0 < total
    · simp only [if_pos hpos, plain_ite]
      rfl
    · simp only [if_neg hpos, plain_ite]
      rfl

theorem withLog_lawful (hL : LawfulData lib V) :
    LawfulData (withLog lib) fun t : τ × List DataEvent => V t.1 where
  inodeOpen h := hL.inodeOpen (inodeOpen_plain h)
  inodeOpen_none h := hL.inodeOpen_none (inodeOpen_plain h)
  inodeClose h := hL.inodeClose (inodeClose_plain h)
  attrOpen h := hL.attrOpen (attrOpen_plain h)
  attrOpen_none h := hL.attrOpen_none (attrOpen_plain h)
  attrClose na env := hL.attrClose na env.plain
  attrPread h := hL.attrPread (attrPread_plain h)
  attrPwrite h := hL.attrPwrite (attrPwrite_plain h)
  setArchive ni env := hL.setArchive ni env.plain
  inodeUpdateTimes ni w env := hL.inodeUpdateTimes ni w env.plain

/-- A write of the library has failed. -/
def WriteFailed (t : τ × List DataEvent) : Prop :=
  ∃ ni ret, DataEvent.write ni ret ∈ t.2 ∧ ret ≤ 0

theorem WriteFailed.append {s s' : τ} {log more : List DataEvent} (h : WriteFailed (s, log)) :
    WriteFailed (s', log ++ more) := by
  obtain ⟨ni, ret, hmem, hret⟩ := h
  exact ⟨ni, ret, List.mem_append_left more hmem, hret⟩

theorem withLog_marks : Marks (withLog lib) WriteFailed where
  attrPwrite {na off size buf env env' ret} h hret := by
    have hlog : ((withLog lib).attrPwrite na off size buf env).1.state.2 = env.state.2 ++
        [.write na.inode ((withLog lib).attrPwrite na off size buf env).2] := rfl
    rw [h] at hlog
    refine ⟨na.inode, ret, ?_, hret⟩
    rw [hlog]
    simp
  attrClose _ _ h := h.append
  inodeClose _ _ h := h.append

end Log

/-! ## The entry points -/

section Results

variable {lib : Libdata τ} {V : DataView τ} {d : DataStream} {mft offset len : UInt64}
  {buf : List UInt8} {env : Env τ}

/-- An empty log. -/
def Env.start (env : Env τ) : Env (τ × List DataEvent) := ⟨(env.state, []), env.errno⟩

/-- `nfsk_read` fails or has stored the bytes of the file that it counts, which are all there are
of those asked for. -/
def ReadTransfers (lib : Libdata τ) (noatime : Bool) (d : DataStream) (mft offset len : UInt64)
    (env : Env τ) : Prop :=
  (nfskRead lib noatime mft offset len env).2.1 < 0 ∨
    ((nfskRead lib noatime mft offset len env).2.1 = d.available offset.toNat len.toNat ∧
      (nfskRead lib noatime mft offset len env).2.2 =
        slice d.byte offset.toNat (d.available offset.toNat len.toNat))

/-- `nfsk_write` fails or has stored the bytes that it counts and changed nothing else, and it counts
fewer than it was given only if a write of the library failed (in the same run, by
`nfskWrite_withLog`). -/
def WriteTransfers (lib : Libdata τ) (V : DataView τ) (d : DataStream) (mft offset len : UInt64)
    (buf : List UInt8) (env : Env τ) : Prop :=
  (nfskWrite lib mft offset len buf env).2 < 0 ∨
    ((0 ≤ (nfskWrite lib mft offset len buf env).2 ∧
        (nfskWrite lib mft offset len buf env).2 ≤ len.toNat) ∧
      (∃ d', d.Patched offset.toNat (buf.take (nfskWrite lib mft offset len buf env).2.toNat) d' ∧
        V (nfskWrite lib mft offset len buf env).1.state =
          Function.update (V env.state) mft (some d')) ∧
      ((nfskWrite lib mft offset len buf env).2 < len.toNat →
        WriteFailed (nfskWrite (withLog lib) mft offset len buf env.start).1.state))

theorem nfskWrite_system (hL : LawfulData lib V) (hmft : mft < FILE_first_user) (hlen : len ≠ 0) :
    (nfskWrite lib mft offset len buf env).2 < 0 := by
  unfold nfskWrite
  rw [if_neg hlen]
  cases hopen : lib.inodeOpen mft env.clear with
  | mk env₁ oni =>
  cases oni with
  | none =>
    have herr := (hL.inodeOpen_none hopen).1
    show -env₁.errno < 0
    omega
  | some ni =>
    simp only [if_pos hmft]
    decide

/-- What was stored of a file that is not cut short is all that changed. -/
theorem Wrote.patched {D : UInt64 → Option DataStream} {r : UInt64} {offset count : Nat}
    (hcut : ¬ d.CutShort offset buf.length) (hcount : count ≤ buf.length)
    (h : Wrote V D r d offset buf count env) :
    ∃ d', d.Patched offset (buf.take count) d' ∧ V env.state = Function.update D r (some d') := by
  obtain ⟨d', hd', hV⟩ := h
  refine ⟨d', ?_, hV⟩
  by_cases hzero : count = 0
  · subst hzero
    have hsame := hd'.nothing List.take_zero
    rw [hsame]
    exact ⟨by simp, by rw [List.take_zero, overwrite_nil]⟩
  · refine hd'.patched fun hr => ?_
    rw [List.length_take_of_le hcount] at hr ⊢
    by_contra hlt
    have hn := hr.2.1
    exact hcut ⟨by omega, ⟨hr.1, by omega, hr.2.2⟩, by omega⟩

theorem nfskWrite_patches (hL : LawfulData lib V) (hd : V env.state mft = some d)
    (hbuf : buf.length = len.toNat) (hend : offset.toNat + len.toNat < 2 ^ 63)
    (hcut : ¬ (FILE_first_user ≤ mft ∧ d.CutShort offset.toNat len.toNat)) :
    WriteTransfers lib V d mft offset len buf env := by
  by_cases hsystem : mft < FILE_first_user ∧ len ≠ 0
  · exact Or.inl (nfskWrite_system hL hsystem.1 hsystem.2)
  have hwhole : ¬ d.CutShort offset.toNat buf.length := by
    rw [hbuf]
    intro hshort
    have hlen : len ≠ 0 := by
      rintro rfl
      exact absurd hshort.1 (by decide)
    exact hcut ⟨UInt64.not_lt.mp fun hlt => hsystem ⟨hlt, hlen⟩, hshort⟩
  have hplain := nfskWrite_withLog lib mft offset len buf env.start
  rw [show env.start.plain = env from rfl] at hplain
  unfold WriteTransfers
  rw [← hplain, ← hbuf]
  have hstart : (fun t : τ × List DataEvent => V t.1) env.start.state mft = some d := hd
  rcases nfskWrite_transfers (withLog_lawful hL) withLog_marks hstart hbuf hend hwhole with
    hneg | hrep
  · exact Or.inl hneg
  · have hcount := hrep.count
    exact Or.inr ⟨hcount, hrep.wrote.patched hwhole (by omega), hrep.failed⟩

end Results

/-! ## A library that obeys the laws -/

/-- One byte at a time. -/
def refLibdata : Libdata RefData where
  inodeOpen r env := (env, some ⟨r, false, false⟩)
  inodeClose _ env := (env, false)
  attrOpen ni env :=
    match env.state ni.mftNo with
    | some d =>
      if d.size < 2 ^ 63 then (env, some ⟨ni, Int64.ofNat d.size⟩)
      else (⟨env.state, EIO⟩, none)
    | none => (⟨env.state, ENOENT⟩, none)
  attrClose _ env := env
  attrPread na off _ env :=
    match env.state na.inode.mftNo with
    | some d => (env, 1, [d.byte off.toInt.toNat])
    | none => (⟨env.state, EIO⟩, -1, [])
  attrPwrite na off _ buf env :=
    match env.state na.inode.mftNo with
    | some d =>
      (⟨Function.update env.state na.inode.mftNo (some (d.write off.toInt.toNat (buf.take 1))),
        env.errno⟩, 1)
    | none => (⟨env.state, EIO⟩, -1)
  setArchive _ env := env
  inodeUpdateTimes _ _ env := env

theorem one_le_of_pos {x : Int64} (h : 0 < x) : 1 ≤ x := by
  have hpos := toInt_pos h
  rw [Int64.le_iff_toInt_le, show (1 : Int64).toInt = 1 from rfl]
  omega

theorem take_one_ne_nil {size : Int64} {buf : List UInt8} (hsize : 0 < size)
    (hlen : size.toInt = buf.length) : buf.take 1 ≠ [] := by
  have hpos := toInt_pos hsize
  intro hnil
  have hlen' := congrArg List.length hnil
  rw [List.length_take, List.length_nil] at hlen'
  omega

theorem refLibdata_lawful : LawfulData refLibdata refDataView where
  inodeOpen := by
    rintro r env env' ni h
    cases h
    exact ⟨rfl, rfl⟩
  inodeOpen_none := by
    rintro r env env' h
    cases h
  inodeClose := by
    rintro ni env env' fails h
    cases h
    exact ⟨nofun, rfl⟩
  attrOpen := by
    intro ni env env' na d h hd
    have hstate : env.state ni.mftNo = some d := hd
    simp only [refLibdata, hstate] at h
    by_cases hsize : d.size < 2 ^ 63
    · rw [if_pos hsize] at h
      cases h
      exact ⟨⟨rfl, Int64.toInt_ofNat_of_lt hsize⟩, rfl⟩
    · rw [if_neg hsize] at h
      cases h
  attrOpen_none := by
    intro ni env env' h
    simp only [refLibdata] at h
    split at h
    · split at h
      · cases h
      · cases h
        exact ⟨EIO_pos, rfl⟩
    · cases h
      exact ⟨ENOENT_pos, rfl⟩
  attrClose _ _ := rfl
  attrPread := by
    intro na off size env env' ret bytes d h hd _ hsize _
    have hstate : env.state na.inode.mftNo = some d := hd
    simp only [refLibdata, hstate] at h
    cases h
    exact ⟨Or.inr ⟨⟨by decide, one_le_of_pos hsize⟩, rfl⟩, rfl⟩
  attrPwrite := by
    intro na off size buf env env' ret d h hd _ hsize hlen
    have hstate : env.state na.inode.mftNo = some d := hd
    simp only [refLibdata, hstate] at h
    cases h
    have hne := take_one_ne_nil hsize hlen
    exact ⟨Or.inr ⟨by decide, one_le_of_pos hsize⟩, _, fun _ => d.write_stored _ hne, rfl⟩
  setArchive _ _ := rfl
  inodeUpdateTimes _ _ _ := rfl

/-! ### A write that is cut short -/

/-- One byte is stored of `buf`. A write that may cut the stream has done so if it ended early. -/
def DataStream.shortWrite (d : DataStream) (off : Nat) (buf : List UInt8) : DataStream :=
  if d.Ragged (off + buf.length) ∧ off + 1 ≤ d.initialized then
    (d.write off (buf.take 1)).truncate d.initialized
  else d.write off (buf.take 1)

/-- One byte is written at `start`, and nothing elsewhere. -/
def refLibshort (start : Int64) : Libdata RefData :=
  { refLibdata with
    attrPwrite := fun na off _ buf env =>
      match env.state na.inode.mftNo with
      | some d =>
        if off = start then
          (⟨Function.update env.state na.inode.mftNo (some (d.shortWrite off.toInt.toNat buf)),
            env.errno⟩, 1)
        else (⟨env.state, EIO⟩, -1)
      | none => (⟨env.state, EIO⟩, -1) }

theorem refLibshort_lawful (start : Int64) : LawfulData (refLibshort start) refDataView where
  inodeOpen := refLibdata_lawful.inodeOpen
  inodeOpen_none := refLibdata_lawful.inodeOpen_none
  inodeClose := by
    rintro ni env env' fails h
    cases h
    exact ⟨nofun, rfl⟩
  attrOpen := refLibdata_lawful.attrOpen
  attrOpen_none := refLibdata_lawful.attrOpen_none
  attrClose := refLibdata_lawful.attrClose
  attrPread := refLibdata_lawful.attrPread
  attrPwrite := by
    intro na off size buf env env' ret d h hd _ hsize hlen
    have hstate : env.state na.inode.mftNo = some d := hd
    simp only [refLibshort, hstate] at h
    by_cases hstart : off = start
    · rw [if_pos hstart] at h
      cases h
      refine ⟨Or.inr ⟨by decide, one_le_of_pos hsize⟩, _, fun hrag => ?_, rfl⟩
      have hwhole : ¬ (d.Ragged (off.toInt.toNat + buf.length) ∧ off.toInt.toNat + 1 ≤ d.initialized) :=
        fun hcut => absurd (hrag hcut.1).2 (Nat.not_lt.mpr hcut.2)
      rw [DataStream.shortWrite, if_neg hwhole]
      exact d.write_stored _ (take_one_ne_nil hsize hlen)
    · rw [if_neg hstart] at h
      cases h
      refine ⟨Or.inl ⟨by decide, EIO_pos⟩, d, fun _ => .refl d _, ?_⟩
      exact (Function.update_eq_self_iff.mpr hstate.symm).symm
  setArchive := refLibdata_lawful.setArchive
  inodeUpdateTimes := refLibdata_lawful.inodeUpdateTimes

theorem shortLoop {na : NtfsAttr} {start size : Int64} {buf : List UInt8} {d : DataStream}
    {env : Env RefData} (hsize : 0 < size) (hd : env.state na.inode.mftNo = some d) :
    (writeLoop (refLibshort start) na start size 0 buf env).2.1 = 1 ∧
      (writeLoop (refLibshort start) na start size 0 buf env).1.state =
        Function.update env.state na.inode.mftNo (some (d.shortWrite start.toInt.toNat buf)) := by
  have hone : ¬ (1 : Int64) ≤ 0 := by decide
  have hneg : (-1 : Int64) ≤ 0 := by decide
  have hnext : ¬ start + 1 = start := fun h => absurd (Int64.add_eq_left.mp h) (by decide)
  have hstart : buf.drop (0 : Int64).toInt.toNat = buf := rfl
  rw [writeLoop, dif_pos hsize]
  simp only [refLibshort, hd, if_true, hone, dif_neg, not_false_eq_true, hstart]
  rw [writeLoop]
  by_cases hrest : 0 < size - 1
  · rw [dif_pos hrest]
    simp only [Function.update_self, if_neg hnext, hneg, dif_pos]
    exact ⟨rfl, trivial⟩
  · rw [dif_neg hrest]
    exact ⟨rfl, rfl⟩

theorem nfskWrite_short {d : DataStream} {mft offset len : UInt64} {buf : List UInt8}
    {env : Env RefData} (hd : env.state mft = some d) (hsize : d.size < 2 ^ 63)
    (hmft : FILE_first_user ≤ mft) (hlen : 0 < len.toNat) (hend : offset.toNat + len.toNat < 2 ^ 63) :
    (nfskWrite (refLibshort offset.toInt64) mft offset len buf env).2 = 1 ∧
      (nfskWrite (refLibshort offset.toInt64) mft offset len buf env).1.state =
        Function.update env.state mft (some (d.shortWrite offset.toNat buf)) := by
  have hzero : ¬ len = 0 := by
    rintro rfl
    exact absurd hlen (by decide)
  have hoff : offset.toInt64.toInt = offset.toNat := Shim.toInt_toInt64 (by omega)
  have hpos : 0 < len.toInt64 := by
    rw [Int64.lt_iff_toInt_lt, Shim.toInt_toInt64 (by omega), Int64.toInt_zero]
    omega
  have hopen : (refLibshort offset.toInt64).inodeOpen mft env.clear =
      (env.clear, some ⟨mft, false, false⟩) := rfl
  have hattr : (refLibshort offset.toInt64).attrOpen ⟨mft, false, false⟩ env.clear =
      (env.clear, some ⟨⟨mft, false, false⟩, Int64.ofNat d.size⟩) := by
    have hstate : env.clear.state mft = some d := hd
    simp only [refLibshort, refLibdata, hstate, if_pos hsize]
  have hloop := @shortLoop ⟨⟨mft, false, false⟩, Int64.ofNat d.size⟩ offset.toInt64 len.toInt64 buf d
    env.clear hpos hd
  have hone : (0 : Int64) < 1 := by decide
  have hint : (1 : Int64).toInt = 1 := rfl
  rw [hoff, Int.toNat_natCast] at hloop
  unfold nfskWrite
  rw [if_neg hzero, hopen]
  simp only [if_neg (UInt64.not_lt.mpr hmft), Bool.false_eq_true, if_false, hattr]
  cases hw : writeLoop (refLibshort offset.toInt64) ⟨⟨mft, false, false⟩, Int64.ofNat d.size⟩
      offset.toInt64 len.toInt64 0 buf env.clear with
  | mk env₁ res =>
  obtain ⟨total, err⟩ := res
  rw [hw] at hloop
  obtain ⟨htotal, hstate⟩ := hloop
  simp only at htotal
  subst htotal
  cases err with
  | some e =>
    simp only [if_pos hone]
    exact ⟨hint, hstate⟩
  | none =>
    simp only [if_pos hone]
    exact ⟨hint, hstate⟩

/-- The byte that was stored cuts the file, wherever the write is cut short. -/
theorem shortWrite_size {d : DataStream} {off : Nat} {buf : List UInt8}
    (h : d.CutShort off buf.length) : (d.shortWrite off buf).size < d.size := by
  obtain ⟨hlen, hrag, hin⟩ := h
  have hone : (buf.take 1).length = 1 := List.length_take_of_le hlen
  unfold DataStream.shortWrite
  by_cases hpast : d.Ragged (off + buf.length) ∧ off + 1 ≤ d.initialized
  · rw [if_pos hpast]
    exact hrag.2.2
  · have hlt : d.initialized < off + 1 := Nat.not_le.mp fun hle => hpast ⟨hrag, hle⟩
    have hsize : (d.write off (buf.take 1)).size = d.sizeAfter (off + (buf.take 1).length) := rfl
    rw [if_neg hpast, hsize, hone, DataStream.sizeAfter, if_pos ⟨hrag.1, hlt⟩]
    exact hin

theorem short_not_transfers {d : DataStream} {mft offset len : UInt64} {buf : List UInt8}
    {env : Env RefData} (hd : env.state mft = some d) (hsize : d.size < 2 ^ 63)
    (hmft : FILE_first_user ≤ mft) (hbuf : buf.length = len.toNat)
    (hend : offset.toNat + len.toNat < 2 ^ 63) (hcut : d.CutShort offset.toNat len.toNat) :
    ¬ WriteTransfers (refLibshort offset.toInt64) refDataView d mft offset len buf env := by
  obtain ⟨hret, hstate⟩ := @nfskWrite_short d mft offset len buf env hd hsize hmft hcut.1 hend
  rw [← hbuf] at hcut
  have hshort := shortWrite_size hcut
  unfold WriteTransfers
  rw [hret]
  rintro (hneg | ⟨_, ⟨d', hd', hV⟩, _⟩)
  · exact absurd hneg (by decide)
  · have hsame : Function.update env.state mft (some (d.shortWrite offset.toNat buf)) =
        Function.update env.state mft (some d') := hstate.symm.trans hV
    have heq := congrFun hsame mft
    rw [Function.update_self, Function.update_self] at heq
    have hlast := hd'.size
    have hone : (buf.take (1 : Int).toNat).length = 1 := List.length_take_of_le hcut.1
    rw [← Option.some.inj heq, hone] at hlast
    split at hlast <;> omega

/-! ### When the entry points transfer what they report -/

/-- Whatever the library does, a read transfers what it reports, and so does a write, unless it may cut
a compressed file: one that was not written to its end, and is to be past what was. -/
theorem transfers_iff {d : DataStream} (hsize : d.size < 2 ^ 63) {mft offset len : UInt64}
    {buf : List UInt8} (hbuf : buf.length = len.toNat) (hend : offset.toNat + len.toNat < 2 ^ 63) :
    (∀ (τ : Type) (lib : Libdata τ) (V : DataView τ) (noatime : Bool) (env : Env τ),
      LawfulData lib V → V env.state mft = some d → ReadTransfers lib noatime d mft offset len env) ∧
    ((∀ (τ : Type) (lib : Libdata τ) (V : DataView τ) (env : Env τ),
      LawfulData lib V → V env.state mft = some d → WriteTransfers lib V d mft offset len buf env) ↔
      ¬ (FILE_first_user ≤ mft ∧ d.CutShort offset.toNat len.toNat)) := by
  refine ⟨fun τ lib V noatime env hL hd => nfskRead_transfers noatime hL hd hend, ?_, ?_⟩
  · rintro hall ⟨hmft, hcut⟩
    have hstart : (Env.mk (fun _ => some d) 0 : Env RefData).state mft = some d := rfl
    exact short_not_transfers hstart hsize hmft hbuf hend hcut
      (hall RefData (refLibshort offset.toInt64) refDataView _ (refLibshort_lawful _) rfl)
  · intro hcut τ lib V env hL hd
    exact nfskWrite_patches hL hd hbuf hend hcut

/-- A write that stays in what was written before. -/
theorem transfers_inside :
    WriteTransfers refLibdata refDataView sparseStream 20 0 2 [7, 7] ⟨fun _ => some sparseStream, 0⟩ :=
  (transfers_iff (by decide) rfl (by decide)).2.mpr (by decide) RefData refLibdata refDataView _
    refLibdata_lawful rfl

/-- A byte stored beyond it cuts the file. -/
theorem write_cuts : LawfulData (refLibshort 49) refDataView ∧
    (nfskWrite (refLibshort 49) 20 49 1 [7] ⟨fun _ => some sparseStream, 0⟩).2 = 1 ∧
    ((nfskWrite (refLibshort 49) 20 49 1 [7] ⟨fun _ => some sparseStream, 0⟩).1.state 20).map
      DataStream.size = some 50 ∧
    ¬ WriteTransfers (refLibshort 49) refDataView sparseStream 20 49 1 [7]
      ⟨fun _ => some sparseStream, 0⟩ := by
  have hd : (Env.mk (fun _ => some sparseStream) 0 : Env RefData).state 20 = some sparseStream := rfl
  obtain ⟨hret, hstate⟩ := @nfskWrite_short sparseStream 20 49 1 [7] ⟨fun _ => some sparseStream, 0⟩
    hd (by decide) (by decide) (by decide) (by decide)
  refine ⟨refLibshort_lawful 49, hret, ?_, ?_⟩
  · exact (congrArg (fun s => (s 20).map DataStream.size) hstate).trans rfl
  · exact @short_not_transfers sparseStream 20 49 1 [7] _ hd (by decide) (by decide) rfl (by decide)
      (by decide)

end Ntfs
end Usbrw
