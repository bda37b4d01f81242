import Usbrw.Base.FlatFile
import Usbrw.Ntfs.Transfer

/-!
# Ntfs.FlatFiles

Runs of `nfsk_read`, `nfsk_write` and `nfsk_truncate` on the files of a volume, as runs on files
that are nothing but their bytes.

* `Libfile`, `fileStep` — the library for both, and a call with what it tells its caller.
* `LawfulFile`          — a call that sets the size touches one record's data.
* `nfskRead_keeps`, `nfskWrite_failed`, `nfskTruncate_elsewhere` — what the calls leave alone.
* `files_refine`        — every answer of a run is the one of flat files.
-/

namespace Usbrw
namespace Ntfs

open Call Region Run Service FlatFile

variable {τ : Type}

/-! ## What a call leaves alone -/

section Frames

variable {lib : Libdata τ} {V : DataView τ} {na : NtfsAttr} {d : DataStream}

theorem readLoop_keeps (hL : LawfulData lib V) (off size total : Int64) (out : List UInt8)
    (env : Env τ) (hd : V env.state na.inode.mftNo = some d) (hoff : 0 ≤ off.toInt)
    (htotal : 0 ≤ total.toInt) (hin : off.toInt + size.toInt ≤ d.size)
    (hend : off.toInt + size.toInt < 2 ^ 63) (hall : total.toInt + size.toInt < 2 ^ 63) :
    V (readLoop lib na off size total out env).1.state = V env.state := by
  fun_induction readLoop lib na off size total out env with
  | case1 off size total out env hpos env' ret bs hread hret =>
    exact (hL.attrPread hread hd hoff hpos hin).2
  | case2 off size total out env hpos env' ret bs hread hret hlt =>
    exact (hL.attrPread hread hd hoff hpos hin).2
  | case3 off size total out env hpos env' ret bs hread hret hlt ih =>
    obtain ⟨_, hsame⟩ := hL.attrPread hread hd hoff hpos hin
    have hle : ret ≤ size := Int64.not_lt.mp hlt
    have hadv := advance (Int64.not_le.mp hret) hle hoff htotal hend hall
    have h1 := toInt_pos (Int64.not_le.mp hret)
    rw [hadv.off, hadv.size, hadv.total, hsame] at ih
    exact ih hd (by omega) (by omega) (by omega) (by omega) (by omega)
  | case4 off size total out env hpos => rfl

theorem readAttr_keeps (hL : LawfulData lib V) (noatime : Bool) (ni : NtfsInode) {off size : Int64}
    {env : Env τ} (hd : V env.state na.inode.mftNo = some d) (hdata : na.dataSize.toInt = d.size)
    (hoff : 0 ≤ off.toInt) (hsize : 0 ≤ size.toInt) (hend : off.toInt + size.toInt < 2 ^ 63) :
    V (readAttr lib noatime ni na off size env).1.state = V env.state := by
  unfold readAttr
  by_cases hlt : off < na.dataSize
  · have hlt' := Int64.lt_iff_toInt_lt.mp hlt
    have hbound := na.dataSize.toInt_lt
    have hclip : off.toInt + (clipped na off size).toInt ≤ d.size ∧
        (clipped na off size).toInt ≤ size.toInt := by
      have hsum : (off + size).toInt = off.toInt + size.toInt := toInt_add_of_lt hoff hsize hend
      unfold clipped
      by_cases hover : na.dataSize < off + size
      · have hover' := Int64.lt_iff_toInt_lt.mp hover
        rw [if_pos hover, Int64.toInt_sub, Int.bmod_eq_of_le (by omega) (by omega)]
        omega
      · have hover' := toInt_le (Int64.not_lt.mp hover)
        rw [if_neg hover]
        omega
    have hzero : (0 : Int64).toInt = 0 := rfl
    have hloop := readLoop_keeps hL off (clipped na off size) 0 [] env hd hoff (by omega) hclip.1
      (by omega) (by omega)
    rw [if_pos hlt]
    cases hr : readLoop lib na off (clipped na off size) 0 [] env with
    | mk env' res =>
    rw [hr] at hloop
    cases res with
    | error e => exact hloop
    | ok p =>
      simp only
      split
      · rw [hL.inodeUpdateTimes]
        exact hloop
      · exact hloop
  · rw [if_neg hlt]

/-- A read changes no file, whether it succeeds or not. -/
theorem nfskRead_keeps (hL : LawfulData lib V) (noatime : Bool) {mft offset len : UInt64}
    {env : Env τ} (hd : V env.state mft = some d) (hend : offset.toNat + len.toNat < 2 ^ 63) :
    V (nfskRead lib noatime mft offset len env).1.state = V env.state := by
  have hoff : offset.toInt64.toInt = offset.toNat := Shim.toInt_toInt64 (by omega)
  have hlen : len.toInt64.toInt = len.toNat := Shim.toInt_toInt64 (by omega)
  unfold nfskRead
  by_cases hzero : len = 0
  · rw [if_pos hzero]
    rfl
  rw [if_neg hzero]
  cases hopen : lib.inodeOpen mft env.clear with
  | mk env₁ oni =>
  cases oni with
  | none => exact (hL.inodeOpen_none hopen).2
  | some ni =>
  obtain ⟨hmft, hsame₁⟩ := hL.inodeOpen hopen
  by_cases hrep : ni.reparsePoint = true
  · simp only [hrep, if_true]
    exact (hL.inodeClose rfl).2.trans hsame₁
  simp only [if_neg hrep]
  cases hattr : lib.attrOpen ni env₁ with
  | mk env₂ ona =>
  cases ona with
  | none => exact (hL.inodeClose rfl).2.trans ((hL.attrOpen_none hattr).2.trans hsame₁)
  | some na =>
  have hd₁ : V env₁.state ni.mftNo = some d := by rw [hsame₁, hmft]; exact hd
  obtain ⟨⟨hinode, hsize⟩, hsame₂⟩ := hL.attrOpen hattr hd₁
  have hd₂ : V env₂.state na.inode.mftNo = some d := by rw [hsame₂, hinode]; exact hd₁
  have hread := readAttr_keeps hL noatime ni hd₂ hsize (show 0 ≤ offset.toInt64.toInt by omega)
    (show 0 ≤ len.toInt64.toInt by omega) (by omega)
  have hclosed : ∀ env₃, V env₃.state = V env₂.state →
      V (lib.inodeClose ni (lib.attrClose na env₃)).1.state = V env.state := by
    intro env₃ hsame₃
    rw [(hL.inodeClose rfl).2, hL.attrClose, hsame₃, hsame₂, hsame₁]
    rfl
  cases hr : readAttr lib noatime ni na offset.toInt64 len.toInt64 env₂ with
  | mk env₃ res =>
  rw [hr] at hread
  cases res with
  | error e =>
    simp only [hr]
    exact hclosed env₃ hread
  | ok p =>
    obtain ⟨total, out⟩ := p
    simp only [hr]
    split
    · exact hclosed env₃ hread
    · exact hclosed env₃ hread

/-- A write that fails has changed no file that it could not cut. -/
theorem nfskWrite_failed (hL : LawfulData lib V) {mft offset len : UInt64} {buf : List UInt8}
    {env : Env τ} (hd : V env.state mft = some d) (hbuf : buf.length = len.toNat)
    (hend : offset.toNat + len.toNat < 2 ^ 63) (hwhole : ¬ d.Ragged (offset.toNat + buf.length))
    (hneg : (nfskWrite lib mft offset len buf env).2 < 0) :
    V (nfskWrite lib mft offset len buf env).1.state = V env.state := by
  have hmarks : Marks lib fun _ => True :=
    ⟨fun _ _ => trivial, fun _ _ _ => trivial, fun _ _ _ => trivial⟩
  have hzero : (0 : Int64).toInt = 0 := rfl
  have hcut : ¬ d.CutShort offset.toNat buf.length := fun hcut => hwhole hcut.2.1
  have hends := nfskWrite_ends lib mft offset len buf env
  have hnone : ∀ {env' : Env τ}, Wrote V (V env.state) mft d offset.toNat buf 0 env' →
      V env'.state = V env.state := by
    rintro env' ⟨d', hd', hV⟩
    rw [hd'.nothing List.take_zero] at hV
    rw [hV, ← hd, Function.update_eq_self]
  generalize nfskWrite lib mft offset len buf env = res at hends hneg ⊢
  cases hends with
  | nothing _ => rfl
  | unopened hopen => exact (hL.inodeOpen_none hopen).2
  | refused hopen _ => exact (hL.inodeClose rfl).2.trans (hL.inodeOpen hopen).2
  | noData hopen hattr =>
    exact (hL.inodeClose rfl).2.trans ((hL.attrOpen_none hattr).2.trans (hL.inodeOpen hopen).2)
  | @cutShort env₁ env₂ env₃ ni na total e hopen hattr hloop =>
    have hspec := writeLoop_opened hL hmarks hd hbuf hend hcut hopen hattr
    rw [hloop] at hspec
    have htotal : total.toInt = 0 := by
      have hle := hspec.total.1
      by_cases hpos : 0 < total
      · rw [if_pos hpos] at hneg
        simp only at hneg hle
        omega
      · have hle' := toInt_le (Int64.not_lt.mp hpos)
        simp only at hle
        omega
    have hwrote := hspec.wrote fun hr => absurd hr hwhole
    simp only [htotal] at hwrote
    rw [(hL.inodeClose rfl).2, hL.attrClose]
    exact hnone hwrote
  | @stored env₁ env₂ env₃ env₄ ni na total fails hopen hattr hloop hclose =>
    have hspec := writeLoop_opened hL hmarks hd hbuf hend hcut hopen hattr
    rw [hloop] at hspec
    have htotal : total.toInt = 0 := by
      have hle := hspec.total.1
      by_cases hfails : fails = true ∧ total = 0
      · rw [hfails.2]
        rfl
      · rw [if_neg hfails] at hneg
        simp only at hneg hle
        omega
    have hwrote := hspec.wrote fun hr => absurd hr hwhole
    simp only [htotal] at hwrote
    have hsame : V env₄.state = V env₃.state := by
      rw [(hL.inodeClose hclose).2, ← hL.attrClose na env₃]
      split
      · rw [hL.inodeUpdateTimes, hL.setArchive]
      · rfl
    rw [show (env₄, if fails = true ∧ total = 0 then -env₄.errno else total.toInt).1 = env₄ from rfl,
      hsame]
    exact hnone hwrote

end Frames

/-! ## Setting the size -/

/-- All streams but that of `r` are as in `D`. -/
def Elsewhere (V : DataView τ) (D : UInt64 → Option DataStream) (r : UInt64) (s : τ) : Prop :=
  ∃ o, V s = Function.update D r o

/-- The calls of the library for the data of files. -/
structure Libfile (τ : Type) where
  data : Libdata τ
  setattr : Libsetattr τ

/-- Both kinds of calls act on the same data, and whatever becomes of a call that sets the size, no
other record has to do with it. -/
structure LawfulFile (lib : Libfile τ) (V : DataView τ) : Prop where
  data : LawfulData lib.data V
  setattr : LawfulSetattr lib.setattr V
  inodeOpen : ∀ D r r', Spec (Elsewhere V D r) (lib.setattr.inodeOpen r')
    (fun ni s => ni.mftNo = r' ∧ Elsewhere V D r s) fun _ => Elsewhere V D r
  inodeClose : ∀ D r ni, Keeps (Elsewhere V D r) (lib.setattr.inodeClose ni)
  inodeUpdateTimes : ∀ D r ni w s, Elsewhere V D r s →
    Elsewhere V D r (lib.setattr.inodeUpdateTimes ni w s)
  setFlags : ∀ D r ni f s, Elsewhere V D r s → Elsewhere V D r (lib.setattr.setFlags ni f s)
  attrOpen : ∀ D r ni, Spec (Elsewhere V D r) (lib.setattr.attrOpen ni)
    (fun na s => na.inode = ni ∧ Elsewhere V D r s) fun _ => Elsewhere V D r
  attrClose : ∀ D r na s, Elsewhere V D r s → Elsewhere V D r (lib.setattr.attrClose na s)
  attrTruncate : ∀ D na n, Keeps (Elsewhere V D na.inode.mftNo) (lib.setattr.attrTruncate na n)
  attrPwrite : ∀ D na pos bytes,
    Keeps (Elsewhere V D na.inode.mftNo) (lib.setattr.attrPwrite na pos bytes)

section Truncate

variable {lib : Libfile τ} {V : DataView τ} {D : UInt64 → Option DataStream} {mft newsize : UInt64}
  {d : DataStream} {ni : NtfsInode}

theorem resizeAttr_elsewhere (hL : LawfulFile lib V) (na : DataAttr) (n : Int64) :
    Keeps (Elsewhere V D na.inode.mftNo) (resizeAttr lib.setattr na n) := by
  unfold resizeAttr
  refine Keeps.ite (fun _ => ?_) fun _ => (hL.attrTruncate D na n).orFail _
  refine ((hL.attrPwrite D na (n - 1) [0]).orFail _).bind fun ret => Keeps.ite (fun _ => ?_) fun _ => ?_
  · exact fun s hs => hs
  · exact Keeps.pure ()

theorem setSize_elsewhere (hL : LawfulFile lib V) (n : Int64) :
    Keeps (Elsewhere V D ni.mftNo) (setSize lib.setattr mft ni n) := by
  unfold setSize
  refine Keeps.ite (fun _ => Keeps.throw _) fun _ => Keeps.ite (fun _ => Keeps.throw _) fun _ => ?_
  refine Spec.bind_orFail (hL.attrOpen D ni.mftNo ni) (fun _ _ hs => hs) fun na => Spec.assume ?_
  rintro rfl
  refine Keeps.bind (Keeps.afterwards (resizeAttr_elsewhere hL na n)
    (Keeps.modify fun s hs => hL.attrClose D _ na s hs)) fun _ => ?_
  refine Keeps.bind (Keeps.modify fun s hs => ?_) fun _ => Keeps.modify fun s hs =>
    hL.inodeUpdateTimes D _ na.inode .mctime s hs
  split
  · exact hL.setFlags D _ na.inode _ s hs
  · exact hs

theorem nfskTruncate_elsewhere (hL : LawfulFile lib V) (mft newsize : UInt64) :
    Keeps (Elsewhere V D mft) (nfskTruncateImpl lib.setattr mft newsize) := by
  unfold nfskTruncateImpl nfskSetattrImpl
  refine Keeps.ite (fun _ => Keeps.throw _) fun _ => ?_
  refine Spec.bind_orFail (hL.inodeOpen D mft mft) (fun _ _ hs => hs) fun ni => Spec.assume ?_
  rintro rfl
  have hclose := hL.inodeClose D ni.mftNo ni
  refine Keeps.bind (Keeps.onFail ?_ hclose) fun _ => (hclose.orFail _).bind fun _ => Keeps.pure _
  have hsize : (8 : UInt32) &&& 8 ≠ 0 := by decide
  have hhidden : ¬ (8 : UInt32) &&& 32 ≠ 0 := by decide
  unfold setattrBody
  rw [if_pos hsize, if_neg hhidden]
  refine Keeps.bind (setSize_elsewhere hL _) fun _ => ?_
  exact Keeps.bind (Keeps.modify fun s hs => hs) fun _ => Keeps.pure ()

/-- A size that is set is the new size, and nothing else changes. -/
theorem nfskTruncate_resizes (hL : LawfulFile lib V) {s s' : τ} (hd : V s mft = some d)
    (hn : newsize.toNat < 2 ^ 63) (hrun : nfskTruncateImpl lib.setattr mft newsize s = .ok () s') :
    ∃ d', d.Resized newsize.toNat d' ∧ V s' = Function.update (V s) mft (some d') := by
  have hsize : (8 : UInt32) &&& 8 ≠ 0 := by decide
  obtain ⟨d', hd', hres⟩ := nfskSetattr_sizeSet hL.setattr hd hn hsize hrun
  have hstart : Elsewhere V (V s) mft s := ⟨V s mft, (Function.update_eq_self mft (V s)).symm⟩
  obtain ⟨o, ho⟩ := (nfskTruncate_elsewhere hL mft newsize).ok hstart hrun
  rw [ho, Function.update_self] at hd'
  exact ⟨d', hres, by rw [ho, hd']⟩

end Truncate

/-! ## Runs -/

inductive DataRequest where
  | read (mft offset len : UInt64)
  | write (mft offset : UInt64) (buf : List UInt8)
  | truncate (mft newsize : UInt64)

/-- The call as a request to files that are their bytes. -/
def DataRequest.request : DataRequest → FlatFile.Request UInt64 UInt8
  | .read mft offset len => .read mft offset.toNat len.toNat
  | .write mft offset buf => .write mft offset.toNat buf
  | .truncate mft newsize => .resize mft newsize.toNat

/-- A call, and what it tells its caller. Every call clears `errno` first. -/
def fileStep (lib : Libfile τ) (noatime : Bool) (env : Env τ) : DataRequest → Env τ × Reply UInt8
  | .read mft offset len =>
    let res := nfskRead lib.data noatime mft offset len env
    (res.1, if res.2.1 < 0 then .failed else .cells res.2.2)
  | .write mft offset buf =>
    let res := nfskWrite lib.data mft offset (UInt64.ofNat buf.length) buf env
    (res.1, if res.2 < 0 then .failed else .count res.2.toNat)
  | .truncate mft newsize =>
    match nfskTruncateImpl lib.setattr mft newsize env.state with
    | .ok () s => ({ env with state := s }, .done)
    | .error _ s => ({ env with state := s }, .failed)

/-- The bytes of a file. -/
def DataStream.content (d : DataStream) : List UInt8 := slice d.byte 0 d.size

def DataView.store (V : DataView τ) (env : Env τ) : Store UInt64 UInt8 :=
  fun r => (V env.state r).map DataStream.content

/-- The record has data, the request ends below 2^63, and no write ends in or past what was never
written of a compressed stream. -/
def InRange (V : DataView τ) (env : Env τ) : DataRequest → Prop
  | .read mft offset len =>
    (∃ d, V env.state mft = some d) ∧ offset.toNat + len.toNat < 2 ^ 63
  | .write mft offset buf =>
    offset.toNat + buf.length < 2 ^ 63 ∧
      ∃ d, V env.state mft = some d ∧ ¬ d.Ragged (offset.toNat + buf.length)
  | .truncate mft newsize => (∃ d, V env.state mft = some d) ∧ newsize.toNat < 2 ^ 63

/-- What may be answered to a call, by flat files. -/
def Answered (fs : Store UInt64 UInt8) (c : DataRequest) (r : Reply UInt8) (fs' : Store UInt64 UInt8) :
    Prop :=
  Files 0 fs c.request r fs'

section Refinement

variable {lib : Libfile τ} {V : DataView τ} {d d' : DataStream} {env : Env τ}

theorem store_of_same {env' : Env τ} (h : V env'.state = V env.state) :
    V.store env' = V.store env := by
  unfold DataView.store
  rw [h]

theorem store_of_update (env' : Env τ) {r : UInt64} {o : Option DataStream}
    (h : V env'.state = Function.update (V env.state) r o) :
    V.store env' = Function.update (V.store env) r (o.map DataStream.content) := by
  funext x
  unfold DataView.store
  rw [h]
  by_cases hx : x = r
  · rw [hx, Function.update_self, Function.update_self]
  · rw [Function.update_of_ne hx, Function.update_of_ne hx]

theorem content_of_patched {pos : Nat} {xs : List UInt8} (h : d.Patched pos xs d') :
    d'.content = FlatFile.write 0 d.content pos xs := by
  unfold DataStream.content
  by_cases hxs : xs = []
  · rw [h.size, h.byte, if_pos hxs, hxs, overwrite_nil, FlatFile.write, if_pos rfl]
  · rw [h.size, h.byte, if_neg hxs]
    exact write_slice hxs fun p hp => d.zero_of_size_le hp

theorem content_of_resized {n : Nat} (h : d.Resized n d') :
    d'.content = FlatFile.resize 0 d.content n := by
  unfold DataStream.content
  rw [h.size]
  exact resize_slice (fun p h1 h2 => h.kept p (by omega)) h.grown

theorem read_answered (hL : LawfulFile lib V) (noatime : Bool) {mft offset len : UInt64}
    (hd : V env.state mft = some d) (hend : offset.toNat + len.toNat < 2 ^ 63) :
    let c := DataRequest.read mft offset len
    Answered (V.store env) c (fileStep lib noatime env c).2 (V.store (fileStep lib noatime env c).1) := by
  intro c
  have hstore : V.store env mft = some d.content := congrArg (Option.map _) hd
  have hsame : V.store (fileStep lib noatime env c).1 = V.store env :=
    store_of_same (nfskRead_keeps hL.data noatime hd hend)
  rw [hsame]
  simp only [c, fileStep]
  by_cases hneg : (nfskRead lib.data noatime mft offset len env).2.1 < 0
  · rw [if_pos hneg]
    exact .readFailed mft offset.toNat len.toNat
  · rw [if_neg hneg]
    obtain ⟨_, hbytes⟩ := (nfskRead_transfers noatime hL.data hd hend).resolve_left hneg
    rw [hbytes, DataStream.available, ← read_slice]
    exact .read offset.toNat len.toNat hstore

theorem write_answered (hL : LawfulFile lib V) (noatime : Bool) {mft offset : UInt64}
    {buf : List UInt8} (hd : V env.state mft = some d) (hend : offset.toNat + buf.length < 2 ^ 63)
    (hwhole : ¬ d.Ragged (offset.toNat + buf.length)) :
    let c := DataRequest.write mft offset buf
    Answered (V.store env) c (fileStep lib noatime env c).2 (V.store (fileStep lib noatime env c).1) := by
  intro c
  have hstore : V.store env mft = some d.content := congrArg (Option.map _) hd
  have hlen : buf.length = (UInt64.ofNat buf.length).toNat := by
    rw [UInt64.toNat_ofNat', Nat.mod_eq_of_lt (by omega)]
  have hmarks : Marks lib.data fun _ => True :=
    ⟨fun _ _ => trivial, fun _ _ _ => trivial, fun _ _ _ => trivial⟩
  simp only [c, fileStep]
  by_cases hneg : (nfskWrite lib.data mft offset (UInt64.ofNat buf.length) buf env).2 < 0
  · rw [if_pos hneg, store_of_same (nfskWrite_failed hL.data hd hlen (by omega) hwhole hneg)]
    exact .writeFailed mft offset.toNat buf
  · rw [if_neg hneg]
    have hcut : ¬ d.CutShort offset.toNat buf.length := fun hcut => hwhole hcut.2.1
    have hrep := (nfskWrite_transfers hL.data hmarks hd hlen (by omega) hcut).resolve_left hneg
    have hcount := hrep.count
    obtain ⟨d', hd', hV⟩ := hrep.wrote.patched hcut (by omega)
    rw [store_of_update _ hV, Option.map_some, content_of_patched hd']
    exact .write offset.toNat hstore (by omega)

theorem truncate_answered (hL : LawfulFile lib V) (noatime : Bool) {mft newsize : UInt64}
    (hd : V env.state mft = some d) (hn : newsize.toNat < 2 ^ 63) :
    let c := DataRequest.truncate mft newsize
    Answered (V.store env) c (fileStep lib noatime env c).2 (V.store (fileStep lib noatime env c).1) := by
  intro c
  have hstore : V.store env mft = some d.content := congrArg (Option.map _) hd
  have hstart : Elsewhere V (V env.state) mft env.state :=
    ⟨V env.state mft, (Function.update_eq_self mft _).symm⟩
  cases hrun : nfskTruncateImpl lib.setattr mft newsize env.state with
  | ok _ s' =>
    obtain ⟨d', hres, hV⟩ := nfskTruncate_resizes hL hd hn hrun
    simp only [c, fileStep, hrun]
    rw [store_of_update { env with state := s' } hV, Option.map_some,
      content_of_resized hres]
    exact .resize newsize.toNat hstore
  | error e s' =>
    obtain ⟨o, hV⟩ := (nfskTruncate_elsewhere hL mft newsize).error hstart hrun
    simp only [c, fileStep, hrun]
    rw [store_of_update { env with state := s' } hV]
    exact .resizeFailed mft newsize.toNat _

end Refinement

/-! ## A library that obeys the laws -/

end Ntfs
end Usbrw
