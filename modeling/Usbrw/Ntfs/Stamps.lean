import Usbrw.Ntfs.Transfer

/-!
# Ntfs.Stamps

What `nfsk_write` notes in the metadata of the file it wrote to. The loop has two exits with bytes
written, and only the one at its end gets to the archive flag and the times.

* `LawfulFlags`        — what the calls do to the archive flags.
* `TakesAll`           — the library takes the whole buffer, in however many pieces.
* `nfskWrite_marked_iff` — a write that reports bytes has noted them exactly then.
-/

namespace Usbrw
namespace Ntfs

variable {τ : Type}

/-- `A` is whether `FILE_ATTR_ARCHIVE` is set, for every record. A call that fails sets `errno`, and
a close that fails is taken to keep the flag. -/
structure LawfulFlags (lib : Libdata τ) (A : τ → UInt64 → Bool) : Prop where
  inodeOpen : ∀ {r env env' ni}, lib.inodeOpen r env = (env', some ni) → ni.mftNo = r
  inodeOpen_none : ∀ {r env env'}, lib.inodeOpen r env = (env', none) → 0 < env'.errno
  attrOpen_none : ∀ {ni env env'}, lib.attrOpen ni env = (env', none) → 0 < env'.errno
  inodeClose : ∀ {ni env env' fails}, lib.inodeClose ni env = (env', fails) →
    (fails = true → 0 < env'.errno) ∧ A env'.state = A env.state
  setArchive : ∀ ni env, A (lib.setArchive ni env).state ni.mftNo = true
  inodeUpdateTimes : ∀ ni w env, A (lib.inodeUpdateTimes ni w env).state = A env.state

/-- Of the writes that the loop asks for, with `size` bytes to go, none fails. -/
inductive TakesAll (lib : Libdata τ) (na : NtfsAttr) (buf : List UInt8) :
    Int64 → Int64 → Int64 → Env τ → Prop
  | done {off size total : Int64} {env : Env τ} (h : ¬ 0 < size) :
      TakesAll lib na buf off size total env
  | piece {off size total ret : Int64} {env env' : Env τ} (h : 0 < size)
      (hwrite : lib.attrPwrite na off size (buf.drop total.toInt.toNat) env = (env', ret))
      (hret : ¬ ret ≤ 0) (hrest : TakesAll lib na buf (off + ret) (size - ret) (total + ret) env') :
      TakesAll lib na buf off size total env

/-- No `ntfs_attr_pwrite` fails of those for a buffer, with the file open. -/
def WritesAll (lib : Libdata τ) (mft offset len : UInt64) (buf : List UInt8) (env : Env τ) : Prop :=
  ∃ env₁ ni env₂ na, lib.inodeOpen mft env.clear = (env₁, some ni) ∧
    lib.attrOpen ni env₁ = (env₂, some na) ∧
    TakesAll lib na buf offset.toInt64 len.toInt64 0 env₂

/-- The archive flag is set, and the modification and change times were updated in the call. -/
structure Marked (A : τ → UInt64 → Bool) (mft : UInt64) (t : τ × List DataEvent) : Prop where
  archive : A t.1 mft = true
  times : ∃ ni, ni.mftNo = mft ∧ DataEvent.updateTimes ni .mctime ∈ t.2

/-! ## The loop -/

section Loop

variable {lib : Libdata τ} {na : NtfsAttr}

theorem writeLoop_none_iff (lib : Libdata τ) (na : NtfsAttr) (off size total : Int64)
    (buf : List UInt8) (env : Env τ) :
    (writeLoop lib na off size total buf env).2.2 = none ↔ TakesAll lib na buf off size total env := by
  fun_induction writeLoop lib na off size total buf env with
  | case1 off size total env hpos env' ret hwrite hret =>
    constructor
    · intro h
      cases h
    · intro h
      cases h with
      | done hnone => exact absurd hpos hnone
      | piece _ hwrite' hret' _ =>
        rw [hwrite] at hwrite'
        cases hwrite'
        exact absurd hret hret'
  | case2 off size total env hpos env' ret hwrite hret ih =>
    rw [ih]
    constructor
    · intro h
      exact .piece hpos hwrite hret h
    · intro h
      cases h with
      | done hnone => exact absurd hpos hnone
      | piece _ hwrite' _ hrest =>
        rw [hwrite] at hwrite'
        cases hwrite'
        exact hrest
  | case3 off size total env hpos => exact ⟨fun _ => .done hpos, fun _ => rfl⟩

/-- No times are updated in the loop. -/
theorem writeLoop_log (lib : Libdata τ) (na : NtfsAttr) (off size total : Int64)
    (buf : List UInt8) (env : Env (τ × List DataEvent)) (ni : NtfsInode) (w : DataTimes) :
    DataEvent.updateTimes ni w ∈ (writeLoop (withLog lib) na off size total buf env).1.state.2 ↔
      DataEvent.updateTimes ni w ∈ env.state.2 := by
  have hnote : ∀ {off size env env' ret}, (withLog lib).attrPwrite na off size
      (buf.drop ret) env = env' → (DataEvent.updateTimes ni w ∈ env'.1.state.2 ↔
        DataEvent.updateTimes ni w ∈ env.state.2) := by
    intro off size env env' ret h
    rw [← h]
    simp [withLog, record]
  fun_induction writeLoop (withLog lib) na off size total buf env with
  | case1 off size total env hpos env' ret hwrite hret => exact hnote hwrite
  | case2 off size total env hpos env' ret hwrite hret ih => exact ih.trans (hnote hwrite)
  | case3 off size total env hpos => exact Iff.rfl

end Loop

/-! ## The call -/

section Call

variable {lib : Libdata τ} {A : τ → UInt64 → Bool} {mft offset len : UInt64} {buf : List UInt8}

/-- Past the opening of the file. -/
theorem writesAll_iff {env env₁ env₂ : Env τ} {ni : NtfsInode} {na : NtfsAttr}
    (hopen : lib.inodeOpen mft env.clear = (env₁, some ni))
    (hattr : lib.attrOpen ni env₁ = (env₂, some na)) :
    WritesAll lib mft offset len buf env ↔
      (writeLoop lib na offset.toInt64 len.toInt64 0 buf env₂).2.2 = none := by
  rw [writeLoop_none_iff]
  constructor
  · intro h
    obtain ⟨env₁', ni', env₂', na', hopen', hattr', htakes⟩ := h
    rw [hopen] at hopen'
    cases hopen'
    rw [hattr] at hattr'
    cases hattr'
    exact htakes
  · intro htakes
    exact ⟨env₁, ni, env₂, na, hopen, hattr, htakes⟩

/-- What comes after a loop that is done. -/
theorem marked_close (hL : LawfulFlags lib A) {ni : NtfsInode} (hno : ni.mftNo = mft)
    (env : Env (τ × List DataEvent)) :
    Marked A mft ((withLog lib).inodeClose ni ((withLog lib).inodeUpdateTimes ni .mctime
      ((withLog lib).setArchive ni env))).1.state where
  archive := by
    let flagged := lib.setArchive ni env.plain
    have hset : A flagged.state ni.mftNo = true := hL.setArchive ni env.plain
    have htimes := hL.inodeUpdateTimes ni .mctime flagged
    have hclose := (hL.inodeClose (rfl : lib.inodeClose ni
      (lib.inodeUpdateTimes ni .mctime flagged) = _)).2
    rw [← hno]
    exact (congrFun (hclose.trans htimes) ni.mftNo).trans hset
  times := by
    refine ⟨ni, hno, ?_⟩
    have hlog : ((withLog lib).inodeClose ni ((withLog lib).inodeUpdateTimes ni .mctime
        ((withLog lib).setArchive ni env))).1.state.2 =
        ((env.state.2 ++ [.setArchive ni]) ++ [.updateTimes ni .mctime]) ++ [] := rfl
    rw [hlog]
    simp

/-- Opening leaves no trace in the log. -/
theorem opened_log {env env₁ env₂ : Env (τ × List DataEvent)} {ni : NtfsInode} {na : NtfsAttr}
    (hopen : (withLog lib).inodeOpen mft env.clear = (env₁, some ni))
    (hattr : (withLog lib).attrOpen ni env₁ = (env₂, some na)) : env₂.state.2 = env.state.2 := by
  have h₁ : env₁.state.2 = env.state.2 ++ [] := (congrArg (·.1.state.2) hopen).symm
  have h₂ : env₂.state.2 = env₁.state.2 ++ [] := (congrArg (·.1.state.2) hattr).symm
  rw [h₂, h₁, List.append_nil, List.append_nil]

theorem nfskWrite_marked (hL : LawfulFlags lib A) (env : Env (τ × List DataEvent))
    (hlog : env.state.2 = [])
    (hn : 0 < (nfskWrite (withLog lib) mft offset len buf env).2) :
    Marked A mft (nfskWrite (withLog lib) mft offset len buf env).1.state ↔
      WritesAll lib mft offset len buf env.plain := by
  have hends := nfskWrite_ends (withLog lib) mft offset len buf env
  generalize nfskWrite (withLog lib) mft offset len buf env = res at hends hn ⊢
  cases hends with
  | nothing hlen => exact absurd hn (Int.lt_irrefl 0)
  | unopened hopen =>
    have herr := hL.inodeOpen_none (inodeOpen_plain hopen)
    simp only [plain_errno] at hn herr
    omega
  | refused hopen hrc => exact absurd hn (Int.not_lt.mpr (Int.le_of_lt hrc))
  | noData hopen hattr =>
    have herr := hL.attrOpen_none (attrOpen_plain hattr)
    simp only [plain_errno] at hn herr
    omega
  | @cutShort env₁ env₂ env₃ ni na total e hopen hattr hloop =>
    -- the loop was left early, and nothing noted
    have hplain := writeLoop_withLog lib na offset.toInt64 len.toInt64 0 buf env₂
    have hsilent := writeLoop_log lib na offset.toInt64 len.toInt64 0 buf env₂
    rw [writesAll_iff (inodeOpen_plain hopen) (attrOpen_plain hattr), ← hplain, hloop]
    rw [hloop, opened_log hopen hattr, hlog] at hsilent
    refine iff_of_false (fun h => ?_) (by simp)
    obtain ⟨ni', _, hmem⟩ := h.times
    have hlog₃ : ((withLog lib).inodeClose ni ((withLog lib).attrClose na env₃)).1.state.2 =
        (env₃.state.2 ++ []) ++ [] := rfl
    rw [hlog₃, List.append_nil, List.append_nil, hsilent] at hmem
    cases hmem
  | @stored env₁ env₂ env₃ env₄ ni na total fails hopen hattr hloop hclose =>
    have hopen' := inodeOpen_plain hopen
    have hplain := writeLoop_withLog lib na offset.toInt64 len.toInt64 0 buf env₂
    rw [writesAll_iff hopen' (attrOpen_plain hattr), ← hplain, hloop]
    refine iff_of_true ?_ rfl
    have herr := (hL.inodeClose (inodeClose_plain hclose)).1
    by_cases hfails : fails = true ∧ total = 0
    · have hpos := herr hfails.1
      simp only [if_pos hfails, plain_errno] at hn hpos
      omega
    · simp only [if_neg hfails] at hn ⊢
      have hpos : 0 < total := by
        rw [Int64.lt_iff_toInt_lt]
        exact hn
      have hexit := marked_close hL (hL.inodeOpen hopen') ((withLog lib).attrClose na env₃)
      rw [if_pos hpos] at hclose
      rw [hclose] at hexit
      exact hexit

/-- A write that reports bytes has noted them in the metadata exactly if no `ntfs_attr_pwrite` of it
failed: one that is cut short by a failure reports what it stored, and leaves no trace of it. -/
theorem nfskWrite_marked_iff (hL : LawfulFlags lib A) (mft offset len : UInt64) (buf : List UInt8)
    (env : Env τ) (hn : 0 < (nfskWrite lib mft offset len buf env).2) :
    Marked A mft (nfskWrite (withLog lib) mft offset len buf env.start).1.state ↔
      WritesAll lib mft offset len buf env := by
  have hplain := nfskWrite_withLog lib mft offset len buf env.start
  rw [show env.start.plain = env from rfl] at hplain
  rw [← hplain] at hn
  exact nfskWrite_marked hL env.start rfl hn

end Call

/-! ## A volume that fills up -/

/-- There is space for `left` more bytes. -/
structure Filling where
  left : Nat
  stored : List UInt8
  archive : UInt64 → Bool

/-- One byte at a time, until the volume is full. -/
def fillingLibdata : Libdata Filling where
  inodeOpen r env := (env, some ⟨r, false, false⟩)
  inodeClose _ env := (env, false)
  attrOpen ni env := (env, some ⟨ni, Int64.ofNat env.state.stored.length⟩)
  attrClose _ env := env
  attrPread _ _ _ env := (env, 0, [])
  attrPwrite _ _ _ buf env :=
    match env.state.left with
    | 0 => (⟨env.state, ENOSPC⟩, -1)
    | left + 1 =>
      (⟨{ env.state with left := left, stored := env.state.stored ++ buf.take 1 }, env.errno⟩, 1)
  setArchive ni env :=
    ⟨{ env.state with archive := Function.update env.state.archive ni.mftNo true }, env.errno⟩
  inodeUpdateTimes _ _ env := env

theorem fillingLibdata_lawful : LawfulFlags fillingLibdata Filling.archive where
  inodeOpen := by
    intro r env env' ni h
    cases h
    rfl
  inodeOpen_none := by
    intro r env env' h
    cases h
  attrOpen_none := by
    intro ni env env' h
    cases h
  inodeClose := by
    intro ni env env' fails h
    cases h
    exact ⟨nofun, rfl⟩
  setArchive ni env := Function.update_self ..
  inodeUpdateTimes _ _ _ := rfl

/-- An empty file, and space for `left` bytes. -/
def fillingEnv (left : Nat) : Env Filling := ⟨⟨left, [], fun _ => false⟩, 0⟩

/-- The attribute that is written to. -/
def fillingAttr : NtfsAttr := ⟨⟨20, false, false⟩, 0⟩

theorem filling_takes {buf : List UInt8} {off size total : Int64} {env : Env Filling} {left : Nat}
    (hsize : 0 < size) (hleft : env.state.left = left + 1) :
    writeLoop fillingLibdata fillingAttr off size total buf env =
      writeLoop fillingLibdata fillingAttr (off + 1) (size - 1) (total + 1) buf
        ⟨⟨left, env.state.stored ++ (buf.drop total.toInt.toNat).take 1, env.state.archive⟩,
          env.errno⟩ := by
  conv => lhs; rw [writeLoop]
  simp [hsize, fillingLibdata, hleft]

theorem filling_full {buf : List UInt8} {off size total : Int64} {env : Env Filling}
    (hsize : 0 < size) (hleft : env.state.left = 0) :
    writeLoop fillingLibdata fillingAttr off size total buf env =
      (⟨env.state, ENOSPC⟩, total, some ENOSPC) := by
  rw [writeLoop]
  simp [hsize, fillingLibdata, hleft]

/-- The call, once the file is open. -/
theorem fillingLibdata_write (left : Nat) : nfskWrite fillingLibdata 20 0 2 [7, 8] (fillingEnv left) =
    match writeLoop fillingLibdata fillingAttr 0 2 0 [7, 8] (fillingEnv left) with
    | (env, total, some e) => (env, if 0 < total then total.toInt else -e)
    | (env, total, none) =>
      (if 0 < total then fillingLibdata.setArchive ⟨20, false, false⟩ env else env, total.toInt) := by
  have hopen : fillingLibdata.inodeOpen 20 (fillingEnv left).clear =
      (fillingEnv left, some ⟨20, false, false⟩) := rfl
  have hattr : fillingLibdata.attrOpen ⟨20, false, false⟩ (fillingEnv left) =
      (fillingEnv left, some fillingAttr) := rfl
  have huser : ¬ (20 : UInt64) < FILE_first_user := by decide
  have hoff : (0 : UInt64).toInt64 = 0 := rfl
  have hlen : (2 : UInt64).toInt64 = 2 := rfl
  unfold nfskWrite
  rw [if_neg (by decide), hopen]
  simp only [huser, if_false, Bool.false_eq_true, hattr, hoff, hlen]
  obtain ⟨env, total, err⟩ := writeLoop fillingLibdata fillingAttr 0 2 0 [7, 8] (fillingEnv left)
  cases err with
  | some e => rfl
  | none => simp [fillingLibdata]

/-- Both bytes are stored, in two pieces. -/
theorem nfskWrite_marked_two :
    Marked Filling.archive 20
      (nfskWrite (withLog fillingLibdata) 20 0 2 [7, 8] (fillingEnv 2).start).1.state := by
  have hall : writeLoop fillingLibdata fillingAttr 0 2 0 [7, 8] (fillingEnv 2) =
      (⟨⟨0, [7, 8], fun _ => false⟩, 0⟩, 2, none) := by
    rw [filling_takes (by decide) (rfl : (fillingEnv 2).state.left = 1 + 1),
      filling_takes (by decide) rfl, writeLoop]
    rfl
  have hcount : (nfskWrite fillingLibdata 20 0 2 [7, 8] (fillingEnv 2)).2 = 2 := by
    rw [fillingLibdata_write, hall]
    rfl
  refine (nfskWrite_marked_iff fillingLibdata_lawful 20 0 2 [7, 8] (fillingEnv 2)
    (by rw [hcount]; decide)).mpr ⟨_, _, _, _, rfl, rfl, ?_⟩
  exact .piece (by decide) rfl (by decide) (.piece (by decide) rfl (by decide) (.done (by decide)))

/-- One byte of two is stored and reported, and the archive flag is not set. -/
theorem short_write_unmarked :
    LawfulFlags fillingLibdata Filling.archive ∧
      nfskWrite fillingLibdata 20 0 2 [7, 8] (fillingEnv 1) =
        (⟨⟨0, [7], fun _ => false⟩, ENOSPC⟩, 1) ∧
      ¬ Marked Filling.archive 20
        (nfskWrite (withLog fillingLibdata) 20 0 2 [7, 8] (fillingEnv 1).start).1.state := by
  have hcut : writeLoop fillingLibdata fillingAttr 0 2 0 [7, 8] (fillingEnv 1) =
      (⟨⟨0, [7], fun _ => false⟩, ENOSPC⟩, 1, some ENOSPC) := by
    rw [filling_takes (by decide) (rfl : (fillingEnv 1).state.left = 0 + 1),
      filling_full (by decide) rfl]
    rfl
  have hrun : nfskWrite fillingLibdata 20 0 2 [7, 8] (fillingEnv 1) =
      (⟨⟨0, [7], fun _ => false⟩, ENOSPC⟩, 1) := by
    rw [fillingLibdata_write, hcut]
    rfl
  refine ⟨fillingLibdata_lawful, hrun, fun h => ?_⟩
  have hplain := congrArg Prod.fst (nfskWrite_withLog fillingLibdata 20 0 2 [7, 8]
    (fillingEnv 1).start)
  rw [show (fillingEnv 1).start.plain = fillingEnv 1 from rfl, hrun] at hplain
  have harchive := congrFun (congrArg (·.state.archive) hplain) 20
  exact absurd (harchive.symm.trans h.archive) (by decide)

end Ntfs
end Usbrw
