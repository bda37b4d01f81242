import Usbrw.Ntfs.ReferenceRecord

/-!
# Ntfs.Symlinks

`nfsk_readlink_impl`, and the links that `nfsk_getattr_impl` reports.

* `nfskReadlinkImpl`     — the code.
* `Record.text`          — what it gives of a record, before that is cut to the buffer.
* `readlink_answers`     — the code gives that.
* `Tells`                — type and size say whether there is a text, and how long it is.
* `readlink_iff_symlink` — `getattr` tells of the text that `readlink` gives.
-/

namespace Usbrw
namespace Ntfs

open Call

variable {σ : Type}

/-! ## The code -/

/-- What a buffer of `size` bytes receives of a string. -/
def strlcpy (src : List UInt8) (size : Nat) : List UInt8 := (cString src).take (size - 1)

/-- A digit of `%lx`. -/
def hexDigit (n : UInt32) : UInt8 :=
  if n < 10 then (48 + n).toUInt8 else (87 + n).toUInt8

/-- `%08lx` -/
def hex8 (n : UInt32) : List UInt8 :=
  ([28, 24, 20, 16, 12, 8, 4, 0] : List UInt32).map fun i => hexDigit (n >>> i &&& 0xF)

def unsupportedTag (tag : UInt32) : List UInt8 :=
  "unsupported reparse tag 0x".toList.map (fun c => c.toNat.toUInt8) ++ hex8 tag

section Code

variable (lib : Libstat σ)

/-- The target of a reparse point, or a notice in its place. -/
def readReparse (ni : NtfsInode) : EStateM Int σ (List UInt8) := do
  match ← attempt (lib.makeSymlink ni) with
  | .ok target => pure target
  | .error e =>
    if e.val = EOPNOTSUPP then do
      let (tag, s) := lib.reparseTag ni (← get)
      set s
      pure (unsupportedTag tag)
    else throw (negErrno e)

def intxText (intx : List UInt8) : Except Int (List UInt8) :=
  if intxMagic intx ≠ INTX_SYMBOLIC_LINK then .error (- EINVAL)
  else
    match lib.ucstombs (intxTarget intx) with
    | none => .error (negErrno (lib.ucstombsErrno (intxTarget intx)))
    | some target => .ok target

def readLink (na : DataAttr) : EStateM Int σ (List UInt8) :=
  if ¬ IntxSized na.dataSize then throw (- EINVAL)
  else do
    let intx ← readIntx lib na
    match intxText lib intx with
    | .error res => throw res
    | .ok target => pure target

def readInterix (ni : NtfsInode) : EStateM Int σ (List UInt8) := do
  if lib.flags ni (← get) &&& FILE_ATTR_SYSTEM = 0 then throw (- EINVAL)
  else
    let na ← orFail negErrno (lib.attrOpen ni)
    afterwards (readLink lib na) (modify (lib.attrClose na) : EStateM Int σ Unit)

def readTarget (ni : NtfsInode) : EStateM Int σ (List UInt8) :=
  if ni.reparsePoint then readReparse lib ni else readInterix lib ni

/-- The contents of `buf`. -/
def nfskReadlinkImpl (mft : UInt64) (buflen : Nat) : EStateM Int σ (List UInt8) :=
  if buflen = 0 then throw (- EINVAL)
  else do
    let ni ← orFail negErrno (lib.inodeOpen mft)
    closing lib.toLibntfs ni do
      let target ← readTarget lib ni
      pure (strlcpy target buflen)

end Code

/-! ## The text of a record -/

namespace Record

/-- A reparse point whose tag stands for no link. It is reported as one, without a size. -/
def unsupported (rec : Record) : Prop :=
  rec.reparsePoint = true ∧ ∃ e, rec.target = .error e ∧ e.val = EOPNOTSUPP

/-- An Interix link, by its data. -/
def holdsLink (rec : Record) : Prop :=
  rec.system ∧ ∃ d intx, rec.stream = .ok d ∧ IntxSized (Int64.ofNat d.size) ∧
    rec.contents d = .ok intx ∧ intxMagic intx = INTX_SYMBOLIC_LINK

section Text

variable (lib : Libstat σ) (rec : Record)

def reparseText : Except Int (List UInt8) :=
  match rec.target with
  | .ok target => .ok target
  | .error e => if e.val = EOPNOTSUPP then .ok (unsupportedTag rec.tag) else .error (negErrno e)

def streamText (d : DataStream) : Except Int (List UInt8) :=
  if ¬ IntxSized (Int64.ofNat d.size) then .error (- EINVAL)
  else
    match rec.contents d with
    | .ok intx => intxText lib intx
    | .error e => .error (negErrno e)

def interixText : Except Int (List UInt8) :=
  if ¬ rec.system then .error (- EINVAL)
  else
    match rec.stream with
    | .ok d => rec.streamText lib d
    | .error e => .error (negErrno e)

def targetText : Except Int (List UInt8) :=
  if rec.reparsePoint then rec.reparseText else rec.interixText lib

/-- What `readlink` gives if the buffer is large enough. -/
def text : Except Int (List UInt8) := (rec.targetText lib).map cString

/-- The buffer is large enough. -/
def Fits (buflen : Nat) : Prop := 0 < buflen ∧ ∀ t, rec.text lib = .ok t → t.length < buflen

end Text

end Record

section Answers

variable {lib : Libstat σ} {R : RecordView σ} {r : UInt64} {rec : Record} {d : DataStream}

theorem readReparse_answers (hL : LawfulRecord lib R) (hreparse : rec.reparsePoint = true) :
    Answers (R.Holds r rec) (readReparse lib (rec.inode r)) rec.reparseText := by
  refine Answers.bind_ok (hL.makeSymlink r rec hreparse).attempt ?_
  unfold Record.reparseText
  cases rec.target with
  | ok target => exact Answers.pure _
  | error e =>
    by_cases he : e.val = EOPNOTSUPP
    · simp only [if_pos he]
      intro s hs
      obtain ⟨htag, hs'⟩ := hL.reparseTag r rec s hs
      exact ⟨by rw [← htag], hs'⟩
    · simp only [if_neg he]
      exact Answers.throw _

theorem readLink_answers (hL : LawfulRecord lib R) (hd : rec.stream = .ok d) :
    Answers (R.Holds r rec) (readLink lib (refAttr (rec.inode r) d)) (rec.streamText lib d) := by
  have hsize : (refAttr (rec.inode r) d).dataSize = Int64.ofNat d.size := rfl
  unfold readLink Record.streamText
  rw [hsize]
  by_cases hsized : IntxSized (Int64.ofNat d.size)
  · rw [if_neg (not_not.mpr hsized), if_neg (not_not.mpr hsized)]
    have hread := readIntx_answers (r := r) hL hd hsized
    cases hintx : rec.contents d with
    | error e =>
      rw [hintx] at hread
      exact Answers.bind_error hread
    | ok intx =>
      rw [hintx] at hread
      refine Answers.bind_ok hread ?_
      simp only
      cases intxText lib intx with
      | error res => exact Answers.throw _
      | ok target => exact Answers.pure _
  · rw [if_pos hsized, if_pos hsized]
    exact Answers.throw _

theorem readInterix_answers (hL : LawfulRecord lib R) :
    Answers (R.Holds r rec) (readInterix lib (rec.inode r)) (rec.interixText lib) := by
  refine Answers.bind_get fun s hs => ?_
  have hsystem : (lib.flags (rec.inode r) s &&& FILE_ATTR_SYSTEM = 0) ↔ ¬ rec.system := by
    rw [(hL.shows r rec s hs).flags, Record.system, not_not]
  unfold Record.interixText
  simp only [hsystem]
  by_cases hsys : ¬ rec.system
  · rw [if_pos hsys, if_pos hsys]
    exact Answers.throw _
  · rw [if_neg hsys, if_neg hsys]
    have hopen := (hL.attrOpen r rec).orFail negErrno
    cases hd : rec.stream with
    | error e =>
      rw [hd] at hopen
      exact Answers.bind_error hopen
    | ok d =>
      rw [hd] at hopen
      refine Answers.bind_ok hopen ?_
      exact (readLink_answers hL hd).afterwards fun s hs => hL.attrClose r rec _ s hs

theorem readTarget_answers (hL : LawfulRecord lib R) :
    Answers (R.Holds r rec) (readTarget lib (rec.inode r)) (rec.targetText lib) := by
  unfold readTarget Record.targetText
  cases hreparse : rec.reparsePoint with
  | true =>
    have hopen : (rec.inode r).reparsePoint = true := hreparse
    simp only [hopen, if_true]
    exact readReparse_answers hL hreparse
  | false =>
    have hopen : (rec.inode r).reparsePoint = false := hreparse
    simp only [hopen, Bool.false_eq_true, if_false]
    exact readInterix_answers hL

/-- `readlink` gives the text of the record, as far as it fits. -/
theorem readlink_answers (hL : LawfulRecord lib R) {buflen : Nat} (hbuf : buflen ≠ 0) :
    Answers (R.Holds r rec) (nfskReadlinkImpl lib r buflen)
      ((rec.text lib).map fun t => t.take (buflen - 1)) := by
  have hclose : ∀ s, R.Holds r rec s → R.Holds r rec (final (lib.inodeClose (rec.inode r) s)) := by
    intro s hs
    obtain ⟨s', hrun⟩ := ((hL.inodeClose r rec).ok_iff hs).mpr rfl
    rw [hrun]
    exact ((hL.inodeClose r rec).ok hs hrun).2
  have hread : Answers (R.Holds r rec) (readTarget lib (rec.inode r)) (rec.targetText lib) :=
    readTarget_answers hL
  unfold nfskReadlinkImpl Record.text
  rw [if_neg hbuf]
  refine Answers.bind_ok ((hL.inodeOpen r rec).orFail negErrno) ?_
  unfold closing
  cases htarget : rec.targetText lib with
  | error res =>
    rw [htarget] at hread
    exact Answers.bind_error ((Answers.bind_error hread).onFail hclose)
  | ok target =>
    rw [htarget] at hread
    have hcut : Answers (R.Holds r rec)
        (readTarget lib (rec.inode r) >>= fun target => pure (strlcpy target buflen))
        (.ok (strlcpy target buflen)) := Answers.bind_ok hread (Answers.pure _)
    refine Answers.bind_ok (hcut.onFail hclose) ?_
    exact Answers.bind_ok ((hL.inodeClose r rec).orFail negErrno) (Answers.pure _)

end Answers

/-! ## What is reported of links -/

/-- The type says whether there is a text, and the size how long it is. -/
structure Tells (out : NfskStat) (text : Except Int (List UInt8)) : Prop where
  link : out.mode &&& 0xF000 = S_IFLNK ↔ ∃ t, text = .ok t
  size : ∀ t, text = .ok t → out.size = UInt64.ofNat t.length

theorem Tells.ok {out : NfskStat} {t : List UInt8} (hmode : out.mode = S_IFLNK ||| 0o777)
    (hsize : out.size = UInt64.ofNat t.length) : Tells out (.ok t) where
  link := by
    rw [hmode]
    exact iff_of_true (by decide) ⟨t, rfl⟩
  size := by
    intro t' ht
    cases ht
    exact hsize

theorem Tells.error {out : NfskStat} {e : Int} {mode : UInt32} (hmode : out.mode = mode)
    (hother : mode &&& 0xF000 ≠ S_IFLNK) : Tells out (.error e) where
  link := by
    rw [hmode]
    exact iff_of_false hother fun ⟨_, h⟩ => nomatch h
  size := fun _ h => nomatch h

section Stat

variable {lib : Libstat σ} {R : RecordView σ} {r : UInt64} {rec : Record} {d : DataStream}
  {out : NfskStat}

theorem cString_nonzero {t : List UInt8} (h : 0 ∉ t) : cString t = t := by
  refine List.takeWhile_eq_self_iff.mpr fun b hb => ?_
  simp only [decide_eq_true_eq]
  rintro rfl
  exact h hb

theorem linkMode_link {mode : UInt32} :
    linkMode mode &&& 0xF000 = S_IFLNK ↔ mode &&& 0xF000 = S_IFLNK := by
  unfold linkMode
  by_cases h : mode &&& 0xF000 = S_IFLNK
  · rw [if_pos h]
    exact iff_of_true (by decide) h
  · rw [if_neg h]

theorem emptyMode_not_link (size : Int64) :
    (emptyMode size S_IFREG ||| 0o777) &&& 0xF000 ≠ S_IFLNK := by
  unfold emptyMode
  by_cases h : size = 0
  · rw [if_pos h]
    decide
  · rw [if_neg h]
    by_cases h : size = 1
    · rw [if_pos h]
      decide
    · rw [if_neg h]
      decide

theorem intxStat_tells (hL : LawfulRecord lib R) {intx : List UInt8} {start : NfskStat}
    (hstart : (start.mode ||| 0o777) &&& 0xF000 ≠ S_IFLNK)
    (hout : intxStat lib intx start = .ok out) :
    Tells { out with mode := out.mode ||| 0o777 } ((intxText lib intx).map cString) := by
  unfold intxStat at hout
  unfold intxText
  by_cases hlink : intxMagic intx = INTX_SYMBOLIC_LINK
  · rw [if_pos hlink] at hout
    rw [if_neg (not_not.mpr hlink)]
    cases htarget : lib.ucstombs (intxTarget intx) with
    | none =>
      rw [htarget] at hout
      cases hout
    | some target =>
      rw [htarget] at hout
      cases hout
      have hwhole := cString_nonzero (hL.ucstombs _ _ htarget)
      exact Tells.ok rfl (by rw [hwhole])
  · rw [if_neg hlink] at hout
    rw [if_pos hlink]
    by_cases hblock : intxMagic intx = INTX_BLOCK_DEVICE
    · rw [if_pos hblock] at hout
      cases hout
      exact @Tells.error _ _ (S_IFBLK ||| 0o777) rfl (by decide)
    · rw [if_neg hblock] at hout
      by_cases hchar : intxMagic intx = INTX_CHARACTER_DEVICE
      · rw [if_pos hchar] at hout
        cases hout
        exact @Tells.error _ _ (S_IFCHR ||| 0o777) rfl (by decide)
      · rw [if_neg hchar] at hout
        cases hout
        exact Tells.error rfl hstart

theorem specialStat_tells (hL : LawfulRecord lib R) {start : NfskStat} (hstart : start.mode = S_IFREG)
    (hout : rec.specialStat lib d start = .ok out) :
    Tells { out with mode := out.mode ||| 0o777 } ((rec.streamText lib d).map cString) := by
  have hplain : (S_IFREG ||| 0o777) &&& 0xF000 ≠ S_IFLNK := by decide
  have hmode : ((if rec.hidden then start else
      { start with mode := emptyMode (Int64.ofNat d.size) start.mode }).mode ||| 0o777) &&& 0xF000 ≠
      S_IFLNK := by
    by_cases hhidden : rec.hidden
    · rw [if_pos hhidden, hstart]
      exact hplain
    · rw [if_neg hhidden]
      simp only [hstart]
      exact emptyMode_not_link _
  unfold Record.specialStat at hout
  unfold Record.streamText
  by_cases hsized : IntxSized (Int64.ofNat d.size)
  · simp only [if_pos hsized] at hout
    rw [if_neg (not_not.mpr hsized)]
    cases hintx : rec.contents d with
    | error e =>
      rw [hintx] at hout
      cases hout
    | ok intx =>
      rw [hintx] at hout
      exact intxStat_tells hL hmode hout
  · simp only [if_neg hsized] at hout
    rw [if_pos hsized]
    cases hout
    exact Tells.error rfl hmode

theorem fileStat_tells (hL : LawfulRecord lib R) (hout : rec.fileStat lib r = .ok out) :
    Tells out ((rec.interixText lib).map cString) := by
  have hplain : ((rec.fileStart r).mode ||| 0o777) &&& 0xF000 ≠ S_IFLNK := by
    have hmode : (rec.fileStart r).mode = S_IFREG := rfl
    rw [hmode]
    decide
  unfold Record.fileStat at hout
  unfold Record.interixText
  by_cases hsys : rec.system
  · rw [if_neg (not_not.mpr hsys)]
    cases hd : rec.stream with
    | error e =>
      rw [hd] at hout
      cases hout
      exact Tells.error rfl hplain
    | ok d =>
      simp only [hd, if_pos hsys] at hout
      cases hspecial : rec.specialStat lib d (rec.fileStart r) with
      | error ret =>
        rw [hspecial] at hout
        cases hout
      | ok special =>
        rw [hspecial] at hout
        cases hout
        exact specialStat_tells hL rfl hspecial
  · rw [if_pos hsys]
    cases hd : rec.stream with
    | error e =>
      rw [hd] at hout
      cases hout
      exact Tells.error rfl hplain
    | ok d =>
      simp only [hd, if_neg hsys] at hout
      cases hout
      exact Tells.error rfl hplain

theorem reparseStat_tells (hsupported : ∀ e, rec.target = .error e → e.val ≠ EOPNOTSUPP)
    (hout : rec.reparseStat r = .ok out) : Tells out (rec.reparseText.map cString) := by
  unfold Record.reparseStat at hout
  unfold Record.reparseText
  cases htarget : rec.target with
  | ok target =>
    rw [htarget] at hout
    cases hout
    exact Tells.ok rfl rfl
  | error e =>
    simp only [htarget, if_pos (hsupported e htarget)] at hout
    cases hout

/-- A directory holds no link. -/
theorem directory_text (hplain : ¬ rec.holdsLink) : ∃ e, rec.interixText lib = .error e := by
  unfold Record.interixText Record.streamText intxText
  by_cases hsys : rec.system
  · rw [if_neg (not_not.mpr hsys)]
    cases hd : rec.stream with
    | error e => exact ⟨_, rfl⟩
    | ok d =>
      by_cases hsized : IntxSized (Int64.ofNat d.size)
      · simp only [if_neg (not_not.mpr hsized)]
        cases hintx : rec.contents d with
        | error e => exact ⟨_, rfl⟩
        | ok intx =>
          have hmagic : intxMagic intx ≠ INTX_SYMBOLIC_LINK :=
            fun h => hplain ⟨hsys, d, intx, hd, hsized, hintx, h⟩
          simp only [if_pos hmagic]
          exact ⟨_, rfl⟩
      · simp only [if_pos hsized]
        exact ⟨_, rfl⟩
  · rw [if_pos hsys]
    exact ⟨_, rfl⟩

theorem kindStat_tells (hL : LawfulRecord lib R) (hsupported : ¬ rec.unsupported)
    (hdir : rec.indexed = true → ¬ rec.holdsLink) (hout : rec.kindStat lib r = .ok out) :
    Tells out (rec.text lib) := by
  unfold Record.kindStat at hout
  unfold Record.text Record.targetText
  cases hreparse : rec.reparsePoint with
  | true =>
    simp only [hreparse, if_true] at hout ⊢
    exact reparseStat_tells (fun e he hcode => hsupported ⟨hreparse, e, he, hcode⟩) hout
  | false =>
    simp only [hreparse, Bool.false_eq_true, if_false] at hout ⊢
    cases hkind : rec.isDirectory with
    | true =>
      simp only [hkind, if_true] at hout
      cases hout
      obtain ⟨e, he⟩ := @directory_text σ lib rec (hdir (by simp [Record.indexed, hreparse, hkind]))
      rw [he]
      exact @Tells.error _ _ (S_IFDIR ||| 0o777) rfl (by decide)
    | false =>
      simp only [hkind, Bool.false_eq_true, if_false] at hout
      exact fileStat_tells hL hout

/-- A reparse point that is not supported is a link all the same. -/
theorem kindStat_unsupported (h : rec.unsupported) (hout : rec.kindStat lib r = .ok out) :
    out.mode &&& 0xF000 = S_IFLNK ∧ out.size = 0 ∧ ∃ t, rec.text lib = .ok t := by
  obtain ⟨hreparse, e, htarget, he⟩ := h
  have hlink : (S_IFLNK ||| 0o777) &&& 0xF000 = S_IFLNK := by decide
  rw [Record.kindStat, if_pos hreparse, Record.reparseStat, htarget] at hout
  simp only [he, ne_eq, not_true_eq_false, if_false] at hout
  cases hout
  refine ⟨hlink, rfl, cString (unsupportedTag rec.tag), ?_⟩
  rw [Record.text, Record.targetText, if_pos hreparse, Record.reparseText, htarget]
  simp only [he, if_true]
  rfl

/-- A reparse point that is not supported has the type of a link and no size. Otherwise `getattr` tells
of the text. -/
theorem getattr_text (hL : LawfulRecord lib R) {s s₁ : σ} {st : NfskStat} (hs : R.Holds r rec s)
    (hdir : rec.indexed = true → ¬ rec.holdsLink)
    (hstat : nfskGetattrImpl lib.volume r s = ((0, some st), s₁)) :
    (st.mode &&& 0xF000 = S_IFLNK ↔ ∃ t, rec.text lib = .ok t) ∧
      (rec.unsupported → st.size = 0) ∧
      (¬ rec.unsupported → ∀ t, rec.text lib = .ok t → st.size = UInt64.ofNat t.length) := by
  have hr : 1 < r := by
    by_contra hle
    rw [nfskGetattrImpl, if_pos (UInt64.not_lt.mp hle)] at hstat
    cases hstat
  obtain ⟨s', hrun, -⟩ := getattr_answers hL hr hs
  rw [hrun] at hstat
  have hret : rec.stat lib r = (0, st) := by
    simp only [Prod.mk.injEq, Option.some.injEq] at hstat
    exact Prod.ext hstat.1.1 hstat.1.2
  obtain ⟨out, hkind, rfl⟩ := stat_ok hret
  have hlink : (rec.finish lib out).mode &&& 0xF000 = S_IFLNK ↔ out.mode &&& 0xF000 = S_IFLNK :=
    linkMode_link
  rw [hlink]
  by_cases hun : rec.unsupported
  · obtain ⟨hmode, hsize, ht⟩ := kindStat_unsupported hun hkind
    exact ⟨iff_of_true hmode ht, fun _ => hsize, fun h => absurd hun h⟩
  · have htells := kindStat_tells hL hun hdir hkind
    exact ⟨htells.link, fun h => absurd h hun, fun _ => htells.size⟩

/-- A record is reported as a link if and only if `readlink` gives a target, and its size is the length of
that. -/
theorem readlink_iff_symlink (hL : LawfulRecord lib R) {s s₁ s₂ : σ} {st : NfskStat} {buflen : Nat}
    (hs : R.Holds r rec s) (hdir : rec.indexed = true → ¬ rec.holdsLink)
    (hstat : nfskGetattrImpl lib.volume r s = ((0, some st), s₁)) (hs₂ : R.Holds r rec s₂)
    (hfits : rec.Fits lib buflen) :
    ((∃ t s', nfskReadlinkImpl lib r buflen s₂ = .ok t s') ↔ st.mode &&& 0xF000 = S_IFLNK) ∧
    ∀ t s', nfskReadlinkImpl lib r buflen s₂ = .ok t s' →
      (rec.unsupported → st.size = 0) ∧
      (¬ rec.unsupported → st.size = UInt64.ofNat t.length) := by
  obtain ⟨hlink, hzero, hsize⟩ := getattr_text hL hs hdir hstat
  have hread : Answers (R.Holds r rec) (nfskReadlinkImpl lib r buflen)
      ((rec.text lib).map fun t => t.take (buflen - 1)) :=
    readlink_answers hL (Nat.ne_of_gt hfits.1)
  have hwhole : ∀ t, (∃ s', nfskReadlinkImpl lib r buflen s₂ = .ok t s') ↔ rec.text lib = .ok t := by
    intro t
    rw [hread.ok_iff hs₂]
    cases htext : rec.text lib with
    | error e => exact iff_of_false (fun h => nomatch h) fun h => nomatch h
    | ok t' =>
      have hlen := hfits.2 t' htext
      have hcut : t'.take (buflen - 1) = t' := List.take_of_length_le (by omega)
      rw [Except.map, hcut]
  constructor
  · rw [hlink]
    exact exists_congr hwhole
  · intro t s' hrun
    have ht := (hwhole t).mp ⟨s', hrun⟩
    exact ⟨hzero, fun h => hsize h t ht⟩

end Stat

/-! ## Two records -/

/-- The link "IntxLNK\1" to "ab". -/
def interixLink : Record :=
  { Record.blank with
    flags := FILE_ATTR_SYSTEM
    stream := .ok (DataStream.ofBytes
      [0x49, 0x6E, 0x74, 0x78, 0x4C, 0x4E, 0x4B, 0x01, 0x61, 0x00, 0x62, 0x00])
    stream_lt := by
      rintro _ ⟨⟩
      decide }

def interixRecords : RefRecords := fun r => if r = 30 then some interixLink else none

theorem interixLink_agrees :
    ∃ st t, (∃ s₁, nfskGetattrImpl (refLibstat 0).volume 30 interixRecords = ((0, some st), s₁)) ∧
      (∃ s₂, nfskReadlinkImpl (refLibstat 0) 30 100 interixRecords = .ok t s₂) ∧
      t.length = 2 ∧ st.mode &&& 0xF000 = S_IFLNK ∧ st.size = UInt64.ofNat t.length := by
  have hrec : refRecords.Holds 30 interixLink interixRecords := rfl
  have hres : (interixLink.stat (refLibstat 0) 30).1 = 0 := rfl
  obtain ⟨s₁, hstat, _⟩ := getattr_answers (refLibstat_lawful 0) (by decide) hrec
  rw [hres] at hstat
  have hread : nfskReadlinkImpl (refLibstat 0) 30 100 interixRecords = .ok [0x61, 0x62] interixRecords :=
    rfl
  have htext : interixLink.text (refLibstat 0) = .ok [0x61, 0x62] := rfl
  have hfits : interixLink.Fits (refLibstat 0) 100 := by
    refine ⟨by decide, fun t ht => ?_⟩
    rw [htext] at ht
    cases ht
    decide
  obtain ⟨hlink, hsize⟩ := readlink_iff_symlink (refLibstat_lawful 0) hrec (fun h => nomatch h) hstat hrec
    hfits
  exact ⟨_, _, ⟨_, hstat⟩, ⟨_, hread⟩, rfl, hlink.mp ⟨_, _, hread⟩,
    (hsize _ _ hread).2 fun h => nomatch h.1⟩

/-- A file that is kept in the cloud. -/
def cloudFile : Record :=
  { Record.blank with
    reparsePoint := true
    target := .error ⟨EOPNOTSUPP, EOPNOTSUPP_pos⟩
    tag := 0x9000001A }

def cloudRecords : RefRecords := fun r => if r = 30 then some cloudFile else none

/-- It is reported as a link of length 0, and its notice is longer. -/
theorem cloudFile_length :
    ∃ st s₁ t s₂, nfskGetattrImpl (refLibstat 0).volume 30 cloudRecords = ((0, some st), s₁) ∧
      nfskReadlinkImpl (refLibstat 0) 30 100 s₁ = .ok t s₂ ∧ t.length < 100 ∧
      st.mode &&& 0xF000 = S_IFLNK ∧ st.size = 0 ∧ t.length = 34 :=
  ⟨_, _, _, _, rfl, rfl, by decide, rfl, rfl, rfl⟩

end Ntfs
end Usbrw
