import ValkyrieRs.Syscall.Fd
import ValkyrieRs.Syscall.Words

/-!
# Signed words

The register reader and `read_word` widen the words of a 32-bit guest with zeros, and the handlers
take the result for a signed 64-bit value: the values that are not negative are those that come
through.
-/

namespace ValkyrieRs

open Proc

/-! ## `lseek` -/

/-- The emulator with the given architecture. -/
def Valkyrie.on (vk : Valkyrie) (arch : Arch) : Valkyrie :=
  { vk with cfg.arch := arch, arch := ⟨arch, VRegs.new arch⟩ }

/-- The arguments of `lseek` as the register reader shows them, with the offset `v` in a register of
the architecture. -/
def lseekArgs (arch : Arch) (fd v whence : U32) : SubCtx :=
  ⟨fd.setWidth 64, arch.truncate (v.signExtend 64), whence.setWidth 64, 0, 0, 0⟩

/-- Both architectures get the same result and leave the same file positions. -/
def LseekAgrees (vk : Valkyrie) (fd v whence : U32) : Prop :=
  ∃ r vk₁ vk₂, (sysLseek (lseekArgs .x86 fd v whence)).Ends (vk.on .x86) r vk₁ ∧
    (sysLseek (lseekArgs .x86_64 fd v whence)).Ends (vk.on .x86_64) r vk₂ ∧
    vk₁.host.descriptions = vk₂.host.descriptions

/-- The host descriptor that `seek_fd` seeks on, unless it refuses the whence. -/
def Valkyrie.seeksOn (vk : Valkyrie) (fd : U64) (whence : U32) : Option U32 :=
  if fd ≤ 2 then some (fd.setWidth 32)
  else match vk.fdTable.lookup fd with
    | some vkf => if whence = seekSet ∨ whence = seekCur ∨ whence = seekEnd then some vkf.file
      else none
    | none => some (fd.setWidth 32)

/-- The host looks at a negative offset: the descriptor is open, the host grants the call, and the
position from which the offset counts does not lie so high that both offsets are refused. -/
def OffsetMatters (vk : Valkyrie) (fd v whence : U32) : Prop :=
  ∃ x d f, vk.seeksOn (fd.setWidth 64) whence = some x ∧ vk.host.fds.lookup x = some d ∧
    f = vk.host.descriptions.getD d ⟨[], 0⟩ ∧ vk.host.answer.ok ∧
    (whence = seekSet ∨
      whence = seekCur ∧ (f.pos : ℤ) + v.toInt < 2 ^ 63 ∨
      whence = seekEnd ∧ (f.content.length : ℤ) + v.toInt < 2 ^ 63 ∨
      (whence = seekData ∨ whence = seekHole) ∧ 2 ^ 32 + v.toInt < f.content.length)

variable {vk vk' : Valkyrie} {fd v whence : U32}

/-- The word that reports the outcome of a seek. -/
def seekWord : Except U32 U64 → U64
  | .ok pos => pos
  | .error e => negErrno e

/-- What `lseek` answers, and the host that it leaves. -/
def Valkyrie.lseekOutcome (vk : Valkyrie) (sctx : SubCtx) : U64 × Host :=
  match vk.seeksOn sctx.arg0 (sctx.arg2.setWidth 32) with
  | some x => (seekWord (vk.host.lseek x sctx.arg1 (sctx.arg2.setWidth 32)).1,
      (vk.host.lseek x sctx.arg1 (sctx.arg2.setWidth 32)).2)
  | none => (negErrno EINVAL, vk.host)

/-- A seek goes to the host on the descriptor that it is for. -/
theorem ends_seekFd (fd : U64) (offset : U64) (whence : U32) :
    (seekFd fd offset whence).Ends vk
      (.ok ((vk.seeksOn fd whence).elim (.error EINVAL) fun x => (vk.host.lseek x offset whence).1))
      ((vk.seeksOn fd whence).elim vk fun x => vk.withHost (vk.host.lseek x offset whence).2) := by
  rw [Valkyrie.seeksOn, seekFd, ends_bind_get]
  by_cases std : fd ≤ 2
  · rw [if_pos std, if_pos std]
    exact ends_hostCall.2 ⟨rfl, rfl⟩
  rw [if_neg std, if_neg std]
  cases vk.fdTable.lookup fd with
  | none => exact ends_hostCall.2 ⟨rfl, rfl⟩
  | some f =>
    dsimp only
    split_ifs
    · exact ends_hostCall.2 ⟨rfl, rfl⟩
    · exact ends_pure.2 ⟨rfl, rfl⟩

/-- `lseek` always ends. -/
theorem ends_sysLseek (sctx : SubCtx) : (sysLseek sctx).Ends vk
    (.ok (vk.lseekOutcome sctx).1) (vk.withHost (vk.lseekOutcome sctx).2) := by
  have sought := @ends_seekFd vk sctx.arg0 sctx.arg1 (sctx.arg2.setWidth 32)
  rw [Valkyrie.lseekOutcome]
  cases on : vk.seeksOn sctx.arg0 (sctx.arg2.setWidth 32) with
  | some x =>
    rw [on] at sought
    refine Ends.bind sought ?_
    dsimp only [Option.elim]
    cases (vk.host.lseek x sctx.arg1 (sctx.arg2.setWidth 32)).1 with
    | error e => exact ends_pure.2 ⟨rfl, rfl⟩
    | ok pos => exact ends_pure.2 ⟨rfl, rfl⟩
  | none =>
    rw [on] at sought
    exact Ends.bind sought (ends_pure.2 ⟨rfl, rfl⟩)

/-- The two outcomes on one state are compared. -/
theorem lseekAgrees_iff : LseekAgrees vk fd v whence ↔
    ((vk.lseekOutcome (lseekArgs .x86 fd v whence)).1 =
        (vk.lseekOutcome (lseekArgs .x86_64 fd v whence)).1 ∧
      (vk.lseekOutcome (lseekArgs .x86 fd v whence)).2.descriptions =
        (vk.lseekOutcome (lseekArgs .x86_64 fd v whence)).2.descriptions) := by
  have first := @ends_sysLseek (vk.on .x86) (lseekArgs .x86 fd v whence)
  have second := @ends_sysLseek (vk.on .x86_64) (lseekArgs .x86_64 fd v whence)
  constructor
  · rintro ⟨r, vk₁, vk₂, run₁, run₂, same⟩
    obtain ⟨rfl, rfl⟩ := run₁.unique first
    obtain ⟨result, rfl⟩ := run₂.unique second
    exact ⟨Except.ok.inj result, same⟩
  · rintro ⟨result, same⟩
    refine ⟨.ok (vk.lseekOutcome (lseekArgs .x86 fd v whence)).1,
      (vk.on .x86).withHost (vk.lseekOutcome (lseekArgs .x86 fd v whence)).2,
      (vk.on .x86_64).withHost (vk.lseekOutcome (lseekArgs .x86_64 fd v whence)).2,
      first, ?_, same⟩
    rw [result]
    exact second

/-! ## One seek on the host -/

/-- Where a seek lands. -/
def landing (target : Except U32 ℤ) : Except U32 ℤ :=
  target.bind fun pos => if pos < 0 ∨ 2 ^ 63 ≤ pos then .error EINVAL else .ok pos

/-- The word that reports where a seek lands. -/
def landingWord : Except U32 ℤ → U64
  | .ok pos => BitVec.ofInt 64 pos
  | .error e => negErrno e

/-- The descriptions once a seek has landed. -/
def landingDescriptions (h : Host) (d : ℕ) (f : Description) : Except U32 ℤ → List Description
  | .ok pos => h.descriptions.set d { f with pos := pos.toNat }
  | .error _ => h.descriptions

theorem lseek_landing {h : Host} {x : U32} {d : ℕ} {offset : U64} {target : Except U32 ℤ}
    (lookup : h.fds.lookup x = some d) (ok : h.answer.ok)
    (asked : Host.seekTarget (h.descriptions.getD d ⟨[], 0⟩) offset whence h.answer = target) :
    seekWord (h.lseek x offset whence).1 = landingWord (landing target) ∧
      (h.lseek x offset whence).2.descriptions =
        landingDescriptions h d (h.descriptions.getD d ⟨[], 0⟩) (landing target) := by
  simp only [Host.lseek, Host.onFd, Host.record_fds, lookup, if_pos ok, Host.record_descriptions,
    asked]
  cases target with
  | error e => exact ⟨rfl, rfl⟩
  | ok pos =>
    simp only [landing, Except.bind]
    split_ifs
    · exact ⟨rfl, rfl⟩
    · exact ⟨rfl, rfl⟩

/-- A seek lands within the signed range, or is refused. -/
def Landed (l : Except U32 ℤ) : Prop :=
  l = .error EINVAL ∨ l = .error ENXIO ∨ ∃ pos : ℤ, l = .ok pos ∧ 0 ≤ pos ∧ pos < 2 ^ 63

theorem landed_landing (f : Description) (offset : U64) (whence : U32) (a : HostAnswer) :
    Landed (landing (Host.seekTarget f offset whence a)) := by
  have range : ∀ pos : ℤ, Landed (landing (.ok pos)) := by
    intro pos
    simp only [landing, Except.bind]
    split_ifs with outside
    · exact .inl rfl
    · rw [not_or, not_lt, not_le] at outside
      exact .inr (.inr ⟨pos, rfl, outside⟩)
  rw [Host.seekTarget]
  split_ifs
  · exact range _
  · exact range _
  · exact range _
  · exact .inr (.inl rfl)
  · exact range _
  · exact .inl rfl

/-- The word tells where the seek landed. -/
theorem eq_of_landingWord {l l' : Except U32 ℤ} (landed : Landed l) (landed' : Landed l')
    (same : landingWord l = landingWord l') : l = l' := by
  have apart : ∀ {pos : ℤ} {e : U32}, 0 ≤ pos → pos < 2 ^ 63 → (negErrno e).toInt < 0 →
      landingWord (.ok pos) ≠ landingWord (.error e) := by
    intro pos e low high negative same
    have toInt : (BitVec.ofInt 64 pos).toInt = (negErrno e).toInt := congrArg BitVec.toInt same
    rw [BitVec.toInt_ofInt, Int.bmod_eq_of_le (by omega) (by omega)] at toInt
    omega
  rcases landed with rfl | rfl | ⟨pos, rfl, low, high⟩
  · rcases landed' with rfl | rfl | ⟨pos', rfl, low', high'⟩
    · rfl
    · cases same
    · exact (apart low' high' (by decide) same.symm).elim
  · rcases landed' with rfl | rfl | ⟨pos', rfl, low', high'⟩
    · cases same
    · rfl
    · exact (apart low' high' (by decide) same.symm).elim
  · rcases landed' with rfl | rfl | ⟨pos', rfl, low', high'⟩
    · exact (apart low high (by decide) same).elim
    · exact (apart low high (by decide) same).elim
    · have toInt : (BitVec.ofInt 64 pos).toInt = (BitVec.ofInt 64 pos').toInt :=
        congrArg BitVec.toInt same
      rw [BitVec.toInt_ofInt, BitVec.toInt_ofInt, Int.bmod_eq_of_le (by omega) (by omega),
        Int.bmod_eq_of_le (by omega) (by omega)] at toInt
      rw [toInt]

/-- A negative offset lands elsewhere when it is widened with zeros, wherever the host looks at
it. -/
theorem landing_eq_iff (whence : U32) {f : Description} {a : HostAnswer} {wide signed : U64} {n : ℤ}
    (isWide : wide.toInt = 2 ^ 32 + n) (isSigned : signed.toInt = n) (low : -2 ^ 31 ≤ n)
    (negative : n < 0) :
    landing (Host.seekTarget f wide whence a) = landing (Host.seekTarget f signed whence a) ↔
      ¬ (whence = seekSet ∨ whence = seekCur ∧ (f.pos : ℤ) + n < 2 ^ 63 ∨
        whence = seekEnd ∧ (f.content.length : ℤ) + n < 2 ^ 63 ∨
        (whence = seekData ∨ whence = seekHole) ∧ 2 ^ 32 + n < f.content.length) := by
  have relative : ∀ base : ℤ, 0 ≤ base → (landing (.ok (base + wide.toInt)) =
      landing (.ok (base + signed.toInt)) ↔ ¬ base + n < 2 ^ 63) := by
    intro base above
    simp only [landing, Except.bind, isWide, isSigned]
    split_ifs with outside outside' outside'
    · simp only [true_iff]
      omega
    · simp only [false_iff, not_not]
      omega
    · simp only [false_iff, not_not]
      omega
    · rw [Except.ok.injEq]
      omega
  simp only [Host.seekTarget]
  by_cases isSet : whence = seekSet
  · subst isSet
    have absolute := relative 0 le_rfl
    rw [Int.zero_add, Int.zero_add] at absolute
    rw [if_pos rfl, if_pos rfl, absolute]
    refine iff_of_false ?_ (not_not.2 (.inl rfl))
    omega
  rw [if_neg isSet, if_neg isSet]
  by_cases isCur : whence = seekCur
  · subst isCur
    rw [if_pos rfl, if_pos rfl, relative _ (Int.natCast_nonneg _)]
    simp [seekSet, seekCur, seekEnd, seekData, seekHole]
  rw [if_neg isCur, if_neg isCur]
  by_cases isEnd : whence = seekEnd
  · subst isEnd
    rw [if_pos rfl, if_pos rfl, relative _ (Int.natCast_nonneg _)]
    simp [seekSet, seekCur, seekEnd, seekData, seekHole]
  rw [if_neg isEnd, if_neg isEnd]
  by_cases extent : whence = seekData ∨ whence = seekHole
  · have before : signed.toInt < 0 ∨ (f.content.length : ℤ) ≤ signed.toInt :=
      .inl (by rwa [isSigned])
    rw [if_pos extent, if_pos extent, if_pos before, isWide]
    simp only [isSet, isCur, isEnd, extent, false_and, false_or, true_and]
    split_ifs with outside
    · simp only [true_iff]
      omega
    · refine iff_of_false ?_ ?_
      · simp only [landing, Except.bind]
        split_ifs
        · decide
        · simp
      · omega
  · rw [if_neg extent, if_neg extent]
    simp [isSet, isCur, isEnd, extent]

theorem toInt_truncate_signExtend (v : U32) : (Arch.x86.truncate (v.signExtend 64)).toInt =
    if 0 ≤ v.toInt then v.toInt else 2 ^ 32 + v.toInt := by
  have narrow : Arch.x86.truncate (v.signExtend 64) = v.setWidth 64 := by
    apply BitVec.eq_of_getLsbD_eq
    intro i hi
    simp only [Arch.truncate, BitVec.getLsbD_setWidth, BitVec.getLsbD_signExtend]
    by_cases low : i < 32
    · simp [low, hi]
    · simp [low, BitVec.getLsbD_of_ge v i (not_lt.1 low)]
  have small := v.isLt
  rw [narrow, BitVec.toInt_setWidth, Int.bmod_eq_of_le (by omega) (by omega),
    BitVec.toInt_eq_toNat_cond]
  split_ifs <;> omega

/-- Two granted seeks on an open descriptor have the same outcome when they land at the same
place. -/
theorem lseek_agree_iff {h : Host} {x : U32} {d : ℕ} {offset offset' : U64}
    (lookup : h.fds.lookup x = some d) (ok : h.answer.ok) :
    (seekWord (h.lseek x offset whence).1 = seekWord (h.lseek x offset' whence).1 ∧
        (h.lseek x offset whence).2.descriptions = (h.lseek x offset' whence).2.descriptions) ↔
      landing (Host.seekTarget (h.descriptions.getD d ⟨[], 0⟩) offset whence h.answer) =
        landing (Host.seekTarget (h.descriptions.getD d ⟨[], 0⟩) offset' whence h.answer) := by
  obtain ⟨word, files⟩ := @lseek_landing whence h x d offset _ lookup ok rfl
  obtain ⟨word', files'⟩ := @lseek_landing whence h x d offset' _ lookup ok rfl
  rw [word, word', files, files']
  constructor
  · rintro ⟨same, -⟩
    exact eq_of_landingWord (landed_landing ..) (landed_landing ..) same
  · intro same
    rw [same]
    exact ⟨rfl, rfl⟩

theorem lseek_closed {h : Host} {x : U32} (lookup : h.fds.lookup x = none) (offset : U64) :
    h.lseek x offset whence = (.error EBADF, (h.record (.lseek x offset whence)).fail EBADF) := by
  simp only [Host.lseek, Host.onFd, Host.record_fds, lookup]

theorem lseek_refused {h : Host} {x : U32} {d : ℕ} (lookup : h.fds.lookup x = some d)
    (refused : ¬ h.answer.ok) (offset : U64) : h.lseek x offset whence =
      (.error h.answer.errno, (h.record (.lseek x offset whence)).fail h.answer.errno) := by
  simp only [Host.lseek, Host.onFd, Host.record_fds, lookup, if_neg refused]

/-- An offset that is not negative is widened to the same word. -/
theorem lseekAgrees_of_nonneg (nonneg : 0 ≤ v.toInt) : LseekAgrees vk fd v whence := by
  have wide : Arch.x86.truncate (v.signExtend 64) = v.signExtend 64 := by
    rw [← BitVec.toInt_inj, toInt_truncate_signExtend, if_pos nonneg,
      BitVec.toInt_signExtend_of_le (by decide)]
  have same : lseekArgs .x86 fd v whence = lseekArgs .x86_64 fd v whence := by
    rw [lseekArgs, wide]
    rfl
  rw [lseekAgrees_iff, same]
  exact ⟨rfl, rfl⟩

/-- Both architectures agree on a seek exactly when the offset is not negative, or nothing looks at
it. -/
theorem lseekAgrees_iff_nonneg : LseekAgrees vk fd v whence ↔
    0 ≤ v.toInt ∨ ¬ OffsetMatters vk fd v whence := by
  by_cases nonneg : 0 ≤ v.toInt
  · exact iff_of_true (lseekAgrees_of_nonneg nonneg) (.inl nonneg)
  rw [lseekAgrees_iff, or_iff_right nonneg, OffsetMatters]
  have negative : v.toInt < 0 := not_le.1 nonneg
  have low : -2 ^ 31 ≤ v.toInt := BitVec.le_toInt v
  have isWide : (lseekArgs .x86 fd v whence).arg1.toInt = 2 ^ 32 + v.toInt := by
    rw [lseekArgs, toInt_truncate_signExtend, if_neg nonneg]
  have isSigned : (lseekArgs .x86_64 fd v whence).arg1.toInt = v.toInt :=
    BitVec.toInt_signExtend_of_le (by decide)
  have narrow : (whence.setWidth 64).setWidth 32 = whence := by
    rw [BitVec.setWidth_setWidth_of_le _ (by decide), BitVec.setWidth_eq]
  simp only [Valkyrie.lseekOutcome, show ∀ arch, (lseekArgs arch fd v whence).arg0 =
    fd.setWidth 64 from fun _ => rfl, show ∀ arch, (lseekArgs arch fd v whence).arg2 =
    whence.setWidth 64 from fun _ => rfl, narrow]
  cases on : vk.seeksOn (fd.setWidth 64) whence with
  | none => simp
  | some x =>
    dsimp only
    cases lookup : vk.host.fds.lookup x with
    | none =>
      rw [lseek_closed lookup, lseek_closed lookup]
      simp [lookup, Host.fail]
    | some d =>
      by_cases ok : vk.host.answer.ok
      · rw [lseek_agree_iff lookup ok, landing_eq_iff whence isWide isSigned low negative]
        apply not_congr
        constructor
        · exact fun matters => ⟨x, d, _, rfl, lookup, rfl, ok, matters⟩
        · rintro ⟨x', d', f, on', lookup', rfl, -, matters⟩
          cases on'
          rw [lookup] at lookup'
          cases lookup'
          exact matters
      · rw [lseek_refused lookup ok, lseek_refused lookup ok]
        refine iff_of_true ⟨rfl, rfl⟩ ?_
        rintro ⟨-, -, -, -, -, -, granted, -⟩
        exact ok granted

/-! ## Time values -/

/-- The words that hold a time value are read back from the low bits of its fields. -/
def Timespec.narrow (arch : Arch) (ts : Timespec) : Timespec where
  tvSec := (ts.tvSec.setWidth (8 * arch.wordWidth)).setWidth 64
  tvNsec := (ts.tvNsec.setWidth (8 * arch.wordWidth)).setWidth 64

/-- The fields fit the signed word of the guest. -/
def Timespec.Fits (ts : Timespec) : Arch → Prop
  | .x86 => (-2 ^ 31 ≤ ts.tvSec.toInt ∧ ts.tvSec.toInt < 2 ^ 31) ∧
      -2 ^ 31 ≤ ts.tvNsec.toInt ∧ ts.tvNsec.toInt < 2 ^ 31
  | .x86_64 => True

variable {addr : U64} {ts ts' : Timespec}

theorem ends_writeGuestTimespec : (writeGuestTimespec addr ts).Ends vk (.ok ()) vk' ↔
    ∃ uc uc', vk.uc.memWrite addr (toLeBytes vk.cfg.arch.wordWidth ts.tvSec) = .ok uc ∧
      uc.memWrite (addr + BitVec.ofNat 64 vk.cfg.arch.wordWidth)
        (toLeBytes vk.cfg.arch.wordWidth ts.tvNsec) = .ok uc' ∧ vk' = vk.withUc uc' := by
  have filled : ∀ v : U64, toLeBytes vk.cfg.arch.wordWidth v ≠ [] := by
    intro v
    cases vk.cfg.arch <;> exact List.cons_ne_nil _ _
  rw [writeGuestTimespec, ends_bind_get]
  simp only [guestWordWidth, writeWord, ends_bind_memWrite, ends_memWrite, VMemory.write_ok_iff,
    reduceCtorEq, false_and, and_false, exists_false, or_false, filled, ne_eq, not_false_eq_true,
    true_and, Valkyrie.withUc_uc, Valkyrie.withUc_withUc]
  constructor
  · rintro ⟨uc, first, uc', second, rfl⟩
    exact ⟨uc, uc', first, second, rfl⟩
  · rintro ⟨uc, uc', first, second, rfl⟩
    exact ⟨uc, first, uc', second, rfl⟩

theorem ends_readGuestTimespec : (readGuestTimespec addr).Ends vk (.ok ts) vk' ↔
    vk.uc.Mapped addr vk.cfg.arch.wordWidth ∧
    vk.uc.Mapped (addr + BitVec.ofNat 64 vk.cfg.arch.wordWidth) vk.cfg.arch.wordWidth ∧
    ts = ⟨fromLeBytes (vk.uc.contents addr vk.cfg.arch.wordWidth), fromLeBytes
      (vk.uc.contents (addr + BitVec.ofNat 64 vk.cfg.arch.wordWidth) vk.cfg.arch.wordWidth)⟩ ∧
    vk' = vk := by
  have sized : vk.cfg.arch.wordWidth < 2 ^ 63 ∧ vk.cfg.arch.wordWidth ≠ 0 := by
    cases vk.cfg.arch <;> decide
  rw [readGuestTimespec, ends_bind_get]
  simp only [guestWordWidth, readWord, ends_bind_ok, ends_memRead, ends_pure,
    eq_comm (b := VMemory.read _ _ _), VMemory.read_ok_iff, Unicorn.memRead_ok_iff, sized,
    true_and, Except.ok.injEq]
  constructor
  · rintro ⟨_, _, ⟨_, _, ⟨⟨-, mapped₁, rfl⟩, rfl⟩, rfl, rfl⟩, _, _, ⟨_, _, ⟨⟨-, mapped₂, rfl⟩, rfl⟩,
      rfl, rfl⟩, rfl, rfl⟩
    exact ⟨mapped₁, mapped₂, rfl, rfl⟩
  · rintro ⟨mapped₁, mapped₂, rfl, rfl⟩
    exact ⟨_, _, ⟨_, _, ⟨⟨sized.2, mapped₁, rfl⟩, rfl⟩, rfl, rfl⟩, _, _,
      ⟨_, _, ⟨⟨sized.2, mapped₂, rfl⟩, rfl⟩, rfl, rfl⟩, rfl, rfl⟩

/-- A time value that has been written is read back with narrow fields. -/
theorem ends_readGuestTimespec_of_write (wrote : (writeGuestTimespec addr ts).Ends vk (.ok ()) vk') :
    (readGuestTimespec addr).Ends vk' (.ok ts') vk' ↔ ts' = ts.narrow vk.cfg.arch := by
  obtain ⟨uc, uc', first, second, rfl⟩ := ends_writeGuestTimespec.1 wrote
  have mapped₁ := Unicorn.memWrite_ok_iff.1 ⟨uc, first⟩
  have mapped₂ := Unicorn.memWrite_ok_iff.1 ⟨uc', second⟩
  have same : ∀ x, uc'.protAt x = uc.protAt x ∧ uc.protAt x = vk.uc.protAt x := by
    intro x
    simp only [Unicorn.protAt, (Unicorn.memWrite_effect first).1,
      (Unicorn.memWrite_effect second).1, and_self]
  rw [length_toLeBytes] at mapped₁ mapped₂
  have apart : ∀ x, InRange addr vk.cfg.arch.wordWidth x → ¬ InRange
      (addr + BitVec.ofNat 64 vk.cfg.arch.wordWidth) (toLeBytes vk.cfg.arch.wordWidth
        ts.tvNsec).length x := by
    intro x below above
    rw [length_toLeBytes] at above
    unfold InRange at below above
    have width : vk.cfg.arch.wordWidth = 4 ∨ vk.cfg.arch.wordWidth = 8 := by
      cases vk.cfg.arch <;> decide
    rw [BitVec.toNat_add, BitVec.toNat_ofNat] at above
    omega
  have read₁ : uc'.contents addr vk.cfg.arch.wordWidth =
      toLeBytes vk.cfg.arch.wordWidth ts.tvSec := by
    rw [Unicorn.contents_of_memWrite_of_disjoint second mapped₁.1 apart]
    have := Unicorn.contents_of_memWrite first
    rwa [length_toLeBytes] at this
  have read₂ := Unicorn.contents_of_memWrite second
  rw [length_toLeBytes] at read₂
  rw [ends_readGuestTimespec]
  show _ ∧ _ ∧ ts' = ⟨fromLeBytes (uc'.contents addr vk.cfg.arch.wordWidth), fromLeBytes
    (uc'.contents (addr + BitVec.ofNat 64 vk.cfg.arch.wordWidth) vk.cfg.arch.wordWidth)⟩ ∧ _ ↔ _
  rw [read₁, read₂, fromLeBytes_toLeBytes, fromLeBytes_toLeBytes]
  constructor
  · exact fun read => read.2.2.1
  · intro narrow
    refine ⟨⟨mapped₁.1, fun x hx => ?_⟩, ⟨mapped₂.1, fun x hx => ?_⟩, narrow, rfl⟩
    · show (uc'.protAt x).isSome
      rw [(same x).1, (same x).2]
      exact mapped₁.2 x hx
    · show (uc'.protAt x).isSome
      rw [(same x).1]
      exact mapped₂.2 x hx

/-- The low half of a value that fits a signed 32-bit word is the value unless it is negative. -/
theorem setWidth_setWidth_eq_iff {v : U64} (low : -2 ^ 31 ≤ v.toInt) (high : v.toInt < 2 ^ 31) :
    v = (v.setWidth 32).setWidth 64 ↔ 0 ≤ v.toInt := by
  have small := v.isLt
  rw [← BitVec.toNat_inj, BitVec.toNat_setWidth, BitVec.toNat_setWidth]
  rw [BitVec.toInt_eq_toNat_cond] at low high ⊢
  split_ifs at low high ⊢ <;> omega

/-- Fields that fit the guest's word come back exactly when they are not negative, or the guest has
64 bits. -/
theorem eq_narrow_iff {arch : Arch} (fits : ts.Fits arch) : ts = ts.narrow arch ↔
    arch = .x86_64 ∨ 0 ≤ ts.tvSec.toInt ∧ 0 ≤ ts.tvNsec.toInt := by
  obtain ⟨tvSec, tvNsec⟩ := ts
  rw [Timespec.narrow, Timespec.mk.injEq]
  cases arch with
  | x86 =>
    obtain ⟨⟨secLow, secHigh⟩, nsecLow, nsecHigh⟩ := fits
    simp only [reduceCtorEq, false_or]
    exact and_congr (setWidth_setWidth_eq_iff secLow secHigh)
      (setWidth_setWidth_eq_iff nsecLow nsecHigh)
  | x86_64 =>
    refine iff_of_true ⟨?_, ?_⟩ (.inl rfl)
    · exact (BitVec.setWidth_eq _).symm
    · exact (BitVec.setWidth_eq _).symm

/-! ## Which signed words come through -/

/-- Both architectures agree on a seek exactly when the offset is not negative or nothing looks at
it; a time value that fits the guest's word is read back exactly when it has no negative field or
the guest has 64 bits. -/
theorem signed_words_exact (vk : Valkyrie) :
    (∀ fd v whence, LseekAgrees vk fd v whence ↔
      0 ≤ v.toInt ∨ ¬ OffsetMatters vk fd v whence) ∧
    ∀ vk' addr (ts : Timespec), ts.Fits vk.cfg.arch →
      (writeGuestTimespec addr ts).Ends vk (.ok ()) vk' →
      ((readGuestTimespec addr).Ends vk' (.ok ts) vk' ↔
        vk.cfg.arch = .x86_64 ∨ 0 ≤ ts.tvSec.toInt ∧ 0 ≤ ts.tvNsec.toInt) := by
  constructor
  · exact fun fd v whence => lseekAgrees_iff_nonneg
  · intro vk' addr ts fits wrote
    rw [ends_readGuestTimespec_of_write wrote, eq_narrow_iff fits]

/-- A 32-bit guest with one page and an open file. -/
def openFileOf32 : Valkyrie :=
  { Valkyrie.ofMemory .x86 ⟨[⟨0x1000, 0x1000, .all, "[heap]"⟩], 0, 0⟩ with
    host := { Host.refusing with
      answers := fun _ => ⟨true, 0, 0, 0, []⟩
      descriptions := [⟨[1, 2, 3], 2⟩]
      fds := AList.insert 5 0 ∅ } }

theorem signed_words_exact_fourBytes : ∃ vk',
    (writeGuestTimespec 0x1000 ⟨7, -1⟩).Ends openFileOf32 (.ok ()) vk' ∧
    ((readGuestTimespec 0x1000).Ends vk' (.ok ⟨7, -1⟩) vk' ↔
      Arch.x86 = .x86_64 ∨ 0 ≤ (7 : U64).toInt ∧ 0 ≤ (-1 : U64).toInt) := by
  have wrote : ∃ vk', (writeGuestTimespec 0x1000 ⟨7, -1⟩).Ends openFileOf32 (.ok ()) vk' :=
    ⟨_, rfl⟩
  obtain ⟨vk', wrote⟩ := wrote
  have fits : Timespec.Fits ⟨7, -1⟩ .x86 := ⟨⟨by decide, by decide⟩, by decide, by decide⟩
  exact ⟨vk', wrote, (signed_words_exact openFileOf32).2 vk' 0x1000 ⟨7, -1⟩ fits wrote⟩

/-- A seek one byte back leaves a 32-bit guest four gigabytes ahead, and a time before the epoch
comes back after it. -/
theorem negative_words_are_widened : ¬ LseekAgrees openFileOf32 5 (-1) seekCur ∧
    ∃ vk', (writeGuestTimespec 0x1000 ⟨-1, 0⟩).Ends openFileOf32 (.ok ()) vk' ∧
      (readGuestTimespec 0x1000).Ends vk' (.ok ⟨0xffffffff, 0⟩) vk' := by
  constructor
  · rw [lseekAgrees_iff]
    decide
  · have wrote : ∃ vk', (writeGuestTimespec 0x1000 ⟨-1, 0⟩).Ends openFileOf32 (.ok ()) vk' :=
      ⟨_, rfl⟩
    obtain ⟨vk', wrote⟩ := wrote
    exact ⟨vk', wrote, (ends_readGuestTimespec_of_write wrote).2 (by decide)⟩

end ValkyrieRs
