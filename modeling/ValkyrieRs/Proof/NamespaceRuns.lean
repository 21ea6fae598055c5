import Mathlib.Data.Set.Basic
import ValkyrieRs.Proof.Namespace

/-!
# Runs of calls on descriptors

As long as only `open`, `openat` and `dup` of tracked descriptors create descriptors and the
standard ones stay open, the live numbers are the standard and the tracked ones, and the host has no
descriptor besides theirs.
-/

namespace ValkyrieRs

open Proc

/-! ## Calls that keep the descriptors -/

/-- The files of the table and the open descriptors of the host are the same. -/
structure KeepsFiles (vk vk' : Valkyrie) : Prop where
  file : ∀ k, (vk'.fdTable.lookup k).map (·.file) = (vk.fdTable.lookup k).map (·.file)
  isOpen : ∀ x, vk'.host.IsOpen x ↔ vk.host.IsOpen x

variable {vk vk' : Valkyrie}

theorem KeepsFiles.refl (vk : Valkyrie) : KeepsFiles vk vk := ⟨fun _ => rfl, fun _ => Iff.rfl⟩

theorem KeepsFiles.trans {vk'' : Valkyrie} (h : KeepsFiles vk vk') (h' : KeepsFiles vk' vk'') :
    KeepsFiles vk vk'' :=
  ⟨fun k => (h'.file k).trans (h.file k), fun x => (h'.isOpen x).trans (h.isOpen x)⟩

/-- What each part of a procedure keeps, the whole keeps. -/
theorem KeepsFiles.of_within {α : Type} {m : VkM α} {r : Except ValkyrieError α}
    (h : m.Within KeepsFiles) (run : m.Ends vk r vk') : KeepsFiles vk vk' :=
  h.keeps (I := KeepsFiles vk) (fun _ _ step kept => kept.trans step) run (.refl vk)

/-- The host's descriptors are the same after the call. -/
def KeepsOpen {α : Type} (call : Host → α × Host) : Prop :=
  ∀ h x, (call h).2.IsOpen x ↔ h.IsOpen x

theorem keepsOpen_ask {α : Type} {call : HostCall} {result : HostAnswer → α} :
    KeepsOpen fun h => h.ask call result := by
  intro h x
  simp only [Host.ask]
  split_ifs
  · rfl
  · rfl

theorem keepsOpen_onFd {α : Type} {call : HostCall} {fd : U32}
    {effect : HostAnswer → ℕ → Host → Except U32 α × Host}
    (effects : ∀ a d, KeepsOpen (effect a d)) : KeepsOpen fun h => h.onFd call fd effect := by
  intro h x
  simp only [Host.onFd]
  cases (h.record call).fds.lookup fd with
  | none => rfl
  | some d =>
    dsimp only
    split_ifs
    · exact effects _ _ _ x
    · rfl

theorem keepsOpen_read {fd : U32} {n : ℕ} : KeepsOpen fun h => h.read fd n := by
  intro h x
  simp only [Host.read]
  cases (h.record (.read fd n)).fds.lookup fd with
  | none => rfl
  | some d =>
    dsimp only
    split_ifs
    · rfl
    · rfl

theorem keepsOpen_readStdin {n : ℕ} : KeepsOpen fun h => h.readStdin n := by
  intro h x
  simp only [Host.readStdin]
  split_ifs
  · rfl
  · rfl

theorem keepsOpen_lseek {fd : U32} {offset : U64} {whence : U32} :
    KeepsOpen fun h => h.lseek fd offset whence := by
  refine keepsOpen_onFd fun a d h x => ?_
  dsimp only
  cases Host.seekTarget (h.descriptions.getD d ⟨[], 0⟩) offset whence a with
  | error e => rfl
  | ok pos =>
    dsimp only
    split_ifs
    · rfl
    · rfl

theorem keepsOpen_fadvise {fd advice : U32} {offset len : U64} :
    KeepsOpen fun h => h.fadvise fd offset len advice := by
  intro h x
  simp only [Host.fadvise]
  split_ifs
  · rfl
  · rfl
  · rfl

theorem keepsOpen_write {fd : U32} {data : List U8} : KeepsOpen fun h => h.write fd data :=
  keepsOpen_onFd fun _ _ _ _ => Iff.rfl

theorem within_asked {α β : Type} {call : Host → Except U32 α × Host} {f : Except U32 α → VkM β}
    (keeps : KeepsOpen call) (error : ∀ e, (f (.error e)).Within KeepsFiles)
    (ok : ∀ a, (f (.ok a)).Within KeepsFiles) : (hostCall call >>= f).Within KeepsFiles := by
  refine Within.bind ?_ fun x => ?_
  · intro s r s' run
    obtain ⟨-, rfl⟩ := ends_hostCall.1 run
    exact .single ⟨fun _ => rfl, keeps s.host⟩
  · cases x with
    | error e => exact error e
    | ok a => exact ok a

theorem within_modify_files {g : Valkyrie → Valkyrie} (table : ∀ vk, (g vk).fdTable = vk.fdTable)
    (host : ∀ vk, (g vk).host = vk.host) : (modify g : VkM Unit).Within KeepsFiles :=
  within_modify fun vk => ⟨fun _ => by rw [table], fun _ => by rw [host]⟩

theorem ReadsOnly.keepsFiles {α : Type} {m : VkM α} (h : ReadsOnly m) : m.Within KeepsFiles :=
  h.mono fun _ _ same => same ▸ .refl _

theorem keepsFiles_hostAlloc {n : ℕ} : (hostAlloc n).Within KeepsFiles :=
  .ite (within_pure _) within_diverge

theorem keepsFiles_lastErrno : lastErrno.Within KeepsFiles :=
  within_get.bind fun _ => within_pure _

theorem keepsFiles_memWrite {addr : U64} {data : List U8} :
    (memWrite addr data).Within KeepsFiles :=
  within_get.bind fun _ => (within_ofExcept _).bind fun _ =>
    within_modify_files (fun _ => rfl) fun _ => rfl

theorem keepsFiles_memRead {addr : U64} {n : ℕ} : (memRead addr n).Within KeepsFiles :=
  readsOnly_memRead.keepsFiles

theorem keepsFiles_readFd {fd : U64} {count : ℕ} : (readFd fd count).Within KeepsFiles := by
  have reported : (lastErrno >>= fun e => pure (.error e) : VkM (Except U64 (List U8))).Within
      KeepsFiles := keepsFiles_lastErrno.bind fun _ => within_pure _
  refine within_get.bind fun vk => .ite (.ite ?_ (.ite ?_ (within_pure _))) ?_
  · refine Within.bind ?_ fun _ => within_pure _
    exact within_modify_files (fun _ => rfl) fun _ => rfl
  · exact within_asked keepsOpen_readStdin (fun _ => reported) fun _ => within_pure _
  · exact within_asked keepsOpen_read (fun _ => reported) fun _ => within_pure _

variable {sctx : SubCtx}

theorem keepsFiles_sysRead : (sysRead sctx).Within KeepsFiles := by
  refine .ite (within_pure _) (keepsFiles_hostAlloc.bind fun _ => keepsFiles_readFd.bind fun x => ?_)
  cases x with
  | error e => exact within_pure _
  | ok bytes => exact .ite (keepsFiles_memWrite.bind fun _ => within_pure _) (within_pure _)

theorem keepsFiles_sysWrite : (sysWrite sctx).Within KeepsFiles := by
  refine .ite (within_pure _) (keepsFiles_memRead.bind fun _ => within_get.bind fun _ => ?_)
  refine within_asked (fun h x => ?_) (fun _ => keepsFiles_lastErrno) fun _ => within_pure _
  split_ifs
  · exact keepsOpen_ask h x
  · exact keepsOpen_ask h x
  · exact keepsOpen_write h x

theorem keepsFiles_seekFd {fd offset : U64} {whence : U32} :
    (seekFd fd offset whence).Within KeepsFiles := by
  have asked : ∀ x, (hostCall fun h => h.lseek x offset whence).Within KeepsFiles := by
    intro x s r s' run
    obtain ⟨-, rfl⟩ := ends_hostCall.1 run
    exact .single ⟨fun _ => rfl, keepsOpen_lseek s.host⟩
  refine within_get.bind fun vk => .ite (asked _) ?_
  cases vk.fdTable.lookup fd with
  | none => exact asked _
  | some f => exact .ite (asked _) (within_pure _)

theorem keepsFiles_sysLseek : (sysLseek sctx).Within KeepsFiles := by
  refine keepsFiles_seekFd.bind fun x => ?_
  cases x with
  | error e => exact within_pure _
  | ok pos => exact within_pure _

theorem keepsFiles_ioctlBuffer {hostFd : U32} {request arg : U64} {buffer : List U8}
    {store : Bool} : (ioctlBuffer hostFd request arg buffer store).Within KeepsFiles := by
  refine within_asked (keepsOpen_onFd fun _ _ _ _ => Iff.rfl) (fun _ => keepsFiles_lastErrno)
    fun _ => .ite ?_ (within_pure _)
  exact keepsFiles_memWrite.bind fun _ => within_pure _

theorem keepsFiles_sysIoctl : (sysIoctl sctx).Within KeepsFiles := by
  refine .ite (within_pure _) (within_get.bind fun vk => ?_)
  cases hostFdForGuest vk.fdTable ((sctx.arg0.setWidth 32 : U32).signExtend 64) with
  | none => exact within_pure _
  | some hostFd =>
    refine .ite (.ite (within_pure _) ?_) (.ite (.ite (within_pure _) keepsFiles_ioctlBuffer)
      (.ite ?_ (.ite (within_pure _) ?_)))
    · exact .ite (keepsFiles_memRead.bind fun _ => keepsFiles_ioctlBuffer) keepsFiles_ioctlBuffer
    · exact within_asked (keepsOpen_onFd fun _ _ _ _ => Iff.rfl) (fun _ => keepsFiles_lastErrno)
        fun _ => within_pure _
    · exact .ite (keepsFiles_memRead.bind fun _ => keepsFiles_ioctlBuffer) keepsFiles_ioctlBuffer

theorem keepsFiles_sysGetdents64 : (sysGetdents64 sctx).Within KeepsFiles := by
  refine .ite (within_pure _) (.ite (within_pure _) (within_get.bind fun vk => ?_))
  cases hostFdForGuest vk.fdTable ((sctx.arg0.setWidth 32 : U32).signExtend 64) with
  | none => exact within_pure _
  | some hostFd =>
    refine keepsFiles_hostAlloc.bind fun _ => within_asked (keepsOpen_onFd fun _ _ _ _ => Iff.rfl)
      (fun _ => keepsFiles_lastErrno) fun _ => .ite (within_pure _) ?_
    exact keepsFiles_memWrite.bind fun _ => within_pure _

theorem keepsFiles_sysFadvise64 : (sysFadvise64 sctx).Within KeepsFiles := by
  refine .ite (within_pure _) (within_get.bind fun vk => ?_)
  dsimp only
  cases hostFdForGuest vk.fdTable ((sctx.arg0.setWidth 32 : U32).signExtend 64) with
  | none => exact within_pure _
  | some hostFd =>
    exact within_asked keepsOpen_fadvise (fun _ => within_pure _) fun _ => within_pure _

/-! ## The guest's calls -/

/-- The calls on the guest's descriptors. -/
inductive GuestCall where
  | fd (c : FdCall)
  | «open»
  | openat
  | fcntl
  | socket
  | socketpair
  | epollCreate1
  | timerfdCreate
deriving DecidableEq

/-- The handler of the call. -/
def GuestCall.handler : GuestCall → SubCtx → VkM U64
  | .fd c => c.handler
  | .open => sysOpen
  | .openat => sysOpenat
  | .fcntl => sysFcntl
  | .socket => sysSocket
  | .socketpair => sysSocketpair
  | .epollCreate1 => sysEpollCreate1
  | .timerfdCreate => sysTimerfdCreate

/-- The result of the call is a new descriptor, unless it is an error number. -/
def GuestCall.Creates (sctx : SubCtx) : GuestCall → Prop
  | .fd .dup => True
  | .fd _ => False
  | .fcntl => sctx.arg1.setWidth 32 = fDupfd
  | .socketpair => False
  | _ => True

/-- The number is one of the two that `socketpair` has stored. -/
def StoredPair (vk : Valkyrie) (sctx : SubCtx) (n : U64) : Prop :=
  ∃ slot ∈ [sctx.arg3, sctx.arg3 + 4], ∃ bytes, VMemory.read vk.uc slot 4 = .ok bytes ∧
    n = ((fromLeBytes bytes).setWidth 32 : U32).signExtend 64

/-- The call returns the number as a new descriptor. -/
def GuestCall.Returned (c : GuestCall) (sctx : SubCtx) (r : Except ValkyrieError U64)
    (vk' : Valkyrie) (n : U64) : Prop :=
  c.Creates sctx ∧ r = .ok n ∧ ¬ IsNegErrno n ∨
    c = .socketpair ∧ r = .ok 0 ∧ StoredPair vk' sctx n

/-- The call closes the number. -/
def GuestCall.Closed (c : GuestCall) (sctx : SubCtx) (r : Except ValkyrieError U64) (n : U64) :
    Prop :=
  c = .fd .close ∧ r = .ok 0 ∧ n = sctx.arg0

/-- The live numbers after a call. -/
def GuestCall.liveAfter (c : GuestCall) (sctx : SubCtx) (r : Except ValkyrieError U64)
    (vk' : Valkyrie) (live : Set U64) : Set U64 :=
  {n | n ∈ live ∧ ¬ c.Closed sctx r n ∨ c.Returned sctx r vk' n}

/-- The standard descriptors are live from the start. -/
def stdFds : Set U64 := {n | n ≤ 2}

/-- No standard descriptor is closed, no number that is not live but has the low 32 bits of a live
one either, and the host refuses to create descriptors that the table does not record. -/
def GuestCall.Proper (sctx : SubCtx) (vk : Valkyrie) (live : Set U64) : GuestCall → Prop
  | .fd .close => ¬ sctx.arg0 ≤ 2 ∧ (sctx.arg0 ∈ live ∨ sctx.lowFd ∉ live)
  | .fd .dup => sctx.arg0.setWidth 32 ≤ (2 : U32) → ¬ vk.host.answer.ok
  | .fcntl => sctx.arg1.setWidth 32 = fDupfd ∨ sctx.arg1.setWidth 32 = fDupfdCloexec →
      ¬ vk.host.IsOpen (sctx.arg0.setWidth 32) ∨ ¬ vk.host.answer.ok
  | .socket => ¬ vk.host.answer.ok
  | .socketpair => sctx.arg3 ≠ 0 → ¬ vk.host.answer.ok
  | .epollCreate1 => ¬ vk.host.answer.ok
  | .timerfdCreate => ¬ vk.host.answer.ok
  | _ => True

/-- The number is live, or its low 32 bits are no live number either and the call looks at it. -/
def FdCall.Tells (c : FdCall) (vk : Valkyrie) (live : Set U64) (sctx : SubCtx) : Prop :=
  sctx.arg0 ∈ live ∨ sctx.lowFd ∉ live ∧ c.LooksAt vk sctx

/-- An allowed call, or anything that keeps the descriptors. -/
inductive NamespaceStep (allowed : SubCtx → Valkyrie → Set U64 → GuestCall → Prop) :
    Valkyrie × Set U64 → Valkyrie × Set U64 → Prop
  | call {vk vk' : Valkyrie} {live : Set U64} {sctx : SubCtx} {r : Except ValkyrieError U64}
      (c : GuestCall) : LegalAnswer vk.host → allowed sctx vk live c →
      (c.handler sctx).Ends vk r vk' →
      NamespaceStep allowed (vk, live) (vk', c.liveAfter sctx r vk' live)
  | other {vk vk' : Valkyrie} {live : Set U64} : KeepsFiles vk vk' →
      NamespaceStep allowed (vk, live) (vk', live)

/-! ## The invariant -/

/-- The live numbers are the standard and the tracked ones, and the host has no others. -/
structure NamespaceSound (vk : Valkyrie) (live : Set U64) : Prop where
  table : TableSound vk
  nonneg : ∀ k f, vk.fdTable.lookup k = some f → 0 ≤ f.file.toInt
  live_iff : ∀ k, k ∈ live ↔ k ≤ 2 ∨ ∃ f, vk.fdTable.lookup k = some f
  isOpen : ∀ x, vk.host.IsOpen x → x.signExtend 64 ∈ live

variable {live : Set U64}

theorem NamespaceSound.dead (h : NamespaceSound vk live) (notLive : sctx.arg0 ∉ live)
    (low : sctx.lowFd ∉ live) : Dead vk sctx where
  other std := notLive ((h.live_iff _).2 (.inl std))
  untracked := by
    cases found : vk.fdTable.lookup sctx.arg0 with
    | none => rfl
    | some f => exact (notLive ((h.live_iff _).2 (.inr ⟨f, found⟩))).elim
  lowOther std := low ((h.live_iff _).2 (.inl std))
  lowUntracked := by
    cases found : vk.fdTable.lookup sctx.lowFd with
    | none => rfl
    | some f => exact (low ((h.live_iff _).2 (.inr ⟨f, found⟩))).elim
  closed isOpen := low (h.isOpen _ isOpen)

theorem signExtend_of_le_two {n : U64} (std : n ≤ 2) :
    (n.setWidth 32 : U32).signExtend 64 = n ∧ ¬ (n.setWidth 32 : U32).toInt < 0 := by
  have small : n = 0 ∨ n = 1 ∨ n = 2 := by bv_omega
  rcases small with rfl | rfl | rfl
  · decide
  · decide
  · decide

theorem NamespaceSound.alive (h : NamespaceSound vk live) (isLive : sctx.arg0 ∈ live) :
    Alive vk sctx := by
  rcases (h.live_iff _).1 isLive with std | ⟨f, tracked⟩
  · obtain ⟨low, nonneg⟩ := signExtend_of_le_two std
    have raw : behind vk sctx.arg0 = sctx.arg0.setWidth 32 := by
      rw [behind, tableOrRaw]
      cases found : vk.fdTable.lookup sctx.arg0 with
      | none => rfl
      | some f => exact (h.table.not_std found std).elim
    refine ⟨.inl std, low, nonneg, ?_, ?_⟩
    · rw [hostFdForGuest, if_pos std, raw]
    · rw [raw]
      exact h.table.std _ (by bv_omega)
  · have number := h.table.number _ _ tracked
    have file : (sctx.arg0.setWidth 32 : U32) = f.file := by
      rw [← number, setWidth_signExtend]
    have behind_ : behind vk sctx.arg0 = f.file := by rw [behind, tableOrRaw, tracked]
    refine ⟨.inr ⟨f, tracked⟩, ?_, ?_, ?_, ?_⟩
    · rw [SubCtx.lowFd, file, number]
    · rw [file]
      exact not_lt.2 (h.nonneg _ _ tracked)
    · rw [hostFdForGuest, if_neg (h.table.not_std tracked), tracked, behind_]
      rfl
    · rw [behind_]
      exact h.table.isOpen _ _ tracked

theorem NamespaceSound.answersExactly (h : NamespaceSound vk live) (answered : WellAnswered vk.host)
    {c : FdCall} (tells : c.Tells vk live sctx) : AnswersExactly vk live c sctx where
  dead notLive := by
    obtain ⟨low, looks⟩ := tells.resolve_left notLive
    exact (h.dead notLive low).answers looks
  alive isLive _ _ _ run := (h.alive isLive).answers answered run

/-! ## What keeps it -/

theorem NamespaceSound.keep (h : NamespaceSound vk live) (keeps : KeepsFiles vk vk') :
    NamespaceSound vk' live := by
  have before : ∀ k f, vk'.fdTable.lookup k = some f →
      ∃ g, vk.fdTable.lookup k = some g ∧ g.file = f.file := by
    intro k f found
    have same := keeps.file k
    rw [found, Option.map_some] at same
    obtain ⟨g, tracked, file⟩ := Option.map_eq_some_iff.1 same.symm
    exact ⟨g, tracked, file⟩
  have tracked_iff : ∀ k, (∃ f, vk'.fdTable.lookup k = some f) ↔
      ∃ f, vk.fdTable.lookup k = some f := by
    intro k
    rw [← Option.isSome_iff_exists, ← Option.isSome_iff_exists, ← Option.isSome_map,
      keeps.file k, Option.isSome_map]
  refine ⟨⟨?_, ?_, ?_, ?_⟩, ?_, ?_, ?_⟩
  · intro k f found
    obtain ⟨g, tracked, file⟩ := before k f found
    rw [← file, h.table.number k g tracked]
  · intro k f found
    obtain ⟨g, tracked, file⟩ := before k f found
    exact file ▸ h.table.other k g tracked
  · intro k f found
    obtain ⟨g, tracked, file⟩ := before k f found
    exact (keeps.isOpen _).2 (file ▸ h.table.isOpen k g tracked)
  · exact fun fd std => (keeps.isOpen fd).2 (h.table.std fd std)
  · intro k f found
    obtain ⟨g, tracked, file⟩ := before k f found
    exact file ▸ h.nonneg k g tracked
  · exact fun k => (h.live_iff k).trans (or_congr_right (tracked_iff k).symm)
  · exact fun x isOpen => h.isOpen x ((keeps.isOpen x).1 isOpen)

/-- The host opens a descriptor and the table records it under its number. -/
theorem NamespaceSound.create {host : Host} {f : VkFile} (h : NamespaceSound vk live)
    (fresh : ¬ vk.host.IsOpen f.file) (nonneg : 0 ≤ f.file.toInt)
    (opens : ∀ x, host.IsOpen x ↔ x = f.file ∨ vk.host.IsOpen x) :
    NamespaceSound ((vk.withHost host).insertFile (f.file.signExtend 64) f)
      {n | n ∈ live ∨ n = f.file.signExtend 64} := by
  have unowned := h.table.unowned_of_closed fresh
  have other : 2 < f.file := by
    by_contra std
    exact fresh (h.table.std _ (by bv_omega))
  have more : TableSound (vk.withHost host) :=
    h.table.withHost fun x isOpen => (opens x).2 (.inr isOpen)
  have lookup : ∀ k, ((vk.withHost host).insertFile (f.file.signExtend 64) f).fdTable.lookup k =
      if k = f.file.signExtend 64 then some f else vk.fdTable.lookup k := by
    intro k
    show (vk.fdTable.insert (f.file.signExtend 64) f).lookup k = _
    split_ifs with same
    · rw [same, AList.lookup_insert]
    · exact AList.lookup_insert_ne same
  have absent := h.table.unowned_iff.1 unowned
  have host_ : ((vk.withHost host).insertFile (f.file.signExtend 64) f).host = host := by
    simp [Valkyrie.insertFile, absent]
  refine ⟨more.insertFile unowned ((opens _).2 (.inl rfl)) other, ?_, ?_, ?_⟩
  · intro k g found
    rw [lookup] at found
    split_ifs at found
    · exact Option.some_inj.1 found ▸ nonneg
    · exact h.nonneg k g found
  · intro k
    rw [lookup]
    show k ∈ live ∨ k = _ ↔ _
    rw [h.live_iff k]
    split_ifs with same
    · simp [same]
    · simp [same]
  · intro x isOpen
    rw [host_, opens] at isOpen
    rcases isOpen with rfl | isOpen
    · exact .inr rfl
    · exact .inl (h.isOpen x isOpen)

/-- A tracked descriptor is closed. -/
theorem NamespaceSound.remove {k : U64} {f : VkFile} (h : NamespaceSound vk live)
    (tracked : vk.fdTable.lookup k = some f) :
    NamespaceSound (vk.removeFile k f) {n | n ∈ live ∧ n ≠ k} := by
  have lookup : ∀ n, (vk.removeFile k f).fdTable.lookup n =
      if n = k then none else vk.fdTable.lookup n := by
    intro n
    show (vk.fdTable.erase k).lookup n = _
    split_ifs with same
    · rw [same, AList.lookup_erase]
    · exact AList.lookup_erase_ne same
  refine ⟨h.table.removeFile tracked, ?_, ?_, ?_⟩
  · intro n g found
    rw [lookup] at found
    split_ifs at found
    exact h.nonneg n g found
  · intro n
    rw [lookup]
    show n ∈ live ∧ n ≠ k ↔ _
    rw [h.live_iff n]
    split_ifs with same
    · subst same
      refine iff_of_false (fun bad => bad.2 rfl) ?_
      rintro (std | ⟨g, ⟨⟩⟩)
      exact h.table.not_std tracked std
    · simp [same]
  · intro x isOpen
    obtain ⟨ne, isOpen⟩ := Host.isOpen_close.1 isOpen
    refine ⟨h.isOpen x isOpen, fun same => ne (signExtend_inj ?_)⟩
    rw [same, h.table.number k f tracked]

/-! ## One call -/

section LiveAfter

variable {c : GuestCall} {r : Except ValkyrieError U64}

theorem Refused.ne_zero (refused : Refused r) : r ≠ .ok 0 := by
  rintro rfl
  exact absurd (refused 0 rfl) (by decide)

theorem liveAfter_of_refused (refused : Refused r) : c.liveAfter sctx r vk' live = live := by
  ext n
  constructor
  · rintro (⟨old, -⟩ | ⟨-, same, ok⟩ | ⟨-, zero, -⟩)
    · exact old
    · exact (ok (refused n same)).elim
    · exact (refused.ne_zero zero).elim
  · exact fun old => .inl ⟨old, fun closed => refused.ne_zero closed.2.1⟩

theorem liveAfter_of_not_creates (creates : ¬ c.Creates sctx) (other : c ≠ .socketpair)
    (notClose : c ≠ .fd .close) : c.liveAfter sctx r vk' live = live := by
  ext n
  constructor
  · rintro (⟨old, -⟩ | ⟨yes, -⟩ | ⟨pair, -⟩)
    · exact old
    · exact (creates yes).elim
    · exact (other pair).elim
  · exact fun old => .inl ⟨old, fun closed => notClose closed.1⟩

theorem liveAfter_of_created {v : U64} (creates : c.Creates sctx) (other : c ≠ .socketpair)
    (notClose : c ≠ .fd .close) (number : ¬ IsNegErrno v) :
    c.liveAfter sctx (.ok v) vk' live = {n | n ∈ live ∨ n = v} := by
  ext n
  constructor
  · rintro (⟨old, -⟩ | ⟨-, same, -⟩ | ⟨pair, -⟩)
    · exact .inl old
    · exact .inr (Except.ok.inj same).symm
    · exact (other pair).elim
  · rintro (old | rfl)
    · exact .inl ⟨old, fun closed => notClose closed.1⟩
    · exact .inr (.inl ⟨creates, rfl, number⟩)

theorem liveAfter_of_closed : (GuestCall.fd .close).liveAfter sctx (.ok 0) vk' live =
    {n | n ∈ live ∧ n ≠ sctx.arg0} := by
  ext n
  constructor
  · rintro (⟨old, kept⟩ | ⟨creates, -⟩ | ⟨pair, -⟩)
    · exact ⟨old, fun same => kept ⟨rfl, rfl, same⟩⟩
    · exact creates.elim
    · cases pair
  · exact fun ⟨old, ne⟩ => .inl ⟨old, fun closed => ne closed.2.2⟩

end LiveAfter

/-- A call is refused and keeps the descriptors, or creates one that the table records. -/
def RefusedOrCreated (vk : Valkyrie) (out : Except ValkyrieError U64 × Valkyrie) : Prop :=
  Refused out.1 ∧ KeepsFiles vk out.2 ∨
    ∃ f host, out = (.ok (f.file.signExtend 64),
        (vk.withHost host).insertFile (f.file.signExtend 64) f) ∧
      vk.host.answer.ok ∧ f.file = vk.host.answer.fd ∧
      ∀ x, host.IsOpen x ↔ x = f.file ∨ vk.host.IsOpen x

theorem keepsFiles_withHost {host : Host} (opens : ∀ x, host.IsOpen x ↔ vk.host.IsOpen x) :
    KeepsFiles vk (vk.withHost host) := ⟨fun _ => rfl, opens⟩

theorem not_isNegErrno_signExtend {x : U32} (nonneg : 0 ≤ x.toInt) :
    ¬ IsNegErrno (x.signExtend 64) := by
  have msb : x.msb = false := by
    rw [BitVec.msb_eq_toInt]
    simpa using nonneg
  rw [IsNegErrno, BitVec.signExtend_eq_setWidth_of_msb_false msb]
  bv_omega

theorem refused_dupHost {fd : U32} (legal : LegalAnswer vk.host) (std : vk.host.IsOpen fd)
    (refuses : ¬ vk.host.answer.ok) :
    Refused (vk.dupHost fd).1 ∧ KeepsFiles vk (vk.dupHost fd).2 := by
  obtain ⟨d, found⟩ := Option.isSome_iff_exists.1 std
  have out : vk.host.dup fd = (.error vk.host.answer.errno,
      (vk.host.record (.dup fd)).fail vk.host.answer.errno) := by
    simp only [Host.dup, Host.record_fds, found]
    exact if_neg refuses
  simp only [Valkyrie.dupHost, out]
  exact ⟨refused_negErrno legal.isErrno, keepsFiles_withHost fun _ => Iff.rfl⟩

theorem refusedOrCreated_opened {dirfd flags mode : U32} {hostPath : List Char}
    (legal : LegalAnswer vk.host) :
    RefusedOrCreated vk (vk.opened dirfd hostPath flags mode) := by
  rw [Valkyrie.opened, Host.openat]
  dsimp only
  by_cases ok : vk.host.answer.ok
  · rw [if_pos ok]
    refine .inr ⟨⟨vk.host.answer.fd, hostPath, flags.signExtend 64, mode.setWidth 64⟩, _, rfl, ok,
      rfl, ?_⟩
    exact Host.isOpen_of_insert rfl
  · rw [if_neg ok]
    exact .inl ⟨refused_negErrno legal.isErrno, keepsFiles_withHost fun _ => Iff.rfl⟩

theorem refusedOrCreated_duplicated {f : VkFile} (legal : LegalAnswer vk.host) :
    RefusedOrCreated vk (vk.duplicated f) := by
  rw [Valkyrie.duplicated, Host.dup]
  dsimp only
  rw [Host.record_fds]
  cases found : vk.host.fds.lookup f.file with
  | none =>
    exact .inl ⟨refused_negErrno (e := EBADF) (by decide), keepsFiles_withHost fun _ => Iff.rfl⟩
  | some d =>
    dsimp only
    by_cases ok : vk.host.answer.ok
    · rw [if_pos ok]
      refine .inr ⟨{ f with file := vk.host.answer.fd }, _, rfl, ok, rfl, ?_⟩
      exact Host.isOpen_of_insert rfl
    · rw [if_neg ok]
      exact .inl ⟨refused_negErrno legal.isErrno, keepsFiles_withHost fun _ => Iff.rfl⟩

/-- Such a call keeps the invariant. -/
theorem NamespaceSound.created {c : GuestCall} {r : Except ValkyrieError U64}
    (h : NamespaceSound vk live) (legal : LegalAnswer vk.host)
    (creates : c.Creates sctx) (other : c ≠ .socketpair) (notClose : c ≠ .fd .close)
    (out : RefusedOrCreated vk (r, vk')) : NamespaceSound vk' (c.liveAfter sctx r vk' live) := by
  rcases out with ⟨refused, keeps⟩ | ⟨f, host, same, ok, file, opens⟩
  · rw [liveAfter_of_refused refused]
    exact h.keep keeps
  · cases same
    have nonneg : 0 ≤ f.file.toInt := file ▸ legal.nonneg
    rw [liveAfter_of_created creates other notClose (not_isNegErrno_signExtend nonneg)]
    exact h.create (file ▸ legal.fresh ok) nonneg opens

theorem NamespaceSound.refused {c : GuestCall} {r : Except ValkyrieError U64}
    (h : NamespaceSound vk live) (refused : Refused r) (keeps : KeepsFiles vk vk') :
    NamespaceSound vk' (c.liveAfter sctx r vk' live) := by
  rw [liveAfter_of_refused refused]
  exact h.keep keeps

/-- A call that hands out what the host creates is refused by the host. -/
theorem handOut_refused {call : HostCall} {content : HostAnswer → List U8}
    {r : Except ValkyrieError U64} (legal : LegalAnswer vk.host) (refuses : ¬ vk.host.answer.ok)
    (run : (handOut fun h => h.newFd call content).Ends vk r vk') :
    Refused r ∧ KeepsFiles vk vk' := by
  have out : vk.host.newFd call content = (.error vk.host.answer.errno,
      (vk.host.record call).fail vk.host.answer.errno) := if_neg refuses
  rw [handOut, ends_bind_hostCall, out] at run
  obtain ⟨rfl, rfl⟩ := ends_lastErrno.1 run
  exact ⟨refused_negErrno legal.isErrno, keepsFiles_withHost fun _ => Iff.rfl⟩

theorem sysSocketpair_refused {r : Except ValkyrieError U64} (legal : LegalAnswer vk.host)
    (refuses : sctx.arg3 ≠ 0 → ¬ vk.host.answer.ok) (run : (sysSocketpair sctx).Ends vk r vk') :
    Refused r ∧ KeepsFiles vk vk' := by
  by_cases zero : sctx.arg3 = 0
  · simp only [sysSocketpair, zero, if_true] at run
    obtain ⟨rfl, rfl⟩ := ends_pure.1 run
    exact ⟨refused_negErrno (by decide), .refl _⟩
  · simp only [sysSocketpair, zero, if_false] at run
    rw [ends_bind_hostCall, Host.socketpair] at run
    rw [if_neg (refuses zero)] at run
    obtain ⟨rfl, rfl⟩ := ends_lastErrno.1 run
    exact ⟨refused_negErrno legal.isErrno, keepsFiles_withHost fun _ => Iff.rfl⟩

/-- `fcntl` reports an error of the host, or is done by it. -/
theorem sysFcntl_cases {r : Except ValkyrieError U64} {ret : Except U32 U32} {host : Host}
    (out : vk.host.fcntl (sctx.arg0.setWidth 32) (sctx.arg1.setWidth 32) (sctx.arg2.setWidth 32) =
      (ret, host)) (run : (sysFcntl sctx).Ends vk r vk') :
    r = .ok (negErrno EBADF) ∧ vk' = vk ∨
      (∃ e, ret = .error e) ∧ r = .ok (negErrno host.errno) ∧ vk' = vk.withHost host ∨
      (∃ v, ret = .ok v) ∧ KeepsFiles (vk.withHost host) vk' := by
  simp only [sysFcntl] at run
  by_cases negative : (sctx.arg0.setWidth 32 : U32).toInt < 0
  · rw [if_pos negative] at run
    exact .inl (ends_pure.1 run)
  rw [if_neg negative, ends_bind_hostCall, out] at run
  cases ret with
  | error e =>
    dsimp only at run
    rw [ends_lastErrno] at run
    exact .inr (.inl ⟨⟨e, rfl⟩, run⟩)
  | ok v =>
    refine .inr (.inr ⟨⟨v, rfl⟩, ?_⟩)
    dsimp only at run
    split_ifs at run
    · rw [ends_bind_get] at run
      cases found : (vk.withHost host).fdTable.lookup
          ((sctx.arg0.setWidth 32 : U32).signExtend 64) with
      | none =>
        rw [found] at run
        rw [(ends_pure.1 run).2]
        exact .refl _
      | some f =>
        rw [found] at run
        dsimp only at run
        rw [ends_bind_modify] at run
        rw [(ends_pure.1 run).2]
        refine ⟨fun k => ?_, fun _ => Iff.rfl⟩
        by_cases same : k = (sctx.arg0.setWidth 32 : U32).signExtend 64
        · subst same
          rw [found]
          have inserted := AList.lookup_insert (vk.withHost host).fdTable
            (a := (sctx.arg0.setWidth 32 : U32).signExtend 64)
            (b := { f with flags := (sctx.arg2.setWidth 32 : U32).signExtend 64 })
          exact (congrArg (Option.map fun g : VkFile => g.file) inserted).trans rfl
        · exact congrArg _ (AList.lookup_insert_ne same)
    · rw [(ends_pure.1 run).2]
      exact .refl _

/-- A command that does not duplicate keeps the descriptors of the host. -/
theorem fcntl_isOpen {h : Host} {fd cmd arg : U32} (other : ¬ (cmd = fDupfd ∨ cmd = fDupfdCloexec))
    (x : U32) : (h.fcntl fd cmd arg).2.IsOpen x ↔ h.IsOpen x := by
  refine keepsOpen_onFd (fun a d h x => ?_) h x
  rw [if_neg other]

theorem fcntl_errno {h : Host} {fd cmd arg e : U32} (legal : LegalAnswer h)
    (error : (h.fcntl fd cmd arg).1 = .error e) :
    IsNegErrno (negErrno (h.fcntl fd cmd arg).2.errno) ∧
      ∀ x, (h.fcntl fd cmd arg).2.IsOpen x ↔ h.IsOpen x := by
  simp only [Host.fcntl, Host.onFd, Host.record_fds] at error ⊢
  cases found : h.fds.lookup fd with
  | none => exact ⟨(by decide : IsNegErrno (negErrno EBADF)), fun _ => Iff.rfl⟩
  | some d =>
    simp only [found] at error ⊢
    split_ifs at error ⊢ with ok
    exact ⟨legal.isErrno, fun _ => Iff.rfl⟩

/-- A command that duplicates is refused. -/
theorem fcntl_refused {h : Host} {fd cmd arg : U32} {v : U32}
    (refuses : ¬ h.IsOpen fd ∨ ¬ h.answer.ok) : (h.fcntl fd cmd arg).1 ≠ .ok v := by
  intro done
  simp only [Host.fcntl, Host.onFd, Host.record_fds] at done
  cases found : h.fds.lookup fd with
  | none => simp [found] at done
  | some d =>
    have refused : ¬ h.answer.ok := refuses.resolve_left (not_not.2 (by simp [Host.IsOpen, found]))
    simp only [found] at done
    rw [if_neg refused] at done
    cases done

theorem NamespaceSound.fcntl {r : Except ValkyrieError U64} (h : NamespaceSound vk live)
    (legal : LegalAnswer vk.host) (proper : GuestCall.Proper sctx vk live .fcntl)
    (run : (sysFcntl sctx).Ends vk r vk') :
    NamespaceSound vk' (GuestCall.fcntl.liveAfter sctx r vk' live) := by
  rcases sysFcntl_cases (Prod.eta _).symm run with
    ⟨rfl, rfl⟩ | ⟨⟨e, error⟩, rfl, rfl⟩ | ⟨⟨v, ok⟩, keeps⟩
  · exact h.refused (refused_negErrno (by decide)) (.refl _)
  · obtain ⟨number, opens⟩ := fcntl_errno legal error
    exact h.refused (refused_negErrno number) (keepsFiles_withHost opens)
  · have other : ¬ (sctx.arg1.setWidth 32 = fDupfd ∨ sctx.arg1.setWidth 32 = fDupfdCloexec) :=
      fun dup => fcntl_refused (proper dup) ok
    rw [show GuestCall.fcntl.liveAfter sctx r vk' live = live from
      liveAfter_of_not_creates (fun dup => other (.inl dup)) nofun nofun]
    exact h.keep ((keepsFiles_withHost (fcntl_isOpen other)).trans keeps)

theorem NamespaceSound.dup {r : Except ValkyrieError U64} (h : NamespaceSound vk live)
    (legal : LegalAnswer vk.host) (proper : GuestCall.Proper sctx vk live (.fd .dup))
    (run : (sysDup sctx).Ends vk r vk') :
    NamespaceSound vk' ((GuestCall.fd .dup).liveAfter sctx r vk' live) := by
  rcases sysDup_cases run with ⟨rfl, rfl⟩ | ⟨std, ended⟩ | ⟨f, -, ended⟩
  · exact h.refused (refused_negErrno (by decide)) (.refl _)
  · have refused := refused_dupHost legal (h.table.std _ std) (proper std)
    rw [← ended] at refused
    exact h.refused refused.1 refused.2
  · refine NamespaceSound.created (c := .fd .dup) h legal trivial nofun nofun ?_
    rw [ended]
    exact refusedOrCreated_duplicated legal

theorem NamespaceSound.close {r : Except ValkyrieError U64} (h : NamespaceSound vk live)
    (proper : GuestCall.Proper sctx vk live (.fd .close)) (run : (sysClose sctx).Ends vk r vk') :
    NamespaceSound vk' ((GuestCall.fd .close).liveAfter sctx r vk' live) := by
  obtain ⟨other, known⟩ := proper
  by_cases isLive : sctx.arg0 ∈ live
  · obtain ⟨f, tracked⟩ := ((h.live_iff _).1 isLive).resolve_left other
    obtain ⟨rfl, rfl⟩ := (ends_sysClose_tracked other tracked).1 run
    rw [liveAfter_of_closed]
    exact h.remove tracked
  · have dead := h.dead isLive (known.resolve_left isLive)
    obtain ⟨rfl, rfl⟩ := run.unique dead.close
    exact h.refused (refused_negErrno (by decide)) (keepsFiles_withHost fun _ => Iff.rfl)

theorem NamespaceSound.open {r : Except ValkyrieError U64} {c : GuestCall}
    {dirfd flags mode : U32} {ptr : U64} (h : NamespaceSound vk live)
    (legal : LegalAnswer vk.host) (creates : c.Creates sctx) (other : c ≠ .socketpair)
    (notClose : c ≠ .fd .close) (run : (openGuestPath dirfd ptr flags mode).Ends vk r vk') :
    NamespaceSound vk' (c.liveAfter sctx r vk' live) := by
  rcases openGuestPath_cases run with ⟨refused, rfl⟩ | ⟨hostPath, ended⟩
  · exact h.refused refused (.refl _)
  · apply h.created legal creates other notClose
    rw [ended]
    exact refusedOrCreated_opened legal

/-- A call on a descriptor that neither creates nor closes one. -/
theorem NamespaceSound.inspect {r : Except ValkyrieError U64} {c : FdCall}
    (h : NamespaceSound vk live) (creates : ¬ (GuestCall.fd c).Creates sctx)
    (notClose : GuestCall.fd c ≠ .fd .close) (keeps : (c.handler sctx).Within KeepsFiles)
    (run : (c.handler sctx).Ends vk r vk') :
    NamespaceSound vk' ((GuestCall.fd c).liveAfter sctx r vk' live) := by
  rw [liveAfter_of_not_creates creates nofun notClose]
  exact h.keep (.of_within keeps run)

/-- One step keeps the invariant. -/
theorem NamespaceSound.step {s s' : Valkyrie × Set U64} (h : NamespaceSound s.1 s.2)
    (step : NamespaceStep GuestCall.Proper s s') : NamespaceSound s'.1 s'.2 := by
  cases step with
  | other keeps => exact h.keep keeps
  | call c legal proper run =>
    cases c with
    | fd c =>
      cases c with
      | read => exact h.inspect id nofun keepsFiles_sysRead run
      | write => exact h.inspect id nofun keepsFiles_sysWrite run
      | lseek => exact h.inspect id nofun keepsFiles_sysLseek run
      | dup => exact h.dup legal proper run
      | ioctl => exact h.inspect id nofun keepsFiles_sysIoctl run
      | getdents64 => exact h.inspect id nofun keepsFiles_sysGetdents64 run
      | fadvise64 => exact h.inspect id nofun keepsFiles_sysFadvise64 run
      | close => exact h.close proper run
    | «open» => exact h.open legal trivial nofun nofun run
    | openat => exact h.open legal trivial nofun nofun run
    | fcntl => exact h.fcntl legal proper run
    | socket =>
      obtain ⟨refused, keeps⟩ := handOut_refused legal proper run
      exact h.refused refused keeps
    | socketpair =>
      obtain ⟨refused, keeps⟩ := sysSocketpair_refused legal proper run
      exact h.refused refused keeps
    | epollCreate1 =>
      obtain ⟨refused, keeps⟩ := handOut_refused legal proper run
      exact h.refused refused keeps
    | timerfdCreate =>
      obtain ⟨refused, keeps⟩ := handOut_refused legal proper run
      exact h.refused refused keeps

/-! ## Every run -/

/-- An emulator with an empty table, on a host with the standard descriptors that answers as
given. -/
def freshStart (answers : ℕ → HostAnswer) : Valkyrie :=
  { Valkyrie.ofMemory .x86_64 ⟨[], 0, 0⟩ with
    host := { Host.refusing with
      answers := answers
      fds := (((∅ : AList fun _ : U32 => ℕ).insert 0 0).insert 1 0).insert 2 0 } }

theorem freshStart_isOpen {answers : ℕ → HostAnswer} (x : U32) :
    (freshStart answers).host.IsOpen x ↔ x ≤ 2 := by
  let none_ : Host := { Host.refusing with answers := answers }
  let one : Host := { none_ with fds := none_.fds.insert 0 0 }
  let two : Host := { one with fds := one.fds.insert 1 0 }
  have closed : ¬ none_.IsOpen x := nofun
  have first : one.IsOpen x ↔ x = 0 ∨ none_.IsOpen x := Host.isOpen_of_insert rfl x
  have second : two.IsOpen x ↔ x = 1 ∨ one.IsOpen x := Host.isOpen_of_insert rfl x
  have third : (freshStart answers).host.IsOpen x ↔ x = 2 ∨ two.IsOpen x :=
    Host.isOpen_of_insert rfl x
  rw [third, second, first]
  simp only [closed, or_false]
  bv_omega

/-- The answer that a descriptor is created with the number. -/
def answersNew (fd : U32) : HostAnswer := ⟨true, EIO, fd, 0, []⟩

theorem wellAnswered_new {h : Host} {fd : U32} (answer : h.answer = answersNew fd)
    (nonneg : 0 ≤ fd.toInt) (closed : ¬ h.IsOpen fd) : WellAnswered h where
  isErrno := by
    rw [answer]
    show IsNegErrno (negErrno EIO)
    decide
  nonneg := by
    rw [answer]
    exact nonneg
  fresh _ := by
    rw [answer]
    exact closed
  errno_ne := by
    rw [answer]
    show EIO ≠ EBADF
    decide

/-- A fresh start with a path in memory, on a host that grants everything. -/
def pathStart : Valkyrie :=
  let vk := Valkyrie.ofMemory .x86_64 ⟨[⟨0x1000, 0x1000, .all, "[data]"⟩], 0, 0⟩
  { vk with
    uc.bytes := fun a => if a = 0x1000 then 0x2f else if a = 0x1001 then 0x61 else 0
    host := { (freshStart fun n => answersNew (BitVec.ofNat 32 (n + 3))).host with cwd := some ['/'] } }

/-- The path is opened. -/
@[irreducible] def pathOpened : Valkyrie := (sysOpen ⟨0x1000, 0, 0, 0, 0, 0⟩).final pathStart

end ValkyrieRs
