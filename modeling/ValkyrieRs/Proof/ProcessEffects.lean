import ValkyrieRs.Proof.PathEffects
import ValkyrieRs.Proof.SignalMask

/-!
# Effects of the calls on the process

The handlers for signals, identities, time, events and sockets: they change a field of the emulator,
or store what the host told, or do nothing.
-/

namespace ValkyrieRs

open Proc

variable {fx : Effects} {st : Settings} {vk vk' : Valkyrie} {sctx : SubCtx} {sv : Services}

/-! ## Exit and signals -/

theorem does_sysExit (status : .exitStatus ∈ fx.owned) (state : .vstate ∈ fx.owned)
    (stop : .stop ∈ fx.owned) : Does fx st vk (sysExit sctx) := by
  refine Obeys.bind ?_ fun _ _ _ _ => obeys_pure _
  refine does_change (fun vk => { vk with exitStatus := some sctx.arg0, vstate := .ended })
    (fun _ => rfl) (fun _ => rfl) (fun _ => rfl) fun c => ?_
  cases c with
  | exitStatus => exact .inl status
  | vstate => exact .inl state
  | stop => exact .inl stop
  | _ => exact .inr fun _ => rfl

theorem does_terminate (state : .vstate ∈ fx.owned) (stop : .stop ∈ fx.owned) :
    Does fx st vk (Proc.modify Valkyrie.terminate) := by
  refine does_change (fun vk => { vk with vstate := .ended }) (fun _ => rfl) (fun _ => rfl)
    (fun _ => rfl) fun c => ?_
  cases c with
  | vstate => exact .inl state
  | stop => exact .inl stop
  | _ => exact .inr fun _ => rfl

theorem does_sysTgkill (crashed : .crashed ∈ fx.owned) (state : .vstate ∈ fx.owned)
    (stop : .stop ∈ fx.owned) : Does fx st vk (sysTgkill sv sctx) := by
  have last : ∀ t, Does fx st t (do
      if sctx.arg2.setWidth 32 = sigKill ∨ sctx.arg2.setWidth 32 = sigStop then
        Proc.modify Valkyrie.terminate
      return (0 : U64)) := fun t =>
    .ite (fun _ => (does_terminate state stop).bind fun _ _ _ _ => obeys_pure _)
      fun _ => obeys_pure _
  refine .ite (fun _ => obeys_pure _) fun _ => .ite (fun _ => Obeys.bind ?_ fun _ t _ _ => ?_)
    fun _ => last _
  · refine does_set crashed (fun _ => rfl) (fun _ => rfl) (fun _ => rfl) fun d hd _ => ?_
    cases d with
    | crashed => exact absurd rfl hd
    | _ => rfl
  · exact (does_terminate state stop).bind fun _ t _ _ => last t

/-- The number of bytes that `rt_sigaction` stores: as many as the stored action has, or as many as
asked for. -/
def sigactionRoom (vk : Valkyrie) (sctx : SubCtx) : ℕ :=
  match vk.guestRtSigactions.lookup (sctx.arg0.setWidth 32) with
  | some oldact => oldact.length
  | none => ((rtSigactionSize vk.cfg.arch sctx.arg3).getD 0).toNat

/-- The size that `rt_sigaction` allocates. -/
def sigactionSize (vk : Valkyrie) (sctx : SubCtx) : ℕ :=
  ((rtSigactionSize vk.cfg.arch sctx.arg3).getD 0).toNat

theorem does_sysRtSigaction (actions : .sigactions ∈ fx.owned)
    (output : (sctx.arg2, sigactionRoom vk sctx) ∈ fx.outputs)
    (fits : fx.hangs ∨ sigactionSize vk sctx < 2 ^ 63) : Does fx st vk (sysRtSigaction sctx) := by
  refine .ite (fun _ => obeys_pure _) fun _ => does_look (fun _ => rfl) fun _ => ?_
  unfold sigactionSize at fits
  unfold sigactionRoom at output
  cases size : rtSigactionSize vk.cfg.arch sctx.arg3 with
  | none => exact obeys_pure _
  | some actionSize =>
    rw [size, Option.getD_some] at fits output
    have install : ∀ t, Does fx st t (do
        if sctx.arg1 ≠ 0 then
          let action ← memRead sctx.arg1 actionSize.toNat
          Proc.modify fun vk => { vk with
            guestRtSigactions := vk.guestRtSigactions.insert (sctx.arg0.setWidth 32) action }
        return (0 : U64)) := by
      refine fun t => .ite (fun _ => (does_memRead fits).bind fun action _ _ _ =>
        Obeys.bind ?_ fun _ _ _ _ => obeys_pure _) fun _ => obeys_pure _
      refine does_set actions (fun _ => rfl) (fun _ => rfl) (fun _ => rfl) fun d hd _ => ?_
      cases d with
      | sigactions => exact absurd rfl hd
      | _ => rfl
    refine .ite (fun _ => ?_) fun _ => install _
    cases found : vk.guestRtSigactions.lookup (sctx.arg0.setWidth 32) with
    | none =>
      rw [found] at output
      refine (does_hostAlloc fits).bind fun _ _ _ _ => (does_memWrite ⟨_, output, ?_⟩).bind
        fun _ t _ _ => install t
      rw [List.length_replicate]
    | some oldact =>
      rw [found] at output
      exact (does_memWrite ⟨_, output, le_rfl⟩).bind fun _ t _ _ => install t

theorem does_sysRtSigprocmask (mask : .sigmask ∈ fx.owned)
    (output : (sctx.arg2, sctx.arg3.toNat) ∈ fx.outputs)
    (fits : fx.hangs ∨ sctx.arg3.toNat < 2 ^ 63) : Does fx st vk (sysRtSigprocmask sctx) := by
  refine .ite (fun _ => obeys_pure _) fun _ => (does_hostAlloc fits).bind fun _ s _ _ =>
    does_look (fun _ => rfl) fun _ => ?_
  refine .optional (fun _ => does_memWrite ⟨_, output, ?_⟩) fun _ t => ?_
  · rw [length_resizeSigmask]
  refine .ite (fun _ => obeys_pure _) fun _ => (does_memRead fits).bind fun newMask _ _ _ => ?_
  cases mergeSigmask (sctx.arg0.setWidth 32)
    (resizeSigmask s.guestRtSigmask sctx.arg3.toNat) newMask with
  | none => exact obeys_pure _
  | some merged =>
    refine Obeys.bind ?_ fun _ _ _ _ => obeys_pure _
    refine does_set mask (fun _ => rfl) (fun _ => rfl) (fun _ => rfl) fun d hd _ => ?_
    cases d with
    | sigmask => exact absurd rfl hd
    | _ => rfl

/-- The number of bytes that `prctl` stores. -/
def prctlRoom (option : U32) : ℕ :=
  if option = prGetName then 16 else if option = prGetPdeathsig then 4 else 0

theorem does_sysPrctl (name : .prctlName ∈ fx.owned) (death : .pdeathsig ∈ fx.owned)
    (dump : .dumpable ∈ fx.owned)
    (output : (sctx.arg1, prctlRoom (sctx.arg0.setWidth 32)) ∈ fx.outputs) :
    Does fx st vk (sysPrctl sctx) := by
  refine does_look (fun _ => rfl) fun _ => ?_
  refine .ite (fun _ => .ite (fun _ => obeys_pure _) fun _ => ?_) fun _ => .ite (fun get => ?_)
    fun notName => .ite (fun _ => Obeys.bind ?_ fun _ _ _ _ => obeys_pure _) fun _ => .ite
      (fun get => ?_) fun _ => .ite (fun _ => Obeys.bind ?_ fun _ _ _ _ => obeys_pure _) fun _ =>
        .ite (fun _ => obeys_pure _) fun _ => .ite (fun _ => ?_) fun _ => obeys_pure _
  · refine (does_memRead (.inr (by decide))).bind fun bytes _ _ _ => Obeys.bind ?_
      fun _ _ _ _ => obeys_pure _
    refine does_set name (fun _ => rfl) (fun _ => rfl) (fun _ => rfl) fun d hd _ => ?_
    cases d with
    | prctlName => exact absurd rfl hd
    | _ => rfl
  · rw [prctlRoom, if_pos get] at output
    refine .ite (fun _ => obeys_pure _) fun _ => does_storeLast output ?_
    rw [Vector.length_toList]
  · refine does_set death (fun _ => rfl) (fun _ => rfl) (fun _ => rfl) fun d hd _ => ?_
    cases d with
    | pdeathsig => exact absurd rfl hd
    | _ => rfl
  · rw [prctlRoom, if_neg notName, if_pos get] at output
    exact .ite (fun _ => obeys_pure _) fun _ => does_storeLast output (length_toLeBytes _)
  · refine does_set dump (fun _ => rfl) (fun _ => rfl) (fun _ => rfl) fun d hd _ => ?_
    cases d with
    | dumpable => exact absurd rfl hd
    | _ => rfl
  · exact does_asked (fun _ => hosts_prctl) (fun _ _ => does_lastErrno) fun _ _ _ _ =>
      obeys_pure _

/-! ## Identities, limits and time -/

/-- A store and what follows it. -/
theorem does_storeThen {α : Type} {addr : U64} {data : List U8} {n : ℕ} {rest : VkM α}
    (output : (addr, n) ∈ fx.outputs) (length : data.length = n) (next : ∀ t, Does fx st t rest) :
    Does fx st vk (memWrite addr data >>= fun _ => rest) :=
  (does_memWrite ⟨n, output, length.le⟩).bind fun _ t _ _ => next t

theorem does_sysGeteuid : Does fx st vk sysGeteuid := does_look (fun _ => rfl) fun _ => obeys_pure _

theorem does_sysGetuid : Does fx st vk sysGetuid := does_look (fun _ => rfl) fun _ => obeys_pure _

theorem does_sysGetegid : Does fx st vk sysGetegid := does_look (fun _ => rfl) fun _ => obeys_pure _

theorem does_sysGetgid : Does fx st vk sysGetgid := does_look (fun _ => rfl) fun _ => obeys_pure _

theorem does_sysSetTidAddress (output : (sctx.arg0, 4) ∈ fx.outputs) :
    Does fx st vk (sysSetTidAddress sv sctx) :=
  .ite (fun _ => does_storeLast output (length_toLeBytes _)) fun _ => obeys_pure _

theorem does_sysGetRobustList (head : (sctx.arg1, st.cfg.arch.wordWidth) ∈ fx.outputs)
    (len : (sctx.arg2, st.cfg.arch.wordWidth) ∈ fx.outputs) :
    Does fx st vk (sysGetRobustList sctx) := by
  refine does_look (fun _ => rfl) fun inv => ?_
  subst inv
  have last : ∀ t, Does fx vk.settings t (do
      if sctx.arg2 ≠ 0 then
        memWrite sctx.arg2 (List.replicate vk.cfg.arch.wordWidth 0)
      return (0 : U64)) := fun t =>
    .ite (fun _ => does_storeLast len List.length_replicate) fun _ => obeys_pure _
  exact .ite (fun _ => does_storeThen head List.length_replicate last) fun _ => last vk

theorem does_writeWord {addr value : U64} {width : ℕ} (output : (addr, width) ∈ fx.outputs) :
    Does fx st vk (writeWord addr value width) :=
  does_memWrite ⟨width, output, (length_toLeBytes _).le⟩

/-- The places of two words, one behind the other. -/
def wordPair (addr : U64) (width : ℕ) : List (U64 × ℕ) :=
  [(addr, width), (addr + BitVec.ofNat 64 width, width)]

theorem does_writeGuestTimespec {addr : U64} {ts : Timespec}
    (output : wordPair addr st.cfg.arch.wordWidth ⊆ fx.outputs) :
    Does fx st vk (writeGuestTimespec addr ts) := by
  refine does_look (fun _ => rfl) fun inv => ?_
  subst inv
  exact (does_writeWord (output (by simp [wordPair, guestWordWidth, Valkyrie.settings]))).bind
    fun _ _ _ _ => does_writeWord (output (by simp [wordPair, guestWordWidth, Valkyrie.settings]))

theorem does_readGuestTimespec {addr : U64} : Does fx st vk (readGuestTimespec addr) :=
  does_look (fun _ => rfl) fun _ => (does_readWord vk.cfg.arch.wordWidth_small).bind fun _ _ _ _ =>
    (does_readWord vk.cfg.arch.wordWidth_small).bind fun _ _ _ _ => obeys_pure _

/-- A handler that asks a service and reports its error. -/
theorem does_served {α : Type} {reply : Host → Except U32 α} {f : Except U32 α → VkM U64}
    (error : ∀ e, f (.error e) = lastErrno) (ok : ∀ a t, Does fx st t (f (.ok a))) :
    Does fx st vk (service reply >>= f) := by
  refine does_service.bind fun x t _ _ => ?_
  cases x with
  | error e =>
    rw [error]
    exact does_lastErrno
  | ok a => exact ok a t

theorem does_sysClockGettime (output : wordPair sctx.arg1 st.cfg.arch.wordWidth ⊆ fx.outputs) :
    Does fx st vk (sysClockGettime sv sctx) :=
  .ite (fun _ => obeys_pure _) fun _ => does_served (fun _ => rfl) fun _ _ =>
    (does_writeGuestTimespec output).bind fun _ _ _ _ => obeys_pure _

theorem does_sysClockGettime64 (output : wordPair sctx.arg1 8 ⊆ fx.outputs) :
    Does fx st vk (sysClockGettime64 sv sctx) :=
  .ite (fun _ => obeys_pure _) fun _ => does_served (fun _ => rfl) fun _ _ =>
    does_storeThen (output List.mem_cons_self) (length_toLeBytes _) fun _ =>
      does_storeLast (output (List.mem_cons_of_mem _ List.mem_cons_self)) (length_toLeBytes _)

theorem does_sysTime (output : (sctx.arg0, st.cfg.arch.wordWidth) ∈ fx.outputs) :
    Does fx st vk (sysTime sv sctx) := by
  refine does_look (fun _ => rfl) fun inv => ?_
  subst inv
  cases sv.systemTime vk.host with
  | none => exact obeys_pure _
  | some now =>
    exact .ite (fun _ => (does_writeWord output).bind fun _ _ _ _ => obeys_pure _)
      fun _ => obeys_pure _

theorem does_sysUgetrlimit (output : wordPair sctx.arg1 4 ⊆ fx.outputs) :
    Does fx st vk (sysUgetrlimit sv sctx) :=
  .ite (fun _ => obeys_pure _) fun _ => does_served (fun _ => rfl) fun _ _ =>
    does_storeThen (output List.mem_cons_self) (length_toLeBytes _) fun _ =>
      does_storeLast (output (List.mem_cons_of_mem _ List.mem_cons_self)) (length_toLeBytes _)

theorem does_sysPrlimit64 (output : wordPair sctx.arg3 st.cfg.arch.wordWidth ⊆ fx.outputs) :
    Does fx st vk (sysPrlimit64 sctx) := by
  refine does_look (fun _ => rfl) fun inv => ?_
  subst inv
  refine .ite (fun _ => ?_) fun _ => obeys_pure _
  exact (does_writeWord (output List.mem_cons_self)).bind fun _ _ _ _ =>
    (does_writeWord (output (List.mem_cons_of_mem _ List.mem_cons_self))).bind fun _ _ _ _ =>
      obeys_pure _

/-- The host delivers no more random bytes than asked for. -/
theorem does_sysGetrandom (output : (sctx.arg0, sctx.arg1.toNat) ∈ fx.outputs)
    (fits : fx.hangs ∨ sctx.arg1.toNat < 2 ^ 63)
    (bounded : fx.hangs ∨ ∀ flags h bytes, sv.getrandom sctx.arg1.toNat flags h = .ok bytes →
      bytes.length ≤ sctx.arg1.toNat) : Does fx st vk (sysGetrandom sv sctx) := by
  refine .ite (fun _ => obeys_pure _) fun _ => (does_hostAlloc fits).bind fun _ s _ _ =>
    does_service.bind fun x t _ run => ?_
  cases x with
  | error e => exact does_lastErrno
  | ok bytes =>
    have told : sv.getrandom sctx.arg1.toNat (sctx.arg2.setWidth 32) s.host = .ok bytes := by
      have first := (ends_hostCall.1 run).1
      rw [Host.serve_fst, Except.ok.injEq] at first
      exact first.symm
    refine .ite (fun large => Obeys.bind (obeys_diverge ?_) fun _ _ _ never => ?_) fun small => ?_
    · exact bounded.resolve_right fun bounded => absurd (bounded _ _ _ told) (by omega)
    · exact (ends_diverge never).elim
    · exact (does_memWrite ⟨_, output, by omega⟩).bind fun _ _ _ _ => obeys_pure _

/-! ## `uname` -/

theorem length_packField (s : List Char) : (packField s).length = 65 := List.takeD_length _ _ _

theorem does_storeFields {addr : U64} {fields : List (List U8)} {i : ℕ}
    (output : ∀ j, i ≤ j → j < i + fields.length →
      (addr + BitVec.ofNat 64 j * BitVec.ofNat 64 utsnameLen, utsnameLen) ∈ fx.outputs)
    (length : ∀ field ∈ fields, field.length = utsnameLen) :
    Does fx st vk (storeFields addr fields i) := by
  induction fields generalizing i vk with
  | nil => exact obeys_pure _
  | cons field rest ih =>
    have here := output i le_rfl (by simp)
    have size := length field List.mem_cons_self
    refine (does_memWrite ⟨_, here, size.le⟩).attempt.bind fun x t _ _ => ?_
    cases x with
    | error e => exact obeys_pure _
    | ok u =>
      refine ih (fun j above below => output j (by omega) ?_) fun f hf =>
        length f (List.mem_cons_of_mem _ hf)
      rw [List.length_cons]
      omega

/-- The places of the fields of `utsname`. -/
def utsnamePlaces (addr : U64) : List (U64 × ℕ) :=
  (List.range 6).map fun i => (addr + BitVec.ofNat 64 i * BitVec.ofNat 64 utsnameLen, utsnameLen)

theorem length_hostUname (names : Except U32 Utsname) : (hostUname names).length = 6 := by
  cases names <;> rfl

theorem does_sysUname (output : utsnamePlaces sctx.arg0 ⊆ fx.outputs) :
    Does fx st vk (sysUname sv sctx) := by
  refine .ite (fun _ => obeys_pure _) fun _ => does_service.bind fun names t _ _ =>
    does_look (fun _ => rfl) fun _ => does_storeFields (fun j _ below => output ?_) ?_
  · rw [List.length_map, List.length_set, length_hostUname] at below
    exact List.mem_map_of_mem (List.mem_range.2 (by omega))
  · intro field member
    obtain ⟨s, -, rfl⟩ := List.mem_map.1 member
    exact length_packField s

/-! ## Events -/

theorem does_readPollfds {addr nfds : U64} (fits : fx.hangs ∨ nfds.toNat * 8 < 2 ^ 63) :
    Does fx st vk (readPollfds addr nfds) := by
  refine (does_memRead ?_).bind fun _ _ _ _ => (does_hostAlloc fits).bind fun _ _ _ _ =>
    obeys_pure _
  refine fits.imp_right fun small => ?_
  rw [BitVec.toNat_mul]
  exact (Nat.mod_le _ _).trans_lt small

theorem length_of_readPollfds {addr nfds : U64} {pollfds : List PollFd}
    (run : (readPollfds addr nfds).Ends vk (.ok pollfds) vk') : pollfds.length = nfds.toNat := by
  obtain ⟨bytes, t, -, rest⟩ := ends_bind_ok.1 run
  obtain ⟨-, last⟩ := ends_bind_hostAlloc.1 rest
  cases (ends_pure.1 last).1
  simp

theorem length_flatMap_of_const {α β : Type} {f : α → List β} {l : List α} {n : ℕ}
    (each : ∀ a, (f a).length = n) : (l.flatMap f).length = l.length * n := by
  induction l with
  | nil => simp
  | cons a l ih => rw [List.flatMap_cons, List.length_append, each, ih, List.length_cons, Nat.succ_mul,
      Nat.add_comm]

theorem PollFd.length_toBytes (p : PollFd) : p.toBytes.length = 8 := by
  simp [PollFd.toBytes]

theorem EpollEvent.length_toBytes (event : EpollEvent) : event.toBytes.length = 12 := by
  simp [EpollEvent.toBytes]

theorem does_sysPoll (output : (sctx.arg0, sctx.arg1.toNat * 8) ∈ fx.outputs)
    (fits : fx.hangs ∨ sctx.arg1.toNat * 8 < 2 ^ 63) : Does fx st vk (sysPoll sv sctx) := by
  have store : ∀ (pollfds : List PollFd) (revents : ℕ → U16) (rc : U32) (t : Valkyrie),
      pollfds.length = sctx.arg1.toNat → Does fx st t (do
        if 0 < sctx.arg1 then
          writePollfds sctx.arg0 (setRevents pollfds revents)
        return rc.signExtend 64) := by
    intro pollfds revents rc t length
    refine .ite (fun _ => (does_memWrite ⟨_, output, ?_⟩).bind fun _ _ _ _ => obeys_pure _)
      fun _ => obeys_pure _
    rw [length_flatMap_of_const PollFd.length_toBytes, setRevents, List.length_mapIdx, length]
  refine .ite (fun _ => obeys_pure _) fun _ => .ite (fun none => ?_) fun _ => ?_
  · refine (obeys_pure []).bind fun pollfds t _ run => ?_
    cases (ends_pure.1 run).1
    have length : ([] : List PollFd).length = sctx.arg1.toNat := by
      rw [none]
      rfl
    show Does fx st t (service _ >>= _)
    exact does_served (fun _ => rfl) fun out u => store [] out.2 out.1 u length
  · refine (does_readPollfds fits).bind fun pollfds t _ run => ?_
    have length := length_of_readPollfds run
    show Does fx st t (service _ >>= _)
    exact does_served (fun _ => rfl) fun out u => store pollfds out.2 out.1 u length

theorem does_sysEpollCtl : Does fx st vk (sysEpollCtl sv sctx) := by
  refine .ite (fun _ => ?_) fun _ => ?_
  · have read : Does fx st vk (readEpollEvent sctx.arg3) :=
      (does_memRead (.inr (by decide))).bind fun _ _ _ _ => obeys_pure _
    refine read.bind fun event u _ _ => (obeys_pure (some event)).bind fun _ t _ _ => ?_
    show Does fx st t (service _ >>= _)
    exact does_served (fun _ => rfl) fun _ _ => obeys_pure _
  · refine (obeys_pure none).bind fun _ t _ _ => ?_
    show Does fx st t (service _ >>= _)
    exact does_served (fun _ => rfl) fun _ _ => obeys_pure _

theorem does_sysEpollWait
    (output : (sctx.arg1, (sctx.arg2.setWidth 32 : U32).toNat * 12) ∈ fx.outputs)
    (bounded : fx.hangs ∨ ∀ epfd maxevents timeout h events,
      sv.epollWait epfd maxevents timeout h = .ok events → events.length ≤ maxevents.toNat) :
    Does fx st vk (sysEpollWait sv sctx) := by
  have small : 12 * (sctx.arg2.setWidth 32 : U32).toNat < 2 ^ 63 := by omega
  refine .ite (fun _ => obeys_pure _) fun _ => (does_hostAlloc (.inr small)).bind fun _ u _ _ =>
    does_service.bind fun x t _ run => ?_
  cases x with
  | error e => exact does_lastErrno
  | ok events =>
    have told := (ends_hostCall.1 run).1
    rw [Host.serve_fst, Except.ok.injEq] at told
    refine .ite (fun _ => .ite (fun large => ?_) fun small => ?_) fun _ => obeys_pure _
    · refine Obeys.bind (obeys_diverge ?_) fun _ _ _ never => (ends_diverge never).elim
      exact bounded.resolve_right fun bounded => absurd (bounded _ _ _ _ _ told.symm) (by omega)
    · refine (does_memWrite ⟨_, output, ?_⟩).bind fun _ _ _ _ => obeys_pure _
      rw [length_flatMap_of_const EpollEvent.length_toBytes]
      exact Nat.mul_le_mul_right 12 (by omega)

/-- The places of an `itimerspec`. -/
def itimerspecPlaces (addr : U64) (width : ℕ) : List (U64 × ℕ) :=
  wordPair addr width ++ wordPair (addr + 2 * BitVec.ofNat 64 width) width

theorem does_writeGuestItimerspec {addr : U64} {spec : Itimerspec}
    (output : itimerspecPlaces addr st.cfg.arch.wordWidth ⊆ fx.outputs) :
    Does fx st vk (writeGuestItimerspec addr spec) := by
  refine does_look (fun _ => rfl) fun inv => ?_
  obtain ⟨first, second⟩ := List.append_subset.1 output
  subst inv
  exact (does_writeGuestTimespec first).bind fun _ _ _ _ => does_writeGuestTimespec second

theorem does_readGuestItimerspec {addr : U64} : Does fx st vk (readGuestItimerspec addr) :=
  does_look (fun _ => rfl) fun _ => does_readGuestTimespec.bind fun _ _ _ _ =>
    does_readGuestTimespec.bind fun _ _ _ _ => obeys_pure _

theorem does_sysTimerfdSettime
    (output : itimerspecPlaces sctx.arg3 st.cfg.arch.wordWidth ⊆ fx.outputs) :
    Does fx st vk (sysTimerfdSettime sv sctx) := by
  refine .ite (fun _ => obeys_pure _) fun _ => does_readGuestItimerspec.bind fun new t _ _ =>
    does_served (fun _ => rfl) fun old u => .ite (fun _ => ?_) fun _ => obeys_pure _
  exact (does_writeGuestItimerspec output).bind fun _ _ _ _ => obeys_pure _

theorem does_sysFutex : Does fx st vk (sysFutex sctx) :=
  .ite (fun _ => obeys_pure _) fun _ => (does_memRead (.inr (by decide))).bind fun _ _ _ _ =>
    .ite (fun _ => .ite (fun _ => obeys_pure _) fun _ => obeys_pure _) fun _ =>
      .ite (fun _ => obeys_pure _) fun _ => obeys_pure _

end ValkyrieRs
