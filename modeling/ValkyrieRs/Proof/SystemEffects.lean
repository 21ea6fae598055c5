import ValkyrieRs.Proof.MemoryEffects

/-!
# Effects of all handlers

For each handler of the table: the components of the emulator that it owns, the places where it
stores, and the only states in which it may not return.  Nothing else happens: the handlers keep to
these effects, whatever the host answers.
-/

namespace ValkyrieRs

open Proc

/-! ## The table -/

/-- The components that a handler may change. -/
def SysFn.owned : SysFn → List Component
  | .sysExit | .sysExitGroup => [.exitStatus, .vstate, .stop]
  | .sysTgkill => [.crashed, .vstate, .stop]
  | .sysBrk => [.pages, .regions, .heapBreak]
  | .sysMmap | .sysMmap2 => [.pages, .regions, .hostFds, .hostFiles]
  | .sysMunmap | .sysMprotect => [.pages, .regions]
  | .sysArchPrctl => [.register (.x86_64 .fsBase), .register (.x86_64 .gsBase), .regUpdates]
  | .sysRtSigaction => [.sigactions]
  | .sysRtSigprocmask => [.sigmask]
  | .sysPrctl => [.prctlName, .pdeathsig, .dumpable]
  | .sysRead => [.stdinOffset, .hostFiles]
  | .sysPread64 => [.hostFds, .hostFiles]
  | .sysLseek | .sysLlseek | .sysWrite | .sysWritev => [.hostFiles]
  | .sysOpen | .sysOpenat => [.fdTable, .hostFds, .hostFiles]
  | .sysClose | .sysDup | .sysFcntl => [.fdTable, .hostFds]
  | .sysSocket | .sysSocketpair | .sysSocketcall | .sysEpollCreate1 | .sysTimerfdCreate =>
    [.hostFds, .hostFiles]
  | _ => []

/-- The calls that `socketcall` stands for. -/
def socketcallFn (call : U64) : Option SysFn :=
  if call = 1 then some .sysSocket
  else if call = 3 then some .sysConnect
  else if call = 8 then some .sysSocketpair
  else if call = 11 then some .sysSendto
  else if call = 12 then some .sysRecvfrom
  else if call = 15 then some .sysGetsockopt
  else none

/-- The arguments that `socketcall` finds in memory. -/
def socketcallArgs (vk : Valkyrie) (sctx : SubCtx) : Option SubCtx :=
  match socketcallArity sctx.arg0 with
  | none => none
  | some n =>
    match readArgs sctx.arg1 vk.cfg.arch.wordWidth n 0 vk with
    | some (.ok args, _) => some (.ofArgs args)
    | _ => none

/-- Where a handler besides `socketcall` stores. -/
def SysFn.places (f : SysFn) (sctx : SubCtx) (vk : Valkyrie) : List (U64 × ℕ) :=
  match f with
  | .sysRead | .sysPread64 | .sysGetdents64 | .sysReadlink => [(sctx.arg1, sctx.arg2.toNat)]
  | .sysLlseek => [(sctx.arg3, 8)]
  | .sysStat | .sysFstat => [(sctx.arg1, 144)]
  | .sysStat64 | .sysFstat64 => [(sctx.arg1, 96)]
  | .sysNewfstatat => [(sctx.arg2, 144)]
  | .sysFstatat64 => [(sctx.arg2, 96)]
  | .sysStatx => [(sctx.arg4, 256)]
  | .sysStatfs => [(sctx.arg1, statfsSize vk.cfg.arch)]
  | .sysStatfs64 => [(sctx.arg2, statfs64Size vk.cfg.arch)]
  | .sysPoll => [(sctx.arg0, sctx.arg1.toNat * 8)]
  | .sysBrk => [brkPlace vk sctx]
  | .sysPrctl => [(sctx.arg1, prctlRoom (sctx.arg0.setWidth 32))]
  | .sysArchPrctl =>
    if sctx.arg0 = archGetFs ∨ sctx.arg0 = archGetGs then [(sctx.arg1, 8)] else []
  | .sysUname => utsnamePlaces sctx.arg0
  | .sysUgetrlimit => wordPair sctx.arg1 4
  | .sysMmap | .sysMmap2 =>
    (mmapTarget vk sctx).toList.map fun a => (a, (alignUp sctx.arg1 pageSize).toNat)
  | .sysSetTidAddress => [(sctx.arg0, 4)]
  | .sysGetRobustList =>
    [(sctx.arg1, vk.cfg.arch.wordWidth), (sctx.arg2, vk.cfg.arch.wordWidth)]
  | .sysPrlimit64 => wordPair sctx.arg3 vk.cfg.arch.wordWidth
  | .sysClockGettime => wordPair sctx.arg1 vk.cfg.arch.wordWidth
  | .sysClockGettime64 => wordPair sctx.arg1 8
  | .sysGetrandom => [(sctx.arg0, sctx.arg1.toNat)]
  | .sysTime => [(sctx.arg0, vk.cfg.arch.wordWidth)]
  | .sysReadlinkat | .sysGetxattr | .sysLgetxattr | .sysFgetxattr | .sysRtSigprocmask =>
    [(sctx.arg2, sctx.arg3.toNat)]
  | .sysRtSigaction => [(sctx.arg2, sigactionRoom vk sctx)]
  | .sysSetThreadArea => threadAreaPlaces vk.addrs sctx
  | .sysIoctl => [(sctx.arg2, ioctlRoom sctx.arg1)]
  | .sysSocketpair => [(sctx.arg3, 4), (sctx.arg3 + 4, 4)]
  | .sysGetsockopt => [(sctx.arg3, optlenAt vk.uc sctx.arg4), (sctx.arg4, 4)]
  | .sysRecvfrom => recvfromPlaces sctx
  | .sysPselect6 => pselectPlaces sctx
  | .sysEpollWait => [(sctx.arg1, (sctx.arg2.setWidth 32 : U32).toNat * 12)]
  | .sysTimerfdSettime => itimerspecPlaces sctx.arg3 vk.cfg.arch.wordWidth
  | _ => []

/-- The handler whose call a handler performs, with its arguments. -/
def SysFn.performed (f : SysFn) (sctx : SubCtx) (vk : Valkyrie) : Option (SysFn × SubCtx) :=
  match f with
  | .sysSocketcall =>
    (socketcallFn sctx.arg0).bind fun g => (socketcallArgs vk sctx).map fun subctx => (g, subctx)
  | f => some (f, sctx)

/-- Where a handler stores. -/
def SysFn.outputs (f : SysFn) (sctx : SubCtx) (vk : Valkyrie) : List (U64 × ℕ) :=
  match f.performed sctx vk with
  | some (g, subctx) => g.places subctx vk
  | none => []

/-- The host delivers no more than there is room for. -/
structure Services.Bounded (sv : Services) : Prop where
  epollWait : ∀ epfd maxevents timeout h events,
    sv.epollWait epfd maxevents timeout h = .ok events → events.length ≤ maxevents.toNat
  getsockopt : ∀ fd level optname room h value len,
    sv.getsockopt fd level optname room h = .ok (value, len) → len.toNat ≤ room.toNat
  getrandom : ∀ count flags h bytes,
    sv.getrandom count flags h = .ok bytes → bytes.length ≤ count

/-- The handler takes a path, whose translation needs the current directory of the host. -/
def SysFn.takesPath : SysFn → Bool
  | .sysOpen | .sysOpenat | .sysAccess | .sysChmod | .sysStat | .sysStat64 | .sysNewfstatat
  | .sysFstatat64 | .sysStatx | .sysStatfs | .sysStatfs64 | .sysRename | .sysRenameat
  | .sysRenameat2 | .sysUnlink | .sysReadlink | .sysReadlinkat | .sysGetxattr | .sysLgetxattr => true
  | _ => false

/-- The size of the buffer that a handler allocates for what the guest wants moved. -/
def SysFn.allocated (f : SysFn) (sctx : SubCtx) (vk : Valkyrie) : ℕ :=
  match f with
  | .sysRead | .sysPread64 | .sysWrite | .sysGetdents64 | .sysSendto | .sysRecvfrom =>
    sctx.arg2.toNat
  | .sysPoll => sctx.arg1.toNat * 8
  | .sysGetrandom => sctx.arg1.toNat
  | .sysRtSigprocmask | .sysGetxattr | .sysLgetxattr | .sysFgetxattr => sctx.arg3.toNat
  | .sysRtSigaction => sigactionSize vk sctx
  | .sysMmap | .sysMmap2 => (alignUp sctx.arg1 pageSize).toNat
  | .sysEpollWait => 12 * (sctx.arg2.setWidth 32 : U32).toInt.toNat
  | _ => 0

/-- The handler may ask for a buffer of `n` bytes, a size that the guest chooses: the buffer for what
is moved, an address, an option, the argument of a request, or an entry of a vector. -/
def SysFn.Asks (f : SysFn) (sctx : SubCtx) (vk : Valkyrie) (n : ℕ) : Prop :=
  n = f.allocated sctx vk ∨
    match f with
    | .sysConnect => n = (sctx.arg2.setWidth 32 : U32).toNat
    | .sysSendto => n = (sctx.arg5.setWidth 32 : U32).toNat
    | .sysGetsockopt => n = optlenAt vk.uc sctx.arg4
    | .sysIoctl => n = ioctlRoom sctx.arg1
    | .sysWritev => ∃ len, EntryLength vk.uc sctx.arg1 vk.cfg.arch.wordWidth sctx.arg2.toNat len ∧
      n = len.toNat
    | _ => False

/-- The host's allocator: the sizes of the buffers that it has the memory for.  The code panics before
it asks for a buffer of `2^63` bytes. -/
structure Allocator where
  grants : ℕ → Prop
  bounded : ∀ n, grants n → n < 2 ^ 63

/-- The handler cuts a buffer beyond its end, or looks for free memory without end. -/
def SysFn.stuck (f : SysFn) (sctx : SubCtx) (vk : Valkyrie) : Prop :=
  match f with
  | .sysGetxattr | .sysLgetxattr | .sysFgetxattr => sctx.arg2 ≠ 0 ∧ sctx.arg3.toNat = 0
  | .sysRecvfrom => sctx.arg3.setWidth 32 &&& msgTrunc ≠ 0
  | .sysWritev => HugeEntry vk.uc sctx.arg1 vk.cfg.arch.wordWidth sctx.arg2.toNat
  | .sysMmap | .sysMmap2 => mmapTarget vk sctx = none
  | _ => False

/-- The states in which a handler may not return. -/
def SysFn.Hazard (f : SysFn) (sctx : SubCtx) (vk : Valkyrie) : Prop :=
  match f.performed sctx vk with
  | some (g, subctx) =>
    g.takesPath ∧ vk.host.cwd = none ∨ 2 ^ 63 ≤ g.allocated subctx vk ∨ g.stuck subctx vk
  | none => False

/-- What a handler does. -/
def SysFn.effects (sv : Services) (f : SysFn) (sctx : SubCtx) (vk : Valkyrie) : Effects where
  owned := f.owned
  outputs := f.outputs sctx vk
  hangs := f.Hazard sctx vk ∨ ¬ sv.Bounded

variable {fx : Effects} {st : Settings} {vk : Valkyrie} {sctx : SubCtx} {sv : Services}

/-! ## `socketcall` -/

theorem does_readArgs {addr : U64} {width n index : ℕ} (small : width < 2 ^ 63) :
    Does fx st vk (readArgs addr width n index) := by
  induction n generalizing index vk with
  | zero => exact obeys_pure _
  | succ n ih =>
    exact (does_readWord small).bind fun _ _ _ _ => ih.bind fun _ _ _ _ => obeys_pure _

theorem readArgs_still {addr : U64} {width n index : ℕ} {args : List U64} {vk' : Valkyrie}
    (run : (readArgs addr width n index).Ends vk (.ok args) vk') : vk' = vk := by
  induction n generalizing index vk args vk' with
  | zero => exact (ends_pure.1 run).2
  | succ n ih =>
    obtain ⟨arg, s, first, rest⟩ := ends_bind_ok.1 run
    obtain ⟨tail, t, others, last⟩ := ends_bind_ok.1 rest
    obtain ⟨-, rfl⟩ := word_of_ends first
    rw [(ends_pure.1 last).2]
    exact ih others

/-- `socketcall` does what the call does that it stands for. -/
theorem does_sysSocketcall
    (target : ∀ subctx, socketcallArgs vk sctx = some subctx →
      Does fx vk.settings vk (socketcallTarget sv sctx.arg0 subctx)) :
    Does fx vk.settings vk (sysSocketcall sv sctx) := by
  refine does_look (fun _ => rfl) fun _ => ?_
  unfold socketcallArgs at target
  cases arity : socketcallArity sctx.arg0 with
  | none => exact obeys_pure _
  | some n =>
    refine (does_readArgs vk.cfg.arch.wordWidth_small).bind fun args t _ run => ?_
    have still := readArgs_still run
    subst still
    refine target _ ?_
    rw [arity]
    have found : readArgs sctx.arg1 t.cfg.arch.wordWidth n 0 t = some (.ok args, t) := run
    simp only [found]

/-! ## All handlers -/

/-- The effects allow what the handler of a call does. -/
structure Effects.Grants (fx : Effects) (sv : Services) (g : SysFn) (subctx : SubCtx)
    (vk : Valkyrie) : Prop where
  owns : ∀ c ∈ g.owned, c ∈ fx.owned
  stores : ∀ o ∈ g.places subctx vk, o ∈ fx.outputs
  cwd : g.takesPath → fx.hangs ∨ vk.settings.cwd.isSome
  fits : fx.hangs ∨ g.allocated subctx vk < 2 ^ 63
  fine : fx.hangs ∨ ¬ g.stuck subctx vk
  bounded : fx.hangs ∨ sv.Bounded

section Granted

variable {f g : SysFn} {subctx : SubCtx}

theorem room_of_not_stuck (h : fx.hangs ∨ ¬ (subctx.arg2 ≠ 0 ∧ subctx.arg3.toNat = 0)) :
    fx.hangs ∨ subctx.arg2 = 0 ∨ subctx.arg3.toNat ≠ 0 :=
  h.imp_right fun fine => by tauto

/-- A handler besides `socketcall` does what it is granted. -/
theorem Effects.Grants.does (h : fx.Grants sv g subctx vk) (direct : g ≠ .sysSocketcall) :
    Does fx vk.settings vk (sysHandlers sv g subctx) := by
  cases g with
  | sysRead =>
    exact does_sysRead (h.owns _ (by decide)) (h.owns _ (by decide)) (h.stores _ List.mem_cons_self)
      h.fits
  | sysPread64 =>
    exact does_sysPread64 (h.owns _ (by decide)) (h.owns _ (by decide)) (h.stores _ List.mem_cons_self)
      h.fits
  | sysLseek => exact does_sysLseek (h.owns _ (by decide))
  | sysLlseek => exact does_sysLlseek (h.owns _ (by decide)) (h.stores _ List.mem_cons_self)
  | sysOpen =>
    exact does_openGuestPath (h.owns _ (by decide)) (h.owns _ (by decide)) (h.owns _ (by decide))
      (h.cwd rfl)
  | sysOpenat =>
    exact does_openGuestPath (h.owns _ (by decide)) (h.owns _ (by decide)) (h.owns _ (by decide))
      (h.cwd rfl)
  | sysWrite => exact does_sysWrite (h.owns _ (by decide)) h.fits
  | sysClose => exact does_sysClose (h.owns _ (by decide)) (h.owns _ (by decide))
  | sysAccess => exact does_askPath (h.cwd rfl)
  | sysChmod => exact does_askPath (h.cwd rfl)
  | sysStat => exact does_sysStat (h.cwd rfl) (h.stores _ List.mem_cons_self)
  | sysFstat => exact does_sysFstat (h.stores _ List.mem_cons_self)
  | sysStat64 => exact does_sysStat64 (h.cwd rfl) (h.stores _ List.mem_cons_self)
  | sysFstat64 => exact does_sysFstat64 (h.stores _ List.mem_cons_self)
  | sysExit =>
    exact does_sysExit (h.owns _ (by decide)) (h.owns _ (by decide)) (h.owns _ (by decide))
  | sysExitGroup =>
    exact does_sysExit (h.owns _ (by decide)) (h.owns _ (by decide)) (h.owns _ (by decide))
  | sysPoll => exact does_sysPoll (h.stores _ List.mem_cons_self) h.fits
  | sysRenameat2 => exact does_sysRenameat2 (h.cwd rfl)
  | sysRenameat => exact does_sysRenameat2 (h.cwd rfl)
  | sysRename => exact does_sysRenameat2 (h.cwd rfl)
  | sysStatx => exact does_sysStatx (h.cwd rfl) (h.stores _ List.mem_cons_self)
  | sysGeteuid => exact does_sysGeteuid
  | sysGetuid => exact does_sysGetuid
  | sysGetegid => exact does_sysGetegid
  | sysGetgid => exact does_sysGetgid
  | sysBrk =>
    exact does_sysBrk (h.owns _ (by decide)) (h.owns _ (by decide)) (h.owns _ (by decide))
      (h.stores _ List.mem_cons_self)
  | sysPrctl =>
    exact does_sysPrctl (h.owns _ (by decide)) (h.owns _ (by decide)) (h.owns _ (by decide))
      (h.stores _ List.mem_cons_self)
  | sysArchPrctl =>
    refine does_sysArchPrctl (h.owns _ (by decide)) (h.owns _ (by decide)) (h.owns _ (by decide))
      fun get => ?_
    refine h.stores _ ?_
    simp only [SysFn.places, if_pos get]
    exact List.mem_cons_self
  | sysUname => exact does_sysUname h.stores
  | sysUgetrlimit => exact does_sysUgetrlimit h.stores
  | sysMmap =>
    refine does_sysMmap (h.owns _ (by decide)) (h.owns _ (by decide)) (h.owns _ (by decide))
      (h.owns _ (by decide)) (fun a target => ?_) h.fine h.fits
    refine h.stores _ ?_
    simp only [SysFn.places, target]
    exact List.mem_cons_self
  | sysMmap2 =>
    refine does_sysMmap (h.owns _ (by decide)) (h.owns _ (by decide)) (h.owns _ (by decide))
      (h.owns _ (by decide)) (fun a target => ?_) h.fine h.fits
    refine h.stores _ ?_
    have same : mmapTarget vk subctx = some a := target
    simp only [SysFn.places, same]
    exact List.mem_cons_self
  | sysMunmap => exact does_sysMunmap (h.owns _ (by decide)) (h.owns _ (by decide))
  | sysMprotect => exact does_sysMprotect (h.owns _ (by decide)) (h.owns _ (by decide))
  | sysGettid => exact obeys_pure _
  | sysGetpid => exact obeys_pure _
  | sysSetTidAddress => exact does_sysSetTidAddress (h.stores _ List.mem_cons_self)
  | sysSetRobustList => exact obeys_pure _
  | sysGetRobustList =>
    exact does_sysGetRobustList (h.stores _ List.mem_cons_self)
      (h.stores _ (List.mem_cons_of_mem _ List.mem_cons_self))
  | sysRseq => exact obeys_pure _
  | sysLookupDcookie => exact obeys_pure _
  | sysWritev => exact does_sysWritev (h.owns _ (by decide)) h.fine
  | sysPrlimit64 => exact does_sysPrlimit64 h.stores
  | sysClockGettime => exact does_sysClockGettime h.stores
  | sysClockGettime64 => exact does_sysClockGettime64 h.stores
  | sysGetrandom =>
    exact does_sysGetrandom (h.stores _ List.mem_cons_self) h.fits
      (h.bounded.imp_right fun bounded => bounded.getrandom _)
  | sysTime => exact does_sysTime (h.stores _ List.mem_cons_self)
  | sysReadlink => exact does_readGuestLink (h.cwd rfl) (h.stores _ List.mem_cons_self)
  | sysReadlinkat => exact does_readGuestLink (h.cwd rfl) (h.stores _ List.mem_cons_self)
  | sysRtSigaction =>
    exact does_sysRtSigaction (h.owns _ (by decide)) (h.stores _ List.mem_cons_self)
      h.fits
  | sysRtSigprocmask =>
    exact does_sysRtSigprocmask (h.owns _ (by decide)) (h.stores _ List.mem_cons_self)
      h.fits
  | sysNewfstatat => exact does_sysNewfstatat (h.cwd rfl) (h.stores _ List.mem_cons_self)
  | sysFstatat64 => exact does_sysFstatat64 (h.cwd rfl) (h.stores _ List.mem_cons_self)
  | sysTgkill =>
    exact does_sysTgkill (h.owns _ (by decide)) (h.owns _ (by decide)) (h.owns _ (by decide))
  | sysDup => exact does_sysDup (h.owns _ (by decide)) (h.owns _ (by decide))
  | sysFcntl => exact does_sysFcntl (h.owns _ (by decide)) (h.owns _ (by decide))
  | sysSetThreadArea => exact does_sysSetThreadArea h.stores
  | sysIoctl => exact does_sysIoctl (h.stores _ List.mem_cons_self)
  | sysGetxattr =>
    exact does_sysPathGetxattr (h.cwd rfl) (h.stores _ List.mem_cons_self)
      (room_of_not_stuck h.fine) h.fits
  | sysLgetxattr =>
    exact does_sysPathGetxattr (h.cwd rfl) (h.stores _ List.mem_cons_self)
      (room_of_not_stuck h.fine) h.fits
  | sysFgetxattr =>
    exact does_sysFgetxattr (h.stores _ List.mem_cons_self)
      (room_of_not_stuck h.fine) h.fits
  | sysFutex => exact does_sysFutex
  | sysSocket => exact does_handOut fun _ => hosts_newFd (h.owns _ (by decide)) (h.owns _ (by decide))
  | sysEpollCreate1 =>
    exact does_handOut fun _ => hosts_newFd (h.owns _ (by decide)) (h.owns _ (by decide))
  | sysTimerfdCreate =>
    exact does_handOut fun _ => hosts_newFd (h.owns _ (by decide)) (h.owns _ (by decide))
  | sysSocketpair =>
    exact does_sysSocketpair (h.owns _ (by decide)) (h.owns _ (by decide))
      (h.stores _ List.mem_cons_self) (h.stores _ (List.mem_cons_of_mem _ List.mem_cons_self))
  | sysSocketcall => exact (direct rfl).elim
  | sysConnect => exact does_sysConnect
  | sysShutdown => exact does_sysShutdown
  | sysGetsockopt =>
    exact does_sysGetsockopt (h.stores _ List.mem_cons_self)
      (h.stores _ (List.mem_cons_of_mem _ List.mem_cons_self))
      (h.bounded.imp_right fun bounded => bounded.getsockopt)
  | sysSendto => exact does_sysSendto h.fits
  | sysRecvfrom =>
    exact does_sysRecvfrom h.stores h.fits
      (h.fine.imp_right not_not.1)
  | sysPselect6 => exact does_sysPselect6 h.stores
  | sysEpollWait =>
    exact does_sysEpollWait (h.stores _ List.mem_cons_self)
      (h.bounded.imp_right fun bounded => bounded.epollWait)
  | sysEpollCtl => exact does_sysEpollCtl
  | sysTimerfdSettime => exact does_sysTimerfdSettime h.stores
  | sysGetdents64 => exact does_sysGetdents64 (h.stores _ List.mem_cons_self) h.fits
  | sysStatfs => exact does_sysStatfs (h.cwd rfl) (h.stores _ List.mem_cons_self)
  | sysStatfs64 => exact does_sysStatfs64 (h.cwd rfl) (h.stores _ List.mem_cons_self)
  | sysFadvise64 => exact does_sysFadvise64
  | sysUnlink => exact does_sysUnlink (h.cwd rfl)

/-- The calls of `socketcall` are handlers of the table. -/
theorem socketcallTarget_eq (call : U64) (subctx : SubCtx) :
    socketcallTarget sv call subctx = match socketcallFn call with
      | some g => sysHandlers sv g subctx
      | none => pure (negErrno ENOSYS) := by
  unfold socketcallTarget socketcallFn
  split_ifs <;> rfl

theorem socketcallFn_ne {call : U64} (found : socketcallFn call = some g) :
    g ≠ .sysSocketcall := by
  rintro rfl
  unfold socketcallFn at found
  split_ifs at found <;> cases found

/-- What the call owns that `socketcall` stands for, it owns as well. -/
theorem socketcallFn_owned {call : U64} (found : socketcallFn call = some g) :
    ∀ c ∈ g.owned, c ∈ SysFn.sysSocketcall.owned := by
  unfold socketcallFn at found
  split_ifs at found <;> cases found <;> decide

/-- The effects of a handler grant the call that it performs. -/
theorem grants_effects (performed : f.performed sctx vk = some (g, subctx))
    (owned : ∀ c ∈ g.owned, c ∈ f.owned) :
    (f.effects sv sctx vk).Grants sv g subctx vk where
  owns := owned
  stores o place := by
    simp only [SysFn.effects, SysFn.outputs, performed]
    exact place
  cwd path := by
    cases here : vk.host.cwd with
    | none =>
      refine .inl (.inl ?_)
      simp only [SysFn.Hazard, performed]
      exact .inl ⟨path, here⟩
    | some dir => exact .inr (by simp [Valkyrie.settings, here])
  fits := by
    by_cases small : g.allocated subctx vk < 2 ^ 63
    · exact .inr small
    · refine .inl (.inl ?_)
      simp only [SysFn.Hazard, performed]
      exact .inr (.inl (not_lt.1 small))
  fine := by
    by_cases stuck : g.stuck subctx vk
    · refine .inl (.inl ?_)
      simp only [SysFn.Hazard, performed]
      exact .inr (.inr stuck)
    · exact .inr stuck
  bounded := (Classical.em sv.Bounded).symm.imp_left .inr

end Granted

/-- The handlers keep to their effects. -/
theorem does_sysHandlers (sv : Services) (f : SysFn) (sctx : SubCtx) (vk : Valkyrie) :
    Does (f.effects sv sctx vk) vk.settings vk (sysHandlers sv f sctx) := by
  by_cases direct : f = .sysSocketcall
  · subst direct
    refine does_sysSocketcall fun subctx args => ?_
    rw [socketcallTarget_eq]
    cases found : socketcallFn sctx.arg0 with
    | none => exact obeys_pure _
    | some g =>
      have performed : SysFn.sysSocketcall.performed sctx vk = some (g, subctx) := by
        simp only [SysFn.performed, found, args, Option.map_some, Option.bind_some]
      exact (grants_effects performed (socketcallFn_owned found)).does (socketcallFn_ne found)
  · have performed : f.performed sctx vk = some (f, sctx) := by
      cases f with
      | sysSocketcall => exact (direct rfl).elim
      | _ => rfl
    exact (grants_effects performed fun _ h => h).does direct

end ValkyrieRs
