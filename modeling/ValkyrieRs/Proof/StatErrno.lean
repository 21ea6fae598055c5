import ValkyrieRs.Proof.FileCalls

/-!
# The error numbers of the status calls

`stat_at` and `statfs_for_path` return their error, and the handlers drop it and report the error
number that the host left last.  That is the number of the failure exactly when the host was asked:
for a path that cannot be resolved it is whatever an earlier call has left.
-/

namespace ValkyrieRs

open Proc

/-- The handlers of `stat_at` and `statfs_for_path`. -/
inductive StatCall where
  | stat | stat64 | newfstatat | fstatat64 | statfs | statfs64
deriving DecidableEq

namespace StatCall

/-- The handler of the call. -/
def handler : StatCall → SubCtx → VkM U64
  | stat => sysStat
  | stat64 => sysStat64
  | newfstatat => sysNewfstatat
  | fstatat64 => sysFstatat64
  | statfs => sysStatfs
  | statfs64 => sysStatfs64

variable (c : StatCall) (sctx : SubCtx)

/-- Where the guest's path stands. -/
def pathPtr : U64 :=
  if c = newfstatat ∨ c = fstatat64 then sctx.arg1 else sctx.arg0

/-- The directory. -/
def dirfd : U32 :=
  if c = newfstatat ∨ c = fstatat64 then sctx.arg0.setWidth 32 else atFdcwd

/-- The flags. -/
def flags : U32 :=
  if c = newfstatat ∨ c = fstatat64 then sctx.arg3.setWidth 32 else 0

/-- `stat_at` or `statfs_for_path` with the guest's path returns the error. -/
def FailsOn (path : List Char) (vk : Valkyrie) (e : U32) (t : Valkyrie) : Prop :=
  if c = statfs ∨ c = statfs64 then (statfsForPath path).Ends vk (.ok (.error e)) t
  else (statAt (c.dirfd sctx) path (c.flags sctx)).Ends vk (.ok (.error e)) t

/-- The path is read, and `stat_at` or `statfs_for_path` returns the error. -/
def Fails (vk : Valkyrie) (e : U32) (t : Valkyrie) : Prop :=
  ∃ path, (readGuestCstring (c.pathPtr sctx)).Ends vk (.ok path) vk ∧ c.FailsOn sctx path vk e t

/-- The call to the host about a path. -/
def hostCall (dirfd : U32) (path : List Char) : HostCall :=
  if c = statfs ∨ c = statfs64 then .statfs path else .fstatat dirfd path (c.flags sctx)

/-- What is asked of the host, or the error that keeps it from being asked; nothing when the host has
no working directory. -/
def request (vk : Valkyrie) (path : List Char) : Option (Except U32 HostCall) :=
  if path = [] ∧ c.flags sctx &&& atEmptyPath ≠ 0 then
    some (.ok (c.hostCall sctx (c.dirfd sctx) []))
  else
    (getPathAt vk.cfg.rootfs vk.host.cwd vk.fdTable (c.dirfd sctx) path).map fun found =>
      match found with
      | none => .error EBADF
      | some absPath =>
        if Char.ofNat 0 ∈ absPath then .error EINVAL
        else .ok (c.hostCall sctx atFdcwd absPath)

end StatCall

/-- The error number of the host thread. -/
def Valkyrie.withErrno (vk : Valkyrie) (errno : U32) : Valkyrie := vk.withHost (vk.host.fail errno)

/-- Whatever error number an earlier call has left, a failure is reported with its own, negative, and
memory stays as it is. -/
def OwnErrno (c : StatCall) (sctx : SubCtx) (vk : Valkyrie) : Prop :=
  ∀ e t, c.Fails sctx vk e t → ∀ errno : U32, ∃ vk',
    (c.handler sctx).Ends (vk.withErrno errno) (.ok (negErrno e)) vk' ∧
      (negErrno e).toInt < 0 ∧ vk'.uc = vk.uc

/-- The guest's path, when it can be read, can be resolved. -/
def StatCall.Resolves (c : StatCall) (sctx : SubCtx) (vk : Valkyrie) : Prop :=
  ∀ path, (readGuestCstring (c.pathPtr sctx)).Ends vk (.ok path) vk →
    ∀ e, c.request sctx vk path ≠ some (.error e)

/-- The host reports its failures with error numbers. -/
def Host.ReportsErrors (h : Host) : Prop :=
  ∀ i, 1 ≤ (h.answers i).errno.toNat ∧ (h.answers i).errno.toNat ≤ 4095

variable {vk vk' t : Valkyrie} {c : StatCall} {sctx : SubCtx} {path : List Char} {e : U32}

/-! ## The failure -/

/-- The host is asked, and refuses. -/
theorem ends_asked {β : Type} {call : HostCall} {f : List U8 → β} :
    (do
      let st ← hostCall fun h => h.ask call (·.data)
      return st.map f : VkM (Except U32 β)).Ends vk (.ok (.error e)) t ↔
    ¬ vk.host.answer.ok ∧ e = vk.host.answer.errno ∧
      t = vk.withHost ((vk.host.record call).fail e) := by
  rw [ends_bind_hostCall, ends_pure, Host.ask]
  by_cases ok : vk.host.answer.ok
  · rw [if_pos ok]
    exact iff_of_false (fun h => nomatch h.1) fun h => h.1 ok
  · rw [if_neg ok]
    constructor
    · rintro ⟨same, rfl⟩
      cases same
      exact ⟨ok, rfl, rfl⟩
    · rintro ⟨-, rfl, rfl⟩
      exact ⟨rfl, rfl⟩

/-- The path is resolved, or the host has no working directory. -/
theorem ends_bind_guestPathAt {α : Type} {dirfd : U32} {f : Option (List Char) → VkM α}
    {r : Except ValkyrieError α} : (guestPathAt dirfd path >>= f).Ends vk r t ↔
      ∃ found, getPathAt vk.cfg.rootfs vk.host.cwd vk.fdTable dirfd path = some found ∧
        (f found).Ends vk r t := by
  rw [ends_bind]
  constructor
  · rintro (⟨e, failed, -⟩ | ⟨found, s, resolved, run⟩)
    · obtain ⟨_, -, ⟨⟩, -⟩ := ends_guestPathAt.1 failed
    · obtain ⟨_, here, ⟨⟩, rfl⟩ := ends_guestPathAt.1 resolved
      exact ⟨found, here, run⟩
  · rintro ⟨found, here, run⟩
    exact .inr ⟨found, vk, ends_guestPathAt.2 ⟨found, here, rfl, rfl⟩, run⟩

/-- What is asked of the host about a guest path, or the error that keeps it from being asked; nothing
when the host has no working directory. -/
def Valkyrie.resolve {β : Type} (vk : Valkyrie) (dirfd : U32) (path : List Char)
    (call : List Char → β) : Option (Except U32 β) :=
  (getPathAt vk.cfg.rootfs vk.host.cwd vk.fdTable dirfd path).map fun found =>
    match found with
    | none => .error EBADF
    | some absPath => if Char.ofNat 0 ∈ absPath then .error EINVAL else .ok (call absPath)

/-- A run that begins with the resolution of a path, in terms of what is asked of the host. -/
theorem ends_bind_resolve {α β : Type} {dirfd : U32} {f : Option (List Char) → VkM α}
    {r : Except ValkyrieError α} (call : List Char → β) (refused : U32 → VkM α) (asks : β → VkM α)
    (unresolved : f none = refused EBADF)
    (nul : ∀ absPath, Char.ofNat 0 ∈ absPath → f (some absPath) = refused EINVAL)
    (plain : ∀ absPath, Char.ofNat 0 ∉ absPath → f (some absPath) = asks (call absPath)) :
    (guestPathAt dirfd path >>= f).Ends vk r t ↔
      (∃ e, vk.resolve dirfd path call = some (.error e) ∧ (refused e).Ends vk r t) ∨
        ∃ q, vk.resolve dirfd path call = some (.ok q) ∧ (asks q).Ends vk r t := by
  rw [ends_bind_guestPathAt, Valkyrie.resolve]
  cases getPathAt vk.cfg.rootfs vk.host.cwd vk.fdTable dirfd path with
  | none => simp
  | some found =>
    cases found with
    | none => simp [unresolved]
    | some absPath =>
      by_cases has : Char.ofNat 0 ∈ absPath
      · simp [nul absPath has, has]
      · simp [plain absPath has, has]

/-- What is done with a resolved path: the host is asked, unless the path cannot be handed to it. -/
structure Probes {β : Type} (f : Option (List Char) → VkM (Except U32 β))
    (call : List Char → HostCall) (g : List U8 → β) : Prop where
  unresolved : f none = pure (.error EBADF)
  nul : ∀ absPath, Char.ofNat 0 ∈ absPath → f (some absPath) = pure (.error EINVAL)
  asks : ∀ absPath, Char.ofNat 0 ∉ absPath → f (some absPath) = (do
    let st ← hostCall fun h => h.ask (call absPath) (·.data)
    return st.map g)

/-- The error is made without the host, or the host has been asked. -/
theorem Probes.ends_iff {β : Type} {f : Option (List Char) → VkM (Except U32 β)} {g : List U8 → β}
    (probes : Probes f (c.hostCall sctx atFdcwd) g)
    (general : ¬ (path = [] ∧ c.flags sctx &&& atEmptyPath ≠ 0)) :
    (guestPathAt (c.dirfd sctx) path >>= f).Ends vk (.ok (.error e)) t ↔
    (c.request sctx vk path = some (.error e) ∧ t = vk) ∨
      ∃ call, c.request sctx vk path = some (.ok call) ∧ ¬ vk.host.answer.ok ∧
        e = vk.host.answer.errno ∧ t = vk.withHost ((vk.host.record call).fail e) := by
  have request : c.request sctx vk path =
      vk.resolve (c.dirfd sctx) path (c.hostCall sctx atFdcwd) := if_neg general
  rw [request, ends_bind_resolve _ (fun e => pure (.error e)) (fun call => do
    let st ← hostCall fun h => h.ask call (·.data)
    return st.map g) probes.unresolved probes.nul probes.asks]
  simp only [ends_pure, ends_asked, Except.ok.injEq, Except.error.injEq]
  refine or_congr_left ?_
  constructor
  · rintro ⟨e', refused, rfl, rfl⟩
    exact ⟨refused, rfl⟩
  · rintro ⟨refused, rfl⟩
    exact ⟨e, refused, rfl, rfl⟩

/-- A failure is an error that keeps the host from being asked, or one that the host answers. -/
theorem failsOn_iff : c.FailsOn sctx path vk e t ↔
    (c.request sctx vk path = some (.error e) ∧ t = vk) ∨
      ∃ call, c.request sctx vk path = some (.ok call) ∧ ¬ vk.host.answer.ok ∧
        e = vk.host.answer.errno ∧ t = vk.withHost ((vk.host.record call).fail e) := by
  by_cases fs : c = .statfs ∨ c = .statfs64
  · have other : ¬ (c = .newfstatat ∨ c = .fstatat64) := by
      rcases fs with rfl | rfl <;> decide
    have dir : c.dirfd sctx = atFdcwd := if_neg other
    have general : ¬ (path = [] ∧ c.flags sctx &&& atEmptyPath ≠ 0) := by
      rw [StatCall.flags, if_neg other]
      exact fun h => h.2 rfl
    rw [StatCall.FailsOn, if_pos fs, statfsForPath, ← dir]
    refine Probes.ends_iff (g := Statfs64.ofBytes)
      ⟨rfl, fun absPath nul => ?_, fun absPath nul => ?_⟩ general
    · exact if_pos nul
    · rw [StatCall.hostCall, if_pos fs]
      exact if_neg nul
  · rw [StatCall.FailsOn, if_neg fs, statAt]
    by_cases empty : path = [] ∧ c.flags sctx &&& atEmptyPath ≠ 0
    · rw [if_pos empty, StatCall.request, if_pos empty, StatCall.hostCall, if_neg fs]
      exact ends_asked.trans (by simp)
    · rw [if_neg empty]
      refine Probes.ends_iff (g := Stat.ofBytes)
        ⟨rfl, fun absPath nul => ?_, fun absPath nul => ?_⟩ empty
      · exact if_pos nul
      · rw [StatCall.hostCall, if_neg fs]
        exact if_neg nul

/-- The handler reports the error number that the failure has left in the host. -/
theorem StatCall.Fails.reported (fails : c.Fails sctx vk e t) :
    (c.handler sctx).Ends vk (.ok (negErrno t.host.errno)) t := by
  obtain ⟨path, read, fails⟩ := fails
  have last : lastErrno.Ends t (.ok (negErrno t.host.errno)) t := ends_lastErrno.2 ⟨rfl, rfl⟩
  cases c with
  | stat => exact read.bind (Ends.bind fails last)
  | stat64 => exact read.bind (Ends.bind fails last)
  | newfstatat => exact read.bind (Ends.bind fails last)
  | fstatat64 => exact read.bind (Ends.bind fails last)
  | statfs => exact read.bind (Ends.bind fails last)
  | statfs64 => exact read.bind (Ends.bind fails last)

/-! ## Any earlier error number -/

/-- The guest's path is read from memory alone. -/
theorem ends_readGuestCstring_withHost {ptr : U64} {h : Host}
    (read : (readGuestCstring ptr).Ends vk (.ok path) vk) :
    (readGuestCstring ptr).Ends (vk.withHost h) (.ok path) (vk.withHost h) := by
  have loop : ∀ (n : ℕ) (addr : U64) (bytes : List U8),
      (readCstringLoop addr n).Ends vk (.ok bytes) vk →
      (readCstringLoop addr n).Ends (vk.withHost h) (.ok bytes) (vk.withHost h) := by
    intro n
    induction n with
    | zero =>
      intro addr bytes run
      exact ends_pure.2 ⟨(ends_pure.1 run).1, rfl⟩
    | succ n ih =>
      intro addr bytes run
      rw [readCstringLoop] at run ⊢
      obtain ⟨byte, s, first, run⟩ := ends_bind_ok.1 run
      obtain ⟨small, answer, rfl⟩ := ends_memRead.1 first
      have again : (memRead addr 1).Ends (s.withHost h) (.ok byte) (s.withHost h) :=
        ends_memRead.2 ⟨small, answer, rfl⟩
      rw [again.bind_iff]
      split_ifs at run ⊢ with last
      · exact ends_pure.2 ⟨(ends_pure.1 run).1, rfl⟩
      · obtain ⟨rest, u, next, run⟩ := ends_bind_ok.1 run
        obtain rfl := (readsOnly_readCstringLoop _ _).state_eq next
        exact (ih _ _ next).bind (ends_pure.2 ⟨(ends_pure.1 run).1, rfl⟩)
  rw [readGuestCstring] at read ⊢
  obtain ⟨bytes, s, first, run⟩ := ends_bind_ok.1 read
  obtain rfl := (readsOnly_readCstringLoop _ _).state_eq first
  exact (loop _ _ _ first).bind (ends_pure.2 ⟨(ends_pure.1 run).1, rfl⟩)

theorem toInt_neg_of_isNegErrno {v : U64} (number : IsNegErrno v) : v.toInt < 0 := by
  unfold IsNegErrno at number
  rw [BitVec.toInt_eq_toNat_cond]
  split_ifs <;> omega

/-- A failure is reported with its own error number, whatever number an earlier call has left, exactly
when the guest's path can be resolved. -/
theorem own_errno_iff (host : vk.host.ReportsErrors) : OwnErrno c sctx vk ↔ c.Resolves sctx vk := by
  constructor
  · intro own path read e unresolved
    obtain ⟨vk', run, -, -⟩ :=
      own e vk ⟨path, read, failsOn_iff.2 (.inl ⟨unresolved, rfl⟩)⟩ (e + 1)
    have stale : c.Fails sctx (vk.withErrno (e + 1)) e (vk.withErrno (e + 1)) :=
      ⟨path, ends_readGuestCstring_withHost read, failsOn_iff.2 (.inl ⟨unresolved, rfl⟩)⟩
    obtain ⟨same, -⟩ := run.unique stale.reported
    have wrong : e = e + 1 := negErrno_inj (Except.ok.inj same)
    bv_omega
  · rintro resolves e t ⟨path, read, fails⟩ errno
    rcases failsOn_iff.1 fails with ⟨unresolved, -⟩ | ⟨call, asked, refused, rfl, -⟩
    · exact absurd unresolved (resolves path read e)
    · have again : c.Fails sctx (vk.withErrno errno) vk.host.answer.errno _ :=
        ⟨path, ends_readGuestCstring_withHost read,
          failsOn_iff.2 (.inr ⟨call, asked, refused, rfl, rfl⟩)⟩
      obtain ⟨positive, small⟩ := host vk.host.calls.length
      exact ⟨_, again.reported, toInt_neg_of_isNegErrno (isNegErrno_negErrno positive small), rfl⟩

/-- A guest with the empty path at `0x1000`, on a host in its root directory that refuses every call. -/
def statGuest : Valkyrie :=
  let vk := Valkyrie.ofMemory .x86_64 ⟨[⟨0x1000, 0x1000, .all, "[data]"⟩], 0, 0⟩
  { vk with host := { vk.host with cwd := some ['/'] } }

/-- `newfstatat(dirfd, 0x1000, 0x1100, 0)`. -/
def newfstatatCall (dirfd : U64) : SubCtx := ⟨dirfd, 0x1000, 0x1100, 0, 0, 0⟩

theorem statGuest_read : (readGuestCstring 0x1000).Ends statGuest (.ok []) statGuest := by
  have bytes : (readCstringLoop 0x1000 maxPathLen).Ends statGuest (.ok []) statGuest := rfl
  rw [readGuestCstring, bytes.bind_iff, fromUtf8Lossy]
  exact ends_pure.2 ⟨rfl, rfl⟩

theorem statGuest_reportsErrors : statGuest.host.ReportsErrors := fun _ => by
  show 1 ≤ EIO.toNat ∧ EIO.toNat ≤ 4095
  decide

theorem own_errno_iff_statGuest : OwnErrno .newfstatat (newfstatatCall (-100)) statGuest := by
  refine (own_errno_iff statGuest_reportsErrors).2 fun path read e => ?_
  obtain ⟨same, -⟩ := read.unique statGuest_read
  cases same
  exact nofun

/-- A directory descriptor that is not open is not reported when an earlier call has left zero. -/
theorem stale_errno_reported : ¬ ∀ (c : StatCall) (sctx : SubCtx) (vk : Valkyrie),
    vk.host.ReportsErrors → OwnErrno c sctx vk := by
  intro always
  have unresolved : StatCall.newfstatat.request (newfstatatCall 5) statGuest [] =
    some (.error EBADF) := rfl
  have fails : StatCall.newfstatat.Fails (newfstatatCall 5) statGuest EBADF statGuest :=
    ⟨[], statGuest_read, failsOn_iff.2 (.inl ⟨unresolved, rfl⟩)⟩
  have stale : StatCall.newfstatat.Fails (newfstatatCall 5) (statGuest.withErrno 0) EBADF
      (statGuest.withErrno 0) :=
    ⟨[], ends_readGuestCstring_withHost statGuest_read, failsOn_iff.2 (.inl ⟨unresolved, rfl⟩)⟩
  obtain ⟨vk', run, -⟩ := always _ _ _ statGuest_reportsErrors _ _ fails 0
  obtain ⟨same, -⟩ := run.unique stale.reported
  exact absurd (negErrno_inj (Except.ok.inj same)) (by decide)

end ValkyrieRs
