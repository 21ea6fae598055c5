import Mathlib.Data.List.TakeDrop
import ValkyrieRs.Proof.FileEffects
import ValkyrieRs.Proof.Namespace
import ValkyrieRs.Proof.StatSizes

/-!
# Effects of the calls on paths and attributes

The handlers that store what the host tells about a file, those that change names, and the vectored
write, which may meet an entry of a length that no allocation has.
-/

namespace ValkyrieRs

open Proc

variable {fx : Effects} {st : Settings} {vk vk' : Valkyrie} {sctx : SubCtx}

/-! ## Control -/

theorem length_of_memRead {addr : U64} {n : ℕ} {bytes : List U8}
    (run : (memRead addr n).Ends vk (.ok bytes) vk') : bytes.length = n :=
  VMemory.length_of_read (ends_memRead.1 run).2.1.symm

/-- The size of the argument of a request, as far as it is stored. -/
def ioctlRoom (request : U64) : ℕ :=
  if request = fionbio ∨ request = fionread ∨ request = tiocinq ∨ request = tiocoutq then 4
  else if request = tiocgwinsz then 8
  else ioctlRequestSize request

theorem ioctlRoom_lt {request : U64} : ioctlRoom request < 2 ^ 14 := by
  unfold ioctlRoom ioctlRequestSize
  split_ifs
  · decide
  · decide
  · rw [BitVec.toNat_and]
    exact Nat.and_lt_two_pow _ (by decide)

theorem Host.length_ioctl {h : Host} {fd : U32} {request : U64} {arg : List U8}
    {out : U32 × List U8} (ok : (h.ioctl fd request arg).1 = .ok out) :
    out.2.length = arg.length := by
  refine Host.onFd_ok (P := fun out : U32 × List U8 => out.2.length = arg.length) ?_ ok
  intro a d h ok
  cases ok
  exact List.takeD_length _ _ _

theorem does_ioctlBuffer {hostFd : U32} {request arg : U64} {buffer : List U8} {store : Bool}
    (output : store → (arg, buffer.length) ∈ fx.outputs) :
    Does fx st vk (ioctlBuffer hostFd request arg buffer store) := by
  refine does_asked (fun _ => hosts_onFd fun _ _ _ => .refl fx _) (fun _ _ => does_lastErrno) ?_
  intro out t _ ok
  refine .ite (fun stored => ?_) fun _ => obeys_pure _
  refine (does_memWrite ⟨_, output stored, ?_⟩).bind fun _ _ _ _ => obeys_pure _
  rw [Host.length_ioctl ok]

theorem ioctlRequestSize_small (request : U64) : ioctlRequestSize request < 2 ^ 63 :=
  Nat.lt_of_le_of_lt (by
    have := BitVec.toNat_and (request >>> 16) 0x3FFF
    rw [ioctlRequestSize, this]
    exact Nat.and_le_right) (by decide : (0x3FFF#64).toNat < 2 ^ 63)

theorem does_sysIoctl (output : (sctx.arg2, ioctlRoom sctx.arg1) ∈ fx.outputs) :
    Does fx st vk (sysIoctl sctx) := by
  refine .ite (fun _ => obeys_pure _) fun _ => does_look (fun _ => rfl) fun _ => ?_
  cases hostFdForGuest vk.fdTable ((sctx.arg0.setWidth 32 : U32).signExtend 64) with
  | none => exact obeys_pure _
  | some hostFd =>
    have listed : sctx.arg1 ∈ [fionbio, fionread, tiocinq, tiocoutq] ↔ sctx.arg1 = fionbio ∨
        sctx.arg1 = fionread ∨ sctx.arg1 = tiocinq ∨ sctx.arg1 = tiocoutq := by
      simp only [List.mem_cons, List.not_mem_nil, or_false]
    refine .ite (fun word => ?_) fun other => .ite (fun size => ?_) fun notSize => ?_
    · rw [ioctlRoom, if_pos (listed.1 word)] at output
      refine .ite (fun _ => obeys_pure _) fun _ => .ite (fun _ => ?_) fun _ =>
        does_ioctlBuffer fun _ => output
      refine (does_memRead (.inr (by decide))).bind fun value _ _ run => does_ioctlBuffer fun _ => ?_
      rw [length_of_memRead run]
      exact output
    · rw [ioctlRoom, if_neg (mt listed.2 other), if_pos size] at output
      exact .ite (fun _ => obeys_pure _) fun _ => does_ioctlBuffer fun _ => output
    · rw [ioctlRoom, if_neg (mt listed.2 other), if_neg notSize] at output
      refine .ite (fun _ => ?_) fun _ => .ite (fun _ => obeys_pure _) fun _ => .ite (fun _ => ?_)
        fun _ => does_ioctlBuffer fun _ => ?_
      · exact does_asked (fun _ => hosts_onFd fun _ _ _ => .refl fx _) (fun _ _ => does_lastErrno)
          fun _ _ _ _ => obeys_pure _
      · refine (does_memRead (.inr (ioctlRequestSize_small _))).bind fun value _ _ run =>
          does_ioctlBuffer fun _ => ?_
        rw [length_of_memRead run]
        exact output
      · rw [List.length_replicate]
        exact output

theorem does_sysGetdents64 (output : (sctx.arg1, sctx.arg2.toNat) ∈ fx.outputs)
    (fits : fx.hangs ∨ sctx.arg2.toNat < 2 ^ 63) : Does fx st vk (sysGetdents64 sctx) := by
  refine .ite (fun _ => obeys_pure _) fun _ => .ite (fun _ => obeys_pure _) fun _ =>
    does_look (fun _ => rfl) fun _ => ?_
  cases hostFdForGuest vk.fdTable ((sctx.arg0.setWidth 32 : U32).signExtend 64) with
  | none => exact obeys_pure _
  | some hostFd =>
    refine (does_hostAlloc fits).bind fun _ s _ _ => does_asked
      (fun _ => hosts_onFd fun _ _ _ => .refl fx _) (fun _ _ => does_lastErrno) fun bytes t _ ok => ?_
    refine .ite (fun _ => obeys_pure _) fun _ => ?_
    exact (does_memWrite ⟨_, output, Host.length_getdents64 ok⟩).bind fun _ _ _ _ => obeys_pure _

theorem does_sysFadvise64 : Does fx st vk (sysFadvise64 sctx) := by
  refine .ite (fun _ => obeys_pure _) fun _ => does_look (fun _ => rfl) fun _ => ?_
  dsimp only
  cases hostFdForGuest vk.fdTable ((sctx.arg0.setWidth 32 : U32).signExtend 64) with
  | none => exact obeys_pure _
  | some hostFd =>
    exact does_asked (fun _ => hosts_fadvise) (fun _ _ => obeys_pure _) fun _ _ _ _ => obeys_pure _

/-! ## Status -/

/-- A structure of a known size that is stored last. -/
theorem does_storeLast {addr : U64} {data : List U8} {n : ℕ} {r : U64}
    (output : (addr, n) ∈ fx.outputs) (length : data.length = n) :
    Does fx st vk (memWrite addr data >>= fun _ => (pure r : VkM U64)) :=
  (does_memWrite ⟨n, output, length.le⟩).bind fun _ _ _ _ => obeys_pure _

theorem does_statAt {dirfd flags : U32} {fileName : List Char} (cwd : fx.hangs ∨ st.cwd.isSome) :
    Does fx st vk (statAt dirfd fileName flags) := by
  refine .ite (fun _ => ?_) fun _ => (does_guestPathAt cwd).bind fun p _ _ _ => ?_
  · exact (does_hostCall fun _ => hosts_ask).bind fun _ _ _ _ => obeys_pure _
  · cases p with
    | none => exact obeys_pure _
    | some absPath =>
      exact .ite (fun _ => obeys_pure _) fun _ =>
        (does_hostCall fun _ => hosts_ask).bind fun _ _ _ _ => obeys_pure _

/-- A handler that stores the status of a path. -/
theorem does_statPath {dirfd flags : U32} {ptr addr : U64} {f : Except U32 Stat → VkM U64}
    {image : Stat → List U8} {n : ℕ} (cwd : fx.hangs ∨ st.cwd.isSome)
    (output : (addr, n) ∈ fx.outputs) (length : ∀ s, (image s).length = n)
    (error : ∀ e, f (.error e) = lastErrno)
    (ok : ∀ s, f (.ok s) = memWrite addr (image s) >>= fun _ => pure 0) :
    Does fx st vk (readGuestCstring ptr >>= fun name => statAt dirfd name flags >>= f) := by
  refine does_readGuestCstring.bind fun name _ _ _ => (does_statAt cwd).bind fun x _ _ _ => ?_
  cases x with
  | error e =>
    rw [error]
    exact does_lastErrno
  | ok s =>
    rw [ok]
    exact does_storeLast output (length s)

theorem does_sysStat (cwd : fx.hangs ∨ st.cwd.isSome) (output : (sctx.arg1, 144) ∈ fx.outputs) :
    Does fx st vk (sysStat sctx) :=
  does_statPath cwd output Stat.length_toBytes (fun _ => rfl) fun _ => rfl

theorem does_sysStat64 (cwd : fx.hangs ∨ st.cwd.isSome) (output : (sctx.arg1, 96) ∈ fx.outputs) :
    Does fx st vk (sysStat64 sctx) :=
  does_statPath cwd output length_packLinuxX86Stat64Le (fun _ => rfl) fun _ => rfl

theorem does_sysNewfstatat (cwd : fx.hangs ∨ st.cwd.isSome)
    (output : (sctx.arg2, 144) ∈ fx.outputs) : Does fx st vk (sysNewfstatat sctx) :=
  does_statPath cwd output Stat.length_toBytes (fun _ => rfl) fun _ => rfl

theorem does_sysFstatat64 (cwd : fx.hangs ∨ st.cwd.isSome)
    (output : (sctx.arg2, 96) ∈ fx.outputs) : Does fx st vk (sysFstatat64 sctx) :=
  does_statPath cwd output length_packLinuxX86Stat64Le (fun _ => rfl) fun _ => rfl

theorem does_sysFstat (output : (sctx.arg1, 144) ∈ fx.outputs) : Does fx st vk (sysFstat sctx) :=
  does_asked (fun _ => hosts_onFd fun _ _ _ => .refl fx _) (fun _ _ => does_lastErrno)
    fun _ _ _ _ => does_storeLast output (Stat.length_toBytes _)

theorem does_sysFstat64 (output : (sctx.arg1, 96) ∈ fx.outputs) :
    Does fx st vk (sysFstat64 sctx) :=
  does_asked (fun _ => hosts_onFd fun _ _ _ => .refl fx _) (fun _ _ => does_lastErrno)
    fun _ _ _ _ => does_storeLast output (length_packLinuxX86Stat64Le _)

theorem does_statfsForPath {path : List Char} (cwd : fx.hangs ∨ st.cwd.isSome) :
    Does fx st vk (statfsForPath path) := by
  refine (does_guestPathAt cwd).bind fun p _ _ _ => ?_
  cases p with
  | none => exact obeys_pure _
  | some absPath =>
    exact .ite (fun _ => obeys_pure _) fun _ =>
      (does_hostCall fun _ => hosts_ask).bind fun _ _ _ _ => obeys_pure _

/-- The size of the structure that `statfs` stores. -/
def statfsSize : Arch → ℕ
  | .x86_64 => 120
  | .x86 => 64

/-- The size of the structure that `statfs64` stores. -/
def statfs64Size : Arch → ℕ
  | .x86_64 => 120
  | .x86 => 84

theorem does_sysStatfs (cwd : fx.hangs ∨ st.cwd.isSome)
    (output : (sctx.arg1, statfsSize st.cfg.arch) ∈ fx.outputs) :
    Does fx st vk (sysStatfs sctx) := by
  refine does_readGuestCstring.bind fun path _ _ _ => (does_statfsForPath cwd).bind
    fun x t inv _ => ?_
  cases x with
  | error e => exact does_lastErrno
  | ok s =>
    refine does_look (fun _ => rfl) fun same => does_storeLast output ?_
    rw [← congrArg (fun s => s.cfg.arch) same]
    show _ = statfsSize t.cfg.arch
    cases t.cfg.arch with
    | x86 => exact length_packLinuxX86StatfsLe s
    | x86_64 => exact s.length_toBytes

theorem does_sysStatfs64 (cwd : fx.hangs ∨ st.cwd.isSome)
    (output : (sctx.arg2, statfs64Size st.cfg.arch) ∈ fx.outputs) :
    Does fx st vk (sysStatfs64 sctx) := by
  refine does_readGuestCstring.bind fun path _ _ _ => (does_statfsForPath cwd).bind
    fun x t inv _ => ?_
  cases x with
  | error e => exact does_lastErrno
  | ok s =>
    refine does_look (fun _ => rfl) fun same => .ite (fun _ => obeys_pure _) fun _ =>
      does_storeLast output ?_
    rw [← congrArg (fun s => s.cfg.arch) same]
    show _ = statfs64Size t.cfg.arch
    cases t.cfg.arch with
    | x86 => exact length_packLinuxX86Statfs64Le s
    | x86_64 => exact s.length_toBytes

theorem does_finishStatx {addr : U64} {ret : Except U32 (List U8)}
    (output : (addr, 256) ∈ fx.outputs) : Does fx st vk (finishStatx addr ret) := by
  cases ret with
  | error e => exact does_lastErrno
  | ok data => exact does_storeLast output (length_packStatxLe _)

theorem does_sysStatx (cwd : fx.hangs ∨ st.cwd.isSome) (output : (sctx.arg4, 256) ∈ fx.outputs) :
    Does fx st vk (sysStatx sctx) := by
  refine does_readGuestCstring.bind fun name _ _ _ => .ite (fun _ => ?_) fun _ =>
    (does_guestPathAt cwd).bind fun p _ _ _ => ?_
  · exact (does_hostCall fun _ => hosts_ask).bind fun _ _ _ _ => does_finishStatx output
  · cases p with
    | none => exact obeys_pure _
    | some absPath =>
      exact .ite (fun _ => obeys_pure _) fun _ =>
        (does_hostCall fun _ => hosts_ask).bind fun _ _ _ _ => does_finishStatx output

/-! ## Names -/

theorem does_sysRenameat2 (cwd : fx.hangs ∨ st.cwd.isSome) : Does fx st vk (sysRenameat2 sctx) := by
  refine does_readGuestCstring.bind fun old _ _ _ => does_readGuestCstring.bind fun new _ _ _ =>
    (does_guestPathAt cwd).bind fun p _ _ _ => ?_
  cases p with
  | none => exact obeys_pure _
  | some oldAbs =>
    refine (does_guestPathAt cwd).bind fun q _ _ _ => ?_
    cases q with
    | none => exact obeys_pure _
    | some newAbs =>
      exact .ite (fun _ => obeys_pure _) fun _ => .ite (fun _ => obeys_pure _) fun _ =>
        does_asked (fun _ => hosts_ask) (fun _ _ => does_lastErrno) fun _ _ _ _ => obeys_pure _

/-- A handler that asks the host about a path. -/
theorem does_onPath {α : Type} {dirfd : U32} {ptr : U64} {ask : List Char → VkM (Except U32 α)}
    {f : Except U32 α → VkM U64} (cwd : fx.hangs ∨ st.cwd.isSome)
    (asks : ∀ path t, Does fx st t (ask path)) (error : ∀ e t, Does fx st t (f (.error e)))
    (ok : ∀ a t, Does fx st t (f (.ok a))) :
    Does fx st vk (readGuestCstring ptr >>= fun path => guestPathAt dirfd path >>= fun p =>
      match p with
      | none => pure (negErrno EBADF)
      | some hostPath => if Char.ofNat 0 ∈ hostPath then pure (negErrno EINVAL)
        else ask hostPath >>= f) := by
  refine does_readGuestCstring.bind fun path _ _ _ => (does_guestPathAt cwd).bind fun p _ _ _ => ?_
  cases p with
  | none => exact obeys_pure _
  | some hostPath =>
    refine .ite (fun _ => obeys_pure _) fun _ => (asks hostPath _).bind fun x t _ _ => ?_
    cases x with
    | error e => exact error e t
    | ok a => exact ok a t

theorem does_sysUnlink (cwd : fx.hangs ∨ st.cwd.isSome) : Does fx st vk (sysUnlink sctx) :=
  does_onPath cwd (fun _ _ => does_hostCall fun _ => hosts_ask) (fun _ _ => does_lastErrno)
    fun _ _ => obeys_pure _

theorem does_askPath {ptr : U64} {reply : List Char → Host → Except U32 Unit}
    (cwd : fx.hangs ∨ st.cwd.isSome) : Does fx st vk (askPath ptr reply) :=
  does_onPath cwd (fun _ _ => does_service) (fun _ _ => does_lastErrno) fun _ _ => obeys_pure _

theorem does_storeTarget {addr size : U64} {bytes : List U8}
    (output : (addr, size.toNat) ∈ fx.outputs) : Does fx st vk (storeTarget addr size bytes) := by
  refine (does_memWrite ⟨_, output, ?_⟩).bind fun _ _ _ _ => obeys_pure _
  rw [List.length_take]
  omega

theorem does_readGuestLink {sv : Services} {dirfd : U32} {ptr addr size : U64}
    (cwd : fx.hangs ∨ st.cwd.isSome) (output : (addr, size.toNat) ∈ fx.outputs) :
    Does fx st vk (readGuestLink sv dirfd ptr addr size) := by
  refine .ite (fun _ => obeys_pure _) fun _ => does_readGuestCstring.bind fun path t _ _ =>
    does_look (fun _ => rfl) fun _ => ?_
  cases readlinkTargetForGuest t.start path with
  | some target => exact does_storeTarget output
  | none =>
    refine (does_guestPathAt cwd).bind fun p _ _ _ => ?_
    cases p with
    | none => exact obeys_pure _
    | some hostPath =>
      refine .ite (fun _ => does_lastErrno) fun _ => does_service.bind fun x _ _ _ => ?_
      cases x with
      | error e => exact does_lastErrno
      | ok target => exact does_storeTarget output

/-! ## Extended attributes -/

/-- The attribute fits into a buffer that is not empty. -/
theorem Host.length_xattr {h : Host} {size : ℕ} {data bytes : List U8}
    (ok : (h.xattr size data).1 = .ok bytes) : size = 0 ∨ bytes.length ≤ size := by
  unfold Host.xattr at ok
  split_ifs at ok with fits
  cases ok
  exact fits

theorem does_finishGetxattr {valuePtr : U64} {size : ℕ} {ret : Except U32 (List U8)}
    (output : (valuePtr, size) ∈ fx.outputs) (room : fx.hangs ∨ valuePtr = 0 ∨ size ≠ 0)
    (fits : ∀ data, ret = .ok data → size = 0 ∨ data.length ≤ size) :
    Does fx st vk (finishGetxattr valuePtr size ret) := by
  cases ret with
  | error e => exact does_lastErrno
  | ok data =>
    refine .ite (fun stores => .ite (fun _ => ?_) fun large => ?_) fun _ => obeys_pure _
    · refine (does_memWrite ⟨size, output, ?_⟩).bind fun _ _ _ _ => obeys_pure _
      rw [List.length_take, List.takeD_length]
      omega
    · refine Obeys.bind (obeys_diverge ?_) fun _ _ _ _ => obeys_pure _
      refine room.resolve_right fun room => ?_
      rcases fits data rfl with empty | small
      · exact room.elim stores.1 fun some => some empty
      · rw [List.takeD_length] at large
        omega

theorem does_sysPathGetxattr {follow : Bool} (cwd : fx.hangs ∨ st.cwd.isSome)
    (output : (sctx.arg2, sctx.arg3.toNat) ∈ fx.outputs)
    (room : fx.hangs ∨ sctx.arg2 = 0 ∨ sctx.arg3.toNat ≠ 0)
    (alloc : fx.hangs ∨ sctx.arg3.toNat < 2 ^ 63) :
    Does fx st vk (sysPathGetxattr sctx follow) := by
  refine does_readGuestCstring.bind fun path _ _ _ => does_readGuestCstring.bind fun name _ _ _ =>
    (does_guestPathAt cwd).bind fun p _ _ _ => ?_
  cases p with
  | none => exact obeys_pure _
  | some hostPath =>
    refine .ite (fun _ => obeys_pure _) fun _ => .ite (fun _ => obeys_pure _) fun _ =>
      (does_hostAlloc alloc).bind fun _ s _ _ => (does_hostCall fun _ => hosts_getxattr).bind
        fun ret t _ run => does_finishGetxattr output room fun data ok => ?_
    have told := (ends_hostCall.1 run).1
    rw [ok] at told
    simp only [Host.getxattr, Except.ok.injEq] at told
    split_ifs at told
    exact Host.length_xattr told.symm

theorem does_sysFgetxattr (output : (sctx.arg2, sctx.arg3.toNat) ∈ fx.outputs)
    (room : fx.hangs ∨ sctx.arg2 = 0 ∨ sctx.arg3.toNat ≠ 0)
    (alloc : fx.hangs ∨ sctx.arg3.toNat < 2 ^ 63) : Does fx st vk (sysFgetxattr sctx) := by
  refine does_readGuestCstring.bind fun name _ _ _ => .ite (fun _ => obeys_pure _) fun _ =>
    (does_hostAlloc alloc).bind fun _ s _ _ => (does_hostCall fun _ => hosts_fgetxattr).bind
      fun ret t _ run => does_finishGetxattr output room fun data ok => ?_
  have told := (ends_hostCall.1 run).1
  rw [ok, Except.ok.injEq] at told
  exact Host.onFd_ok (P := fun bytes => sctx.arg3.toNat = 0 ∨ bytes.length ≤ sctx.arg3.toNat)
    (fun _ _ _ ok => Host.length_xattr ok) told.symm

/-! ## Vectored writes -/

theorem does_readWord {addr : U64} {width : ℕ} (small : width < 2 ^ 63) :
    Does fx st vk (readWord addr width) :=
  (does_memRead (.inr small)).bind fun _ _ _ _ => obeys_pure _

/-- The word at an address. -/
def wordAt (uc : Unicorn) (addr : U64) (width : ℕ) : Except ValkyrieError U64 :=
  (VMemory.read uc addr width).map fromLeBytes

theorem word_of_ends {addr : U64} {width : ℕ} {value : U64}
    (run : (readWord addr width).Ends vk (.ok value) vk') :
    wordAt vk.uc addr width = .ok value ∧ vk' = vk := by
  obtain ⟨bytes, t, read, last⟩ := ends_bind_ok.1 run
  obtain ⟨-, told, rfl⟩ := ends_memRead.1 read
  obtain ⟨same, rfl⟩ := ends_pure.1 last
  cases same
  exact ⟨by rw [wordAt, ← told, Except.map], rfl⟩

/-- An entry of the vector has a length. -/
def EntryLength (uc : Unicorn) (iovAddr : U64) (width n : ℕ) (len : U64) : Prop :=
  ∃ i < n,
    wordAt uc (iovAddr + BitVec.ofNat 64 (i * (width * 2)) + BitVec.ofNat 64 width) width = .ok len

/-- An entry of the vector has a length that no allocation has. -/
def HugeEntry (uc : Unicorn) (iovAddr : U64) (width n : ℕ) : Prop :=
  ∃ len, EntryLength uc iovAddr width n len ∧ 2 ^ 63 ≤ len.toNat

theorem does_writevBuffer {fd : U64} {buffer : List U8} {iovLen total : U64}
    {rest : U64 → VkM U64} (files : .hostFiles ∈ fx.owned)
    (next : ∀ total t, t.uc = vk.uc → Does fx st t (rest total)) :
    Does fx st vk (writevBuffer fd buffer iovLen total rest) := by
  refine does_look (fun _ => rfl) fun _ => ?_
  have host : ∀ write, descriptorWrite vk fd = some write → ∀ h, fx.Hosts h (write buffer h).2 := by
    intro write found h
    unfold descriptorWrite at found
    split_ifs at found
    · cases found
      exact hosts_ask
    · cases found
      exact hosts_ask
    · cases found
      exact hosts_write files
  cases found : descriptorWrite vk fd with
  | none => exact obeys_pure _
  | some write =>
    refine (does_hostCall (host write found)).bind fun x t _ run => ?_
    have engine : t.uc = vk.uc := by rw [(ends_hostCall.1 run).2, Valkyrie.withHost_uc]
    cases x with
    | error e => exact .ite (fun _ => obeys_pure _) fun _ => does_lastErrno
    | ok count => exact .ite (fun _ => obeys_pure _) fun _ => next _ t engine

theorem does_writevLoop {fd iovAddr : U64} {width n : ℕ} {uc : Unicorn} (small : width < 2 ^ 63)
    (files : .hostFiles ∈ fx.owned) (fits : fx.hangs ∨ ¬ HugeEntry uc iovAddr width n) :
    ∀ (left index : ℕ) (total : U64) (vk : Valkyrie), left + index = n → vk.uc = uc →
      Does fx st vk (writevLoop fd iovAddr width left index total) := by
  intro left
  induction left with
  | zero => exact fun _ _ _ _ _ => obeys_pure _
  | succ left ih =>
    intro index total vk count engine
    refine (does_readWord small).bind fun base s _ first => (does_readWord small).bind
      fun iovLen t _ second => ?_
    obtain ⟨-, rfl⟩ := word_of_ends first
    obtain ⟨word, rfl⟩ := word_of_ends second
    refine .ite (fun _ => ih _ _ _ (by omega) engine) fun _ => (does_memRead ?_).bind
      fun buffer u _ read => ?_
    · refine fits.imp_right fun fine => ?_
      by_contra large
      refine fine ⟨iovLen, ⟨index, by omega, ?_⟩, by omega⟩
      rw [← engine]
      exact word
    · obtain ⟨-, -, rfl⟩ := ends_memRead.1 read
      exact does_writevBuffer files fun total t same =>
        ih _ _ _ (by omega) (same.trans engine)

theorem Arch.wordWidth_small (arch : Arch) : arch.wordWidth < 2 ^ 63 := by
  cases arch <;> decide

theorem does_sysWritev (files : .hostFiles ∈ fx.owned)
    (fits : fx.hangs ∨ ¬ HugeEntry vk.uc sctx.arg1 vk.cfg.arch.wordWidth sctx.arg2.toNat) :
    Does fx st vk (sysWritev sctx) := by
  refine .ite (fun _ => obeys_pure _) fun _ => does_look (fun _ => rfl) fun _ => ?_
  exact does_writevLoop vk.cfg.arch.wordWidth_small files fits _ 0 0 vk (Nat.add_zero _) rfl

end ValkyrieRs
