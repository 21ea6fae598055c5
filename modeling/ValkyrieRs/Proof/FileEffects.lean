import ValkyrieRs.Proof.EffectRules
import ValkyrieRs.Proof.Positions

/-!
# Effects of the calls on files

The handlers that take a path or a descriptor: which of them change the table, the descriptors of the
host and its files, and where they store.
-/

namespace ValkyrieRs

open Proc

variable {fx : Effects} {st : Settings} {vk : Valkyrie}

/-! ## Calls to the host -/

section Hosts

variable {α : Type} {h h' h'' : Host} {call : HostCall} {fd : U32}

theorem Effects.Hosts.trans (first : fx.Hosts h h') (second : fx.Hosts h' h'') : fx.Hosts h h'' where
  cwd := second.cwd.trans first.cwd
  answers := second.answers.trans first.answers
  fds := by
    rcases first.fds with owned | same
    · exact .inl owned
    · exact second.fds.imp_right fun same' => same'.trans same
  files := by
    rcases first.files with owned | same
    · exact .inl owned
    · exact second.files.imp_right fun same' => same'.trans same

/-- The log of calls and the error number do not count. -/
theorem Effects.Hosts.of_record (call : HostCall) (same : fx.Hosts (h.record call) h') :
    fx.Hosts h h' :=
  have first : fx.Hosts h (h.record call) := ⟨rfl, rfl, .inr rfl, .inr rfl⟩
  first.trans same

theorem hosts_fail {e : U32} : fx.Hosts h (h.fail e) := ⟨rfl, rfl, .inr rfl, .inr rfl⟩

theorem hosts_ask {result : HostAnswer → α} : fx.Hosts h (h.ask call result).2 := by
  unfold Host.ask
  dsimp only
  split_ifs
  · exact .of_record _ (.refl fx _)
  · exact .of_record _ hosts_fail

theorem hosts_onFd {effect : HostAnswer → ℕ → Host → Except U32 α × Host}
    (effects : ∀ a d h, fx.Hosts h (effect a d h).2) : fx.Hosts h (h.onFd call fd effect).2 := by
  refine .of_record call ?_
  unfold Host.onFd
  dsimp only
  cases (h.record call).fds.lookup fd with
  | none => exact hosts_fail
  | some d =>
    dsimp only
    split_ifs
    · exact effects _ _ _
    · exact hosts_fail

theorem hosts_newFd {content : HostAnswer → List U8} (fds : .hostFds ∈ fx.owned)
    (files : .hostFiles ∈ fx.owned) : fx.Hosts h (h.newFd call content).2 := by
  refine .of_record call ?_
  unfold Host.newFd
  dsimp only
  split_ifs
  · exact ⟨rfl, rfl, .inl fds, .inl files⟩
  · exact hosts_fail

theorem hosts_openat {path : List Char} {flags mode : U32} (fds : .hostFds ∈ fx.owned)
    (files : .hostFiles ∈ fx.owned) : fx.Hosts h (h.openat fd path flags mode).2 := by
  unfold Host.openat
  dsimp only
  split_ifs
  · exact ⟨rfl, rfl, .inl fds, .inl files⟩
  · exact .of_record _ hosts_fail

theorem hosts_socketpair {domain type protocol : U32} (fds : .hostFds ∈ fx.owned)
    (files : .hostFiles ∈ fx.owned) : fx.Hosts h (h.socketpair domain type protocol).2 := by
  unfold Host.socketpair
  dsimp only
  split_ifs
  · exact ⟨rfl, rfl, .inl fds, .inl files⟩
  · exact .of_record _ hosts_fail

theorem hosts_dup (fds : .hostFds ∈ fx.owned) : fx.Hosts h (h.dup fd).2 := by
  refine .of_record (.dup fd) ?_
  unfold Host.dup
  dsimp only
  cases (h.record (.dup fd)).fds.lookup fd with
  | none => exact hosts_fail
  | some d =>
    dsimp only
    split_ifs
    · exact ⟨rfl, rfl, .inl fds, .inr rfl⟩
    · exact hosts_fail

theorem hosts_close (fds : .hostFds ∈ fx.owned) : fx.Hosts h (h.close fd).2 := by
  refine .of_record (.close fd) ?_
  unfold Host.close
  dsimp only
  cases (h.record (.close fd)).fds.lookup fd with
  | none => exact hosts_fail
  | some d =>
    dsimp only
    split_ifs
    · exact ⟨rfl, rfl, .inl fds, .inr rfl⟩
    · exact ⟨rfl, rfl, .inl fds, .inr rfl⟩

theorem hosts_read {n : ℕ} (files : .hostFiles ∈ fx.owned) : fx.Hosts h (h.read fd n).2 := by
  refine .of_record (.read fd n) ?_
  unfold Host.read
  dsimp only
  cases (h.record (.read fd n)).fds.lookup fd with
  | none => exact hosts_fail
  | some d =>
    dsimp only
    split_ifs
    · exact ⟨rfl, rfl, .inr rfl, .inl files⟩
    · exact hosts_fail

theorem hosts_seek {offset : ℕ} (files : .hostFiles ∈ fx.owned) :
    fx.Hosts h (h.seek fd offset).2 := by
  refine .of_record (.seek fd offset) ?_
  unfold Host.seek
  dsimp only
  cases (h.record (.seek fd offset)).fds.lookup fd with
  | none => exact hosts_fail
  | some d =>
    dsimp only
    split_ifs
    · exact hosts_fail
    · exact ⟨rfl, rfl, .inr rfl, .inl files⟩
    · exact hosts_fail

theorem hosts_readStdin {n : ℕ} : fx.Hosts h (h.readStdin n).2 := by
  unfold Host.readStdin
  dsimp only
  split_ifs
  · exact .of_record _ (.refl fx _)
  · exact .of_record _ hosts_fail

theorem hosts_prctl {option : U32} {arg2 : U64} : fx.Hosts h (h.prctl option arg2).2 := by
  unfold Host.prctl
  dsimp only
  split_ifs
  · exact .of_record _ (.refl fx _)
  · exact .of_record _ hosts_fail

theorem hosts_write {data : List U8} (files : .hostFiles ∈ fx.owned) :
    fx.Hosts h (h.write fd data).2 :=
  hosts_onFd fun _ _ _ => ⟨rfl, rfl, .inr rfl, .inl files⟩

theorem hosts_pread {n : ℕ} {offset : U64} : fx.Hosts h (h.pread fd n offset).2 := by
  refine hosts_onFd fun a d h => ?_
  dsimp only
  split_ifs
  · exact hosts_fail
  · exact .refl fx _

theorem hosts_lseek {offset : U64} {whence : U32} (files : .hostFiles ∈ fx.owned) :
    fx.Hosts h (h.lseek fd offset whence).2 := by
  refine hosts_onFd fun a d h => ?_
  dsimp only
  cases Host.seekTarget (h.descriptions.getD d ⟨[], 0⟩) offset whence a with
  | error e => exact hosts_fail
  | ok pos =>
    dsimp only
    split_ifs
    · exact hosts_fail
    · exact ⟨rfl, rfl, .inr rfl, .inl files⟩

theorem hosts_fadvise {offset len : U64} {advice : U32} :
    fx.Hosts h (h.fadvise fd offset len advice).2 := by
  unfold Host.fadvise
  dsimp only
  split_ifs
  · exact .of_record _ (.refl fx _)
  · exact .of_record _ (.refl fx _)
  · exact .of_record _ (.refl fx _)

theorem hosts_fcntl {cmd arg : U32} (fds : .hostFds ∈ fx.owned) :
    fx.Hosts h (h.fcntl fd cmd arg).2 := by
  refine hosts_onFd fun a d h => ?_
  split_ifs
  · exact ⟨rfl, rfl, .inl fds, .inr rfl⟩
  · exact .refl fx _

theorem hosts_xattr {size : ℕ} {data : List U8} : fx.Hosts h (h.xattr size data).2 := by
  unfold Host.xattr
  split_ifs
  · exact .refl fx _
  · exact hosts_fail

theorem hosts_getxattr {path name : List Char} {size : ℕ} {follow : Bool} :
    fx.Hosts h (h.getxattr path name size follow).2 := by
  unfold Host.getxattr
  dsimp only
  split_ifs
  · exact .of_record _ hosts_xattr
  · exact .of_record _ hosts_fail

theorem hosts_fgetxattr {name : List Char} {size : ℕ} : fx.Hosts h (h.fgetxattr fd name size).2 :=
  hosts_onFd fun _ _ _ => hosts_xattr

end Hosts

/-- A call to the host whose error is reported by its number. -/
theorem does_asked {α β : Type} {call : Host → Except U32 α × Host} {f : Except U32 α → VkM β}
    (host : ∀ h, fx.Hosts h (call h).2) (error : ∀ e t, Does fx st t (f (.error e)))
    (ok : ∀ a t, t.settings = st → (call vk.host).1 = .ok a → Does fx st t (f (.ok a))) :
    Does fx st vk (hostCall call >>= f) := by
  refine (does_hostCall host).bind fun x t inv run => ?_
  cases x with
  | error e => exact error e t
  | ok a => exact ok a t inv (by simpa using (ends_hostCall.1 run).1.symm)

/-! ## Helpers -/

theorem does_readCstringLoop {addr : U64} {n : ℕ} : Does fx st vk (readCstringLoop addr n) := by
  induction n generalizing addr vk with
  | zero => exact obeys_pure _
  | succ n ih =>
    refine (does_memRead (.inr (by decide))).bind fun byte t _ _ => .ite (fun _ => obeys_pure _) ?_
    exact fun _ => ih.bind fun _ _ _ _ => obeys_pure _

theorem does_readGuestCstring {addr : U64} : Does fx st vk (readGuestCstring addr) :=
  does_readCstringLoop.bind fun _ _ _ _ => obeys_pure _

/-- The host path of a guest path, which asks the host for its current directory. -/
theorem does_guestPathAt {dirfd : U32} {path : List Char} (cwd : fx.hangs ∨ st.cwd.isSome) :
    Does fx st vk (guestPathAt dirfd path) := by
  refine does_look (fun _ => rfl) fun inv => obeys_ofOption _ fun missing => ?_
  refine cwd.resolve_right fun some => ?_
  have here : vk.host.cwd.isSome := by rwa [← congrArg Settings.cwd inv] at some
  obtain ⟨dir, here⟩ := Option.isSome_iff_exists.1 here
  simp only [getPathAt, getCwdPath, here, Option.map_some] at missing
  split_ifs at missing

theorem does_insertFile {fd : U64} {vkf : VkFile} (table : .fdTable ∈ fx.owned)
    (fds : .hostFds ∈ fx.owned) : Does fx st vk (insertFile fd vkf) := by
  refine does_look (fun _ => rfl) fun _ => Obeys.bind ?_ fun _ t _ _ => ?_
  · refine does_set table (fun _ => rfl) (fun _ => rfl) (fun _ => rfl) fun d hd _ => ?_
    cases d with
    | fdTable => exact absurd rfl hd
    | _ => rfl
  · cases vk.fdTable.lookup fd with
    | none => exact obeys_pure _
    | some old => exact (does_hostCall fun _ => hosts_close fds).bind fun _ _ _ _ => obeys_pure _

theorem does_withFile {α : Type} {file : U32} {body : VkM α} (fds : .hostFds ∈ fx.owned)
    (inner : Does fx st vk body) : Does fx st vk (withFile file body) :=
  inner.attempt.bind fun _ _ _ _ => (does_hostCall fun _ => hosts_close fds).bind fun _ _ _ _ =>
    obeys_ofExcept _

/-! ## Reading, writing and seeking -/

section Handlers

variable {sctx : SubCtx}

/-- The bytes that a call delivers fit into the buffer that was asked for. -/
theorem Host.length_read {h : Host} {fd : U32} {n : ℕ} {bytes : List U8}
    (ok : (h.read fd n).1 = .ok bytes) : bytes.length ≤ n := by
  have delivered : h.read fd n = (.ok bytes, (h.read fd n).2) := by rw [← ok]
  obtain ⟨d, -, rfl⟩ := Host.read_ok delivered
  rw [List.length_take]
  omega

theorem Host.length_readStdin {h : Host} {n : ℕ} {bytes : List U8}
    (ok : (h.readStdin n).1 = .ok bytes) : bytes.length ≤ n := by
  unfold Host.readStdin at ok
  dsimp only at ok
  split_ifs at ok
  cases ok
  rw [List.length_take]
  omega

/-- A call on a descriptor whose effect, if it succeeds, delivers what satisfies `P`. -/
theorem Host.onFd_ok {α : Type} {h : Host} {call : HostCall} {fd : U32} {P : α → Prop}
    {effect : HostAnswer → ℕ → Host → Except U32 α × Host} {value : α}
    (effects : ∀ a d h, (effect a d h).1 = .ok value → P value)
    (ok : (h.onFd call fd effect).1 = .ok value) : P value := by
  unfold Host.onFd at ok
  dsimp only at ok
  cases found : (h.record call).fds.lookup fd with
  | none =>
    rw [found] at ok
    cases ok
  | some d =>
    rw [found] at ok
    dsimp only at ok
    split_ifs at ok
    exact effects _ _ _ ok

theorem Host.length_pread {h : Host} {fd : U32} {n : ℕ} {offset : U64} {bytes : List U8}
    (ok : (h.pread fd n offset).1 = .ok bytes) : bytes.length ≤ n := by
  refine Host.onFd_ok (P := fun bytes => bytes.length ≤ n) (fun a d h ok => ?_) ok
  dsimp only at ok
  split_ifs at ok
  cases ok
  rw [List.length_take]
  omega

theorem Host.length_getdents64 {h : Host} {fd : U32} {n : ℕ} {bytes : List U8}
    (ok : (h.getdents64 fd n).1 = .ok bytes) : bytes.length ≤ n := by
  refine Host.onFd_ok (P := fun bytes => bytes.length ≤ n) (fun a d h ok => ?_) ok
  cases ok
  rw [List.length_take]
  omega

theorem does_readFd {fd : U64} {count : ℕ} (stdin : .stdinOffset ∈ fx.owned)
    (files : .hostFiles ∈ fx.owned) : Does fx st vk (readFd fd count) := by
  refine does_look (fun _ => rfl) fun _ => .ite (fun _ => .ite (fun _ => ?_) fun _ =>
    .ite (fun _ => ?_) fun _ => obeys_pure _) fun _ => ?_
  · refine Obeys.bind ?_ fun _ _ _ _ => obeys_pure _
    refine does_set stdin (fun _ => rfl) (fun _ => rfl) (fun _ => rfl) fun d hd _ => ?_
    cases d with
    | stdinOffset => exact absurd rfl hd
    | _ => rfl
  · exact does_asked (fun _ => hosts_readStdin)
      (fun _ _ => does_lastErrno.bind fun _ _ _ _ => obeys_pure _) fun _ _ _ _ => obeys_pure _
  · exact does_asked (fun _ => hosts_read files)
      (fun _ _ => does_lastErrno.bind fun _ _ _ _ => obeys_pure _) fun _ _ _ _ => obeys_pure _

/-- A read that succeeds delivers what the host did. -/
theorem delivered_of_ends {f : Except U32 (List U8) → VkM (Except U64 (List U8))}
    {bytes : List U8} {vk' : Valkyrie} (call : Host → Except U32 (List U8) × Host)
    (error : ∀ e, f (.error e) = do return .error (← lastErrno)) (ok : ∀ a, f (.ok a) = pure (.ok a))
    (run : (hostCall call >>= f).Ends vk (.ok (.ok bytes)) vk') : (call vk.host).1 = .ok bytes := by
  rw [ends_bind_hostCall] at run
  cases asked : (call vk.host).1 with
  | error e =>
    rw [asked, error] at run
    obtain ⟨_, _, _, last⟩ := ends_bind_ok.1 run
    cases (ends_pure.1 last).1
  | ok data =>
    rw [asked, ok] at run
    cases (ends_pure.1 run).1
    rfl

/-- What a read delivers fits into the buffer. -/
theorem length_readFd {fd : U64} {count : ℕ} {bytes : List U8} {vk' : Valkyrie}
    (run : (readFd fd count).Ends vk (.ok (.ok bytes)) vk') : bytes.length ≤ count := by
  simp only [readFd, ends_bind_get] at run
  split_ifs at run
  · obtain ⟨_, _, -, last⟩ := ends_bind_ok.1 run
    cases (ends_pure.1 last).1
    rw [List.length_take]
    omega
  · exact Host.length_readStdin
      (delivered_of_ends (fun h => h.readStdin count) (fun _ => rfl) (fun _ => rfl) run)
  · cases (ends_pure.1 run).1
    exact Nat.zero_le _
  · exact Host.length_read
      (delivered_of_ends (fun h => h.read _ count) (fun _ => rfl) (fun _ => rfl) run)

theorem does_storeRead {n : ℕ} (bytesRead : Except U64 (List U8))
    (output : (sctx.arg1, n) ∈ fx.outputs)
    (fits : ∀ bytes, bytesRead = .ok bytes → bytes.length ≤ n) :
    Does fx st vk (storeRead sctx bytesRead) := by
  cases bytesRead with
  | error errno => exact obeys_pure _
  | ok bytes =>
    exact .ite (fun _ => (does_memWrite ⟨n, output, fits bytes rfl⟩).bind fun _ _ _ _ =>
      obeys_pure _) fun _ => obeys_pure _

theorem does_sysRead (stdin : .stdinOffset ∈ fx.owned) (files : .hostFiles ∈ fx.owned)
    (output : (sctx.arg1, sctx.arg2.toNat) ∈ fx.outputs)
    (fits : fx.hangs ∨ sctx.arg2.toNat < 2 ^ 63) : Does fx st vk (sysRead sctx) := by
  refine .ite (fun _ => obeys_pure _) fun _ => (does_hostAlloc fits).bind fun _ s _ _ =>
    (does_readFd stdin files).bind fun x t _ run => ?_
  refine does_storeRead x output fun bytes ok => ?_
  rw [ok] at run
  exact length_readFd run

theorem does_sysWrite (files : .hostFiles ∈ fx.owned) (fits : fx.hangs ∨ sctx.arg2.toNat < 2 ^ 63) :
    Does fx st vk (sysWrite sctx) := by
  refine .ite (fun _ => obeys_pure _) fun _ => (does_memRead fits).bind fun _ _ _ _ =>
    does_look (fun _ => rfl) fun _ => ?_
  refine does_asked (fun h => ?_) (fun _ _ => does_lastErrno) fun _ _ _ _ => obeys_pure _
  split_ifs
  · exact hosts_ask
  · exact hosts_ask
  · exact hosts_write files

theorem does_readClone {file : U32} {offset count : ℕ} (fds : .hostFds ∈ fx.owned)
    (files : .hostFiles ∈ fx.owned) : Does fx st vk (readClone file count offset) := by
  refine does_withFile fds (does_asked (fun _ => hosts_seek files) (fun _ _ => obeys_pure _) ?_)
  intro _ t _ _
  exact does_asked (fun _ => hosts_read files)
    (fun _ _ => does_lastErrno.bind fun _ _ _ _ => obeys_pure _) fun _ _ _ _ => obeys_pure _

theorem length_readClone {file : U32} {offset count : ℕ} {bytes : List U8} {vk' : Valkyrie}
    (run : (readClone file count offset).Ends vk (.ok (.ok bytes)) vk') : bytes.length ≤ count := by
  obtain ⟨result, t, body, last⟩ := ends_bind_attempt.1 run
  obtain ⟨_, _, -, last⟩ := ends_bind_ok.1 last
  obtain ⟨rfl, -⟩ := ends_ofExcept.1 last
  rw [ends_bind_hostCall] at body
  cases asked : (vk.host.seek file offset).1 with
  | error e =>
    rw [asked] at body
    cases (ends_pure.1 body).1
  | ok u =>
    rw [asked] at body
    exact Host.length_read
      (delivered_of_ends (fun h => h.read file count) (fun _ => rfl) (fun _ => rfl) body)

theorem does_sysPread64 (fds : .hostFds ∈ fx.owned) (files : .hostFiles ∈ fx.owned)
    (output : (sctx.arg1, sctx.arg2.toNat) ∈ fx.outputs)
    (fits : fx.hangs ∨ sctx.arg2.toNat < 2 ^ 63) : Does fx st vk (sysPread64 sctx) := by
  refine does_look (fun _ => rfl) fun _ => .ite (fun _ => obeys_pure _) fun _ =>
    (does_hostAlloc fits).bind fun _ s _ _ => ?_
  cases vk.fdTable.lookup sctx.arg0 with
  | none =>
    refine does_asked (fun _ => hosts_pread) (fun _ _ => does_lastErrno.bind fun _ _ _ _ => ?_) ?_
    · exact does_storeRead (.error _) output nofun
    · intro bytes t _ ok
      refine does_storeRead (.ok bytes) output fun _ same => ?_
      cases same
      exact Host.length_pread ok
  | some vkf =>
    refine does_asked (fun _ => hosts_dup fds) (fun _ _ => ?_) fun file t _ _ => ?_
    · exact does_storeRead (.error _) output nofun
    · refine (does_readClone fds files).bind fun x u _ run => ?_
      refine does_storeRead x output fun bytes ok => ?_
      rw [ok] at run
      exact length_readClone run

theorem does_seekFd {fd offset : U64} {whence : U32} (files : .hostFiles ∈ fx.owned) :
    Does fx st vk (seekFd fd offset whence) := by
  have seek : ∀ x, Does fx st vk (hostCall fun h => h.lseek x offset whence) := fun x =>
    does_hostCall fun _ => hosts_lseek files
  refine does_look (fun _ => rfl) fun _ => .ite (fun _ => seek _) fun _ => ?_
  cases vk.fdTable.lookup fd with
  | none => exact seek _
  | some vkf => exact .ite (fun _ => seek _) fun _ => obeys_pure _

theorem does_sysLseek (files : .hostFiles ∈ fx.owned) : Does fx st vk (sysLseek sctx) := by
  refine (does_seekFd files).bind fun x _ _ _ => ?_
  cases x with
  | error e => exact obeys_pure _
  | ok pos => exact obeys_pure _

theorem does_sysLlseek (files : .hostFiles ∈ fx.owned) (output : (sctx.arg3, 8) ∈ fx.outputs) :
    Does fx st vk (sysLlseek sctx) := by
  refine .ite (fun _ => obeys_pure _) fun _ => (does_seekFd files).bind fun x _ _ _ => ?_
  cases x with
  | error e => exact obeys_pure _
  | ok pos =>
    refine (does_memWrite ⟨8, output, ?_⟩).bind fun _ _ _ _ => obeys_pure _
    rw [length_toLeBytes]

/-! ## Opening and closing -/

theorem does_openGuestPath {dirfd flags mode : U32} {pathPtr : U64} (table : .fdTable ∈ fx.owned)
    (fds : .hostFds ∈ fx.owned) (files : .hostFiles ∈ fx.owned) (cwd : fx.hangs ∨ st.cwd.isSome) :
    Does fx st vk (openGuestPath dirfd pathPtr flags mode) := by
  refine does_readGuestCstring.bind fun path _ _ _ => (does_guestPathAt cwd).bind fun p _ _ _ => ?_
  cases p with
  | none => exact obeys_pure _
  | some hostPath =>
    refine .ite (fun _ => obeys_pure _) fun _ => does_asked (fun _ => hosts_openat fds files)
      (fun _ _ => does_lastErrno) fun fd _ _ _ => ?_
    exact (does_insertFile table fds).bind fun _ _ _ _ => obeys_pure _

theorem does_sysClose (table : .fdTable ∈ fx.owned) (fds : .hostFds ∈ fx.owned) :
    Does fx st vk (sysClose sctx) := by
  refine .ite (fun _ => obeys_pure _) fun _ => does_look (fun _ => rfl) fun _ => ?_
  cases vk.fdTable.lookup sctx.arg0 with
  | none =>
    exact does_asked (fun _ => hosts_close fds) (fun _ _ => does_lastErrno) fun _ _ _ _ =>
      obeys_pure _
  | some vkf =>
    refine Obeys.bind ?_ fun _ _ _ _ => (does_hostCall fun _ => hosts_close fds).bind
      fun _ _ _ _ => obeys_pure _
    refine does_set table (fun _ => rfl) (fun _ => rfl) (fun _ => rfl) fun d hd _ => ?_
    cases d with
    | fdTable => exact absurd rfl hd
    | _ => rfl

theorem does_sysDup (table : .fdTable ∈ fx.owned) (fds : .hostFds ∈ fx.owned) :
    Does fx st vk (sysDup sctx) := by
  refine .ite (fun _ => obeys_pure _) fun _ => .ite (fun _ => ?_) fun _ =>
    does_look (fun _ => rfl) fun _ => ?_
  · exact does_asked (fun _ => hosts_dup fds) (fun _ _ => does_lastErrno) fun _ _ _ _ =>
      obeys_pure _
  · cases vk.fdTable.lookup ((sctx.arg0.setWidth 32).signExtend 64) with
    | none => exact obeys_pure _
    | some vkf =>
      exact does_asked (fun _ => hosts_dup fds) (fun _ _ => does_lastErrno) fun _ _ _ _ =>
        (does_insertFile table fds).bind fun _ _ _ _ => obeys_pure _

theorem does_sysFcntl (table : .fdTable ∈ fx.owned) (fds : .hostFds ∈ fx.owned) :
    Does fx st vk (sysFcntl sctx) := by
  refine .ite (fun _ => obeys_pure _) fun _ => does_asked (fun _ => hosts_fcntl fds)
    (fun _ _ => does_lastErrno) fun ret t _ _ => .ite (fun _ => ?_) fun _ => obeys_pure _
  refine does_look (fun _ => rfl) fun _ => ?_
  cases t.fdTable.lookup ((sctx.arg0.setWidth 32).signExtend 64) with
  | none => exact obeys_pure _
  | some vkf =>
    refine Obeys.bind ?_ fun _ _ _ _ => obeys_pure _
    refine does_set table (fun _ => rfl) (fun _ => rfl) (fun _ => rfl) fun d hd _ => ?_
    cases d with
    | fdTable => exact absurd rfl hd
    | _ => rfl

theorem does_handOut {call : Host → Except U32 U32 × Host} (host : ∀ h, fx.Hosts h (call h).2) :
    Does fx st vk (handOut call) :=
  does_asked host (fun _ _ => does_lastErrno) fun _ _ _ _ => obeys_pure _

theorem does_sysSocketpair (fds : .hostFds ∈ fx.owned) (files : .hostFiles ∈ fx.owned)
    (first : (sctx.arg3, 4) ∈ fx.outputs) (second : (sctx.arg3 + 4, 4) ∈ fx.outputs) :
    Does fx st vk (sysSocketpair sctx) := by
  refine .ite (fun _ => obeys_pure _) fun _ => does_asked (fun _ => hosts_socketpair fds files)
    (fun _ _ => does_lastErrno) fun pair _ _ _ => ?_
  refine (does_memWrite ⟨4, first, by rw [length_toLeBytes]⟩).bind fun _ _ _ _ => ?_
  exact (does_memWrite ⟨4, second, by rw [length_toLeBytes]⟩).bind fun _ _ _ _ => obeys_pure _

end Handlers

end ValkyrieRs
