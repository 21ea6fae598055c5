import ValkyrieRs.Dispatch
import ValkyrieRs.Proof.Packing
import ValkyrieRs.Proof.StatErrno

/-!
# The status calls and the guest's structure

Every call of the `stat` family that the tables list ends with one store of a structure.  The store
has the size of the structure of the guest's kernel, except for `stat` and `fstat` of X86, which store
the structure of the host.
-/

namespace ValkyrieRs

open Proc

/-- The calls that fill a status structure. -/
inductive StatusCall where
  | stat | fstat | stat64 | fstat64 | newfstatat | fstatat64 | statfs | statfs64 | statx
deriving DecidableEq

namespace StatusCall

/-- The name in the tables. -/
def name : StatusCall → String
  | stat => "stat"
  | fstat => "fstat"
  | stat64 => "stat64"
  | fstat64 => "fstat64"
  | newfstatat => "newfstatat"
  | fstatat64 => "fstatat64"
  | statfs => "statfs"
  | statfs64 => "statfs64"
  | statx => "statx"

/-- The handler in the table. -/
def fn : StatusCall → SysFn
  | stat => .sysStat
  | fstat => .sysFstat
  | stat64 => .sysStat64
  | fstat64 => .sysFstat64
  | newfstatat => .sysNewfstatat
  | fstatat64 => .sysFstatat64
  | statfs => .sysStatfs
  | statfs64 => .sysStatfs64
  | statx => .sysStatx

theorem syscallFnFromName_name (c : StatusCall) : syscallFnFromName c.name = some c.fn := by
  cases c <;> decide

/-- The handler. -/
def handler : StatusCall → SubCtx → VkM U64
  | stat => sysStat
  | fstat => sysFstat
  | stat64 => sysStat64
  | fstat64 => sysFstat64
  | newfstatat => sysNewfstatat
  | fstatat64 => sysFstatat64
  | statfs => sysStatfs
  | statfs64 => sysStatfs64
  | statx => sysStatx

/-- The table of the architecture lists the call. -/
def Listed (arch : Arch) (c : StatusCall) : Prop := ∃ no, syscallNameFromNo no arch = .ok c.name

/-- The size of the structure of the guest's kernel. -/
def size : Arch → StatusCall → ℕ
  | _, statx => 256
  | .x86, stat => 64
  | .x86, fstat => 64
  | .x86, statfs => 64
  | .x86, statfs64 => 84
  | .x86, _ => 96
  | .x86_64, statfs => 120
  | .x86_64, statfs64 => 120
  | .x86_64, _ => 144

/-- What is stored of the structure that the host has filled. -/
def image (arch : Arch) (st : List U8) : StatusCall → List U8
  | stat => (Stat.ofBytes st).toBytes
  | fstat => (Stat.ofBytes st).toBytes
  | stat64 => packLinuxX86Stat64Le (.ofBytes st)
  | fstat64 => packLinuxX86Stat64Le (.ofBytes st)
  | newfstatat => (Stat.ofBytes st).toBytes
  | fstatat64 => packLinuxX86Stat64Le (.ofBytes st)
  | statfs => match arch with
    | .x86_64 => (Statfs64.ofBytes st).toBytes
    | .x86 => packLinuxX86StatfsLe (.ofBytes st)
  | statfs64 => match arch with
    | .x86_64 => (Statfs64.ofBytes st).toBytes
    | .x86 => packLinuxX86Statfs64Le (.ofBytes st)
  | statx => packStatxLe (.ofBytes st)

variable (c : StatusCall) (sctx : SubCtx)

/-- Where the guest wants the structure. -/
def buf : U64 :=
  if c = newfstatat ∨ c = fstatat64 ∨ c = statfs64 then sctx.arg2
  else if c = statx then sctx.arg4
  else sctx.arg1

/-- The call names the file by a descriptor alone. -/
def OfFd : Prop := c = fstat ∨ c = fstat64

instance : Decidable c.OfFd := inferInstanceAs (Decidable (_ ∨ _))

/-- The call takes a directory descriptor. -/
def AtDir : Prop := c = newfstatat ∨ c = fstatat64 ∨ c = statx

instance : Decidable c.AtDir := inferInstanceAs (Decidable (_ ∨ _))

/-- Where the path is. -/
def pathPtr : U64 := if c.AtDir then sctx.arg1 else sctx.arg0

/-- The directory. -/
def dirfd : U32 := if c.AtDir then sctx.arg0.setWidth 32 else atFdcwd

/-- The flags. -/
def flags : U32 :=
  if c = statx then sctx.arg2.setWidth 32
  else if c.AtDir then sctx.arg3.setWidth 32
  else 0

/-- The guest's path; a call on a descriptor has none. -/
def Reads (vk : Valkyrie) (path : List Char) : Prop :=
  if c.OfFd then path = [] else (readGuestCstring (c.pathPtr sctx)).Ends vk (.ok path) vk

/-- The call to the host about a path. -/
def hostCall (dirfd : U32) (path : List Char) : HostCall :=
  if c = statfs ∨ c = statfs64 then .statfs path
  else if c = statx then .statx dirfd path (c.flags sctx) (sctx.arg3.setWidth 32)
  else .fstatat dirfd path (c.flags sctx)

/-- What is asked of the host, or the error that keeps it from being asked; nothing when the host has
no working directory. -/
def request (vk : Valkyrie) (path : List Char) : Option (Except U32 HostCall) :=
  if c.OfFd then some (.ok (.fstat (sctx.arg0.setWidth 32)))
  else if path = [] ∧ c.flags sctx &&& atEmptyPath ≠ 0 then
    some (.ok (c.hostCall sctx (c.dirfd sctx) []))
  else vk.resolve (c.dirfd sctx) path (c.hostCall sctx atFdcwd)

/-- The host is asked for the structure. -/
def ask (call : HostCall) (h : Host) : Except U32 (List U8) × Host :=
  if c.OfFd then h.fstat (sctx.arg0.setWidth 32) else h.ask call (·.data)

/-- What is returned when the host is not asked. -/
def refusal (vk : Valkyrie) (e : U32) : U64 :=
  if c = statx then negErrno e else negErrno vk.host.errno

/-- The structure goes to the guest. -/
def store (st : List U8) : VkM U64 := do
  let vk ← get
  if c = statfs64 ∧ sctx.arg1.toNat < (c.image vk.cfg.arch st).length then
    return negErrno EINVAL
  memWrite (c.buf sctx) (c.image vk.cfg.arch st)
  return 0

/-- What is done with the host's answer. -/
def reply : Except U32 (List U8) → VkM U64
  | .error _ => lastErrno
  | .ok st => c.store sctx st

end StatusCall

/-! ## What a call does -/

section Outcomes

variable {vk vk' t : Valkyrie} {c : StatusCall} {sctx : SubCtx} {path : List Char} {e dirfd : U32}
  {r : Except ValkyrieError U64} {α : Type}

/-- A run that goes on with the host's answer to a request, or with the error of the request. -/
def Continues {β : Type} (q : Option (Except U32 HostCall)) (g : List U8 → β)
    (k : Except U32 β → VkM U64) (vk : Valkyrie) (r : Except ValkyrieError U64) (vk' : Valkyrie) :
    Prop :=
  (∃ e, q = some (.error e) ∧ (k (.error e)).Ends vk r vk') ∨
    ∃ call, q = some (.ok call) ∧
      (k ((vk.host.ask call (·.data)).1.map g)).Ends (vk.withHost (vk.host.ask call (·.data)).2) r vk'

theorem ends_bind_statAt {flags : U32} {k : Except U32 Stat → VkM U64} :
    (statAt dirfd path flags >>= k).Ends vk r vk' ↔ Continues
      (if path = [] ∧ flags &&& atEmptyPath ≠ 0 then some (.ok (.fstatat dirfd [] flags))
        else vk.resolve dirfd path fun absPath => .fstatat atFdcwd absPath flags)
      Stat.ofBytes k vk r vk' := by
  have := @lawfulMonad Valkyrie ValkyrieError
  rw [statAt, Continues]
  split_ifs with empty
  · simp only [Option.some.injEq, reduceCtorEq, false_and, exists_false, false_or, Except.ok.injEq,
      exists_eq_left']
    rfl
  · rw [bind_assoc]
    refine ends_bind_resolve _ (fun e => k (.error e)) (fun q => do
      let st ← hostCall fun h => h.ask q (·.data)
      k (st.map Stat.ofBytes)) rfl (fun absPath nul => ?_) fun absPath plain => ?_
    · simp only [if_pos nul]
      rfl
    · simp only [if_neg plain]
      rfl

theorem ends_bind_statfsForPath {k : Except U32 Statfs64 → VkM U64} :
    (statfsForPath path >>= k).Ends vk r vk' ↔
      Continues (vk.resolve atFdcwd path .statfs) Statfs64.ofBytes k vk r vk' := by
  have := @lawfulMonad Valkyrie ValkyrieError
  rw [statfsForPath, Continues, bind_assoc]
  refine ends_bind_resolve _ (fun e => k (.error e)) (fun q => do
    let st ← hostCall fun h => h.ask q (·.data)
    k (st.map Statfs64.ofBytes)) rfl (fun absPath nul => ?_) fun absPath plain => ?_
  · simp only [if_pos nul]
    rfl
  · simp only [if_neg plain]
    rfl

/-- The outcome of a call whose path is read: a refusal, or the reply to the host's answer. -/
def StatusCall.Answers (c : StatusCall) (sctx : SubCtx) (path : List Char) (vk : Valkyrie)
    (r : Except ValkyrieError U64) (vk' : Valkyrie) : Prop :=
  (∃ e, c.request sctx vk path = some (.error e) ∧ r = .ok (c.refusal vk e) ∧ vk' = vk) ∨
    ∃ call, c.request sctx vk path = some (.ok call) ∧
      (c.reply sctx (c.ask sctx call vk.host).1).Ends
        (vk.withHost (c.ask sctx call vk.host).2) r vk'

/-- A call that reads its path first. -/
theorem StatusCall.ends_handler_byPath {f : List Char → VkM U64} (byPath : ¬ c.OfFd)
    (shape : c.handler sctx = readGuestCstring (c.pathPtr sctx) >>= f)
    (answers : ∀ path, (f path).Ends vk r vk' ↔ c.Answers sctx path vk r vk') :
    (c.handler sctx).Ends vk r vk' ↔
      (∃ e, ¬ c.OfFd ∧ (readGuestCstring (c.pathPtr sctx)).Ends vk (.error e) vk' ∧ r = .error e) ∨
        ∃ path, c.Reads sctx vk path ∧ c.Answers sctx path vk r vk' := by
  rw [shape, ends_bind]
  simp only [byPath, not_false_eq_true, true_and, StatusCall.Reads, if_false]
  refine or_congr Iff.rfl (exists_congr fun path => ?_)
  constructor
  · rintro ⟨t, read, run⟩
    obtain rfl := (readsOnly_readGuestCstring _).state_eq read
    exact ⟨read, (answers path).1 run⟩
  · rintro ⟨read, run⟩
    exact ⟨vk, read, (answers path).2 run⟩

/-- A call that goes on with the host's answer: it refuses with the last error number, and stores
the structure. -/
theorem StatusCall.ends_handler_probing {β : Type} {m : List Char → VkM (Except U32 β)}
    {g : List U8 → β} {k : Except U32 β → VkM U64} (byPath : ¬ c.OfFd) (notStatx : c ≠ .statx)
    (shape : c.handler sctx = readGuestCstring (c.pathPtr sctx) >>= fun path => m path >>= k)
    (probes : ∀ path, (m path >>= k).Ends vk r vk' ↔
      Continues (c.request sctx vk path) g k vk r vk')
    (refuses : ∀ e, k (.error e) = lastErrno)
    (stores : ∀ st vk, k (.ok (g st)) vk = c.store sctx st vk) :
    (c.handler sctx).Ends vk r vk' ↔
      (∃ e, ¬ c.OfFd ∧ (readGuestCstring (c.pathPtr sctx)).Ends vk (.error e) vk' ∧ r = .error e) ∨
        ∃ path, c.Reads sctx vk path ∧ c.Answers sctx path vk r vk' := by
  refine ends_handler_byPath byPath shape fun path => (probes path).trans ?_
  have refused (e : U32) : (k (.error e)).Ends vk r vk' ↔
      r = .ok (c.refusal vk e) ∧ vk' = vk := by
    rw [refuses, ends_lastErrno, StatusCall.refusal, if_neg notStatx]
  have replied (answer : Except U32 (List U8)) : k (answer.map g) = c.reply sctx answer := by
    cases answer with
    | error e => exact refuses e
    | ok st => exact funext (stores st)
  simp only [Continues, StatusCall.Answers, refused, replied, StatusCall.ask, if_neg byPath]

/-- A call on a descriptor asks the host at once. -/
theorem StatusCall.ends_handler_ofFd (ofFd : c.OfFd)
    (shape : ∀ vk, c.handler sctx vk =
      c.reply sctx (vk.host.fstat (sctx.arg0.setWidth 32)).1
        (vk.withHost (vk.host.fstat (sctx.arg0.setWidth 32)).2)) :
    (c.handler sctx).Ends vk r vk' ↔
      (∃ e, ¬ c.OfFd ∧ (readGuestCstring (c.pathPtr sctx)).Ends vk (.error e) vk' ∧ r = .error e) ∨
        ∃ path, c.Reads sctx vk path ∧ c.Answers sctx path vk r vk' := by
  simp [Ends, shape, ofFd, StatusCall.Reads, StatusCall.Answers, StatusCall.request, StatusCall.ask]

theorem StatusCall.store_of_ne {st bytes : List U8} {buf : U64} (other : c ≠ .statfs64)
    (here : c.buf sctx = buf) (packed : c.image vk.cfg.arch st = bytes) :
    (do
      memWrite buf bytes
      return 0 : VkM U64) vk = c.store sctx st vk := by
  subst here packed
  simp only [StatusCall.store, other, false_and, if_false]
  rfl

theorem StatusCall.store_statfs64 {st : List U8} : statfs64.store sctx st = (do
    let vk ← get
    if sctx.arg1.toNat < (statfs64.image vk.cfg.arch st).length then
      return negErrno EINVAL
    memWrite sctx.arg2 (statfs64.image vk.cfg.arch st)
    return 0) := by
  simp only [StatusCall.store, true_and]
  rfl

theorem StatusCall.request_of_noFlags (byPath : ¬ c.OfFd) (noFlags : c.flags sctx = 0) :
    c.request sctx vk path = vk.resolve (c.dirfd sctx) path (c.hostCall sctx atFdcwd) := by
  simp [StatusCall.request, byPath, noFlags]

theorem hostCall_bind_apply {call : Host → Except U32 α × Host} {f : Except U32 α → VkM U64} :
    (hostCall call >>= f) vk = f (call vk.host).1 (vk.withHost (call vk.host).2) := rfl

theorem finishStatx_eq_reply (answer : Except U32 (List U8)) :
    finishStatx sctx.arg4 answer = StatusCall.statx.reply sctx answer := by
  cases answer with
  | error e => rfl
  | ok st =>
    funext vk
    dsimp only [finishStatx, StatusCall.reply]
    exact StatusCall.store_of_ne (c := .statx) (by decide) rfl rfl

theorem ends_statx_empty (empty : path = [] ∧ sctx.arg2.setWidth 32 &&& atEmptyPath ≠ 0) :
    (do
      let ret ← hostCall fun h =>
        h.statx (sctx.arg0.setWidth 32) [] (sctx.arg2.setWidth 32) (sctx.arg3.setWidth 32)
      finishStatx sctx.arg4 ret).Ends vk r vk' ↔ StatusCall.statx.Answers sctx path vk r vk' := by
  have asks : StatusCall.statx.request sctx vk path =
      some (.ok (.statx (sctx.arg0.setWidth 32) [] (sctx.arg2.setWidth 32) (sctx.arg3.setWidth 32))) :=
    (if_neg (by decide)).trans (if_pos empty)
  rw [ends_bind_hostCall, finishStatx_eq_reply]
  simp only [StatusCall.Answers, asks, Option.some.injEq, reduceCtorEq, false_and, exists_false,
    false_or, Except.ok.injEq, exists_eq_left']
  rfl

/-- A request of `statx` about a path, with what is done about its errors. -/
theorem answers_statx_named (named : ¬ (path = [] ∧ sctx.arg2.setWidth 32 &&& atEmptyPath ≠ 0)) :
    StatusCall.statx.Answers sctx path vk r vk' ↔
      (∃ e, vk.resolve (sctx.arg0.setWidth 32) path (StatusCall.statx.hostCall sctx atFdcwd) =
        some (.error e) ∧ (pure (negErrno e) : VkM U64).Ends vk r vk') ∨
      ∃ q, vk.resolve (sctx.arg0.setWidth 32) path (StatusCall.statx.hostCall sctx atFdcwd) =
        some (.ok q) ∧ (do
          let ret ← hostCall fun h => h.ask q (·.data)
          finishStatx sctx.arg4 ret : VkM U64).Ends vk r vk' := by
  have asks : StatusCall.statx.request sctx vk path = vk.resolve (sctx.arg0.setWidth 32) path
      (StatusCall.statx.hostCall sctx atFdcwd) := (if_neg (by decide)).trans (if_neg named)
  rw [StatusCall.Answers, asks]
  refine or_congr (exists_congr fun e => and_congr_right fun _ => ends_pure.symm) ?_
  refine exists_congr fun q => and_congr_right fun _ => ?_
  rw [ends_bind_hostCall, finishStatx_eq_reply]
  rfl

/-- The outcomes of a call. -/
theorem StatusCall.ends_handler : (c.handler sctx).Ends vk r vk' ↔
    (∃ e, ¬ c.OfFd ∧ (readGuestCstring (c.pathPtr sctx)).Ends vk (.error e) vk' ∧ r = .error e) ∨
      ∃ path, c.Reads sctx vk path ∧ c.Answers sctx path vk r vk' := by
  have ofStatAt (c : StatusCall) {k : Except U32 Stat → VkM U64} (byPath : ¬ c.OfFd)
      (other : c ≠ .statx ∧ c ≠ .statfs64)
      (shape : c.handler sctx = readGuestCstring (c.pathPtr sctx) >>= fun path =>
        statAt (c.dirfd sctx) path (c.flags sctx) >>= k) :=
    @ends_handler_probing vk vk' c sctx r Stat _ Stat.ofBytes k byPath other.1 shape
  cases c with
  | stat =>
    refine ofStatAt .stat (by decide) (by decide) rfl (fun _ => ?_) (fun _ => rfl) fun _ _ => ?_
    · exact ends_bind_statAt
    · dsimp only [writeGuestStatNative]
      exact store_of_ne (c := .stat) (by decide) rfl rfl
  | stat64 =>
    refine ofStatAt .stat64 (by decide) (by decide) rfl (fun _ => ?_) (fun _ => rfl) fun _ _ => ?_
    · exact ends_bind_statAt
    · dsimp only
      exact store_of_ne (c := .stat64) (by decide) rfl rfl
  | newfstatat =>
    refine ofStatAt .newfstatat (by decide) (by decide) rfl (fun _ => ?_) (fun _ => rfl) fun _ _ => ?_
    · exact ends_bind_statAt
    · dsimp only
      exact store_of_ne (c := .newfstatat) (by decide) rfl rfl
  | fstatat64 =>
    refine ofStatAt .fstatat64 (by decide) (by decide) rfl (fun _ => ?_) (fun _ => rfl) fun _ _ => ?_
    · exact ends_bind_statAt
    · dsimp only
      exact store_of_ne (c := .fstatat64) (by decide) rfl rfl
  | statfs =>
    refine ends_handler_probing (c := .statfs) (g := Statfs64.ofBytes) (by decide) (by decide) rfl
      (fun _ => ?_) (fun _ => rfl) fun _ _ => ?_
    · rw [request_of_noFlags (by decide) rfl]
      exact ends_bind_statfsForPath
    · exact store_of_ne (c := .statfs) (by decide) rfl rfl
  | statfs64 =>
    refine ends_handler_probing (c := .statfs64) (g := Statfs64.ofBytes) (by decide) (by decide) rfl
      (fun _ => ?_) (fun _ => rfl) fun _ vk => ?_
    · rw [request_of_noFlags (by decide) rfl]
      exact ends_bind_statfsForPath
    · exact (congrFun store_statfs64 vk).symm
  | fstat =>
    refine ends_handler_ofFd (c := .fstat) (by decide) fun vk => ?_
    rw [handler, sysFstat, hostCall_bind_apply]
    cases (vk.host.fstat (sctx.arg0.setWidth 32)).1 with
    | error e => rfl
    | ok st =>
      dsimp only [writeGuestStatNative, reply]
      exact store_of_ne (c := .fstat) (by decide) rfl rfl
  | fstat64 =>
    refine ends_handler_ofFd (c := .fstat64) (by decide) fun vk => ?_
    rw [handler, sysFstat64, hostCall_bind_apply]
    cases (vk.host.fstat (sctx.arg0.setWidth 32)).1 with
    | error e => rfl
    | ok st =>
      dsimp only [reply]
      exact store_of_ne (c := .fstat64) (by decide) rfl rfl
  | statx =>
    refine ends_handler_byPath (c := .statx) (by decide) rfl fun path => ?_
    split_ifs with empty
    · exact ends_statx_empty empty
    · rw [answers_statx_named empty]
      exact ends_bind_resolve _ _ _ rfl (fun _ nul => if_pos nul) fun _ plain => if_neg plain

end Outcomes

/-! ## Sizes -/

theorem Stat.length_toBytes (st : Stat) : st.toBytes.length = 144 := by
  unfold Stat.toBytes
  simp

theorem Statfs64.length_toBytes (st : Statfs64) : st.toBytes.length = 120 := by
  unfold Statfs64.toBytes
  simp

namespace StatusCall

variable {c : StatusCall} {arch : Arch}

/-- The call stores the structure of the host where the guest's kernel has a smaller one. -/
def Native (arch : Arch) (c : StatusCall) : Prop := arch = .x86 ∧ (c = stat ∨ c = fstat)

instance : Decidable (Native arch c) := inferInstanceAs (Decidable (_ ∧ _))

theorem mem_of_lookup {l : List (ℕ × String)} {no : ℕ} {name : String}
    (found : l.lookup no = some name) : name ∈ l.map Prod.snd := by
  obtain ⟨before, after, rfl, -⟩ := List.lookup_eq_some_iff.1 found
  simp

/-- The names in the table of an architecture. -/
def callNames : Arch → List String
  | .x86 => syscallTableX86.map Prod.snd
  | .x86_64 => syscallTableX8664.map Prod.snd

theorem Listed.mem_callNames (listed : c.Listed arch) : c.name ∈ callNames arch := by
  obtain ⟨no, found⟩ := listed
  cases arch
  all_goals
    simp only [syscallNameFromNo] at found
    split at found
    · rename_i here
      cases found
      exact mem_of_lookup here
    · cases found

/-- `newfstatat` is a call of X86_64, and the calls of the larger structure are calls of X86. -/
theorem Listed.on (listed : c.Listed arch) : (c = newfstatat → arch = .x86_64) ∧
    (c = stat64 ∨ c = fstat64 ∨ c = fstatat64 → arch = .x86) := by
  cases arch with
  | x86 =>
    refine ⟨fun at64 => ?_, fun _ => rfl⟩
    subst at64
    exact absurd listed.mem_callNames (by decide +kernel)
  | x86_64 =>
    refine ⟨fun _ => rfl, fun large => ?_⟩
    rcases large with rfl | rfl | rfl
    · exact absurd listed.mem_callNames (by decide +kernel)
    · exact absurd listed.mem_callNames (by decide +kernel)
    · exact absurd listed.mem_callNames (by decide +kernel)

/-- A call that stores a structure of the guest's kernel stores all of it, and no more. -/
theorem length_image {st : List U8} (listed : c.Listed arch) (own : ¬ Native arch c) :
    (c.image arch st).length = c.size arch := by
  obtain ⟨at64, large⟩ := listed.on
  cases c with
  | stat => cases arch with
    | x86 => exact absurd ⟨rfl, .inl rfl⟩ own
    | x86_64 => exact Stat.length_toBytes _
  | fstat => cases arch with
    | x86 => exact absurd ⟨rfl, .inr rfl⟩ own
    | x86_64 => exact Stat.length_toBytes _
  | stat64 =>
    cases large (.inl rfl)
    exact length_packLinuxX86Stat64Le _
  | fstat64 =>
    cases large (.inr (.inl rfl))
    exact length_packLinuxX86Stat64Le _
  | newfstatat =>
    cases at64 rfl
    exact Stat.length_toBytes _
  | fstatat64 =>
    cases large (.inr (.inr rfl))
    exact length_packLinuxX86Stat64Le _
  | statfs => cases arch with
    | x86 => exact length_packLinuxX86StatfsLe _
    | x86_64 => exact Statfs64.length_toBytes _
  | statfs64 => cases arch with
    | x86 => exact length_packLinuxX86Statfs64Le _
    | x86_64 => exact Statfs64.length_toBytes _
  | statx => cases arch with
    | x86 => exact length_packStatxLe _
    | x86_64 => exact length_packStatxLe _

/-- The structure of the host that X86 stores is 80 bytes too long. -/
theorem image_of_native {st : List U8} (native : Native arch c) :
    c.image arch st = (Stat.ofBytes st).toBytes ∧ c.size arch = 64 := by
  obtain ⟨rfl, rfl | rfl⟩ := native
  · exact ⟨rfl, rfl⟩
  · exact ⟨rfl, rfl⟩

theorem size_le_length_image {st : List U8} (listed : c.Listed arch) :
    c.size arch ≤ (c.image arch st).length := by
  by_cases native : Native arch c
  · obtain ⟨image, small⟩ := @image_of_native c arch st native
    rw [image, small, Stat.length_toBytes]
    decide
  · rw [length_image listed native]

theorem image_ne_nil {st : List U8} (listed : c.Listed arch) : c.image arch st ≠ [] := by
  have positive : 0 < c.size arch := by cases c <;> cases arch <;> decide
  exact List.ne_nil_of_length_pos (positive.trans_le (size_le_length_image listed))

end StatusCall

/-! ## The guest's memory -/

namespace StatusCall

variable {vk vk' : Valkyrie} {c : StatusCall} {sctx : SubCtx} {path : List Char} {call : HostCall}
  {r : Except ValkyrieError U64}

/-- The call changes nothing but the structure of the guest's kernel, and when it returns zero the
host has been asked, and all of the structure is the host's. -/
def Contained (c : StatusCall) (sctx : SubCtx) (vk : Valkyrie) : Prop :=
  ∀ r vk', (c.handler sctx).Ends vk r vk' →
    (∀ x, ¬ InRange (c.buf sctx) (c.size vk.cfg.arch) x → vk'.uc.bytes x = vk.uc.bytes x) ∧
      (r = .ok 0 → ∃ call, vk'.host.calls = vk.host.calls ++ [call] ∧
        vk'.uc.contents (c.buf sctx) (c.size vk.cfg.arch) =
          (c.image vk.cfg.arch vk.host.answer.data).take (c.size vk.cfg.arch))

/-- The host is asked, and fills the structure. -/
def Filled (c : StatusCall) (sctx : SubCtx) (vk : Valkyrie) : Prop :=
  ∃ path call, c.Reads sctx vk path ∧ c.request sctx vk path = some (.ok call) ∧
    (c.ask sctx call vk.host).1 = .ok vk.host.answer.data

/-- X86 is about to store the structure of the host, which can be stored and differs from what
stands behind the structure of the guest's kernel. -/
def Overruns (c : StatusCall) (sctx : SubCtx) (vk : Valkyrie) : Prop :=
  Native vk.cfg.arch c ∧ c.Filled sctx vk ∧ vk.uc.Mapped (c.buf sctx) 144 ∧
    ∃ x, InRange (c.buf sctx) 144 x ∧ ¬ InRange (c.buf sctx) 64 x ∧
      (Stat.ofBytes vk.host.answer.data).toBytes.getD (x.toNat - (c.buf sctx).toNat) 0 ≠
        vk.uc.bytes x

/-- The path keeps the host from being asked, and no earlier call has left an error number. -/
def Forgets (c : StatusCall) (sctx : SubCtx) (vk : Valkyrie) : Prop :=
  c ≠ statx ∧ vk.host.errno = 0 ∧
    ∃ path e, c.Reads sctx vk path ∧ c.request sctx vk path = some (.error e)

theorem errno_ne_zero (host : vk.host.ReportsErrors) : vk.host.answer.errno ≠ 0 := by
  intro zero
  have positive := (host vk.host.calls.length).1
  rw [show (vk.host.answers vk.host.calls.length).errno = 0 from zero] at positive
  exact absurd positive (by decide)

/-- What the host answers. -/
theorem ask_cases (host : vk.host.ReportsErrors) :
    (∃ made, (c.ask sctx call vk.host).2.calls = vk.host.calls ++ [made]) ∧
      ((c.ask sctx call vk.host).1 = .ok vk.host.answer.data ∨
        ∃ e, (c.ask sctx call vk.host).1 = .error e ∧ (c.ask sctx call vk.host).2.errno = e ∧
          e ≠ 0) := by
  have refused := errno_ne_zero host
  unfold StatusCall.ask
  split_ifs with ofFd
  · rw [Host.fstat, Host.onFd]
    cases (vk.host.record (.fstat (sctx.arg0.setWidth 32))).fds.lookup
        (sctx.arg0.setWidth 32) with
    | none => exact ⟨⟨_, rfl⟩, .inr ⟨EBADF, rfl, rfl, by decide⟩⟩
    | some d =>
      dsimp only
      split_ifs with ok
      · exact ⟨⟨_, rfl⟩, .inl rfl⟩
      · exact ⟨⟨_, rfl⟩, .inr ⟨_, rfl, rfl, refused⟩⟩
  · rw [Host.ask]
    split_ifs with ok
    · exact ⟨⟨_, rfl⟩, .inl rfl⟩
    · exact ⟨⟨_, rfl⟩, .inr ⟨_, rfl, rfl, refused⟩⟩

/-- An error that keeps the host from being asked is an error number. -/
theorem ne_zero_of_request {e : U32} (kept : c.request sctx vk path = some (.error e)) :
    e ≠ 0 := by
  unfold StatusCall.request Valkyrie.resolve at kept
  split_ifs at kept
  · cases kept
  · cases kept
  · cases found : getPathAt vk.cfg.rootfs vk.host.cwd vk.fdTable (c.dirfd sctx) path with
    | none =>
      rw [found] at kept
      cases kept
    | some found' =>
      rw [found] at kept
      cases found' with
      | none =>
        cases kept
        decide
      | some absPath =>
        simp only [Option.map_some, Option.some.injEq] at kept
        split_ifs at kept
        cases kept
        decide

theorem negErrno_ne_zero {e : U32} (nonzero : e ≠ 0) :
    Except.ok (ε := ValkyrieError) (negErrno e) ≠ .ok 0 :=
  fun same => nonzero (negErrno_inj (show negErrno e = negErrno 0 from Except.ok.inj same))

/-- A store that succeeds, when the call is not one that overruns. -/
theorem contained_of_memWrite {uc' : Unicorn} {data : List U8} (listed : c.Listed vk.cfg.arch)
    (within : Native vk.cfg.arch c → ∀ x, InRange (c.buf sctx) 144 x →
      ¬ InRange (c.buf sctx) 64 x →
      (Stat.ofBytes data).toBytes.getD (x.toNat - (c.buf sctx).toNat) 0 = vk.uc.bytes x)
    (stored : vk.uc.memWrite (c.buf sctx) (c.image vk.cfg.arch data) = .ok uc') :
    (∀ x, ¬ InRange (c.buf sctx) (c.size vk.cfg.arch) x → uc'.bytes x = vk.uc.bytes x) ∧
      uc'.contents (c.buf sctx) (c.size vk.cfg.arch) =
        (c.image vk.cfg.arch data).take (c.size vk.cfg.arch) := by
  obtain ⟨-, -, effect⟩ := Unicorn.memWrite_effect stored
  have bound := (Unicorn.memWrite_ok_iff.1 ⟨uc', stored⟩).1
  have enough := @size_le_length_image c vk.cfg.arch data listed
  constructor
  · intro x outside
    rw [effect]
    split_ifs with inside
    · by_cases native : Native vk.cfg.arch c
      · obtain ⟨image, small⟩ := @image_of_native c vk.cfg.arch data native
        rw [image, Stat.length_toBytes] at inside
        rw [small] at outside
        rw [image, within native x inside outside]
      · rw [length_image listed native] at inside
        exact absurd inside outside
    · rfl
  · refine (Unicorn.contents_eq_iff (by omega) (by simpa using enough)).2 fun x hx => ?_
    have inside : InRange (c.buf sctx) (c.image vk.cfg.arch data).length x := by
      unfold InRange at hx ⊢
      omega
    rw [effect, if_pos inside]
    have small : x.toNat - (c.buf sctx).toNat < c.size vk.cfg.arch := by
      unfold InRange at hx
      omega
    simp [List.getD_eq_getElem?_getD, small]

/-- A structure that the host has filled is stored, when it can be. -/
theorem ends_of_filled {uc' : Unicorn} (listed : c.Listed vk.cfg.arch) (other : c ≠ .statfs64)
    (filled : c.Filled sctx vk)
    (stored : vk.uc.memWrite (c.buf sctx) (c.image vk.cfg.arch vk.host.answer.data) = .ok uc') :
    ∃ vk', (c.handler sctx).Ends vk (.ok 0) vk' ∧ vk'.uc = uc' := by
  obtain ⟨path, call, read, asked, answer⟩ := filled
  refine ⟨(vk.withHost (c.ask sctx call vk.host).2).withUc uc', ?_, rfl⟩
  refine ends_handler.2 (.inr ⟨path, read, .inr ⟨call, asked, ?_⟩⟩)
  rw [answer, reply, store, ends_bind_get, if_neg (by simp [other])]
  exact ends_bind_memWrite.2
    (.inl ⟨uc', VMemory.write_ok_iff.2 ⟨image_ne_nil listed, stored⟩, ends_pure.2 ⟨rfl, rfl⟩⟩)

/-- The host's answer is refused with its number, or stored. -/
theorem reply_cases (host : vk.host.ReportsErrors)
    (run : (c.reply sctx (c.ask sctx call vk.host).1).Ends
      (vk.withHost (c.ask sctx call vk.host).2) r vk') :
    (r ≠ .ok 0 ∧ vk'.uc = vk.uc) ∨
      (c.ask sctx call vk.host).1 = .ok vk.host.answer.data ∧
      vk'.host = (c.ask sctx call vk.host).2 ∧
      vk.uc.memWrite (c.buf sctx) (c.image vk.cfg.arch vk.host.answer.data) = .ok vk'.uc := by
  obtain ⟨-, answer | ⟨e, answer, left, nonzero⟩⟩ := @ask_cases vk c sctx call host
  · rw [answer, reply, store, ends_bind_get] at run
    split_ifs at run with small
    · obtain ⟨rfl, rfl⟩ := ends_pure.1 run
      exact .inl ⟨negErrno_ne_zero (by decide), rfl⟩
    · rcases ends_bind_memWrite.1 run with ⟨uc', stored, run⟩ | ⟨e, -, rfl, rfl⟩
      · obtain ⟨rfl, rfl⟩ := ends_pure.1 run
        exact .inr ⟨answer, rfl, (VMemory.write_ok_iff.1 stored).2⟩
      · exact .inl ⟨nofun, rfl⟩
  · rw [answer, reply, ends_lastErrno] at run
    obtain ⟨rfl, rfl⟩ := run
    refine .inl ⟨?_, rfl⟩
    rw [Valkyrie.withHost_host, left]
    exact negErrno_ne_zero nonzero

theorem not_contained_of_overruns (listed : c.Listed vk.cfg.arch) (overruns : c.Overruns sctx vk) :
    ¬ c.Contained sctx vk := by
  intro contained
  obtain ⟨native, filled, mapped, x, inside, outside, differs⟩ := overruns
  obtain ⟨image, small⟩ := @image_of_native c vk.cfg.arch vk.host.answer.data native
  have length := Stat.length_toBytes (Stat.ofBytes vk.host.answer.data)
  obtain ⟨uc', stored⟩ := Unicorn.memWrite_ok_iff.2 (length.symm ▸ mapped)
  have other : c ≠ .statfs64 := by
    rintro rfl
    exact absurd native.2 (by decide)
  obtain ⟨vk', run, rfl⟩ := ends_of_filled listed other filled (image.symm ▸ stored)
  have frame := (contained _ _ run).1 x (small.symm ▸ outside)
  rw [(Unicorn.memWrite_effect stored).2.2, length, if_pos inside] at frame
  exact differs frame

/-- A call of the tables keeps to the structure of the guest's kernel, and fills it when it returns
zero, exactly when it is not one that stores the structure of the host over what stands behind it, and
not one that the path keeps from asking the host without an error number to report. -/
theorem contained_iff (host : vk.host.ReportsErrors) (listed : c.Listed vk.cfg.arch) :
    c.Contained sctx vk ↔ ¬ c.Overruns sctx vk ∧ ¬ c.Forgets sctx vk := by
  constructor
  · intro contained
    constructor
    · exact fun overruns => not_contained_of_overruns listed overruns contained
    · rintro ⟨other, zero, path, e, read, kept⟩
      have run : (c.handler sctx).Ends vk (.ok 0) vk := by
        refine ends_handler.2 (.inr ⟨path, read, .inl ⟨e, kept, ?_, rfl⟩⟩)
        rw [refusal, if_neg other, zero]
        rfl
      obtain ⟨-, filled⟩ := contained _ _ run
      obtain ⟨call, more, -⟩ := filled rfl
      simp at more
  · rintro ⟨fits, remembers⟩ r vk' run
    rcases ends_handler.1 run with
      ⟨e, -, read, rfl⟩ | ⟨path, read, ⟨e, kept, rfl, rfl⟩ | ⟨call, asked, run⟩⟩
    · obtain rfl := (readsOnly_readGuestCstring _).state_eq read
      exact ⟨fun _ _ => rfl, nofun⟩
    · refine ⟨fun _ _ => rfl, fun zero => ?_⟩
      rw [refusal] at zero
      split_ifs at zero with statx
      · exact absurd zero (negErrno_ne_zero (ne_zero_of_request kept))
      · by_cases number : vk'.host.errno = 0
        · exact absurd ⟨statx, number, path, e, read, kept⟩ remembers
        · exact absurd zero (negErrno_ne_zero number)
    · obtain ⟨made, more⟩ := (@ask_cases vk c sctx call host).1
      rcases reply_cases host run with ⟨failed, same⟩ | ⟨answer, here, stored⟩
      · exact ⟨fun _ _ => by rw [same], fun zero => absurd zero failed⟩
      · have within : Native vk.cfg.arch c → ∀ x, InRange (c.buf sctx) 144 x →
            ¬ InRange (c.buf sctx) 64 x →
            (Stat.ofBytes vk.host.answer.data).toBytes.getD (x.toNat - (c.buf sctx).toNat) 0 =
              vk.uc.bytes x := by
          intro native x inside outside
          by_contra differs
          have mapped := Unicorn.memWrite_ok_iff.1 ⟨vk'.uc, stored⟩
          rw [(image_of_native native).1, Stat.length_toBytes] at mapped
          exact fits ⟨native, ⟨path, call, read, asked, answer⟩, mapped, x, inside, outside, differs⟩
        obtain ⟨frame, filled⟩ := contained_of_memWrite listed within stored
        exact ⟨frame, fun _ => ⟨made, by rw [here, more], filled⟩⟩

/-- A guest of X86 with the empty path at `0x1000`, on a host in its root directory that fills every
structure with ones. -/
def onesGuest : Valkyrie :=
  let vk := Valkyrie.ofMemory .x86 ⟨[⟨0x1000, 0x1000, .all, "[data]"⟩], 0, 0⟩
  { vk with host := { vk.host with
    cwd := some ['/']
    answers := fun _ => ⟨true, EIO, 0, 0, List.replicate 144 1⟩ } }

/-- `stat(0x1000, 0x1100)` or `stat64(0x1000, 0x1100)`. -/
def statPathCall : SubCtx := ⟨0x1000, 0x1100, 0, 0, 0, 0⟩

theorem onesGuest_read : (readGuestCstring 0x1000).Ends onesGuest (.ok []) onesGuest := by
  have bytes : (readCstringLoop 0x1000 maxPathLen).Ends onesGuest (.ok []) onesGuest := rfl
  rw [readGuestCstring, bytes.bind_iff, fromUtf8Lossy]
  exact ends_pure.2 ⟨rfl, rfl⟩

theorem onesGuest_reportsErrors : onesGuest.host.ReportsErrors := fun _ => by
  show 1 ≤ EIO.toNat ∧ EIO.toNat ≤ 4095
  decide

theorem contained_iff_onesGuest : stat64.Contained statPathCall onesGuest := by
  refine (contained_iff onesGuest_reportsErrors ⟨195, by decide +kernel⟩).2 ⟨?_, ?_⟩
  · exact fun overruns => absurd overruns.1 (by decide)
  · rintro ⟨-, -, path, e, read, kept⟩
    obtain ⟨same, -⟩ := Ends.unique read onesGuest_read
    cases same
    cases kept

/-- `stat` of X86 writes the 80 bytes behind the structure. -/
theorem native_overrun : ¬ ∀ (c : StatusCall) (sctx : SubCtx) (vk : Valkyrie),
    vk.host.ReportsErrors → c.Listed vk.cfg.arch → c.Contained sctx vk := by
  intro always
  have listed : stat.Listed onesGuest.cfg.arch := ⟨106, by decide +kernel⟩
  have filled : stat.Filled statPathCall onesGuest := ⟨[], _, onesGuest_read, rfl, rfl⟩
  have mapped : onesGuest.uc.Mapped 0x1100 144 := by
    rw [← Unicorn.spanMapped_iff]
    decide
  have byte : (Stat.ofBytes (List.replicate 144 1)).toBytes.getD 64 0 ≠ (0 : U8) := by
    decide +kernel
  refine not_contained_of_overruns listed ⟨by decide, filled, mapped, 0x1140, ?_, ?_, byte⟩
    (always .stat statPathCall onesGuest onesGuest_reportsErrors listed)
  · decide
  · decide

end StatusCall

end ValkyrieRs
