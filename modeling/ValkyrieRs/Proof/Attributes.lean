import Mathlib.Data.List.TakeDrop
import ValkyrieRs.Proof.StatSizes
import ValkyrieRs.Proof.Utf8
import ValkyrieRs.Syscall.Xattr

/-!
# Reading extended attributes

The host returns the length of an attribute, and fills the buffer with as much as the guest has room
for.  The handlers cut that many bytes off the buffer and store them.
-/

namespace ValkyrieRs

open Proc

/-- The calls that read an attribute. -/
inductive XattrCall where
  | getxattr | lgetxattr | fgetxattr
deriving DecidableEq

namespace XattrCall

/-- The handler of the call. -/
def handler : XattrCall → SubCtx → VkM U64
  | getxattr => sysGetxattr
  | lgetxattr => sysLgetxattr
  | fgetxattr => sysFgetxattr

/-- The guest's strings; a call on a descriptor has no path. -/
def Reads (c : XattrCall) (sctx : SubCtx) (vk : Valkyrie) (path name : List Char) : Prop :=
  (readGuestCstring sctx.arg1).Ends vk (.ok name) vk ∧
    if c = fgetxattr then path = [] else (readGuestCstring sctx.arg0).Ends vk (.ok path) vk

/-- The question to the host. -/
def query (c : XattrCall) (sctx : SubCtx) (name path : List Char) (h : Host) :
    Except U32 (List U8) × Host :=
  if c = fgetxattr then h.fgetxattr (sctx.arg0.setWidth 32) name sctx.arg3.toNat
  else h.getxattr path name sctx.arg3.toNat (c = getxattr)

/-- What is asked of the host, or the error that keeps it from being asked; nothing when the host has
no working directory. -/
def request (c : XattrCall) (sctx : SubCtx) (vk : Valkyrie) (path name : List Char) :
    Option (Except U32 (Host → Except U32 (List U8) × Host)) :=
  (if c = fgetxattr then some (.ok []) else vk.resolve atFdcwd path id).map fun found =>
    found.bind fun hostPath =>
      if Char.ofNat 0 ∈ name then .error EINVAL else .ok (c.query sctx name hostPath)

/-- The value returned and the bytes afterwards, for the attribute or the error. -/
def Answered (sctx : SubCtx) (vk : Valkyrie) (v : U64) (vk' : Valkyrie) :
    Except U32 (List U8) → Prop
  | .error e => v = negErrno e ∧ vk'.uc.bytes = vk.uc.bytes
  | .ok data => v = BitVec.ofNat 64 data.length ∧
      ∀ x, vk'.uc.bytes x =
        if data.length ≤ sctx.arg3.toNat ∧ sctx.arg2 ≠ 0 ∧ InRange sctx.arg2 data.length x then
          data.getD (x.toNat - sctx.arg2.toNat) 0
        else vk.uc.bytes x

/-- What the host answers, when it is asked. -/
def answer (q : Except U32 (Host → Except U32 (List U8) × Host)) (h : Host) :
    Except U32 (List U8) := q.bind fun f => (f h).1

/-- Whatever the strings are, the call returns the host's answer, and stores the attribute when there
is a buffer with room for it. -/
def Delivers (c : XattrCall) (sctx : SubCtx) (vk : Valkyrie) : Prop :=
  ∀ path name, c.Reads sctx vk path name → ∃ q, c.request sctx vk path name = some q ∧
    ∃ v vk', (c.handler sctx).Ends vk (.ok v) vk' ∧ Answered sctx vk v vk' (answer q vk.host)

/-- A request that can be made: the host has a working directory for it, its buffer can be allocated,
and an attribute that is to be stored fits into the buffer and can be stored. -/
def Sound (c : XattrCall) (sctx : SubCtx) (vk : Valkyrie) : Prop :=
  ∀ path name, c.Reads sctx vk path name → ∃ q, c.request sctx vk path name = some q ∧
    ∀ f, q = .ok f → sctx.arg3.toNat < 2 ^ 63 ∧
      ∀ data, (f vk.host).1 = .ok data → data ≠ [] → sctx.arg2 ≠ 0 →
        data.length ≤ sctx.arg3.toNat ∧ vk.uc.Mapped sctx.arg2 data.length

end XattrCall

/-! ## The outcome of a request -/

section Outcomes

variable {vk vk' t : Valkyrie} {c : XattrCall} {sctx : SubCtx} {path name : List Char} {e : U32}
  {r : Except ValkyrieError U64} {ptr v : U64} {size : ℕ} {data : List U8}
  {q : Except U32 (Host → Except U32 (List U8) × Host)}

/-- A buffer with room for a list holds it in front. -/
theorem take_takeD {β : Type} {l : List β} {n : ℕ} {a : β} (room : l.length ≤ n) :
    (l.takeD n a).take l.length = l := by
  induction l generalizing n with
  | nil => rfl
  | cons x l ih =>
    cases n with
    | zero => cases room
    | succ n => simp [ih (Nat.le_of_succ_le_succ room)]

/-- An attribute that is not stored. -/
theorem ends_finishGetxattr_kept (kept : ¬ (ptr ≠ 0 ∧ data ≠ [])) :
    (finishGetxattr ptr size (.ok data)).Ends vk r vk' ↔
      r = .ok (BitVec.ofNat 64 data.length) ∧ vk' = vk := by
  rw [finishGetxattr]
  simp only [gt_iff_lt, List.length_pos_iff, if_neg kept]
  exact ends_pure

/-- An attribute that is stored, if there is room for it. -/
theorem ends_finishGetxattr_stored (stores : ptr ≠ 0 ∧ data ≠ []) :
    (finishGetxattr ptr size (.ok data)).Ends vk (.ok v) vk' ↔
      v = BitVec.ofNat 64 data.length ∧ data.length ≤ size ∧
        ∃ uc, vk.uc.memWrite ptr data = .ok uc ∧ vk' = vk.withUc uc := by
  rw [finishGetxattr]
  simp only [gt_iff_lt, List.length_pos_iff, if_pos stores, List.takeD_length]
  by_cases room : data.length ≤ size
  · rw [if_pos room, take_takeD room, ends_bind_memWrite]
    constructor
    · rintro (⟨uc, stored, run⟩ | ⟨_, -, ⟨⟩, -⟩)
      obtain ⟨value, rfl⟩ := ends_pure.1 run
      cases value
      exact ⟨rfl, room, uc, (VMemory.write_ok_iff.1 stored).2, rfl⟩
    · rintro ⟨rfl, -, uc, stored, rfl⟩
      exact .inl ⟨uc, VMemory.write_ok_iff.2 ⟨stores.2, stored⟩, ends_pure.2 ⟨rfl, rfl⟩⟩
  · rw [if_neg room, ends_bind_ok]
    simp [room]

variable (vk) in
/-- An attribute is delivered exactly when it is not to be stored, or fits and can be stored. -/
theorem finishGetxattr_delivers_iff :
    (∃ v vk', (finishGetxattr sctx.arg2 sctx.arg3.toNat (.ok data)).Ends vk (.ok v) vk' ∧
      XattrCall.Answered sctx vk v vk' (.ok data)) ↔
    (data ≠ [] → sctx.arg2 ≠ 0 →
      data.length ≤ sctx.arg3.toNat ∧ vk.uc.Mapped sctx.arg2 data.length) := by
  by_cases stores : sctx.arg2 ≠ 0 ∧ data ≠ []
  · simp only [ends_finishGetxattr_stored stores]
    constructor
    · rintro ⟨v, vk', ⟨rfl, room, uc, stored, rfl⟩, -⟩ - -
      exact ⟨room, Unicorn.memWrite_ok_iff.1 ⟨uc, stored⟩⟩
    · intro fits
      obtain ⟨room, mapped⟩ := fits stores.2 stores.1
      obtain ⟨uc, stored⟩ := Unicorn.memWrite_ok_iff.2 mapped
      refine ⟨_, _, ⟨rfl, room, uc, stored, rfl⟩, rfl, fun x => ?_⟩
      rw [Valkyrie.withUc_uc, (Unicorn.memWrite_effect stored).2.2]
      simp only [and_iff_right room, and_iff_right stores.1]
  · simp only [ends_finishGetxattr_kept stores]
    refine iff_of_true ⟨_, _, ⟨rfl, rfl⟩, rfl, fun x => ?_⟩ fun some ptr => absurd ⟨ptr, some⟩ stores
    rw [if_neg]
    rintro ⟨-, ptr, inside⟩
    have none : data = [] := by
      by_contra some
      exact stores ⟨ptr, some⟩
    rw [none] at inside
    exact not_inRange_zero inside

/-- A refusal of the host leaves its number as the last. -/
theorem Host.errno_xattr {h : Host} (refused : (h.xattr size data).1 = .error e) :
    (h.xattr size data).2.errno = e := by
  unfold Host.xattr at refused ⊢
  split_ifs at refused ⊢
  cases refused
  rfl

theorem XattrCall.errno_query {h : Host} (refused : (c.query sctx name path h).1 = .error e) :
    (c.query sctx name path h).2.errno = e := by
  unfold XattrCall.query at refused ⊢
  split_ifs at refused ⊢ with ofFd
  · rw [Host.fgetxattr, Host.onFd] at refused ⊢
    split at refused
    · cases refused
      rfl
    · split_ifs at refused ⊢
      · exact Host.errno_xattr refused
      · cases refused
        rfl
  · rw [Host.getxattr] at refused ⊢
    split_ifs at refused ⊢
    · exact Host.errno_xattr refused
    · cases refused
      rfl

/-- The question to the host about a name, and what is done with the answer. -/
theorem ends_asking {f : Host → Except U32 (List U8) × Host} : (do
      if Char.ofNat 0 ∈ name then
        return negErrno EINVAL
      hostAlloc size
      let ret ← hostCall f
      finishGetxattr ptr size ret : VkM U64).Ends vk r vk' ↔
    (Char.ofNat 0 ∈ name ∧ r = .ok (negErrno EINVAL) ∧ vk' = vk) ∨
      Char.ofNat 0 ∉ name ∧ size < 2 ^ 63 ∧
        (finishGetxattr ptr size (f vk.host).1).Ends (vk.withHost (f vk.host).2) r vk' := by
  by_cases nul : Char.ofNat 0 ∈ name
  · rw [if_pos nul, ends_pure]
    simp [nul]
  · rw [if_neg nul, ends_bind_hostAlloc, ends_bind_hostCall]
    simp [nul]

/-- The run of a call whose strings are read. -/
theorem XattrCall.ends_handler (reads : c.Reads sctx vk path name) :
    (c.handler sctx).Ends vk r vk' ↔
      (∃ e, c.request sctx vk path name = some (.error e) ∧ r = .ok (negErrno e) ∧ vk' = vk) ∨
        ∃ f, c.request sctx vk path name = some (.ok f) ∧ sctx.arg3.toNat < 2 ^ 63 ∧
          (finishGetxattr sctx.arg2 sctx.arg3.toNat (f vk.host).1).Ends
            (vk.withHost (f vk.host).2) r vk' := by
  obtain ⟨readName, readPath⟩ := reads
  by_cases ofFd : c = .fgetxattr
  · subst ofFd
    rw [XattrCall.handler, sysFgetxattr, readName.bind_iff]
    refine ends_asking.trans ?_
    by_cases nul : Char.ofNat 0 ∈ name
    · have asked : XattrCall.request .fgetxattr sctx vk path name = some (.error EINVAL) := by
        simp [XattrCall.request, nul, Except.bind]
      simp [asked, nul]
    · have asked : XattrCall.request .fgetxattr sctx vk path name =
          some (.ok (XattrCall.query .fgetxattr sctx name [])) := by
        simp [XattrCall.request, nul, Except.bind]
      simp only [asked, nul, false_and, not_false_eq_true, true_and, false_or, Option.some.injEq,
        reduceCtorEq, exists_false, Except.ok.injEq, exists_eq_left']
      rfl
  · have shape : c.handler sctx = sysPathGetxattr sctx (c = .getxattr) := by
      cases c with
      | getxattr => rfl
      | lgetxattr => rfl
      | fgetxattr => exact absurd rfl ofFd
    rw [if_neg ofFd] at readPath
    rw [shape, sysPathGetxattr, readPath.bind_iff, readName.bind_iff]
    refine (ends_bind_resolve id (fun e => pure (negErrno e)) (fun hostPath => do
      if Char.ofNat 0 ∈ name then
        return negErrno EINVAL
      hostAlloc sctx.arg3.toNat
      let ret ← hostCall (c.query sctx name hostPath)
      finishGetxattr sctx.arg2 sctx.arg3.toNat ret) rfl (fun hostPath nul => if_pos nul)
      fun hostPath plain => (if_neg plain).trans ?_).trans ?_
    · have question : c.query sctx name hostPath =
          fun h => h.getxattr hostPath name sctx.arg3.toNat (c = .getxattr) :=
        funext fun h => if_neg ofFd
      rw [id_eq, question]
    · simp only [ends_asking, ends_pure, XattrCall.request, if_neg ofFd]
      cases vk.resolve atFdcwd path id with
      | none => simp
      | some found =>
        cases found with
        | error e => simp [Except.bind]
        | ok hostPath =>
          by_cases nul : Char.ofNat 0 ∈ name
          · simp [nul, Except.bind]
          · simp [nul, Except.bind]

/-- What is asked is a question about the name. -/
theorem XattrCall.errno_request {f : Host → Except U32 (List U8) × Host} {h : Host}
    (asked : c.request sctx vk path name = some (.ok f)) (refused : (f h).1 = .error e) :
    (f h).2.errno = e := by
  rw [XattrCall.request, Option.map_eq_some_iff] at asked
  obtain ⟨found, -, asked⟩ := asked
  cases found with
  | error e => cases asked
  | ok hostPath =>
    simp only [Except.bind] at asked
    split_ifs at asked
    cases asked
    exact XattrCall.errno_query refused

/-- A call delivers the host's answer, and never cuts more off its buffer than it holds, exactly when
the request can be made: a question for the size must not come with a buffer. -/
theorem XattrCall.delivers_iff_sound : c.Delivers sctx vk ↔ c.Sound sctx vk := by
  constructor
  · intro delivers path name reads
    obtain ⟨q, asked, v, vk', run, answered⟩ := delivers path name reads
    refine ⟨q, asked, fun f here => ?_⟩
    subst here
    rcases (ends_handler reads).1 run with ⟨e, refused, -⟩ | ⟨g, same, small, run⟩
    · rw [asked] at refused
      cases refused
    · rw [asked] at same
      cases same
      refine ⟨small, fun data given => ?_⟩
      rw [given] at run
      have answered : Answered sctx (vk.withHost (f vk.host).2) v vk' (.ok data) := given ▸ answered
      exact (finishGetxattr_delivers_iff (vk.withHost (f vk.host).2)).1 ⟨v, vk', run, answered⟩
  · intro sound path name reads
    obtain ⟨q, asked, fits⟩ := sound path name reads
    refine ⟨q, asked, ?_⟩
    cases q with
    | error e =>
      exact ⟨negErrno e, vk, (ends_handler reads).2 (.inl ⟨e, asked, rfl, rfl⟩), rfl, rfl⟩
    | ok f =>
      obtain ⟨small, fits⟩ := fits f rfl
      show ∃ v vk', _ ∧ Answered sctx vk v vk' (f vk.host).1
      cases given : (f vk.host).1 with
      | error e =>
        have last : (finishGetxattr sctx.arg2 sctx.arg3.toNat (f vk.host).1).Ends
            (vk.withHost (f vk.host).2) (.ok (negErrno e)) (vk.withHost (f vk.host).2) := by
          rw [given]
          refine ends_lastErrno.2 ⟨?_, rfl⟩
          rw [Valkyrie.withHost_host, errno_request asked given]
        exact ⟨negErrno e, _, (ends_handler reads).2 (.inr ⟨f, asked, small, last⟩), rfl, rfl⟩
      | ok data =>
        obtain ⟨v, vk', run, answered⟩ :=
          (finishGetxattr_delivers_iff (vk.withHost (f vk.host).2)).2 (fits data given)
        rw [← given] at run
        exact ⟨v, vk', (ends_handler reads).2 (.inr ⟨f, asked, small, run⟩), answered⟩

/-- The bytes of `/f` and, from the sixteenth on, of `user.x`. -/
def pathAndName : List U8 :=
  [0x2f, 0x66, 0, 0, 0, 0, 0, 0, 0, 0, 0, 0, 0, 0, 0, 0, 0x75, 0x73, 0x65, 0x72, 0x2e, 0x78]

/-- A guest with a path and a name, on a host that tells of every attribute three bytes. -/
def namedGuest : Valkyrie :=
  let vk := Valkyrie.ofMemory .x86_64 ⟨[⟨0x1000, 0x1000, .all, "[data]"⟩], 0, 0⟩
  { vk with
    uc.bytes := fun a => pathAndName.getD (a.toNat - 0x1000) 0
    host := { vk.host with cwd := some ['/'], answers := fun _ => ⟨true, EIO, 0, 0, [1, 2, 3]⟩ } }

theorem namedGuest_read {text : List Char} {ptr : U64}
    (bytes : (readCstringLoop ptr maxPathLen).Ends namedGuest (.ok (utf8Bytes text)) namedGuest) :
    (readGuestCstring ptr).Ends namedGuest (.ok text) namedGuest := by
  rw [readGuestCstring, bytes.bind_iff, fromUtf8Lossy_utf8Bytes]
  exact ends_pure.2 ⟨rfl, rfl⟩

/-- `getxattr(0x1000, 0x1010, 0x1100, 0)`. -/
def sizeQuery : SubCtx := ⟨0x1000, 0x1010, 0x1100, 0, 0, 0⟩

set_option maxRecDepth 20000 in
/-- A question for the size of an attribute, with a buffer, is never answered. -/
theorem size_query_panics : ¬ ∀ (c : XattrCall) (sctx : SubCtx) (vk : Valkyrie),
    c.Delivers sctx vk := by
  intro always
  have reads : XattrCall.Reads .getxattr sizeQuery namedGuest ['/', 'f'] "user.x".toList :=
    ⟨namedGuest_read rfl, namedGuest_read rfl⟩
  obtain ⟨-, -, v, vk', run, -⟩ := always .getxattr _ _ _ _ reads
  rcases (XattrCall.ends_handler reads).1 run with ⟨e, refused, -⟩ | ⟨f, asked, -, run⟩
  · cases refused
  · cases asked
    have stores : sizeQuery.arg2 ≠ 0 ∧ ([1, 2, 3] : List U8) ≠ [] := by decide
    obtain ⟨-, room, -⟩ := (ends_finishGetxattr_stored stores).1 run
    exact absurd room (by decide)

end Outcomes

end ValkyrieRs
