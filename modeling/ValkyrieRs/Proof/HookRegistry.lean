import ValkyrieRs.Hook

/-!
# The registry as a list of live hooks

What the hook registry is for: an ordered list of live hooks, extended by a registration, shortened
by a deletion and emptied by `clear_hooks`.  The registry of the code keeps that list in buckets by
hook type and by address, and its dispatchers in step with them.
-/

namespace ValkyrieRs

open Proc VCoreHooks

variable {C U : Type}

/-! ## Live hooks -/

/-- A hook type of memory accesses. -/
abbrev MemHookType := {t : HookType // t.isMem}

/-- What is asked of the registry by a registration. -/
inductive Registration (C U : Type) where
  | code (callback : C → U64 → U32 → U → Answer C U) (beginAddr endAddr : U64)
  | block (callback : C → U64 → U32 → U → Answer C U) (beginAddr endAddr : U64)
  | intr (callback : C → U32 → U → Answer C U)
  | insnInvalid (callback : C → U → Answer C U)
  | mem (t : MemHookType) (callback : C → MemType → U64 → U64 → U64 → U → Answer C U)
      (beginAddr endAddr : U64)
  | address (addr : U64) (callback : C → U → Answer C U)

namespace Registration

/-- The kind that it registers for. -/
def kind : Registration C U → HookKind
  | code .. => .common .code
  | block .. => .common .block
  | intr _ => .common .intr
  | insnInvalid _ => .common .insnInvalid
  | mem t .. => .common t
  | address addr _ => .address addr

/-- The range of addresses asked for, as its two bounds. -/
def range : Registration C U → U64 × U64
  | code _ b e => (b, e)
  | block _ b e => (b, e)
  | intr _ => (1, 0)
  | insnInvalid _ => (1, 0)
  | mem _ _ b e => (b, e)
  | address addr _ => (addr, addr)

/-- The callback as it takes an event of a hook type. -/
def cb : Registration C U → C → HookArgs → U → Answer C U
  | code callback .. => traceCb callback
  | block callback .. => traceCb callback
  | intr callback => intrCb callback
  | insnInvalid callback => invalidInsnCb callback
  | mem _ callback .. => memCb callback
  | address .. => fun ctx _ ud => (none, ctx, ud)

/-- The callback as it takes the execution of its address. -/
def addrCb : Registration C U → C → U → Answer C U
  | address _ callback => callback
  | _ => fun ctx ud => (none, ctx, ud)

/-- The registration through the registry. -/
def register (userData : U) : Registration C U → HookM C U HookRet
  | code callback b e => hookCode callback userData b e
  | block callback b e => hookBlock callback userData b e
  | intr callback => hookIntr callback userData
  | insnInvalid callback => hookInsnInvalid callback userData
  | mem t callback b e => hookMem t callback userData b e
  | address addr callback => hookAddress addr callback userData

end Registration

/-- A hook that is registered and not yet deleted. -/
structure LiveHook (C U : Type) where
  registration : Registration C U
  id : HookId
  userData : U

/-- What the engine reports to a dispatcher. -/
inductive HookEvent where
  | common (t : HookType) (args : HookArgs)
  | address (addr : U64)

/-- The kind that is dispatched. -/
def HookEvent.kind : HookEvent → HookKind
  | common t _ => .common t
  | address addr => .address addr

/-- The address of the event, where it has one. -/
def HookEvent.addr? : HookEvent → Option U64
  | common _ (.trace addr _) => some addr
  | common _ (.mem _ addr _ _) => some addr
  | common .. => none
  | address addr => some addr

/-- The range `1, 0` is that of all addresses. -/
def rangeCovers (range : U64 × U64) (addr : U64) : Prop :=
  range = (1, 0) ∨ range.1 ≤ addr ∧ addr ≤ range.2

instance (range : U64 × U64) (addr : U64) : Decidable (rangeCovers range addr) :=
  inferInstanceAs (Decidable (_ ∨ _))

namespace LiveHook

/-- The kind that it registers for. -/
abbrev kind (hook : LiveHook C U) : HookKind := hook.registration.kind

/-- The event is of the hook's kind and in its range. -/
def hears (ev : HookEvent) (hook : LiveHook C U) : Bool :=
  hook.kind = ev.kind ∧ ∀ addr ∈ ev.addr?, rangeCovers hook.registration.range addr

/-- The hook stays when a handle is deleted. -/
def survives (h : HookRet) (hook : LiveHook C U) : Bool := ¬ (hook.kind = h.kind ∧ hook.id = h.id)

/-- The call of the hook with an event. -/
def answer (ev : HookEvent) (ctx : C) (hook : LiveHook C U) : Option U32 × C × LiveHook C U :=
  let ret := match ev with
    | .common _ args => hook.registration.cb ctx args hook.userData
    | .address _ => hook.registration.addrCb ctx hook.userData
  (ret.1, ret.2.1, { hook with userData := ret.2.2 })

/-- The hook as the buckets of its type keep it. -/
def toCommon (hook : LiveHook C U) : HookCommon C U :=
  ⟨hook.id, hook.registration.range.1, hook.registration.range.2, hook.userData,
    hook.registration.cb⟩

/-- The hook as the buckets of its address keep it. -/
def toAddr (hook : LiveHook C U) : HookAddr C U :=
  ⟨hook.id, hook.registration.range.1, hook.userData, hook.registration.addrCb⟩

/-- A live hook of the type. -/
def common? (t : HookType) (hook : LiveHook C U) : Option (HookCommon C U) :=
  if hook.kind = .common t then some hook.toCommon else none

/-- A live hook of the address. -/
def addr? (addr : U64) (hook : LiveHook C U) : Option (HookAddr C U) :=
  if hook.kind = .address addr then some hook.toAddr else none

end LiveHook

/-- The abstract registry, with the context that the callbacks share and the number of
registrations made so far. -/
structure Ledger (C U : Type) where
  ctx : C
  live : List (LiveHook C U)
  made : ℕ

/-- A call of the registry, an event, or a change of the context from outside. -/
inductive HookCall (C U : Type) where
  | register (r : Registration C U) (userData : U)
  | del (h : HookRet)
  | clear
  | event (ev : HookEvent)
  | change (f : C → C)

namespace Ledger

/-- The number of the next registration. -/
def nextId (l : Ledger C U) : HookId := BitVec.ofNat 64 (l.made + 1)

/-- What a call does to the ledger. -/
def step (l : Ledger C U) : HookCall C U → Ledger C U
  | .register r userData =>
    { l with live := l.live ++ [⟨r, l.nextId, userData⟩], made := l.made + 1 }
  | .del h => { l with live := l.live.filter (·.survives h) }
  | .clear => { l with live := [] }
  | .event ev =>
    let out := Chain.run (·.hears ev) (LiveHook.answer ev) blocks 0 l.ctx l.live
    { l with ctx := out.ctx, live := out.handlers }
  | .change f => { l with ctx := f l.ctx }

/-- The handle that a registration returns. -/
def handle? (l : Ledger C U) : HookCall C U → Option HookRet
  | .register r _ => some ⟨r.kind, l.nextId⟩
  | _ => none

/-- The ledger after a sequence of calls. -/
def run (l : Ledger C U) (calls : List (HookCall C U)) : Ledger C U := calls.foldl step l

/-- The handles that a sequence of calls returns, at the registrations. -/
def handles (l : Ledger C U) : List (HookCall C U) → List (Option HookRet)
  | [] => []
  | call :: calls => l.handle? call :: handles (l.step call) calls

end Ledger

/-! ## The registry in use -/

/-- The registry and its engine with the context of the callbacks. -/
structure Hooked (C U : Type) where
  ctx : C
  hooking : Hooking C U

/-- A call of the registry. -/
def onRegistry {α : Type} (m : HookM C U α) : Proc (Hooked C U) ValkyrieError α :=
  m.zoom Hooked.hooking fun hooking s => { s with hooking }

/-- An event reaches its dispatcher. -/
def dispatchEvent (ev : HookEvent) : Proc (Hooked C U) ValkyrieError Unit :=
  modify fun s =>
    match ev with
    | .common t args =>
      let out := s.hooking.reg.dispatchCommon s.ctx t args
      ⟨out.ctx, { s.hooking with reg := out.reg }⟩
    | .address addr =>
      let out := s.hooking.reg.dispatchAddr s.ctx addr
      ⟨out.ctx, { s.hooking with reg := out.reg }⟩

/-- The call on the emulator. -/
def HookCall.exec : HookCall C U → Proc (Hooked C U) ValkyrieError (Option HookRet)
  | .register r userData => do
    let ret ← onRegistry (r.register userData)
    return some ret
  | .del h => do
    onRegistry (hookDel h)
    return none
  | .clear => do
    onRegistry clearHooks
    return none
  | .event ev => do
    dispatchEvent ev
    return none
  | .change f => do
    modify fun s => { s with ctx := f s.ctx }
    return none

end ValkyrieRs
