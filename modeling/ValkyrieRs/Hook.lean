import ValkyrieRs.Lib.Buckets
import ValkyrieRs.Lib.Chain
import ValkyrieRs.Lib.Proc
import ValkyrieRs.Types

/-!
# The hook registry

`hook.rs`: the registry of hooks behind the dispatchers that it installs in the engine.  `C` is the
context handed to the callbacks, `U` the user data of a hook with what its callback captured.
-/

namespace ValkyrieRs

/-- The bit of an answer that keeps the event from the hooks behind. -/
def HOOK_BLOCK : U32 := 1 <<< 0

/-! ## Hook types and the engine's hooks -/

/-- `HookType`, a set of flags of the engine. -/
structure HookType where
  bits : U32
deriving DecidableEq, Repr

namespace HookType

/-- `INTR`: an interrupt. -/
def intr : HookType := ⟨1 <<< 0⟩

/-- `CODE`: an instruction. -/
def code : HookType := ⟨1 <<< 2⟩

/-- `BLOCK`: a basic block. -/
def block : HookType := ⟨1 <<< 3⟩

/-- `MEM_UNMAPPED`: an access to memory that is not mapped. -/
def memUnmapped : HookType := ⟨7 <<< 4⟩

/-- `MEM_PROT`: an access that the protection forbids. -/
def memProt : HookType := ⟨7 <<< 7⟩

/-- `INSN_INVALID`: an invalid instruction. -/
def insnInvalid : HookType := ⟨1 <<< 14⟩

/-- `t & u != 0`. -/
def meets (t u : HookType) : Bool := t.bits &&& u.bits ≠ 0

/-- A set of memory accesses: of the flags from `MEM_READ_UNMAPPED` to `MEM_READ_AFTER`, not none. -/
def isMem (t : HookType) : Bool := t.bits ≠ 0 ∧ t.bits &&& ~~~0x3ff0 = 0

/-- An event of the type is a fault unless some hook handles it. -/
def needsHandled (t : HookType) : Bool :=
  t.meets memUnmapped || t.meets memProt || t = intr || t = insnInvalid

end HookType

/-- `MemType`. -/
inductive MemType where
  | read | write | fetch
  | readUnmapped | writeUnmapped | fetchUnmapped
  | readProt | writeProt | fetchProt
  | readAfter
deriving DecidableEq, Repr

/-- A list of the registry: the hooks of a type, or those of an address. -/
inductive HookKind where
  | common (t : HookType)
  | address (addr : U64)
deriving DecidableEq, Repr

/-- The number of a registered hook. -/
abbrev HookId := U64

/-- The handle of a registered hook. -/
structure HookRet where
  kind : HookKind
  id : HookId
deriving DecidableEq, Repr

/-- The handle of a hook of the engine. -/
abbrev UcHookId := ℕ

/-- When the engine calls a hook; `1, 0` is the range of all addresses. -/
inductive HookPoint where
  | code (beginAddr endAddr : U64)
  | block (beginAddr endAddr : U64)
  | intr
  | insnInvalid
  | mem (t : HookType) (beginAddr endAddr : U64)
deriving DecidableEq, Repr

/-- A hook of the engine and the kind that its closure dispatches in the registry of `HookEnv`. -/
structure UcHook where
  point : HookPoint
  target : HookKind
deriving DecidableEq, Repr

/-- The engine's hooks in the order of their installation; `answers n` is the error with which the
engine refuses its `n`-th call. -/
structure UcHooks where
  installed : List (UcHookId × UcHook)
  issued : ℕ
  answers : ℕ → Option UcError

namespace UcHooks

/-- The `add_*_hook` functions. -/
def addHook (uc : UcHooks) (hook : UcHook) : Except UcError UcHookId × UcHooks :=
  match uc.answers uc.issued with
  | some e => (.error e, { uc with issued := uc.issued + 1 })
  | none => (.ok uc.issued, { uc with
      installed := uc.installed ++ [(uc.issued, hook)]
      issued := uc.issued + 1 })

/-- `remove_hook`. -/
def removeHook (uc : UcHooks) (handle : UcHookId) : Except UcError Unit × UcHooks :=
  match uc.answers uc.issued with
  | some e => (.error e, { uc with issued := uc.issued + 1 })
  | none => (.ok (), { uc with
      installed := uc.installed.filter (·.1 ≠ handle)
      issued := uc.issued + 1 })

end UcHooks

/-! ## The registry -/

/-- What a dispatcher tells the hooks of the event. -/
inductive HookArgs where
  | trace (addr : U64) (size : U32)
  | intr (intno : U32)
  | mem (access : MemType) (addr : U64) (size : U64) (value : U64)
  | invalidInsn
deriving DecidableEq, Repr

/-- What a callback returns, with the context and the user data as it leaves them. -/
abbrev Answer (C U : Type) := Option U32 × C × U

/-- A hook of a type, with the range of addresses that it asks for. -/
structure HookCommon (C U : Type) where
  id : HookId
  beginAddr : U64
  endAddr : U64
  userData : U
  cb : C → HookArgs → U → Answer C U

/-- A hook of one address. -/
structure HookAddr (C U : Type) where
  id : HookId
  addr : U64
  userData : U
  cb : C → U → Answer C U

/-- The registry: the next number, the dispatchers in the engine and the hooks behind them. -/
structure VCoreHooks (C U : Type) where
  nextId : HookId
  hookFuc : AList fun _ : HookType => UcHookId
  addrHookFuc : AList fun _ : U64 => UcHookId
  hooks : AList fun _ : HookType => List (HookCommon C U)
  addrHooks : AList fun _ : U64 => List (HookAddr C U)

/-- A registry with the engine it installs its dispatchers in. -/
structure Hooking (C U : Type) where
  reg : VCoreHooks C U
  uc : UcHooks

/-- A function on `&mut VCoreHooks` and `&mut Unicorn` with a `Result`. -/
abbrev HookM (C U : Type) := Proc (Hooking C U) ValkyrieError

open Proc

variable {C U : Type}

namespace VCoreHooks

/-- `VCoreHooks::new`. -/
def new : VCoreHooks C U := ⟨1, ∅, ∅, ∅, ∅⟩

/-- The handle of the dispatcher of a kind. -/
def handle (reg : VCoreHooks C U) : HookKind → Option UcHookId
  | .common t => reg.hookFuc.lookup t
  | .address addr => reg.addrHookFuc.lookup addr

/-- Record the handle of the dispatcher of a kind. -/
def insertHandle (reg : VCoreHooks C U) (kind : HookKind) (hookId : UcHookId) : VCoreHooks C U :=
  match kind with
  | .common t => { reg with hookFuc := reg.hookFuc.insert t hookId }
  | .address addr => { reg with addrHookFuc := reg.addrHookFuc.insert addr hookId }

/-- Forget the handle of the dispatcher of a kind. -/
def removeHandle (reg : VCoreHooks C U) : HookKind → VCoreHooks C U
  | .common t => { reg with hookFuc := reg.hookFuc.erase t }
  | .address addr => { reg with addrHookFuc := reg.addrHookFuc.erase addr }

/-- The hooks of a type are now these. -/
def insertHooks (t : HookType) (list : List (HookCommon C U)) (reg : VCoreHooks C U) :
    VCoreHooks C U := { reg with hooks := reg.hooks.insert t list }

/-- Drop the list of a type. -/
def removeHooks (t : HookType) (reg : VCoreHooks C U) : VCoreHooks C U :=
  { reg with hooks := reg.hooks.erase t }

/-- The hooks of an address are now these. -/
def insertAddrHooks (addr : U64) (list : List (HookAddr C U)) (reg : VCoreHooks C U) :
    VCoreHooks C U := { reg with addrHooks := reg.addrHooks.insert addr list }

/-- Drop the list of an address. -/
def removeAddrHooks (addr : U64) (reg : VCoreHooks C U) : VCoreHooks C U :=
  { reg with addrHooks := reg.addrHooks.erase addr }

/-- Install a hook in the engine. -/
def ucAddHook (hook : UcHook) : HookM C U UcHookId := do
  let s ← get
  modify fun s => { s with uc := (s.uc.addHook hook).2 }
  match (s.uc.addHook hook).1 with
  | .error e => throw (.unicorn e)
  | .ok handle => return handle

/-- Take a hook out of the engine. -/
def ucRemoveHook (handle : UcHookId) : HookM C U Unit := do
  let s ← get
  modify fun s => { s with uc := (s.uc.removeHook handle).2 }
  match (s.uc.removeHook handle).1 with
  | .error e => throw (.unicorn e)
  | .ok () => return ()

/-- Change the registry and leave the engine. -/
def modifyReg (f : VCoreHooks C U → VCoreHooks C U) : HookM C U Unit :=
  modify fun s => { s with reg := f s.reg }

/-- Hand out the next number; the counter wraps. -/
def allocId : HookM C U HookId := do
  let s ← get
  modifyReg fun reg => { reg with nextId := reg.nextId + 1 }
  return s.reg.nextId

/-- The range `1, 0` is that of all addresses. -/
def boundCheck (beginAddr endAddr addr : U64) : Bool :=
  if beginAddr = 1 ∧ endAddr = 0 then true
  else addr ≥ beginAddr ∧ addr ≤ endAddr

/-! ### Dispatcher installers -/

/-- Install the dispatcher of a kind at a point, unless its handle is recorded. -/
def ensureDispatcher (kind : HookKind) (point : HookPoint) : HookM C U Unit := do
  let s ← get
  if (s.reg.handle kind).isSome then
    return ()
  let hookId ← ucAddHook ⟨point, kind⟩
  modifyReg (·.insertHandle kind hookId)

/-- The dispatcher of all instructions. -/
def ensureCodeDispatcher : HookM C U Unit := ensureDispatcher (.common .code) (.code 1 0)

/-- The dispatcher of all basic blocks. -/
def ensureBlockDispatcher : HookM C U Unit := ensureDispatcher (.common .block) (.block 1 0)

/-- The dispatcher of interrupts. -/
def ensureIntrDispatcher : HookM C U Unit := ensureDispatcher (.common .intr) .intr

/-- The dispatcher of invalid instructions. -/
def ensureInvalidInsnDispatcher : HookM C U Unit :=
  ensureDispatcher (.common .insnInvalid) .insnInvalid

/-- The dispatcher of a set of memory accesses. -/
def ensureMemDispatcher (t : HookType) : HookM C U Unit :=
  ensureDispatcher (.common t) (.mem t 1 0)

/-- The dispatcher of one address. -/
def ensureAddrDispatcher (address : U64) : HookM C U Unit :=
  ensureDispatcher (.address address) (.code address address)

/-! ### Dispatcher core -/

/-- The answer keeps the event from the hooks behind. -/
def blocks (ret : Option U32) : Bool := ret.any fun v => v &&& HOOK_BLOCK ≠ 0

/-- The event is in the hook's range, where it has an address. -/
def due (args : HookArgs) (hook : HookCommon C U) : Bool :=
  match args with
  | .trace addr _ => boundCheck hook.beginAddr hook.endAddr addr
  | .mem _ addr _ _ => boundCheck hook.beginAddr hook.endAddr addr
  | _ => true

/-- A hook of a type is called: its answer, and the hook with its user data as the callback leaves
it. -/
def call (args : HookArgs) (ctx : C) (hook : HookCommon C U) :
    Option U32 × C × HookCommon C U :=
  let ret := hook.cb ctx args hook.userData
  (ret.1, ret.2.1, { hook with userData := ret.2.2 })

/-- A hook of an address is called. -/
def callAddr (ctx : C) (hook : HookAddr C U) : Option U32 × C × HookAddr C U :=
  let ret := hook.cb ctx hook.userData
  (ret.1, ret.2.1, { hook with userData := ret.2.2 })

/-- The result of a dispatch, the context and the registry it leaves, and the calls it made: each
hook as it was, with its position among the hooks of its kind, and its answer. -/
structure Dispatched (C U H : Type) where
  result : Except ValkyrieError Unit
  ctx : C
  reg : VCoreHooks C U
  called : List ((H × ℕ) × Option U32)

/-- The calls by the hooks called. -/
def Dispatched.calls {H : Type} (out : Dispatched C U H) : List (H × Option U32) :=
  out.called.map fun x => (x.1.1, x.2)

/-- An event reaches the hooks of its type in the order of their registration, up to one that
blocks. -/
def dispatchCommon (reg : VCoreHooks C U) (ctx : C) (hookType : HookType) (args : HookArgs) :
    Dispatched C U (HookCommon C U) :=
  let out : Chain.Outcome C (HookCommon C U) (Option U32) :=
    match reg.hooks.lookup hookType with
    | some list => Chain.run (due args) (call args) blocks 0 ctx list
    | none => ⟨ctx, [], []⟩
  let handled := ¬ out.called.isEmpty
  { result :=
      if hookType.needsHandled ∧ ¬ handled then .error (.hookNotHandled "event not handled")
      else .ok ()
    ctx := out.ctx
    reg :=
      match reg.hooks.lookup hookType with
      | some _ => insertHooks hookType out.handlers reg
      | none => reg
    called := out.called }

/-- The guest reaches an address that has hooks. -/
def dispatchAddr (reg : VCoreHooks C U) (ctx : C) (addr : U64) : Dispatched C U (HookAddr C U) :=
  match reg.addrHooks.lookup addr with
  | some list =>
    let out := Chain.run (fun _ => true) callAddr blocks 0 ctx list
    { result := .ok ()
      ctx := out.ctx
      reg := insertAddrHooks addr out.handlers reg
      called := out.called }
  | none => ⟨.ok (), ctx, reg, []⟩

/-! ### Public functions -/

/-- Register a hook of a type, behind the dispatcher that `ensure` installs. -/
def hookCommon (ensure : HookM C U Unit) (t : HookType) (cb : C → HookArgs → U → Answer C U)
    (userData : U) (beginAddr endAddr : U64) : HookM C U HookRet := do
  ensure
  let id ← allocId
  modifyReg fun reg => { reg with
    hooks := Buckets.push reg.hooks t ⟨id, beginAddr, endAddr, userData, cb⟩ }
  return ⟨.common t, id⟩

/-- The closure around a callback on `HookArgs::Trace`. -/
def traceCb (callback : C → U64 → U32 → U → Answer C U) (ctx : C) (args : HookArgs) (ud : U) :
    Answer C U :=
  match args with
  | .trace addr size => callback ctx addr size ud
  | _ => (none, ctx, ud)

/-- The closure around a callback on `HookArgs::Intr`. -/
def intrCb (callback : C → U32 → U → Answer C U) (ctx : C) (args : HookArgs) (ud : U) :
    Answer C U :=
  match args with
  | .intr intno => callback ctx intno ud
  | _ => (none, ctx, ud)

/-- The closure around a callback on `HookArgs::InvalidInsn`. -/
def invalidInsnCb (callback : C → U → Answer C U) (ctx : C) (args : HookArgs) (ud : U) :
    Answer C U :=
  match args with
  | .invalidInsn => callback ctx ud
  | _ => (none, ctx, ud)

/-- The closure around a callback on `HookArgs::Mem`. -/
def memCb (callback : C → MemType → U64 → U64 → U64 → U → Answer C U) (ctx : C)
    (args : HookArgs) (ud : U) : Answer C U :=
  match args with
  | .mem access addr size value => callback ctx access addr size value ud
  | _ => (none, ctx, ud)

/-- `hook_code`. -/
def hookCode (callback : C → U64 → U32 → U → Answer C U) (userData : U)
    (beginAddr endAddr : U64) : HookM C U HookRet :=
  hookCommon ensureCodeDispatcher .code (traceCb callback) userData beginAddr endAddr

/-- `hook_block`. -/
def hookBlock (callback : C → U64 → U32 → U → Answer C U) (userData : U)
    (beginAddr endAddr : U64) : HookM C U HookRet :=
  hookCommon ensureBlockDispatcher .block (traceCb callback) userData beginAddr endAddr

/-- `hook_intr`. -/
def hookIntr (callback : C → U32 → U → Answer C U) (userData : U) : HookM C U HookRet :=
  hookCommon ensureIntrDispatcher .intr (intrCb callback) userData 1 0

/-- `hook_insn_invalid`. -/
def hookInsnInvalid (callback : C → U → Answer C U) (userData : U) : HookM C U HookRet :=
  hookCommon ensureInvalidInsnDispatcher .insnInvalid (invalidInsnCb callback) userData 1 0

/-- `hook_mem`. -/
def hookMem (hookType : HookType) (callback : C → MemType → U64 → U64 → U64 → U → Answer C U)
    (userData : U) (beginAddr endAddr : U64) : HookM C U HookRet :=
  hookCommon (ensureMemDispatcher hookType) hookType (memCb callback) userData beginAddr endAddr

/-- `hook_address`. -/
def hookAddress (address : U64) (callback : C → U → Answer C U) (userData : U) :
    HookM C U HookRet := do
  ensureAddrDispatcher address
  let id ← allocId
  modifyReg fun reg => { reg with
    addrHooks := Buckets.push reg.addrHooks address ⟨id, address, userData, callback⟩ }
  return ⟨.address address, id⟩

/-- Forget the handle of a kind and take its dispatcher out of the engine. -/
def removeDispatcher (kind : HookKind) : HookM C U Unit := do
  let s ← get
  match s.reg.handle kind with
  | some ucHandle =>
    modifyReg (·.removeHandle kind)
    ucRemoveHook ucHandle
  | none => return ()

/-- Drop the hooks with a number from a list; with the last of them the list goes, by `remove`,
and the dispatcher. -/
def deleteFrom {H : Type} (kind : HookKind) (found : Option (List H)) (hookId : H → HookId)
    (id : HookId) (keep : List H → VCoreHooks C U → VCoreHooks C U)
    (remove : VCoreHooks C U → VCoreHooks C U) : HookM C U Unit :=
  match found with
  | some list =>
    let list := list.filter (hookId · ≠ id)
    if list.isEmpty then do
      modifyReg remove
      removeDispatcher kind
    else modifyReg (keep list)
  | none => return ()

/-- `hook_del`: drop one hook. -/
def hookDel (h : HookRet) : HookM C U Unit := do
  let s ← get
  match h.kind with
  | .common t =>
    deleteFrom (.common t) (s.reg.hooks.lookup t) HookCommon.id h.id
      (insertHooks t) (removeHooks t)
  | .address addr =>
    deleteFrom (.address addr) (s.reg.addrHooks.lookup addr) HookAddr.id h.id
      (insertAddrHooks addr) (removeAddrHooks addr)

/-- `clear_hooks`: drop all hooks and dispatchers. -/
def clearHooks : HookM C U Unit := do
  let s ← get
  modifyReg fun reg => { reg with hookFuc := ∅ }
  s.reg.hookFuc.entries.forM fun entry => ucRemoveHook entry.2
  modifyReg fun reg => { reg with addrHookFuc := ∅ }
  s.reg.addrHookFuc.entries.forM fun entry => ucRemoveHook entry.2
  modifyReg fun reg => { reg with hooks := ∅, addrHooks := ∅ }

end VCoreHooks

end ValkyrieRs
