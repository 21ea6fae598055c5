import ValkyrieRs.Proof.HookEngine

/-!
# The registry refines the list of live hooks

Each function of the registry keeps the buckets in step with the list of live hooks, and the
dispatchers installed in the engine in step with the buckets.
-/

namespace ValkyrieRs

open Proc VCoreHooks Buckets

variable {C U : Type}

/-! ## Dispatchers and handles -/

/-- Where the engine calls the dispatcher of a kind. -/
def HookKind.point : HookKind → HookPoint
  | .common t =>
    if t = .code then .code 1 0
    else if t = .block then .block 1 0
    else if t = .intr then .intr
    else if t = .insnInvalid then .insnInvalid
    else .mem t 1 0
  | .address addr => .code addr addr

theorem MemHookType.point (t : MemHookType) : HookKind.point (.common t) = .mem t 1 0 := by
  obtain ⟨t, isMem⟩ := t
  have ne (u : HookType) (h : u.isMem = false) : t ≠ u := fun same => by simp [same, h] at isMem
  simp [HookKind.point, ne .code (by decide), ne .block (by decide), ne .intr (by decide),
    ne .insnInvalid (by decide)]

/-- The engine holds exactly the dispatchers whose handles are recorded, and accepts every call. -/
structure Installed (reg : VCoreHooks C U) (uc : UcHooks) : Prop where
  ofKind : ∀ kind, uc.installed.filter (·.2.target = kind) =
    ((reg.handle kind).map fun i => (i, ⟨kind.point, kind⟩)).toList
  nodup : (uc.installed.map (·.1)).Nodup
  issued : ∀ x ∈ uc.installed, x.1 < uc.issued
  accepts : ∀ n, uc.answers n = none

theorem handle_insertHandle (reg : VCoreHooks C U) (kind kind' : HookKind) (i : UcHookId) :
    (reg.insertHandle kind i).handle kind' = if kind' = kind then some i else reg.handle kind' := by
  cases kind <;> cases kind' <;> simp only [insertHandle, handle, HookKind.common.injEq,
    HookKind.address.injEq, reduceCtorEq, if_false] <;> split_ifs with same
  all_goals first
    | exact same ▸ AList.lookup_insert _
    | exact AList.lookup_insert_ne same

theorem handle_removeHandle (reg : VCoreHooks C U) (kind kind' : HookKind) :
    (reg.removeHandle kind).handle kind' = if kind' = kind then none else reg.handle kind' := by
  cases kind <;> cases kind' <;> simp only [removeHandle, handle, HookKind.common.injEq,
    HookKind.address.injEq, reduceCtorEq, if_false] <;> split_ifs with same
  all_goals first
    | exact same ▸ AList.lookup_erase _ _
    | exact AList.lookup_erase_ne same

namespace Installed

variable {reg : VCoreHooks C U} {uc : UcHooks}

theorem mem_iff (h : Installed reg uc) {i : UcHookId} {hook : UcHook} :
    (i, hook) ∈ uc.installed ↔
      reg.handle hook.target = some i ∧ hook.point = hook.target.point := by
  have inKind : (i, hook) ∈ uc.installed ↔
      (i, hook) ∈ uc.installed.filter (·.2.target = hook.target) := by simp
  rw [inKind, h.ofKind, Option.mem_toList, Option.map_eq_some_iff]
  constructor
  · rintro ⟨j, recorded, same⟩
    have handles : j = i := congrArg Prod.fst same
    have points : hook.target.point = hook.point := congrArg (fun x => x.2.point) same
    exact ⟨handles ▸ recorded, points.symm⟩
  · rintro ⟨recorded, point⟩
    exact ⟨i, recorded, by rw [← point]⟩

/-- A handle names one dispatcher. -/
theorem kind_unique (h : Installed reg uc) {kind kind' : HookKind} {i : UcHookId}
    (one : reg.handle kind = some i) (other : reg.handle kind' = some i) : kind = kind' := by
  have first : (i, ⟨kind.point, kind⟩) ∈ uc.installed := h.mem_iff.2 ⟨one, rfl⟩
  have second : (i, ⟨kind'.point, kind'⟩) ∈ uc.installed := h.mem_iff.2 ⟨other, rfl⟩
  have same := List.inj_on_of_nodup_map h.nodup first second rfl
  exact congrArg (fun x => x.2.target) same

/-- Only the handles of the registry matter. -/
theorem of_handles (h : Installed reg uc) {reg' : VCoreHooks C U}
    (same : reg'.handle = reg.handle) : Installed reg' uc :=
  ⟨fun kind => same ▸ h.ofKind kind, h.nodup, h.issued, h.accepts⟩

theorem numbered (h : Installed reg uc) : uc.Numbered := ⟨h.nodup, h.issued⟩

/-- A dispatcher is added for a kind that had none. -/
theorem add (h : Installed reg uc) {kind : HookKind} (absent : reg.handle kind = none) :
    Installed (reg.insertHandle kind uc.issued) (uc.addHook ⟨kind.point, kind⟩).2 := by
  rw [UcHooks.addHook_granted (h.accepts _)]
  obtain ⟨nodup, issued⟩ := h.numbered.add ⟨kind.point, kind⟩
  refine ⟨fun kind' => ?_, nodup, issued, h.accepts⟩
  rw [List.filter_append, h.ofKind, handle_insertHandle]
  by_cases same : kind' = kind
  · subst same
    simp [absent]
  · simp [same, Ne.symm same]

/-- The dispatcher of a kind is removed, and its handle forgotten. -/
theorem remove (h : Installed reg uc) {kind : HookKind} {i : UcHookId}
    (recorded : reg.handle kind = some i) :
    Installed (reg.removeHandle kind) (uc.without [i]) := by
  obtain ⟨nodup, issued⟩ := h.numbered.without [i]
  refine ⟨fun kind' => ?_, nodup, issued, h.accepts⟩
  rw [UcHooks.without, List.filter_comm, h.ofKind, handle_removeHandle]
  by_cases same : kind' = kind
  · subst same
    simp [recorded]
  · rw [if_neg same]
    cases recorded' : reg.handle kind' with
    | none => rfl
    | some j =>
      have ne : j ≠ i := fun e => same (h.kind_unique recorded' (e ▸ recorded))
      simp [ne]

end Installed

/-! ## The buckets -/

/-- The registry keeps the live hooks in its buckets, gives `id` to the next hook, and records a
dispatcher for the kinds of live hooks. -/
structure Holds (live : List (LiveHook C U)) (id : HookId) (reg : VCoreHooks C U) : Prop where
  nextId : reg.nextId = id
  common : Groups reg.hooks LiveHook.common? live
  address : Groups reg.addrHooks LiveHook.addr? live
  recorded : ∀ kind, (reg.handle kind).isSome ↔ ∃ x ∈ live, x.kind = kind

/-- The hook at the end of its bucket. -/
def VCoreHooks.pushHook (reg : VCoreHooks C U) (x : LiveHook C U) : VCoreHooks C U :=
  match x.kind with
  | .common t => { reg with hooks := Buckets.push reg.hooks t x.toCommon }
  | .address addr => { reg with addrHooks := Buckets.push reg.addrHooks addr x.toAddr }

/-- The registry and the engine with a dispatcher for the kind. -/
def Hooking.ensured (s : Hooking C U) (kind : HookKind) : Hooking C U :=
  if (s.reg.handle kind).isSome then s
  else ⟨s.reg.insertHandle kind s.uc.issued, (s.uc.addHook ⟨kind.point, kind⟩).2⟩

/-- The registry and the engine after a registration. -/
def Hooking.registered (s : Hooking C U) (r : Registration C U) (userData : U) : Hooking C U where
  reg := { (s.ensured r.kind).reg.pushHook ⟨r, s.reg.nextId, userData⟩ with
    nextId := s.reg.nextId + 1 }
  uc := (s.ensured r.kind).uc

section Registering

variable {s : Hooking C U}

theorem ends_bind_modifyReg {α : Type} {f : VCoreHooks C U → VCoreHooks C U}
    {m : Unit → HookM C U α} {r : Except ValkyrieError α} {s' : Hooking C U} :
    (modifyReg f >>= m).Ends s r s' ↔ (m ()).Ends { s with reg := f s.reg } r s' := Iff.rfl

theorem ends_ensureDispatcher (accepts : ∀ n, s.uc.answers n = none) (kind : HookKind) :
    (ensureDispatcher kind kind.point).Ends s (.ok ()) (s.ensured kind) := by
  rw [ensureDispatcher, ends_bind_get, Hooking.ensured]
  split_ifs
  · exact ends_pure.2 ⟨rfl, rfl⟩
  · simp [ucAddHook, modifyReg, UcHooks.addHook, accepts, ends_bind]

theorem ensured_nextId (kind : HookKind) : (s.ensured kind).reg.nextId = s.reg.nextId := by
  unfold Hooking.ensured
  split_ifs
  · rfl
  · cases kind <;> rfl

@[simp] theorem handle_registered (r : Registration C U) (userData : U) :
    (s.registered r userData).reg.handle = (s.ensured r.kind).reg.handle := by
  funext kind
  cases r <;> cases kind <;> rfl

theorem handle_ensured (kind kind' : HookKind) :
    ((s.ensured kind).reg.handle kind').isSome ↔
      (s.reg.handle kind').isSome ∨ kind' = kind := by
  unfold Hooking.ensured
  split_ifs with present
  · by_cases same : kind' = kind
    · simp [same, present]
    · simp [same]
  · rw [handle_insertHandle]
    by_cases same : kind' = kind <;> simp [same]

@[simp] theorem ensured_hooks (kind : HookKind) : (s.ensured kind).reg.hooks = s.reg.hooks := by
  unfold Hooking.ensured
  split_ifs
  · rfl
  · cases kind <;> rfl

@[simp] theorem ensured_addrHooks (kind : HookKind) :
    (s.ensured kind).reg.addrHooks = s.reg.addrHooks := by
  unfold Hooking.ensured
  split_ifs
  · rfl
  · cases kind <;> rfl

/-- A registration in an engine that accepts every call. -/
theorem ends_register (accepts : ∀ n, s.uc.answers n = none) (r : Registration C U)
    (userData : U) :
    (r.register userData).Ends s (.ok ⟨r.kind, s.reg.nextId⟩) (s.registered r userData) := by
  have ensure := ends_ensureDispatcher accepts r.kind
  have id := @ensured_nextId C U s r.kind
  cases r with
  | mem t callback b e =>
    have point : HookKind.point (Registration.mem (C := C) t callback b e).kind = .mem t 1 0 :=
      t.point
    rw [point] at ensure
    refine Ends.bind ensure ?_
    rw [Hooking.registered, ← id]
    rfl
  | _ =>
    refine Ends.bind ensure ?_
    rw [Hooking.registered, ← id]
    rfl

variable {live : List (LiveHook C U)} {id : HookId}

theorem Installed.registered (h : Installed s.reg s.uc) (r : Registration C U) (userData : U) :
    Installed (s.registered r userData).reg (s.registered r userData).uc := by
  refine Installed.of_handles ?_ (handle_registered r userData)
  show Installed (s.ensured r.kind).reg (s.ensured r.kind).uc
  unfold Hooking.ensured
  split_ifs with present
  · exact h
  · exact h.add (Option.not_isSome_iff_eq_none.1 present)

theorem LiveHook.common?_of_kind {x : LiveHook C U} {t : HookType} (h : x.kind = .common t) :
    x.common? t = some x.toCommon := if_pos h

theorem LiveHook.common?_of_ne {x : LiveHook C U} {t : HookType} (h : x.kind ≠ .common t) :
    x.common? t = none := if_neg h

theorem LiveHook.addr?_of_kind {x : LiveHook C U} {addr : U64} (h : x.kind = .address addr) :
    x.addr? addr = some x.toAddr := if_pos h

theorem LiveHook.addr?_of_ne {x : LiveHook C U} {addr : U64} (h : x.kind ≠ .address addr) :
    x.addr? addr = none := if_neg h

/-- The buckets after a registration are those of the list with the new hook at its end. -/
theorem Holds.registered (h : Holds live id s.reg) (r : Registration C U) (userData : U) :
    Holds (live ++ [⟨r, id, userData⟩]) (id + 1) (s.registered r userData).reg := by
  let x : LiveHook C U := ⟨r, id, userData⟩
  have new : (⟨r, s.reg.nextId, userData⟩ : LiveHook C U) = x := by rw [h.nextId]
  refine ⟨congrArg (· + 1) h.nextId, ?_, ?_, fun kind => ?_⟩
  · show Groups ((s.ensured r.kind).reg.pushHook ⟨r, s.reg.nextId, userData⟩).hooks _ (live ++ [x])
    rw [new]
    cases kind : x.kind with
    | common t =>
      simp only [pushHook, kind, ensured_hooks]
      refine h.common.push (LiveHook.common?_of_kind kind) fun t' ne => ?_
      exact LiveHook.common?_of_ne fun same => ne (by simpa [kind] using same.symm)
    | address addr =>
      simp only [pushHook, kind, ensured_hooks]
      exact h.common.skip fun t => LiveHook.common?_of_ne (by simp [kind])
  · show Groups ((s.ensured r.kind).reg.pushHook ⟨r, s.reg.nextId, userData⟩).addrHooks _
      (live ++ [x])
    rw [new]
    cases kind : x.kind with
    | common t =>
      simp only [pushHook, kind, ensured_addrHooks]
      exact h.address.skip fun addr => LiveHook.addr?_of_ne (by simp [kind])
    | address addr =>
      simp only [pushHook, kind, ensured_addrHooks]
      refine h.address.push (LiveHook.addr?_of_kind kind) fun addr' ne => ?_
      exact LiveHook.addr?_of_ne fun same => ne (by simpa [kind] using same.symm)
  · rw [handle_registered, handle_ensured, h.recorded]
    simp [or_comm, eq_comm, LiveHook.kind]

end Registering

/-! ## Deletion -/

section Deleting

variable {s : Hooking C U} {live : List (LiveHook C U)} {id : HookId}

theorem LiveHook.common?_eq_some {x : LiveHook C U} {t : HookType} {y : HookCommon C U} :
    x.common? t = some y ↔ x.kind = .common t ∧ x.toCommon = y := by
  simp [common?]

theorem LiveHook.addr?_eq_some {x : LiveHook C U} {addr : U64} {y : HookAddr C U} :
    x.addr? addr = some y ↔ x.kind = .address addr ∧ x.toAddr = y := by
  simp [addr?]

theorem exists_kind_common {t : HookType} :
    (∃ x ∈ live, x.kind = .common t) ↔ live.filterMap (LiveHook.common? t) ≠ [] := by
  simp [LiveHook.common?, List.filterMap_eq_nil_iff]

theorem exists_kind_address {addr : U64} :
    (∃ x ∈ live, x.kind = .address addr) ↔ live.filterMap (LiveHook.addr? addr) ≠ [] := by
  simp [LiveHook.addr?, List.filterMap_eq_nil_iff]

theorem exists_survivor_of_ne {h : HookRet} {kind : HookKind} (ne : kind ≠ h.kind) :
    (∃ x ∈ live.filter (·.survives h), x.kind = kind) ↔ ∃ x ∈ live, x.kind = kind := by
  constructor
  · rintro ⟨x, hx, rfl⟩
    exact ⟨x, List.mem_of_mem_filter hx, rfl⟩
  · rintro ⟨x, hx, rfl⟩
    exact ⟨x, List.mem_filter.2 ⟨hx, by simp [LiveHook.survives, ne]⟩, rfl⟩

theorem ends_removeDispatcher (engine : Installed s.reg s.uc) {kind : HookKind}
    (recorded : (s.reg.handle kind).isSome) : ∃ uc,
      (removeDispatcher kind).Ends s (.ok ()) ⟨s.reg.removeHandle kind, uc⟩ ∧
        Installed (s.reg.removeHandle kind) uc := by
  obtain ⟨i, handle⟩ := Option.isSome_iff_exists.1 recorded
  refine ⟨s.uc.without [i], ?_, engine.remove handle⟩
  rw [removeDispatcher, ends_bind_get, handle]
  exact ends_ucRemoveHook_granted (engine.accepts _)

/-- A deletion from the hooks of one kind: nothing was there, nothing is left, or a rest is. -/
theorem ends_deleteFrom {H : Type} (engine : Installed s.reg s.uc) {kind : HookKind} (l : List H)
    (hookId : H → HookId) (no : HookId) (recorded : (s.reg.handle kind).isSome ↔ l ≠ [])
    (keep : List H → VCoreHooks C U → VCoreHooks C U) (remove : VCoreHooks C U → VCoreHooks C U)
    (keep_handle : ∀ l reg, (keep l reg).handle = reg.handle)
    (remove_handle : ∀ reg, (remove reg).handle = reg.handle) : ∃ s',
      (deleteFrom kind (unlessEmpty l) hookId no keep remove).Ends s (.ok ()) s' ∧
        Installed s'.reg s'.uc ∧
        (∀ kind' ≠ kind, s'.reg.handle kind' = s.reg.handle kind') ∧
        ((s'.reg.handle kind).isSome ↔ l.filter (hookId · ≠ no) ≠ []) ∧
        (l = [] ∧ s'.reg = s.reg ∨
          l.filter (hookId · ≠ no) = [] ∧ s'.reg = (remove s.reg).removeHandle kind ∨
          l.filter (hookId · ≠ no) ≠ [] ∧ s'.reg = keep (l.filter (hookId · ≠ no)) s.reg) := by
  cases l with
  | nil => exact ⟨s, ends_pure.2 ⟨rfl, rfl⟩, engine, fun _ _ => rfl, recorded, .inl ⟨rfl, rfl⟩⟩
  | cons x l =>
    simp only [unlessEmpty, deleteFrom, List.isEmpty_iff]
    by_cases emptied : (x :: l).filter (hookId · ≠ no) = []
    · have present : ((remove s.reg).handle kind).isSome := by
        rw [remove_handle, recorded]
        exact List.cons_ne_nil _ _
      obtain ⟨uc, removes, kept⟩ := @ends_removeDispatcher C U ⟨remove s.reg, s.uc⟩
        (engine.of_handles (remove_handle s.reg)) kind present
      refine ⟨⟨(remove s.reg).removeHandle kind, uc⟩, ?_, kept, fun kind' ne => ?_, ?_,
        .inr (.inl ⟨emptied, rfl⟩)⟩
      · rw [if_pos emptied]
        exact removes
      · rw [handle_removeHandle, if_neg ne, remove_handle]
      · rw [handle_removeHandle, if_pos rfl]
        exact iff_of_false Bool.false_ne_true fun rest => rest emptied
    · refine ⟨⟨keep _ s.reg, s.uc⟩, ?_, engine.of_handles (keep_handle _ _),
        fun kind' _ => congrFun (keep_handle _ _) kind', ?_, .inr (.inr ⟨emptied, rfl⟩)⟩
      · rw [if_neg emptied]
        rfl
      · rw [keep_handle, recorded]
        exact iff_of_true (List.cons_ne_nil _ _) emptied

/-- The other kinds keep their dispatchers and their hooks. -/
theorem Holds.recorded_survivors (holds : Holds live id s.reg) {h : HookRet}
    {reg : VCoreHooks C U} (others : ∀ kind ≠ h.kind, reg.handle kind = s.reg.handle kind)
    (own : (reg.handle h.kind).isSome ↔ ∃ x ∈ live.filter (·.survives h), x.kind = h.kind)
    (kind : HookKind) :
    (reg.handle kind).isSome ↔ ∃ x ∈ live.filter (·.survives h), x.kind = kind := by
  by_cases same : kind = h.kind
  · rw [same]
    exact own
  · rw [others kind same, holds.recorded, exists_survivor_of_ne same]

theorem common?_survivors (h : HookRet) (t : HookType) :
    (live.filter (·.survives h)).filterMap (LiveHook.common? t) =
      (live.filterMap (LiveHook.common? t)).filter
        fun x => ¬ (h.kind = .common t ∧ x.id = h.id) := by
  refine filterMap_filter live fun x y picked => ?_
  obtain ⟨kind, rfl⟩ := LiveHook.common?_eq_some.1 picked
  simp only [LiveHook.survives, kind, LiveHook.toCommon, eq_comm]

theorem addr?_survivors (h : HookRet) (addr : U64) :
    (live.filter (·.survives h)).filterMap (LiveHook.addr? addr) =
      (live.filterMap (LiveHook.addr? addr)).filter
        fun x => ¬ (h.kind = .address addr ∧ x.id = h.id) := by
  refine filterMap_filter live fun x y picked => ?_
  obtain ⟨kind, rfl⟩ := LiveHook.addr?_eq_some.1 picked
  simp only [LiveHook.survives, kind, LiveHook.toAddr, eq_comm]

/-- A deletion drops the hooks of its kind and number, and the dispatcher with the last hook. -/
theorem ends_hookDel (holds : Holds live id s.reg) (engine : Installed s.reg s.uc) (h : HookRet) :
    ∃ s', (hookDel h).Ends s (.ok ()) s' ∧ Holds (live.filter (·.survives h)) id s'.reg ∧
      Installed s'.reg s'.uc := by
  obtain ⟨kind, no⟩ := h
  cases kind with
  | common t =>
    have here : (live.filter (·.survives ⟨.common t, no⟩)).filterMap (LiveHook.common? t) =
        (live.filterMap (LiveHook.common? t)).filter (·.id ≠ no) := by
      simpa using @common?_survivors C U live ⟨.common t, no⟩ t
    have elsewhere (t') (ne : t' ≠ t) : (live.filter (·.survives ⟨.common t, no⟩)).filterMap
        (LiveHook.common? t') = live.filterMap (LiveHook.common? t') := by
      simpa [ne.symm] using @common?_survivors C U live ⟨.common t, no⟩ t'
    have addresses (addr) : (live.filter (·.survives ⟨.common t, no⟩)).filterMap
        (LiveHook.addr? addr) = live.filterMap (LiveHook.addr? addr) := by
      simpa using @addr?_survivors C U live ⟨.common t, no⟩ addr
    simp only [hookDel, ends_bind_get, holds.common t]
    obtain ⟨s', run, installed, others, own, state⟩ := ends_deleteFrom engine
      (live.filterMap (LiveHook.common? t)) HookCommon.id no
      ((holds.recorded _).trans exists_kind_common) (insertHooks t) (removeHooks t)
      (fun _ _ => rfl) fun _ => rfl
    have recorded := @Holds.recorded_survivors C U s live id holds ⟨.common t, no⟩ s'.reg others
      (own.trans (here ▸ exists_kind_common.symm))
    refine ⟨s', run, ?_, installed⟩
    rcases state with ⟨none, reg⟩ | ⟨emptied, reg⟩ | ⟨rest, reg⟩ <;> rw [reg] at recorded ⊢
    · rw [none, List.filter_nil] at here
      exact ⟨holds.nextId, holds.common.still_empty none here elsewhere,
        holds.address.of_agree addresses, recorded⟩
    · exact ⟨holds.nextId, holds.common.erase (here.trans emptied) elsewhere,
        holds.address.of_agree addresses, recorded⟩
    · exact ⟨holds.nextId, holds.common.insert rest here elsewhere,
        holds.address.of_agree addresses, recorded⟩
  | address addr =>
    have here : (live.filter (·.survives ⟨.address addr, no⟩)).filterMap (LiveHook.addr? addr) =
        (live.filterMap (LiveHook.addr? addr)).filter (·.id ≠ no) := by
      simpa using @addr?_survivors C U live ⟨.address addr, no⟩ addr
    have elsewhere (addr') (ne : addr' ≠ addr) :
        (live.filter (·.survives ⟨.address addr, no⟩)).filterMap (LiveHook.addr? addr') =
          live.filterMap (LiveHook.addr? addr') := by
      simpa [ne.symm] using @addr?_survivors C U live ⟨.address addr, no⟩ addr'
    have types (t) : (live.filter (·.survives ⟨.address addr, no⟩)).filterMap
        (LiveHook.common? t) = live.filterMap (LiveHook.common? t) := by
      simpa using @common?_survivors C U live ⟨.address addr, no⟩ t
    simp only [hookDel, ends_bind_get, holds.address addr]
    obtain ⟨s', run, installed, others, own, state⟩ := ends_deleteFrom engine
      (live.filterMap (LiveHook.addr? addr)) HookAddr.id no
      ((holds.recorded _).trans exists_kind_address) (insertAddrHooks addr) (removeAddrHooks addr)
      (fun _ _ => rfl) fun _ => rfl
    have recorded := @Holds.recorded_survivors C U s live id holds ⟨.address addr, no⟩ s'.reg
      others (own.trans (here ▸ exists_kind_address.symm))
    refine ⟨s', run, ?_, installed⟩
    rcases state with ⟨none, reg⟩ | ⟨emptied, reg⟩ | ⟨rest, reg⟩ <;> rw [reg] at recorded ⊢
    · rw [none, List.filter_nil] at here
      exact ⟨holds.nextId, holds.common.of_agree types,
        holds.address.still_empty none here elsewhere, recorded⟩
    · exact ⟨holds.nextId, holds.common.of_agree types,
        holds.address.erase (here.trans emptied) elsewhere, recorded⟩
    · exact ⟨holds.nextId, holds.common.of_agree types,
        holds.address.insert rest here elsewhere, recorded⟩

/-- Clearing takes every dispatcher out of the engine. -/
theorem ends_clearHooks (holds : Holds live id s.reg) (engine : Installed s.reg s.uc) :
    ∃ s', clearHooks.Ends s (.ok ()) s' ∧ Holds [] id s'.reg ∧ Installed s'.reg s'.uc := by
  have no_handle (kind) : (⟨s.reg.nextId, ∅, ∅, ∅, ∅⟩ : VCoreHooks C U).handle kind = none := by
    cases kind <;> exact AList.lookup_empty _
  have none_installed := none_left fun x hx => (engine.mem_iff.1 hx).1
  refine ⟨⟨⟨s.reg.nextId, ∅, ∅, ∅, ∅⟩, (s.uc.without (s.reg.hookFuc.entries.map (·.2))).without
    (s.reg.addrHookFuc.entries.map (·.2))⟩, ?_, ⟨holds.nextId, groups_nil, groups_nil,
    fun kind => ?_⟩, ?_⟩
  · have all (n : ℕ) : s.uc.Grants n := UcHooks.grants_of_accepts engine.accepts
    have rest (ids : List UcHookId) (n : ℕ) : (s.uc.without ids).Grants n :=
      UcHooks.grants_of_accepts engine.accepts
    rw [clearHooks, ends_bind_get, ends_bind_modifyReg]
    refine Ends.bind (ends_removeEach_granted (all _)) ?_
    rw [ends_bind_modifyReg]
    refine Ends.bind (ends_removeEach_granted (rest _ _)) ?_
    rfl
  · simp [no_handle kind]
  · refine ⟨fun kind => ?_, ?_, ?_, engine.accepts⟩
    · rw [none_installed, no_handle kind]
      rfl
    · simp [none_installed]
    · simp [none_installed]

end Deleting

/-! ## Events -/

section Dispatching

variable {live : List (LiveHook C U)} {id : HookId} {reg : VCoreHooks C U} {uc : UcHooks}

theorem boundCheck_iff {b e addr : U64} : boundCheck b e addr ↔ rangeCovers (b, e) addr := by
  unfold boundCheck rangeCovers
  split_ifs with all
  · exact iff_of_true rfl (.inl (Prod.ext all.1 all.2))
  · rw [decide_eq_true_iff]
    constructor
    · exact .inr
    · rintro (everywhere | inside)
      · exact absurd (Prod.mk.inj everywhere) all
      · exact inside

theorem LiveHook.hears_iff {ev : HookEvent} {x : LiveHook C U} : x.hears ev ↔
    x.kind = ev.kind ∧ ∀ addr ∈ ev.addr?, rangeCovers x.registration.range addr :=
  decide_eq_true_iff

/-- A live hook hears an event of its type when its entry in the bucket is due. -/
theorem hears_common_iff {t : HookType} {args : HookArgs} {x : LiveHook C U} :
    x.hears (.common t args) ↔ ∃ y, x.common? t = some y ∧ due args y := by
  have covers : due args x.toCommon ↔
      ∀ addr ∈ (HookEvent.common t args).addr?, rangeCovers x.registration.range addr := by
    cases args <;> simp [due, HookEvent.addr?, LiveHook.toCommon, boundCheck_iff]
  simp only [LiveHook.hears_iff, LiveHook.common?_eq_some]
  constructor
  · rintro ⟨kind, inside⟩
    exact ⟨_, ⟨kind, rfl⟩, covers.2 inside⟩
  · rintro ⟨_, ⟨kind, rfl⟩, inside⟩
    exact ⟨kind, covers.1 inside⟩

theorem hears_address_iff {addr : U64} {x : LiveHook C U} :
    x.hears (.address addr) ↔ x.kind = .address addr := by
  rw [LiveHook.hears_iff]
  refine ⟨And.left, fun kind => ⟨kind, fun a ha => ?_⟩⟩
  obtain rfl : addr = a := Option.some.inj ha
  obtain ⟨r, id, userData⟩ := x
  cases r with
  | address a callback =>
    obtain rfl : a = addr := by simpa [LiveHook.kind, Registration.kind] using kind
    exact .inr ⟨BitVec.le_refl _, BitVec.le_refl _⟩
  | _ => simp [LiveHook.kind, Registration.kind] at kind

/-- An event changes the user data of hooks only. -/
theorem exists_kind_run (ev : HookEvent) (ctx : C) (kind : HookKind) :
    (∃ x ∈ (Chain.run (·.hears ev) (LiveHook.answer ev) blocks 0 ctx live).handlers,
      x.kind = kind) ↔ ∃ x ∈ live, x.kind = kind := by
  have same := @Chain.map_run_handlers C (LiveHook C U) (Option U32) (·.hears ev)
    (LiveHook.answer ev) blocks _ LiveHook.kind (fun _ _ => rfl) 0 ctx live
  rw [← List.mem_map, ← List.mem_map, same]

/-- The bucket of a type is run as the live hooks are. -/
theorem run_common (t : HookType) (args : HookArgs) (ctx : C) :
    let out := Chain.run (·.hears (.common t args)) (LiveHook.answer (.common t args)) blocks 0 ctx
      live
    let out' := Chain.run (due args) (call args) blocks 0 ctx (live.filterMap (LiveHook.common? t))
    out'.ctx = out.ctx ∧ out'.handlers = out.handlers.filterMap (LiveHook.common? t) := by
  refine Chain.run_filterMap live (fun x _ => hears_common_iff) (fun x _ y ctx picked => ?_) 0 0 ctx
  obtain ⟨kind, rfl⟩ := LiveHook.common?_eq_some.1 picked
  exact ⟨rfl, rfl, LiveHook.common?_of_kind kind⟩

theorem run_address (addr : U64) (ctx : C) :
    let out := Chain.run (·.hears (.address addr)) (LiveHook.answer (.address addr)) blocks 0 ctx
      live
    let out' := Chain.run (fun _ => true) callAddr blocks 0 ctx
      (live.filterMap (LiveHook.addr? addr))
    out'.ctx = out.ctx ∧ out'.handlers = out.handlers.filterMap (LiveHook.addr? addr) := by
  refine Chain.run_filterMap live (fun x _ => ?_) (fun x _ y ctx picked => ?_) 0 0 ctx
  · rw [hears_address_iff]
    simp [LiveHook.addr?_eq_some]
  · obtain ⟨kind, rfl⟩ := LiveHook.addr?_eq_some.1 picked
    exact ⟨rfl, rfl, LiveHook.addr?_of_kind kind⟩

/-- The buckets of other types are left alone. -/
theorem common?_run_of_ne {ev : HookEvent} {t : HookType} (ne : ev.kind ≠ .common t) (ctx : C) :
    (Chain.run (·.hears ev) (LiveHook.answer ev) blocks 0 ctx live).handlers.filterMap
      (LiveHook.common? t) = live.filterMap (LiveHook.common? t) := by
  refine Chain.filterMap_run_handlers (fun c x heard => ?_) 0 ctx live
  have kind : x.kind ≠ .common t := (LiveHook.hears_iff.1 heard).1 ▸ ne
  exact ⟨LiveHook.common?_of_ne kind, LiveHook.common?_of_ne kind⟩

theorem addr?_run_of_ne {ev : HookEvent} {addr : U64} (ne : ev.kind ≠ .address addr) (ctx : C) :
    (Chain.run (·.hears ev) (LiveHook.answer ev) blocks 0 ctx live).handlers.filterMap
      (LiveHook.addr? addr) = live.filterMap (LiveHook.addr? addr) := by
  refine Chain.filterMap_run_handlers (fun c x heard => ?_) 0 ctx live
  have kind : x.kind ≠ .address addr := (LiveHook.hears_iff.1 heard).1 ▸ ne
  exact ⟨LiveHook.addr?_of_ne kind, LiveHook.addr?_of_ne kind⟩

/-- A dispatch by type leaves the context and the buckets of the list after the event. -/
theorem Holds.dispatchCommon (holds : Holds live id reg) (t : HookType) (args : HookArgs)
    (ctx : C) :
    let out := Chain.run (·.hears (.common t args)) (LiveHook.answer (.common t args)) blocks 0 ctx
      live
    (reg.dispatchCommon ctx t args).ctx = out.ctx ∧
      Holds out.handlers id (reg.dispatchCommon ctx t args).reg ∧
      (reg.dispatchCommon ctx t args).reg.handle = reg.handle := by
  intro out
  obtain ⟨ctx_eq, handlers_eq⟩ := @run_common C U live t args ctx
  have elsewhere (t') (ne : t' ≠ t) :=
    @common?_run_of_ne C U live (.common t args) t' (by simpa [HookEvent.kind] using ne.symm) ctx
  have addresses (addr) :=
    @addr?_run_of_ne C U live (.common t args) addr (by simp [HookEvent.kind]) ctx
  have recorded (kind) : (reg.handle kind).isSome ↔ ∃ x ∈ out.handlers, x.kind = kind :=
    (holds.recorded kind).trans (exists_kind_run _ ctx kind).symm
  simp only [VCoreHooks.dispatchCommon, holds.common t]
  cases found : live.filterMap (LiveHook.common? t) with
  | nil =>
    rw [found] at ctx_eq handlers_eq
    exact ⟨ctx_eq, ⟨holds.nextId, holds.common.still_empty found handlers_eq.symm elsewhere,
      holds.address.of_agree addresses, recorded⟩, rfl⟩
  | cons x l =>
    have nonempty : (Chain.run (due args) (call args) blocks 0 ctx (x :: l)).handlers ≠ [] := by
      rw [Ne, ← List.length_eq_zero_iff, Chain.length_run_handlers]
      simp
    rw [found] at ctx_eq handlers_eq
    exact ⟨ctx_eq, ⟨holds.nextId, holds.common.insert nonempty handlers_eq.symm elsewhere,
      holds.address.of_agree addresses, recorded⟩, rfl⟩

theorem Holds.dispatchAddr (holds : Holds live id reg) (addr : U64) (ctx : C) :
    let out := Chain.run (·.hears (.address addr)) (LiveHook.answer (.address addr)) blocks 0 ctx
      live
    (reg.dispatchAddr ctx addr).ctx = out.ctx ∧
      Holds out.handlers id (reg.dispatchAddr ctx addr).reg ∧
      (reg.dispatchAddr ctx addr).reg.handle = reg.handle := by
  intro out
  obtain ⟨ctx_eq, handlers_eq⟩ := @run_address C U live addr ctx
  have elsewhere (addr') (ne : addr' ≠ addr) :=
    @addr?_run_of_ne C U live (.address addr) addr' (by simpa [HookEvent.kind] using ne.symm) ctx
  have types (t) :=
    @common?_run_of_ne C U live (.address addr) t (by simp [HookEvent.kind]) ctx
  have recorded (kind) : (reg.handle kind).isSome ↔ ∃ x ∈ out.handlers, x.kind = kind :=
    (holds.recorded kind).trans (exists_kind_run _ ctx kind).symm
  simp only [VCoreHooks.dispatchAddr, holds.address addr]
  cases found : live.filterMap (LiveHook.addr? addr) with
  | nil =>
    rw [found] at ctx_eq handlers_eq
    exact ⟨ctx_eq, ⟨holds.nextId, holds.common.of_agree types,
      holds.address.still_empty found handlers_eq.symm elsewhere, recorded⟩, rfl⟩
  | cons x l =>
    have nonempty : (Chain.run (fun _ => true) callAddr blocks 0 ctx (x :: l)).handlers ≠ [] := by
      rw [Ne, ← List.length_eq_zero_iff, Chain.length_run_handlers]
      simp
    rw [found] at ctx_eq handlers_eq
    exact ⟨ctx_eq, ⟨holds.nextId, holds.common.of_agree types,
      holds.address.insert nonempty handlers_eq.symm elsewhere, recorded⟩, rfl⟩

end Dispatching

end ValkyrieRs
