import ValkyrieRs.Lib.Proc

/-!
# Contracts of procedures

A contract bounds what a procedure may do: the runs stay inside an invariant and relate the states
before and after, a run that never ends is allowed or not, and the part of the state that is not
seen decides nothing.  `Obeys C s m` says that the runs of `m` from `s` keep to `C`; its rules
follow the constructs of the language, so that one walk through a procedure gives its frame, its
termination and its independence of what it does not see.
-/

namespace Proc

/-- What a procedure over `σ` may do, of which it sees a part in `τ`. -/
structure Contract (σ τ : Type) where
  inv : σ → Prop
  rel : σ → σ → Prop
  refl : ∀ s, rel s s
  trans : ∀ {s t u}, rel s t → rel t u → rel s u
  hangs : Prop
  seen : σ → τ

variable {σ τ ε α β : Type} {C : Contract σ τ} {s s' t : σ}

/-- The runs of `m` from `s` keep to the contract. -/
structure Obeys (C : Contract σ τ) (s : σ) (m : Proc σ ε α) : Prop where
  ends : C.inv s → C.hangs ∨ ∃ r s', m.Ends s r s'
  safe : C.inv s → ∀ r s', m.Ends s r s' → C.rel s s' ∧ C.inv s'
  blind : C.inv s → ∀ r s' t, m.Ends s r s' → C.seen t = C.seen s →
    ∃ t', m.Ends t r t' ∧ C.seen t' = C.seen s'

variable {m m' : Proc σ ε α} {f : α → Proc σ ε β}

/-! ## Rules -/

/-- A procedure that leaves the state alone, whatever the state is. -/
theorem Obeys.of_still {r : Except ε α} (still : ∀ t, m.Ends t r t) : Obeys C s m where
  ends _ := .inr ⟨r, s, still s⟩
  safe inv r' s' run := by
    obtain ⟨-, rfl⟩ := (still s).unique run
    exact ⟨C.refl s, inv⟩
  blind _ r' s' t run same := by
    obtain ⟨rfl, rfl⟩ := (still s).unique run
    exact ⟨t, still t, same⟩

theorem obeys_pure (a : α) : Obeys C s (pure a : Proc σ ε α) :=
  .of_still fun _ => ends_pure.2 ⟨rfl, rfl⟩

theorem obeys_throw (e : ε) : Obeys C s (throw e : Proc σ ε α) :=
  .of_still fun _ => ends_throw.2 ⟨rfl, rfl⟩

theorem obeys_diverge (hangs : C.hangs) : Obeys C s (diverge : Proc σ ε α) where
  ends _ := .inl hangs
  safe _ _ _ run := (ends_diverge run).elim
  blind _ _ _ _ run _ := (ends_diverge run).elim

theorem obeys_ofExcept (x : Except ε α) : Obeys C s (ofExcept x : Proc σ ε α) := by
  cases x with
  | error e => exact obeys_throw e
  | ok a => exact obeys_pure a

theorem obeys_ofOption (o : Option α) (h : o = none → C.hangs) :
    Obeys C s (ofOption o : Proc σ ε α) := by
  cases o with
  | none => exact obeys_diverge (h rfl)
  | some a => exact obeys_pure a

/-- The continuation is looked at where the first part can end. -/
theorem Obeys.bind (first : Obeys C s m)
    (rest : ∀ a t, C.inv t → m.Ends s (.ok a) t → Obeys C t (f a)) : Obeys C s (m >>= f) where
  ends inv := by
    rcases first.ends inv with hangs | ⟨e | a, t, run⟩
    · exact .inl hangs
    · exact .inr ⟨.error e, t, ends_bind.2 (.inl ⟨e, run, rfl⟩)⟩
    · have inv' := (first.safe inv _ _ run).2
      refine ((rest a t inv' run).ends inv').imp_right fun ⟨r, s', run'⟩ => ?_
      exact ⟨r, s', run.bind run'⟩
  safe inv r s' run := by
    rcases ends_bind.1 run with ⟨e, run, -⟩ | ⟨a, t, run, run'⟩
    · exact first.safe inv _ _ run
    · obtain ⟨rel, inv'⟩ := first.safe inv _ _ run
      obtain ⟨rel', inv''⟩ := (rest a t inv' run).safe inv' _ _ run'
      exact ⟨C.trans rel rel', inv''⟩
  blind inv r s' t run same := by
    rcases ends_bind.1 run with ⟨e, failed, rfl⟩ | ⟨a, u, one, two⟩
    · obtain ⟨t', failed', same'⟩ := first.blind inv _ _ t failed same
      exact ⟨t', ends_bind.2 (.inl ⟨e, failed', rfl⟩), same'⟩
    · have inv' := (first.safe inv _ _ one).2
      obtain ⟨u', first', same'⟩ := first.blind inv _ _ t one same
      obtain ⟨t', rest', same''⟩ := (rest a u inv' one).blind inv' _ _ u' two same'
      exact ⟨t', first'.bind rest', same''⟩

/-- The continuation looks only at what is seen of the state. -/
theorem obeys_look {f : σ → Proc σ ε β} (same : ∀ t, C.seen t = C.seen s → f t = f s)
    (rest : C.inv s → Obeys C s (f s)) : Obeys C s (get >>= f) where
  ends inv := (rest inv).ends inv
  safe inv := (rest inv).safe inv
  blind inv r s' t run seen := by
    obtain ⟨t', run', seen'⟩ := (rest inv).blind inv r s' t run seen
    refine ⟨t', ends_bind_get.2 ?_, seen'⟩
    rw [same t seen]
    exact run'

theorem Obeys.attempt (h : Obeys C s m) : Obeys C s m.attempt where
  ends inv := (h.ends inv).imp_right fun ⟨r, s', run⟩ => ⟨.ok r, s', ends_attempt.2 ⟨r, rfl, run⟩⟩
  safe inv r s' run := by
    obtain ⟨x, -, run⟩ := ends_attempt.1 run
    exact h.safe inv _ _ run
  blind inv r s' t run same := by
    obtain ⟨x, rfl, inner⟩ := ends_attempt.1 run
    obtain ⟨t', inner', same'⟩ := h.blind inv _ _ t inner same
    exact ⟨t', ends_attempt.2 ⟨x, rfl, inner'⟩, same'⟩

theorem Obeys.ite {c : Prop} [Decidable c] (h : c → Obeys C s m) (h' : ¬ c → Obeys C s m') :
    Obeys C s (if c then m else m') := by
  split
  · exact h ‹c›
  · exact h' ‹¬ c›

/-- A step that is made under a condition, and what follows in either case. -/
theorem Obeys.optional {c : Prop} [Decidable c] {m : Proc σ ε PUnit} {k : PUnit → Proc σ ε α}
    (first : c → Obeys C s m) (rest : ∀ u t, Obeys C t (k u)) :
    Obeys C s (if c then m >>= k else k ⟨⟩) :=
  .ite (fun h => (first h).bind fun u t _ _ => rest u t) fun _ => rest ⟨⟩ s

/-- A change of the state that keeps to the contract. -/
theorem obeys_modify {g : σ → σ} (rel : C.inv s → C.rel s (g s)) (inv : C.inv s → C.inv (g s))
    (seen : ∀ t, C.seen t = C.seen s → C.seen (g t) = C.seen (g s)) :
    Obeys C s (modify g : Proc σ ε Unit) where
  ends _ := .inr ⟨.ok (), g s, ends_modify.2 ⟨rfl, rfl⟩⟩
  safe start r s' run := by
    obtain ⟨-, rfl⟩ := ends_modify.1 run
    exact ⟨rel start, inv start⟩
  blind _ r s' t run same := by
    obtain ⟨rfl, rfl⟩ := ends_modify.1 run
    exact ⟨g t, ends_modify.2 ⟨rfl, rfl⟩, seen t same⟩

/-! ## Weakening -/

/-- The second contract allows what the first does, and is about the same part of the state. -/
structure Contract.Within (C C' : Contract σ τ) : Prop where
  inv : ∀ s, C'.inv s ↔ C.inv s
  rel : ∀ s t, C.rel s t → C'.rel s t
  hangs : C.hangs → C'.hangs
  seen : C'.seen = C.seen

theorem Obeys.mono {C' : Contract σ τ} (h : Obeys C s m) (le : C.Within C') : Obeys C' s m where
  ends inv := (h.ends ((le.inv s).1 inv)).imp_left le.hangs
  safe inv r s' run := by
    obtain ⟨rel, inv'⟩ := h.safe ((le.inv s).1 inv) r s' run
    exact ⟨le.rel _ _ rel, (le.inv s').2 inv'⟩
  blind inv r s' t run same := by
    rw [le.seen] at same ⊢
    exact h.blind ((le.inv s).1 inv) r s' t run same

end Proc
