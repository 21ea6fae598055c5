import Mathlib.Logic.Relation
import Mathlib.Logic.Unique

/-!
# Procedures with a state, errors and divergence

`Proc σ ε α` is a procedure over a mutable state `σ` that ends with a value of `α` or an error of
`ε`, or never ends (`none`: an endless loop or an abort).  The state reached is kept when the
procedure ends with an error, as it is for a procedure working on a mutable reference.

`Ends m s r s'` says that `m`, started in `s`, ends with the result `r` in the state `s'`; its
lemmas invert a run of a composed procedure into the runs of its parts.  `Within R m` says that
every run of `m` is a chain of `R`-steps; its rules follow the constructs of the language.
-/

/-- A procedure over the state `σ`; `none` is a run that does not end. -/
def Proc (σ ε α : Type) : Type := σ → Option (Except ε α × σ)

namespace Proc

variable {σ ε α β γ : Type}

instance : Monad (Proc σ ε) where
  pure a := fun s => some (.ok a, s)
  bind m f := fun s =>
    match m s with
    | none => none
    | some (.error e, s') => some (.error e, s')
    | some (.ok a, s') => f a s'

/-- The current state. -/
def get : Proc σ ε σ := fun s => some (.ok s, s)

/-- Replace the state. -/
def modify (f : σ → σ) : Proc σ ε Unit := fun s => some (.ok (), f s)

/-- End with an error. -/
def throw (e : ε) : Proc σ ε α := fun s => some (.error e, s)

/-- Never end. -/
def diverge : Proc σ ε α := fun _ => none

/-- The value of an option, diverging on `none`. -/
def ofOption : Option α → Proc σ ε α
  | some a => pure a
  | none => diverge

/-- The value of a result, ending with its error. -/
def ofExcept : Except ε α → Proc σ ε α
  | .ok a => pure a
  | .error e => throw e

/-- Turn the error of a procedure into a value. -/
def attempt (m : Proc σ ε α) : Proc σ ε (Except ε α) := fun s =>
  match m s with
  | none => none
  | some (r, s') => some (.ok r, s')

/-- A procedure on a part of the state. -/
def zoom {τ : Type} (part : τ → σ) (put : σ → τ → τ) (m : Proc σ ε α) : Proc τ ε α := fun t =>
  match m (part t) with
  | none => none
  | some (r, s) => some (r, put s t)

/-- The same procedure, its errors told in another way. -/
def mapError {ε' : Type} (tell : ε → ε') (m : Proc σ ε α) : Proc σ ε' α := fun s =>
  match m s with
  | none => none
  | some (r, s') => some (r.mapError tell, s')

/-- `m`, started in `s`, ends with the result `r` in the state `s'`. -/
def Ends (m : Proc σ ε α) (s : σ) (r : Except ε α) (s' : σ) : Prop := m s = some (r, s')

/-! ## Inversion of runs -/

variable {m : Proc σ ε α} {f : α → Proc σ ε β} {s s' : σ}

@[simp] theorem ends_pure {a : α} {r : Except ε α} :
    (pure a : Proc σ ε α).Ends s r s' ↔ r = .ok a ∧ s' = s := by
  simp [Ends, pure, eq_comm]

@[simp] theorem ends_throw {e : ε} {r : Except ε α} :
    (throw e : Proc σ ε α).Ends s r s' ↔ r = .error e ∧ s' = s := by
  simp [Ends, throw, eq_comm]

@[simp] theorem ends_diverge {r : Except ε α} : ¬ (diverge : Proc σ ε α).Ends s r s' := by
  simp [Ends, diverge]

@[simp] theorem ends_get {r : Except ε σ} :
    (get : Proc σ ε σ).Ends s r s' ↔ r = .ok s ∧ s' = s := by
  simp [Ends, get, eq_comm]

@[simp] theorem ends_modify {g : σ → σ} {r : Except ε Unit} :
    (modify g : Proc σ ε Unit).Ends s r s' ↔ r = .ok () ∧ s' = g s := by
  simp [Ends, modify, eq_comm]

@[simp] theorem ends_ofOption {o : Option α} {r : Except ε α} :
    (ofOption o : Proc σ ε α).Ends s r s' ↔ ∃ a, o = some a ∧ r = .ok a ∧ s' = s := by
  cases o <;> simp [ofOption]

theorem ends_ofExcept {x : Except ε α} {r : Except ε α} :
    (ofExcept x : Proc σ ε α).Ends s r s' ↔ r = x ∧ s' = s := by
  cases x <;> simp [ofExcept]

@[simp] theorem ends_attempt {r : Except ε (Except ε α)} :
    m.attempt.Ends s r s' ↔ ∃ x, r = .ok x ∧ m.Ends s x s' := by
  unfold Ends attempt
  rcases m s with _ | ⟨x, t⟩
  · simp
  · simp only [Option.some.injEq, Prod.mk.injEq]
    constructor
    · rintro ⟨rfl, rfl⟩
      exact ⟨x, rfl, rfl, rfl⟩
    · rintro ⟨y, rfl, rfl, rfl⟩
      exact ⟨rfl, rfl⟩

theorem Ends.zoom {τ : Type} {part : τ → σ} {put : σ → τ → τ} {t : τ} {r : Except ε α}
    (h : m.Ends (part t) r s') : (m.zoom part put).Ends t r (put s' t) := by
  unfold Ends at h
  simp [Ends, Proc.zoom, h]

/-- A run on a part of the state. -/
theorem ends_zoom {τ : Type} {part : τ → σ} {put : σ → τ → τ} {t t' : τ} {r : Except ε α} :
    (m.zoom part put).Ends t r t' ↔ ∃ s', m.Ends (part t) r s' ∧ t' = put s' t := by
  simp only [Ends, Proc.zoom]
  cases m (part t) with
  | none => simp
  | some out =>
    obtain ⟨x, s'⟩ := out
    simp only [Option.some.injEq, Prod.mk.injEq]
    constructor
    · rintro ⟨rfl, rfl⟩
      exact ⟨s', ⟨rfl, rfl⟩, rfl⟩
    · rintro ⟨_, ⟨rfl, rfl⟩, rfl⟩
      exact ⟨rfl, rfl⟩

theorem ends_mapError {ε' : Type} {tell : ε → ε'} {r : Except ε' α} :
    (m.mapError tell).Ends s r s' ↔ ∃ x, m.Ends s x s' ∧ r = x.mapError tell := by
  simp only [Ends, mapError]
  rcases m s with _ | ⟨x, t⟩
  · simp
  · simp only [Option.some.injEq, Prod.mk.injEq]
    constructor
    · rintro ⟨rfl, rfl⟩
      exact ⟨x, ⟨rfl, rfl⟩, rfl⟩
    · rintro ⟨_, ⟨rfl, rfl⟩, rfl⟩
      exact ⟨rfl, rfl⟩

/-- A run of a sequence is a failing run of its first part, or a run of both parts. -/
theorem ends_bind {r : Except ε β} :
    (m >>= f).Ends s r s' ↔
      (∃ e, m.Ends s (.error e) s' ∧ r = .error e) ∨
        ∃ a t, m.Ends s (.ok a) t ∧ (f a).Ends t r s' := by
  simp only [Ends, bind]
  rcases m s with _ | ⟨e | a, t⟩
  · simp
  · simp only [Option.some.injEq, Prod.mk.injEq, Except.error.injEq, reduceCtorEq, false_and,
      exists_false, or_false]
    constructor
    · rintro ⟨rfl, rfl⟩
      exact ⟨e, ⟨rfl, rfl⟩, rfl⟩
    · rintro ⟨_, ⟨rfl, rfl⟩, rfl⟩
      exact ⟨rfl, rfl⟩
  · simp only [Option.some.injEq, Prod.mk.injEq, Except.ok.injEq, reduceCtorEq, false_and,
      exists_false, false_or]
    constructor
    · intro h
      exact ⟨a, t, ⟨rfl, rfl⟩, h⟩
    · rintro ⟨_, _, ⟨rfl, rfl⟩, h⟩
      exact h

/-- A run of a sequence whose first part does not fail. -/
theorem Ends.bind {a : α} {t : σ} {r : Except ε β} (first : m.Ends s (.ok a) t)
    (rest : (f a).Ends t r s') : (m >>= f).Ends s r s' :=
  ends_bind.2 (.inr ⟨a, t, first, rest⟩)

/-- A run goes on where its first part has ended. -/
theorem Ends.bind_iff {a : α} {t : σ} {r : Except ε β} (first : m.Ends s (.ok a) t) :
    (m >>= f).Ends s r s' ↔ (f a).Ends t r s' := by
  unfold Ends at first
  simp [Ends, Bind.bind, first]

/-- A run that begins by catching an error. -/
theorem ends_bind_attempt {f : Except ε α → Proc σ ε β} {r : Except ε β} :
    (m.attempt >>= f).Ends s r s' ↔ ∃ x t, m.Ends s x t ∧ (f x).Ends t r s' := by
  simp only [ends_bind, ends_attempt]
  constructor
  · rintro (⟨_, ⟨_, ⟨⟩, -⟩, -⟩ | ⟨_, t, ⟨x, ⟨rfl⟩, first⟩, rest⟩)
    exact ⟨_, t, first, rest⟩
  · rintro ⟨x, t, first, rest⟩
    exact .inr ⟨x, t, ⟨x, rfl, first⟩, rest⟩

@[simp] theorem ends_bind_pure {a : α} {r : Except ε β} :
    ((pure a : Proc σ ε α) >>= f).Ends s r s' ↔ (f a).Ends s r s' := Iff.rfl

@[simp] theorem ends_bind_get {f : σ → Proc σ ε β} {r : Except ε β} :
    ((get : Proc σ ε σ) >>= f).Ends s r s' ↔ (f s).Ends s r s' := Iff.rfl

@[simp] theorem ends_bind_modify {g : σ → σ} {f : Unit → Proc σ ε β} {r : Except ε β} :
    ((modify g : Proc σ ε Unit) >>= f).Ends s r s' ↔ (f ()).Ends (g s) r s' := Iff.rfl

/-! ## Runs that succeed -/

theorem ends_bind_ok {b : β} :
    (m >>= f).Ends s (.ok b) s' ↔ ∃ a t, m.Ends s (.ok a) t ∧ (f a).Ends t (.ok b) s' := by
  simp [ends_bind]

section Loops

variable {body : γ → Proc σ ε PUnit} {x : γ} {l l' : List γ}

theorem ends_forM_nil {r : Except ε PUnit} :
    ([].forM body).Ends s r s' ↔ r = .ok ⟨⟩ ∧ s' = s := ends_pure

theorem ends_forM_cons {r : Except ε PUnit} : ((x :: l).forM body).Ends s r s' ↔
    (∃ e, (body x).Ends s (.error e) s' ∧ r = .error e) ∨
      ∃ t, (body x).Ends s (.ok ⟨⟩) t ∧ (l.forM body).Ends t r s' := by
  refine (ends_bind (f := fun _ => l.forM body)).trans ?_
  simp [Unique.exists_iff]

theorem ends_forM_cons_ok : ((x :: l).forM body).Ends s (.ok ⟨⟩) s' ↔
    ∃ t, (body x).Ends s (.ok ⟨⟩) t ∧ (l.forM body).Ends t (.ok ⟨⟩) s' := by
  rw [ends_forM_cons]
  simp only [reduceCtorEq, and_false, exists_false, false_or]

theorem ends_forM_append_ok : ((l ++ l').forM body).Ends s (.ok ⟨⟩) s' ↔
    ∃ t, (l.forM body).Ends s (.ok ⟨⟩) t ∧ (l'.forM body).Ends t (.ok ⟨⟩) s' := by
  induction l generalizing s with
  | nil => simp
  | cons x l ih =>
    simp only [List.cons_append, ends_forM_cons_ok, ih]
    constructor
    · rintro ⟨t, first, u, rest, last⟩
      exact ⟨u, ⟨t, first, rest⟩, last⟩
    · rintro ⟨u, ⟨t, first, rest⟩, last⟩
      exact ⟨t, first, u, rest, last⟩

/-- A loop whose every step ends where it starts. -/
theorem ends_forM_same (each : ∀ x ∈ l, (body x).Ends s (.ok ⟨⟩) s) :
    (l.forM body).Ends s (.ok ⟨⟩) s := by
  induction l with
  | nil => exact ends_forM_nil.2 ⟨rfl, rfl⟩
  | cons x l ih =>
    refine ends_forM_cons_ok.2 ⟨s, each x List.mem_cons_self, ih fun y hy => ?_⟩
    exact each y (List.mem_cons_of_mem x hy)

/-- The monad laws, kept out of the instances: the rules here follow the shape of a program. -/
theorem lawfulMonad : LawfulMonad (Proc σ ε) := by
  refine LawfulMonad.mk' _ (fun m => ?_) (fun _ _ => rfl) fun m f g => ?_
  · funext s
    simp only [Functor.map]
    rcases m s with _ | ⟨_ | _, _⟩ <;> rfl
  · funext s
    simp only [bind]
    rcases m s with _ | ⟨_ | _, _⟩ <;> rfl

theorem ends_mapM_nil {f : γ → Proc σ ε β} {r : Except ε (List β)} :
    ([].mapM f).Ends s r s' ↔ r = .ok [] ∧ s' = s := by
  exact ends_pure

theorem ends_mapM_cons_ok {f : γ → Proc σ ε β} {bs : List β} :
    ((x :: l).mapM f).Ends s (.ok bs) s' ↔ ∃ b t, (f x).Ends s (.ok b) t ∧
      ∃ bs', (l.mapM f).Ends t (.ok bs') s' ∧ bs = b :: bs' := by
  have := @lawfulMonad σ ε
  simp only [List.mapM_cons, ends_bind_ok, ends_pure, Except.ok.injEq]
  constructor
  · rintro ⟨b, t, first, bs', u, rest, rfl, rfl⟩
    exact ⟨b, t, first, bs', rest, rfl⟩
  · rintro ⟨b, t, first, bs', rest, rfl⟩
    exact ⟨b, t, first, bs', s', rest, rfl, rfl⟩

/-- A nested loop is a loop over all the inner values. -/
theorem ends_forM_flatMap_ok {g : α → List γ} {xs : List α} :
    ((xs.flatMap g).forM body).Ends s (.ok ⟨⟩) s' ↔
      (xs.forM fun x => (g x).forM body).Ends s (.ok ⟨⟩) s' := by
  induction xs generalizing s with
  | nil => rfl
  | cons x xs ih =>
    rw [List.flatMap_cons, ends_forM_append_ok, ends_forM_cons_ok]
    simp only [ih]

end Loops

/-- Two runs of one procedure from one state are the same run. -/
theorem Ends.unique {r₁ r₂ : Except ε α} {s₁ s₂ : σ} (h₁ : m.Ends s r₁ s₁) (h₂ : m.Ends s r₂ s₂) :
    r₁ = r₂ ∧ s₁ = s₂ := by
  have h := h₁.symm.trans h₂
  simpa using h

/-! ## Runs of a given state -/

/-- What a run returns, if it returns. -/
def value (m : Proc σ ε α) (s : σ) : Option α :=
  match m s with
  | some (.ok a, _) => some a
  | _ => none

/-- The state that a run leaves. -/
def final (m : Proc σ ε α) (s : σ) : σ :=
  match m s with
  | some (_, s') => s'
  | none => s

theorem ends_final {a : α} (h : m.value s = some a) : m.Ends s (.ok a) (m.final s) := by
  unfold value at h
  unfold Ends final
  cases run : m s with
  | none => simp [run] at h
  | some out =>
    obtain ⟨e | b, t⟩ := out
    · simp [run] at h
    · simp only [run, Option.some.injEq] at h
      rw [h]

/-! ## Chains of steps -/

/-- Every run of `m` is a chain of `R`-steps. -/
def Within (R : σ → σ → Prop) (m : Proc σ ε α) : Prop :=
  ∀ s r s', m.Ends s r s' → Relation.ReflTransGen R s s'

section Within

variable {R : σ → σ → Prop}

theorem within_pure (a : α) : (pure a : Proc σ ε α).Within R := by
  rintro s r s' h
  obtain ⟨-, rfl⟩ := ends_pure.1 h
  exact .refl

theorem within_throw (e : ε) : (throw e : Proc σ ε α).Within R := by
  rintro s r s' h
  obtain ⟨-, rfl⟩ := ends_throw.1 h
  exact .refl

theorem within_get : (get : Proc σ ε σ).Within R := by
  rintro s r s' h
  obtain ⟨-, rfl⟩ := ends_get.1 h
  exact .refl

theorem within_diverge : (diverge : Proc σ ε α).Within R := fun _ _ _ h => (ends_diverge h).elim

theorem within_ofOption (o : Option α) : (ofOption o : Proc σ ε α).Within R := by
  cases o with
  | none => exact within_diverge
  | some a => exact within_pure a

theorem within_ofExcept (x : Except ε α) : (ofExcept x : Proc σ ε α).Within R := by
  cases x with
  | error e => exact within_throw e
  | ok a => exact within_pure a

theorem within_modify {g : σ → σ} (step : ∀ s, R s (g s)) :
    (modify g : Proc σ ε Unit).Within R := by
  rintro s r s' h
  obtain ⟨-, rfl⟩ := ends_modify.1 h
  exact .single (step s)

theorem Within.bind (first : m.Within R) (rest : ∀ a, (f a).Within R) : (m >>= f).Within R := by
  intro s r s' h
  rcases ends_bind.1 h with ⟨e, h, -⟩ | ⟨a, t, h, h'⟩
  · exact first s _ s' h
  · exact (first s _ t h).trans (rest a t r s' h')

theorem Within.attempt (h : m.Within R) : m.attempt.Within R := by
  intro s r s' hr
  obtain ⟨x, -, hx⟩ := ends_attempt.1 hr
  exact h s x s' hx

theorem Within.ite {c : Prop} [Decidable c] {m' : Proc σ ε α} (h : m.Within R)
    (h' : m'.Within R) : (if c then m else m').Within R := by
  split
  · exact h
  · exact h'

theorem Within.mono {R' : σ → σ → Prop} (h : m.Within R) (sub : ∀ s t, R s t → R' s t) :
    m.Within R' :=
  fun s r s' hr => Relation.ReflTransGen.mono sub _ _ (h s r s' hr)

theorem within_forM {body : γ → Proc σ ε PUnit} (l : List γ) (h : ∀ x, (body x).Within R) :
    (l.forM body).Within R := by
  induction l with
  | nil => exact within_pure _
  | cons x l ih => exact (h x).bind fun _ => ih

theorem within_mapM {body : γ → Proc σ ε β} (l : List γ) (h : ∀ x, (body x).Within R) :
    (l.mapM body).Within R := by
  have := @lawfulMonad σ ε
  induction l with
  | nil =>
    rw [List.mapM_nil]
    exact within_pure _
  | cons x l ih =>
    rw [List.mapM_cons]
    exact (h x).bind fun _ => ih.bind fun _ => within_pure _

/-- What every step keeps, a whole run keeps. -/
theorem Within.keeps {I : σ → Prop} (h : m.Within R) (step : ∀ s t, R s t → I s → I t)
    {r : Except ε α} (run : m.Ends s r s') (start : I s) : I s' := by
  have chain := h s r s' run
  clear run
  induction chain with
  | refl => exact start
  | tail _ last ih => exact step _ _ last ih

end Within

end Proc
