import ValkyrieRs.Lib.Proc

/-!
# Procedures that commute with a change of the state

A procedure commutes with a function on states when it neither looks at what the function changes nor
touches it: from the changed state it ends with the same result, in the changed state of its end.  The
rules follow the constructs of the language.
-/

namespace Proc

variable {σ τ ε ε' α β γ : Type} {f : σ → σ} {m : Proc σ ε α}

/-- From the changed state the run is the same, up to the change. -/
def Commutes (f : σ → σ) (m : Proc σ ε α) : Prop :=
  ∀ s, m (f s) = (m s).map fun out => (out.1, f out.2)

theorem Commutes.ends {s s' : σ} {r : Except ε α} (h : m.Commutes f) (run : m.Ends s r s') :
    m.Ends (f s) r (f s') := by
  unfold Ends at run ⊢
  rw [h s, run]
  rfl

/-- What the change leaves alone at the start, it leaves alone at the end. -/
theorem Commutes.fixed {s s' : σ} {r : Except ε α} (h : m.Commutes f) (here : f s = s)
    (run : m.Ends s r s') : f s' = s' := by
  have again := h.ends run
  rw [here] at again
  exact (again.unique run).2

theorem commutes_id : m.Commutes id := fun _ => Option.map_id'.symm

theorem commutes_pure (a : α) : (pure a : Proc σ ε α).Commutes f := fun _ => rfl

theorem commutes_throw (e : ε) : (throw e : Proc σ ε α).Commutes f := fun _ => rfl

theorem commutes_diverge : (diverge : Proc σ ε α).Commutes f := fun _ => rfl

theorem commutes_ofExcept (x : Except ε α) : (ofExcept x : Proc σ ε α).Commutes f := by
  cases x with
  | error e => exact commutes_throw e
  | ok a => exact commutes_pure a

theorem commutes_modify {g : σ → σ} (same : ∀ s, g (f s) = f (g s)) :
    (modify g : Proc σ ε Unit).Commutes f := by
  intro s
  show some (Except.ok (), g (f s)) = some (Except.ok (), f (g s))
  rw [same]

theorem Commutes.bind {k : α → Proc σ ε β} (first : m.Commutes f) (rest : ∀ a, (k a).Commutes f) :
    (m >>= k).Commutes f := by
  intro s
  simp only [Bind.bind, first s]
  cases m s with
  | none => rfl
  | some out =>
    obtain ⟨e | a, t⟩ := out
    · rfl
    · exact rest a t

/-- What looks at the state must go on alike from the changed state. -/
theorem commutes_look {k : σ → Proc σ ε α} (blind : ∀ s, k (f s) = k s)
    (rest : ∀ s, (k s).Commutes f) : (get >>= k).Commutes f := by
  intro s
  show k (f s) (f s) = (k s s).map _
  rw [blind]
  exact rest s s

theorem Commutes.ite {c : Prop} [Decidable c] {m' : Proc σ ε α} (h : m.Commutes f)
    (h' : m'.Commutes f) : (if c then m else m').Commutes f := by
  split
  · exact h
  · exact h'

/-- A procedure on a part of the state commutes with what changes the part so. -/
theorem Commutes.zoom {part : τ → σ} {put : σ → τ → τ} {g : τ → τ} (h : m.Commutes f)
    (looks : ∀ t, part (g t) = f (part t)) (puts : ∀ s t, put (f s) (g t) = g (put s t)) :
    (m.zoom part put).Commutes g := by
  intro t
  simp only [Proc.zoom, looks t, h (part t)]
  cases m (part t) with
  | none => rfl
  | some out =>
    obtain ⟨r, s⟩ := out
    show some (r, put (f s) (g t)) = some (r, g (put s t))
    rw [puts]

end Proc
