/-
Actions on a state that can fail half way: what was done to the state before
the failure stays done. Whoever does not want that has to undo it.
-/
import Formula.Fault

namespace Formula

/-- Something done with a state that can fail half way. -/
abbrev Act (σ : Type) := EStateM Fault σ

namespace Act

variable {σ α β γ : Type} {s s' : σ}

/-- The result of something that does not depend on the state. -/
def ofExcept : Except Fault α → Act σ α
  | .ok a => pure a
  | .error fault => throw fault

/-- Does something from a state on: the failure, if any, and the state
afterwards, of which a failure leaves what is not forgotten. -/
def attempt (work : Act σ Unit) (forget : σ → σ) (s : σ) : Option Fault × σ :=
  match work s with
  | .ok () s => (none, s)
  | .error fault s => (some fault, forget s)

-- ============================================================== sequences

section

variable {a : Act σ α} {f : α → Act σ β}

theorem bind_ok {v : α} (h : a s = .ok v s') : (a >>= f) s = f v s' := by
  show EStateM.bind a f s = _
  unfold EStateM.bind
  rw [h]

theorem bind_error {fault : Fault} (h : a s = .error fault s') :
    (a >>= f) s = .error fault s' := by
  show EStateM.bind a f s = _
  unfold EStateM.bind
  rw [h]

theorem get_bind (f : σ → Act σ α) : (get >>= f) s = f s s := rfl

end

-- ================================================================ results

/-- What it is for an action to find `x`: to fail as it does, or to leave a
state that holds it. -/
def Finds (held : σ → γ) (result : EStateM.Result Fault σ Unit) (x : Except Fault γ) : Prop :=
  match x with
  | .error fault => ∃ s, result = .error fault s
  | .ok found => ∃ s, result = .ok () s ∧ held s = found

/-- An action on what does not depend on the state finds what is made of
it. -/
theorem Finds.ofExcept_bind {held : σ → γ} {x : Except Fault α} {f : α → Act σ Unit}
    {g : α → Except Fault γ} (h : ∀ v, Finds held (f v s) (g v)) :
    Finds held ((ofExcept x >>= f) s) (x >>= g) := by
  cases x with
  | error fault => exact ⟨s, rfl⟩
  | ok v => exact h v

section

variable {work : Act σ Unit} {forget : σ → σ} {held : σ → γ}

/-- Where an attempt fails, something was forgotten. -/
theorem attempt_failed (h : (attempt work forget s).1 ≠ none) :
    ∃ s', (attempt work forget s).2 = forget s' := by
  unfold attempt at h ⊢
  cases hwork : work s with
  | ok u s' =>
      rw [hwork] at h
      exact absurd rfl h
  | error fault s' => exact ⟨s', rfl⟩

/-- An attempt to do what finds nothing fails. -/
theorem Finds.attempt_error {fault : Fault} (h : Finds held (work s) (.error fault)) :
    ∃ s', attempt work forget s = (some fault, forget s') := by
  obtain ⟨s', hs'⟩ := h
  unfold attempt
  rw [hs']
  exact ⟨s', rfl⟩

/-- An attempt to do what finds something leaves a state that holds it. -/
theorem Finds.attempt_ok {found : γ} (h : Finds held (work s) (.ok found)) :
    ∃ s', attempt work forget s = (none, s') ∧ held s' = found := by
  obtain ⟨s', hs', hheld⟩ := h
  unfold attempt
  rw [hs']
  exact ⟨s', rfl, hheld⟩

end

end Act

end Formula
