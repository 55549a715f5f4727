set_option autoImplicit false

/-!
# Steps that may fail

Everything the replication engine does is a step on some state: a cursor, a link, an endpoint, a
station.  A step returns a value or fails with a cause, and in both cases it leaves a new state
behind: what a step changed before it failed stays changed.  That is what `EStateM` is without
backtracking, and this module adds the ways to combine such steps across states and causes.
-/

namespace RomCast

/-- A step on a state `σ` that returns an `α` or fails with an `ε`. -/
abbrev Action (ε σ α : Type) : Type := EStateM ε σ α

namespace Action

variable {ε ε' σ τ α β : Type}

/-- The state a step leaves behind, whether it failed or not. -/
def state (x : Action ε σ α) (s : σ) : σ :=
  match x s with
  | .ok _ s' => s'
  | .error _ s' => s'

/-- What a step returned, or why it failed. -/
def result (x : Action ε σ α) (s : σ) : Except ε α :=
  match x s with
  | .ok a _ => .ok a
  | .error e _ => .error e

/-- Run a step on one part of a larger state. -/
def on (part : σ → τ) (put : τ → σ → σ) (x : Action ε τ α) : Action ε σ α := fun s =>
  match x (part s) with
  | .ok a t => .ok a (put t s)
  | .error e t => .error e (put t s)

/-- Restate the cause of a failure. -/
def mapError (f : ε → ε') (x : Action ε σ α) : Action ε' σ α := fun s =>
  match x s with
  | .ok a s' => .ok a s'
  | .error e s' => .error (f e) s'

/-- Run a step and hand its failure back as a value. -/
def attempt (x : Action ε σ α) : Action ε' σ (Except ε α) := fun s =>
  match x s with
  | .ok a s' => .ok (.ok a) s'
  | .error e s' => .ok (.error e) s'

/-- A computation without a state as a step. -/
def ofExcept (x : Except ε α) : Action ε σ α := fun s =>
  match x with
  | .ok a => .ok a s
  | .error e => .error e s

/-- A step on the first of two states. -/
def onFirst (x : Action ε σ α) : Action ε (σ × τ) α := x.on Prod.fst fun s st => (s, st.2)

/-- A step on the second of two states. -/
def onSecond (x : Action ε τ α) : Action ε (σ × τ) α := x.on Prod.snd fun t st => (st.1, t)

/-- `P` holds after the step whenever it held before, also when the step fails. -/
def Keeps (P : σ → Prop) (x : Action ε σ α) : Prop := ∀ s, P s → P (x.state s)

/-! ## What a step does to a state -/

@[simp] theorem pure_apply (a : α) (s : σ) : (pure a : Action ε σ α) s = .ok a s := rfl

@[simp] theorem bind_apply (x : Action ε σ α) (f : α → Action ε σ β) (s : σ) :
    (x >>= f) s = match x s with
      | .ok a s' => f a s'
      | .error e s' => .error e s' := rfl

@[simp] theorem get_apply (s : σ) : (get : Action ε σ σ) s = .ok s s := rfl

@[simp] theorem set_apply (t s : σ) : (set t : Action ε σ Unit) s = .ok () t := rfl

@[simp] theorem modify_apply (f : σ → σ) (s : σ) :
    (modify f : Action ε σ Unit) s = .ok () (f s) := rfl

@[simp] theorem throw_apply (e : ε) (s : σ) : (throw e : Action ε σ α) s = .error e s := rfl

@[simp] theorem ofExcept_bind_apply (x : Except ε α) (f : α → Action ε σ β) (s : σ) :
    (ofExcept x >>= f) s = match x with
      | .ok a => f a s
      | .error e => .error e s := by
  cases x <;> rfl

@[simp] theorem except_mapError_ok (f : ε → ε') (a : α) :
    (Except.ok a : Except ε α).mapError f = .ok a := rfl

@[simp] theorem except_mapError_error (f : ε → ε') (e : ε) :
    (Except.error e : Except ε α).mapError f = .error (f e) := rfl

/-- What comes behind a check that has been passed. -/
theorem except_check_eq_ok {c : Prop} [Decidable c] {e : ε} {x : Except ε α} {a : α} :
    (if c then .error e else x) = .ok a ↔ ¬ c ∧ x = .ok a := by
  by_cases hc : c
  · rw [if_pos hc]
    exact iff_of_false nofun fun h => h.1 hc
  · rw [if_neg hc, and_iff_right hc]

@[simp] theorem ite_apply (c : Prop) [Decidable c] (x y : Action ε σ α) (s : σ) :
    (if c then x else y) s = if c then x s else y s := by
  split <;> rfl

theorem state_of_ok {x : Action ε σ α} {s s' : σ} {a : α} (h : x s = .ok a s') :
    x.state s = s' := by
  rw [state, h]

theorem state_of_error {x : Action ε σ α} {s s' : σ} {e : ε} (h : x s = .error e s') :
    x.state s = s' := by
  rw [state, h]

/-- What follows a step does not happen when the step fails. -/
theorem state_bind_of_error {x : Action ε σ α} {f : α → Action ε σ β} {s s' : σ} {e : ε}
    (h : x s = .error e s') : (x >>= f).state s = s' := by
  rw [state, bind_apply, h]

/-- What follows a step begins where the step ended. -/
theorem state_bind_of_ok {x : Action ε σ α} {f : α → Action ε σ β} {s s' : σ} {a : α}
    (h : x s = .ok a s') : (x >>= f).state s = (f a).state s' := by
  rw [state, bind_apply, h, state]

theorem state_ofExcept_bind_ok (a : α) (f : α → Action ε σ β) (s : σ) :
    (ofExcept (.ok a) >>= f).state s = (f a).state s := rfl

theorem state_ofExcept_bind_error (e : ε) (f : α → Action ε σ β) (s : σ) :
    (ofExcept (.error e) >>= f).state s = s := rfl

/-- What a sequence that succeeds has done. -/
theorem of_bind_eq_ok {x : Action ε σ α} {f : α → Action ε σ β} {s s' : σ} {b : β}
    (h : (x >>= f) s = .ok b s') : ∃ a s₁, x s = .ok a s₁ ∧ f a s₁ = .ok b s' := by
  rw [bind_apply] at h
  cases hx : x s with
  | ok a s₁ =>
    rw [hx] at h
    exact ⟨a, s₁, rfl, h⟩
  | error e s₁ =>
    rw [hx] at h
    cases h

theorem keeps_pure (P : σ → Prop) (a : α) : Keeps P (pure a : Action ε σ α) := fun _ h => h

/-- What a step established, a sequence that begins with it and preserves it establishes. -/
theorem Keeps.state_bind {P : σ → Prop} {x : Action ε σ α} {f : α → Action ε σ β} {s : σ}
    (hx : P (x.state s)) (hf : ∀ a, Keeps P (f a)) : P ((x >>= f).state s) := by
  cases h : x s with
  | ok a s' =>
    rw [state_of_ok h] at hx
    rw [state_bind_of_ok h]
    exact hf a s' hx
  | error e s' =>
    rw [state_of_error h] at hx
    rw [state_bind_of_error h]
    exact hx

/-- What every step of a sequence preserves, the sequence preserves. -/
theorem Keeps.bind {P : σ → Prop} {x : Action ε σ α} {f : α → Action ε σ β} (hx : Keeps P x)
    (hf : ∀ a, Keeps P (f a)) : Keeps P (x >>= f) :=
  fun s hs => Keeps.state_bind (hx s hs) hf

theorem keeps_get (P : σ → Prop) : Keeps P (get : Action ε σ σ) := fun _ h => h

theorem keeps_throw (P : σ → Prop) (e : ε) : Keeps P (throw e : Action ε σ α) := fun _ h => h

theorem keeps_ofExcept (P : σ → Prop) (x : Except ε α) : Keeps P (ofExcept x : Action ε σ α) := by
  cases x <;> exact fun _ h => h

theorem keeps_modify {P : σ → Prop} {f : σ → σ} (h : ∀ s, P s → P (f s)) :
    Keeps P (modify f : Action ε σ Unit) := h

theorem Keeps.ite {P : σ → Prop} {c : Prop} [Decidable c] {x y : Action ε σ α} (hx : Keeps P x)
    (hy : Keeps P y) : Keeps P (if c then x else y) := by
  split
  · exact hx
  · exact hy

/-- A pure end changes nothing. -/
@[simp] theorem state_bind_pure (x : Action ε σ α) (f : α → β) (s : σ) :
    (x >>= fun a => (pure (f a) : Action ε σ β)).state s = x.state s := by
  cases h : x s with
  | ok a s' => rw [state_bind_of_ok h, state_of_ok h, state, pure_apply]
  | error e s' => rw [state_bind_of_error h, state_of_error h]

@[simp] theorem state_on (part : σ → τ) (put : τ → σ → σ) (x : Action ε τ α) (s : σ) :
    (x.on part put).state s = put (x.state (part s)) s := by
  simp only [state, on]
  cases x (part s) <;> rfl

@[simp] theorem state_attempt (x : Action ε σ α) (s : σ) :
    (x.attempt : Action ε' σ (Except ε α)).state s = x.state s := by
  simp only [state, attempt]
  cases x s <;> rfl

@[simp] theorem state_mapError (f : ε → ε') (x : Action ε σ α) (s : σ) :
    (x.mapError f).state s = x.state s := by
  simp only [state, mapError]
  cases x s <;> rfl

theorem Keeps.attempt {P : σ → Prop} {x : Action ε σ α} (h : Keeps P x) :
    Keeps P (x.attempt : Action ε' σ (Except ε α)) := by
  intro s hs
  rw [state_attempt]
  exact h s hs

theorem Keeps.mapError {P : σ → Prop} {x : Action ε σ α} (h : Keeps P x) (f : ε → ε') :
    Keeps P (x.mapError f) := by
  intro s hs
  rw [state_mapError]
  exact h s hs

/-- What does not depend on the part that a step works on is preserved. -/
theorem Keeps.on {P : σ → Prop} {part : σ → τ} {put : τ → σ → σ} {x : Action ε τ α}
    (h : ∀ s, P s → P (put (x.state (part s)) s)) : Keeps P (x.on part put) := by
  intro s hs
  rw [state_on]
  exact h s hs

/-- What a step preserves for every member of a list, a loop over the list preserves. -/
theorem Keeps.forM {P : σ → Prop} {f : β → Action ε σ PUnit} (h : ∀ b, Keeps P (f b))
    (list : List β) : Keeps P (list.forM f) := by
  induction list with
  | nil => exact keeps_pure P PUnit.unit
  | cons b rest ih => exact (h b).bind fun _ => ih

@[simp] theorem state_onFirst (x : Action ε σ α) (s : σ) (t : τ) :
    (x.onFirst).state (s, t) = (x.state s, t) :=
  state_on ..

@[simp] theorem state_onSecond (x : Action ε τ α) (s : σ) (t : τ) :
    (x.onSecond).state (s, t) = (s, x.state t) :=
  state_on ..

end Action

end RomCast
