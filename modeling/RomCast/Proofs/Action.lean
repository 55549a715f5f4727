import RomCast.Action

set_option autoImplicit false

/-!
# Two steps side by side

Two steps on states of different types agree when they return the same, or fail for the same cause,
and leave related states behind.  Two programs that are the same but for the primitive steps they
are made of are shown to agree piece by piece (`Together.bind`); one that keeps a record beside its
state is such a twin of the one that does not.
-/

namespace RomCast.Action

variable {ε ε' σ τ σ' τ' α β : Type}

/-- Two outcomes that return the same value, or fail for the same cause, in related states. -/
inductive Agree (Q : α → σ → τ → Prop) (E : σ → τ → Prop) :
    EStateM.Result ε σ α → EStateM.Result ε τ α → Prop where
  | ok {a : α} {s : σ} {t : τ} (related : Q a s t) : Agree Q E (.ok a s) (.ok a t)
  | error {e : ε} {s : σ} {t : τ} (related : E s t) : Agree Q E (.error e s) (.error e t)

/-- Two steps that agree from states related by `P`: the states behind a value are related by `Q`,
and those behind a failure by `E`. -/
def Together (P : σ → τ → Prop) (x : Action ε σ α) (y : Action ε τ α) (Q : α → σ → τ → Prop)
    (E : σ → τ → Prop) : Prop :=
  ∀ s t, P s t → Agree Q E (x s) (y t)

/-- Two steps that agree and keep one relation. -/
abbrev Parallel (P : σ → τ → Prop) (x : Action ε σ α) (y : Action ε τ α) : Prop :=
  Together P x y (fun _ => P) P

variable {P : σ → τ → Prop} {Q : α → σ → τ → Prop} {R : β → σ → τ → Prop} {E : σ → τ → Prop}

/-- What is related in one way may be related in another. -/
theorem Agree.mono {Q' : α → σ → τ → Prop} {E' : σ → τ → Prop} {x : EStateM.Result ε σ α}
    {y : EStateM.Result ε τ α} (h : Agree Q E x y) (hQ : ∀ a s t, Q a s t → Q' a s t)
    (hE : ∀ s t, E s t → E' s t) : Agree Q' E' x y := by
  cases h with
  | ok related => exact .ok (hQ _ _ _ related)
  | error related => exact .error (hE _ _ related)

/-- The states that steps leave behind are related, whether the steps failed or not. -/
theorem Agree.state {x : Action ε σ α} {y : Action ε τ α} {s : σ} {t : τ}
    (h : Agree (fun _ => P) P (x s) (y t)) : P (x.state s) (y.state t) := by
  unfold Action.state
  generalize x s = first at h ⊢
  generalize y t = second at h ⊢
  cases h with
  | ok related => exact related
  | error related => exact related

theorem Parallel.state {x : Action ε σ α} {y : Action ε τ α} (h : Parallel P x y) {s : σ} {t : τ}
    (hs : P s t) : P (x.state s) (y.state t) :=
  Agree.state (h s t hs)

/-! ## Made of pieces -/

theorem together_pure {a : α} (h : ∀ s t, P s t → Q a s t) :
    Together P (pure a : Action ε σ α) (pure a : Action ε τ α) Q E :=
  fun s t hs => .ok (h s t hs)

theorem parallel_pure (a : α) : Parallel P (pure a : Action ε σ α) (pure a : Action ε τ α) :=
  together_pure fun _ _ h => h

theorem together_throw {e : ε} (h : ∀ s t, P s t → E s t) :
    Together P (throw e : Action ε σ α) (throw e : Action ε τ α) Q E :=
  fun s t hs => .error (h s t hs)

theorem parallel_throw (e : ε) :
    Parallel P (throw e : Action ε σ α) (throw e : Action ε τ α) :=
  together_throw fun _ _ h => h

theorem together_modify {f : σ → σ} {g : τ → τ} {Q : Unit → σ → τ → Prop}
    (h : ∀ s t, P s t → Q () (f s) (g t)) :
    Together P (modify f : Action ε σ Unit) (modify g : Action ε τ Unit) Q E :=
  fun s t hs => .ok (h s t hs)

theorem together_set {s' : σ} {t' : τ} {Q : PUnit → σ → τ → Prop} (h : Q ⟨⟩ s' t') :
    Together P (set s' : Action ε σ PUnit) (set t' : Action ε τ PUnit) Q E :=
  fun _ _ _ => .ok h

/-- One step after the other. -/
theorem Together.bind {x : Action ε σ α} {y : Action ε τ α} {f : α → Action ε σ β}
    {g : α → Action ε τ β} (hx : Together P x y Q E)
    (hf : ∀ a, Together (Q a) (f a) (g a) R E) : Together P (x >>= f) (y >>= g) R E := by
  intro s t hs
  have hagree := hx s t hs
  rw [bind_apply, bind_apply]
  generalize x s = first at hagree
  generalize y t = second at hagree
  cases hagree with
  | ok related => exact hf _ _ _ related
  | error related => exact .error related

/-- Steps that look at their states first. -/
theorem together_get {f : σ → Action ε σ β} {g : τ → Action ε τ β}
    (h : ∀ s t, P s t → Together P (f s) (g t) R E) :
    Together P (get >>= f) (get >>= g) R E :=
  fun s t hs => h s t hs s t hs

theorem Together.ite {c : Prop} [Decidable c] {x x' : Action ε σ α} {y y' : Action ε τ α}
    (h : Together P x y Q E) (h' : Together P x' y' Q E) :
    Together P (if c then x else x') (if c then y else y') Q E := by
  by_cases hc : c
  · rw [if_pos hc, if_pos hc]
    exact h
  · rw [if_neg hc, if_neg hc]
    exact h'

/-- A failure that is handed back as a value. -/
theorem Together.attempt {x : Action ε σ α} {y : Action ε τ α} (h : Together P x y Q E)
    {Q' : Except ε α → σ → τ → Prop} {E' : σ → τ → Prop}
    (hok : ∀ a s t, Q a s t → Q' (.ok a) s t) (herror : ∀ e s t, E s t → Q' (.error e) s t) :
    Together P (x.attempt : Action ε' σ (Except ε α)) (y.attempt : Action ε' τ (Except ε α)) Q'
      E' := by
  intro s t hs
  have hagree := h s t hs
  unfold Action.attempt
  generalize x s = first at hagree
  generalize y t = second at hagree
  cases hagree with
  | ok related => exact .ok (hok _ _ _ related)
  | error related => exact .ok (herror _ _ _ related)

theorem Parallel.attempt {x : Action ε σ α} {y : Action ε τ α} (h : Parallel P x y) :
    Parallel P (x.attempt : Action ε' σ (Except ε α)) (y.attempt : Action ε' τ (Except ε α)) :=
  Together.attempt h (fun _ _ _ related => related) fun _ _ _ related => related

theorem Together.mapError {x : Action ε σ α} {y : Action ε τ α} (h : Together P x y Q E)
    (f : ε → ε') : Together P (x.mapError f) (y.mapError f) Q E := by
  intro s t hs
  have hagree := h s t hs
  unfold Action.mapError
  generalize x s = first at hagree
  generalize y t = second at hagree
  cases hagree with
  | ok related => exact .ok related
  | error related => exact .error related

theorem parallel_ofExcept (x : Except ε α) :
    Parallel P (ofExcept x : Action ε σ α) (ofExcept x : Action ε τ α) := by
  cases x with
  | ok a => exact parallel_pure a
  | error e => exact parallel_throw e

/-- Steps on parts of larger states, when related parts can be put back. -/
theorem Together.on {P' : σ' → τ' → Prop} {Q' : α → σ' → τ' → Prop} {E' : σ' → τ' → Prop}
    {part : σ' → σ} {put : σ → σ' → σ'} {part' : τ' → τ} {put' : τ → τ' → τ'}
    {x : Action ε σ α} {y : Action ε τ α}
    (h : ∀ s t, P' s t →
      Agree (fun a s₁ t₁ => Q' a (put s₁ s) (put' t₁ t)) (fun s₁ t₁ => E' (put s₁ s) (put' t₁ t))
        (x (part s)) (y (part' t))) :
    Together P' (x.on part put) (y.on part' put') Q' E' := by
  intro s t hs
  have hagree := h s t hs
  unfold Action.on
  generalize x (part s) = first at hagree
  generalize y (part' t) = second at hagree
  cases hagree with
  | ok related => exact .ok related
  | error related => exact .error related

/-- The same steps for every member of a list. -/
theorem Parallel.forM {γ : Type} {f : γ → Action ε σ PUnit} {g : γ → Action ε τ PUnit}
    (h : ∀ c, Parallel P (f c) (g c)) (list : List γ) :
    Parallel P (list.forM f) (list.forM g) := by
  induction list with
  | nil => exact parallel_pure PUnit.unit
  | cons c rest ih => exact (h c).bind fun _ => ih

end RomCast.Action
