import Mathlib.Algebra.Group.Nat.Defs
import RomCast.Action
import RomCast.Bytes

set_option autoImplicit false

/-!
# Checked steps

A slice relies on its bounds, a copy on equal lengths, a sum on a type that is wide enough.  The
engine's definitions are total and give such operations a meaning in any case.  Here the same
operations stop with a fault when what they rely on does not hold, and a step made of them follows
the engine's step when it does just what that step does (`Follows`): then nothing in it can fault.

A counter of events is the one thing that no check protects.  It is 64 bits wide, and a checked step
may stop there when the step that it follows has counted past the end.
-/

namespace RomCast

/-- What an operation relies on and does not find. -/
inductive Fault where
  /-- A range that does not lie within a byte string of this length. -/
  | outOfRange (start stop length : Nat)
  /-- A position that a list of this length does not have. -/
  | noSuchSlot (slot count : Nat)
  /-- A place and what is copied there have different lengths. -/
  | unequalLengths (place given : Nat)
  /-- A sum or a product that is too large for its type. -/
  | overflow
  /-- A difference below zero. -/
  | underflow
  | assertion
  /-- A buffer above the largest size that may be asked for. -/
  | overAllocated (size limit : Nat)
  /-- A counter of events that stands at its end. -/
  | counterFull
  deriving DecidableEq, Repr, Inhabited

/-- Why a checked step returns nothing: a fault, or a failure that the step provides for. -/
inductive Trap (ε : Type) where
  | fault (cause : Fault)
  | failure (cause : ε)
  deriving DecidableEq

/-- Restate the failure; a fault stays what it is. -/
def Trap.map {ε ε' : Type} (f : ε → ε') : Trap ε → Trap ε'
  | fault cause => .fault cause
  | failure cause => .failure (f cause)

instance {ε : Type} : MonadLift (Except Fault) (Except (Trap ε)) :=
  ⟨fun x => x.mapError Trap.fault⟩

instance {ε σ : Type} : MonadLift (Except Fault) (Action (Trap ε) σ) :=
  ⟨fun x => Action.ofExcept (x.mapError Trap.fault)⟩

namespace Checked

/-! ## Operations -/

/-- That a range lies within `length` bytes. -/
def range (length start stop : Nat) : Except Fault Unit :=
  if start ≤ stop ∧ stop ≤ length then .ok () else .error (.outOfRange start stop length)

/-- The bytes at positions `start`, ..., `stop - 1`. -/
def slice (bytes : Bytes) (start stop : Nat) : Except Fault Bytes := do
  range bytes.length start stop
  return bytes.slice start stop

/-- That `new` can be copied over a range of `length` bytes. -/
def fits (length start stop : Nat) (new : Bytes) : Except Fault Unit := do
  range length start stop
  if stop - start = new.length then .ok () else .error (.unequalLengths (stop - start) new.length)

/-- Copy `new` over the bytes at positions `start`, ..., `stop - 1`. -/
def copy (buffer : Bytes) (start stop : Nat) (new : Bytes) : Except Fault Bytes := do
  fits buffer.length start stop new
  return buffer.overwrite start new

/-- A sum of two numbers of 64 bits. -/
def add (a b : Nat) : Except Fault Nat := if a + b < 2 ^ 64 then .ok (a + b) else .error .overflow

/-- A product of two numbers of 64 bits. -/
def mul (a b : Nat) : Except Fault Nat := if a * b < 2 ^ 64 then .ok (a * b) else .error .overflow

/-- A difference of two natural numbers. -/
def sub (a b : Nat) : Except Fault Nat := if b ≤ a then .ok (a - b) else .error .underflow

/-- A sum of two numbers of 32 bits. -/
def add32 (a b : UInt32) : Except Fault UInt32 :=
  if a.toNat + b.toNat < 2 ^ 32 then .ok (a + b) else .error .overflow

/-- That something holds. -/
def assert (p : Prop) [Decidable p] : Except Fault Unit :=
  if p then .ok () else .error .assertion

/-- Count one more event. -/
def tick (n : Nat) : Except Fault Nat :=
  if n + 1 < 2 ^ 64 then .ok (n + 1) else .error .counterFull

variable {length start stop a b : Nat} {bytes buffer new : Bytes}

theorem range_eq (h : start ≤ stop) (hstop : stop ≤ length) : range length start stop = .ok () :=
  if_pos ⟨h, hstop⟩

theorem slice_eq (h : start ≤ stop) (hstop : stop ≤ bytes.length) :
    slice bytes start stop = .ok (bytes.slice start stop) := by
  rw [slice, range_eq h hstop]
  rfl

/-- A slice from the front. -/
theorem slice_zero_eq (hstop : stop ≤ bytes.length) :
    slice bytes 0 stop = .ok (bytes.take stop) :=
  slice_eq (Nat.zero_le stop) hstop

/-- A slice to the end. -/
theorem slice_end_eq (h : start ≤ bytes.length) :
    slice bytes start bytes.length = .ok (bytes.drop start) := by
  have hlength : (bytes.drop start).length ≤ bytes.length - start :=
    Nat.le_of_eq List.length_drop
  rw [slice_eq h (Nat.le_refl _), Bytes.slice, List.take_of_length_le hlength]

theorem fits_eq (hstop : start + new.length = stop) (hlength : stop ≤ length) :
    fits length start stop new = .ok () := by
  have hsame : stop - start = new.length := by omega
  rw [fits, range_eq (by omega) hlength]
  exact if_pos hsame

theorem copy_eq (hstop : start + new.length = stop) (hlength : stop ≤ buffer.length) :
    copy buffer start stop new = .ok (buffer.overwrite start new) := by
  rw [copy, fits_eq hstop hlength]
  rfl

theorem add_eq (h : a + b < 2 ^ 64) : add a b = .ok (a + b) := if_pos h

theorem mul_eq (h : a * b < 2 ^ 64) : mul a b = .ok (a * b) := if_pos h

theorem sub_eq (h : b ≤ a) : sub a b = .ok (a - b) := if_pos h

theorem add32_eq {a b : UInt32} (h : a.toNat + b.toNat < 2 ^ 32) : add32 a b = .ok (a + b) :=
  if_pos h

theorem assert_eq {p : Prop} [Decidable p] (h : p) : assert p = .ok () := if_pos h

theorem tick_eq (h : a + 1 < 2 ^ 64) : tick a = .ok (a + 1) := if_pos h

theorem tick_eq_error (h : 2 ^ 64 ≤ a + 1) : tick a = .error .counterFull :=
  if_neg (Nat.not_lt.mpr h)

variable {ε ε' σ τ α β : Type}

@[simp] theorem ok_bind (a : α) (f : α → Except ε β) : (Except.ok a >>= f) = f a := rfl

/-- What a sequence that succeeds has found. -/
theorem of_bind_eq_ok {o : Except ε α} {f : α → Except ε β} {b : β} (h : (o >>= f) = .ok b) :
    ∃ a, o = .ok a ∧ f a = .ok b := by
  cases o with
  | ok a => exact ⟨a, rfl, h⟩
  | error e => cases h

@[simp] theorem lift_ok (a : α) :
    (liftM (Except.ok a : Except Fault α) : Except (Trap ε) α) = pure a := rfl

/-- Restating a failure before or after it is told from faults. -/
theorem mapError_failure_map (o : Except ε α) (f : ε → ε') :
    (o.mapError Trap.failure).mapError (Trap.map f) = (o.mapError f).mapError Trap.failure := by
  cases o <;> rfl

@[simp] theorem lift_ok_action (a : α) :
    (liftM (Except.ok a : Except Fault α) : Action (Trap ε) σ α) = pure a := rfl

/-- A computation that returns `a`, or stops at the end of a counter, and then `passed` holds. -/
def Counts (passed : Prop) (o : Except Fault α) (a : α) : Prop :=
  o = .ok a ∨ o = .error .counterFull ∧ passed

theorem counts_ok {passed : Prop} (a : α) : Counts passed (.ok a) a := Or.inl rfl

theorem counts_tick (n : Nat) : Counts (2 ^ 64 ≤ n + 1) (tick n) (n + 1) := by
  by_cases hn : n + 1 < 2 ^ 64
  · exact Or.inl (tick_eq hn)
  · have hlast : 2 ^ 64 ≤ n + 1 := Nat.not_lt.mp hn
    exact Or.inr ⟨tick_eq_error hlast, hlast⟩

theorem Counts.mono {passed passed' : Prop} {o : Except Fault α} {a : α} (h : Counts passed o a)
    (hpassed : passed → passed') : Counts passed' o a :=
  h.imp_right fun hstop => ⟨hstop.1, hpassed hstop.2⟩

/-- What is made of something that was counted. -/
theorem Counts.map {passed : Prop} {o : Except Fault α} {a : α} (h : Counts passed o a)
    {f : α → Except Fault β} {b : β} (hf : f a = .ok b) : Counts passed (o >>= f) b := by
  rcases h with hok | ⟨hstop, hpassed⟩
  · rw [hok]
    exact Or.inl hf
  · rw [hstop]
    exact Or.inr ⟨rfl, hpassed⟩

/-! ## Following a step -/

/-- Run a checked step and hand its failure back as a value; a fault is not caught. -/
def attempt (x : Action (Trap ε) σ α) : Action (Trap ε') σ (Except ε α) := fun s =>
  match x s with
  | .ok a s' => .ok (.ok a) s'
  | .error (.failure e) s' => .ok (.error e) s'
  | .error (.fault cause) s' => .error (.fault cause) s'

/-- Change the state by operations that may fault. -/
def change (f : σ → Except Fault σ) : Action (Trap ε) σ Unit := do
  set (← f (← get))

/-- How a checked step ended beside the step that it follows: with the same value or the same
failure in the same state, or at a counter that the other one has counted past. -/
inductive Beside (full : σ → Prop) (Q : α → σ → Prop) (E : σ → Prop) :
    EStateM.Result (Trap ε) σ α → EStateM.Result ε σ α → Prop where
  | ok {a : α} {s : σ} (after : Q a s) : Beside full Q E (.ok a s) (.ok a s)
  | error {e : ε} {s : σ} (after : E s) : Beside full Q E (.error (.failure e) s) (.error e s)
  | stoppedOk {a : α} {s t : σ} (after : Q a s) (passed : full s) :
      Beside full Q E (.error (.fault .counterFull) t) (.ok a s)
  | stoppedError {e : ε} {s t : σ} (after : E s) (passed : full s) :
      Beside full Q E (.error (.fault .counterFull) t) (.error e s)

/-- From states with `P`, the checked step `x` does what `y` does, unless a counter ends that `y`
counts past.  What `y` leaves behind has `Q` or, after a failure, `E`; and a counter that was past
its end stays there. -/
structure Follows (full : σ → Prop) (P : σ → Prop) (x : Action (Trap ε) σ α) (y : Action ε σ α)
    (Q : α → σ → Prop) (E : σ → Prop) : Prop where
  beside : ∀ s, P s → Beside full Q E (x s) (y s)
  keeps : ∀ s, P s → full s → full (y.state s)

/-- Steps without counters. -/
abbrev never (_ : σ) : Prop := False

variable {full : σ → Prop} {P P' : σ → Prop} {Q Q' : α → σ → Prop} {R : β → σ → Prop}
  {E E' : σ → Prop}

/-- What has ended may have stopped instead. -/
theorem Beside.stopped {x : EStateM.Result (Trap ε) σ α} {y : Action ε σ α} {s : σ} (t : σ)
    (h : Beside full Q E x (y s)) (hfull : full (y.state s)) :
    Beside full Q E (.error (.fault .counterFull) t) (y s) := by
  unfold Action.state at hfull
  generalize y s = second at h hfull
  cases h with
  | ok after => exact .stoppedOk after hfull
  | error after => exact .stoppedError after hfull
  | stoppedOk after passed => exact .stoppedOk after passed
  | stoppedError after passed => exact .stoppedError after passed

theorem Beside.mono {x : EStateM.Result (Trap ε) σ α} {y : EStateM.Result ε σ α}
    (h : Beside full Q E x y) (hQ : ∀ a s, Q a s → Q' a s) (hE : ∀ s, E s → E' s) :
    Beside full Q' E' x y := by
  cases h with
  | ok after => exact .ok (hQ _ _ after)
  | error after => exact .error (hE _ after)
  | stoppedOk after passed => exact .stoppedOk (hQ _ _ after) passed
  | stoppedError after passed => exact .stoppedError (hE _ after) passed

variable {x : Action (Trap ε) σ α} {y : Action ε σ α}

theorem Follows.mono (h : Follows full P x y Q E) (hP : ∀ s, P' s → P s)
    (hQ : ∀ a s, Q a s → Q' a s) (hE : ∀ s, E s → E' s) : Follows full P' x y Q' E' where
  beside s hs := (h.beside s (hP s hs)).mono hQ hE
  keeps s hs := h.keeps s (hP s hs)

theorem follows_of_exists {ι : Type} {P : ι → σ → Prop} (h : ∀ i, Follows full (P i) x y Q E) :
    Follows full (fun s => ∃ i, P i s) x y Q E where
  beside s := fun ⟨i, hs⟩ => (h i).beside s hs
  keeps s := fun ⟨i, hs⟩ => (h i).keeps s hs

/-- What is known of other things than the state. -/
theorem follows_of_and {A : Prop} (h : A → Follows full P x y Q E) :
    Follows full (fun s => A ∧ P s) x y Q E where
  beside s hs := (h hs.1).beside s hs.2
  keeps s hs := (h hs.1).keeps s hs.2

theorem follows_of_and_right {A : Prop} (h : A → Follows full P x y Q E) :
    Follows full (fun s => P s ∧ A) x y Q E where
  beside s hs := (h hs.2).beside s hs.1
  keeps s hs := (h hs.2).keeps s hs.1

/-- Steps without counters do the same. -/
theorem Follows.eq_of_never (h : Follows never P x y Q E) {s : σ} (hs : P s) :
    x s = y.mapError Trap.failure s := by
  have hbeside := h.beside s hs
  unfold Action.mapError
  generalize x s = first at hbeside
  generalize y s = second at hbeside
  cases hbeside with
  | ok after => rfl
  | error after => rfl
  | stoppedOk after passed => exact passed.elim
  | stoppedError after passed => exact passed.elim

theorem Follows.state_of_never (h : Follows never P x y Q E) {s : σ} (hs : P s) :
    x.state s = y.state s := by
  rw [← Action.state_mapError Trap.failure y, Action.state, h.eq_of_never hs]
  rfl

theorem Follows.result_of_never (h : Follows never P x y Q E) {s : σ} (hs : P s) :
    x.result s = (y.result s).mapError Trap.failure := by
  rw [Action.result, h.eq_of_never hs, Action.mapError, Action.result]
  cases y s <;> rfl

theorem follows_pure {a : α} (h : ∀ s, P s → Q a s) :
    Follows full P (pure a : Action (Trap ε) σ α) (pure a) Q E where
  beside s hs := .ok (h s hs)
  keeps _ _ hfull := hfull

theorem follows_throw {e : ε} (h : ∀ s, P s → E s) :
    Follows full P (throw (.failure e) : Action (Trap ε) σ α) (throw e) Q E where
  beside s hs := .error (h s hs)
  keeps _ _ hfull := hfull

/-- Changes that are the same for the states in question. -/
theorem follows_modify_of_eq {f g : σ → σ} {Q : Unit → σ → Prop} (heq : ∀ s, P s → f s = g s)
    (h : ∀ s, P s → Q () (g s)) (hkeeps : ∀ s, P s → full s → full (g s)) :
    Follows full P (modify f : Action (Trap ε) σ Unit) (modify g) Q E where
  beside s hs := by
    rw [Action.modify_apply, Action.modify_apply, heq s hs]
    exact .ok (h s hs)
  keeps := hkeeps

theorem follows_modify {f : σ → σ} {Q : Unit → σ → Prop} (h : ∀ s, P s → Q () (f s))
    (hkeeps : ∀ s, P s → full s → full (f s)) :
    Follows full P (modify f : Action (Trap ε) σ Unit) (modify f) Q E :=
  follows_modify_of_eq (fun _ _ => rfl) h hkeeps

/-- A change that counts an event, or does not fault at all. -/
theorem follows_count {f : σ → Except Fault σ} {g : σ → σ} {Q : Unit → σ → Prop}
    (h : ∀ s, P s → Counts (full (g s)) (f s) (g s))
    (hQ : ∀ s, P s → Q () (g s)) (hkeeps : ∀ s, P s → full s → full (g s)) :
    Follows full P (change f : Action (Trap ε) σ Unit) (modify g) Q E := by
  refine ⟨fun s hs => ?_, hkeeps⟩
  have hchange : (change f : Action (Trap ε) σ Unit) s =
      (liftM (f s) >>= set : Action (Trap ε) σ Unit) s := rfl
  rw [hchange, Action.modify_apply]
  rcases h s hs with hok | ⟨hstop, hpassed⟩
  · rw [hok]
    exact .ok (hQ s hs)
  · rw [hstop]
    exact .stoppedOk (hQ s hs) hpassed

theorem follows_change {f : σ → Except Fault σ} {g : σ → σ} {Q : Unit → σ → Prop}
    (h : ∀ s, P s → f s = .ok (g s)) (hQ : ∀ s, P s → Q () (g s))
    (hkeeps : ∀ s, P s → full s → full (g s)) :
    Follows full P (change f : Action (Trap ε) σ Unit) (modify g) Q E :=
  follows_count (fun s hs => Or.inl (h s hs)) hQ hkeeps

/-- A step without operations that could fault. -/
theorem follows_failure (hok : ∀ s, P s → ∀ a s', y s = .ok a s' → Q a s')
    (herror : ∀ s, P s → ∀ e s', y s = .error e s' → E s')
    (hkeeps : ∀ s, P s → full s → full (y.state s)) :
    Follows full P (y.mapError Trap.failure) y Q E := by
  refine ⟨fun s hs => ?_, hkeeps⟩
  have hQ := hok s hs
  have hE := herror s hs
  unfold Action.mapError
  generalize y s = second at hQ hE
  cases second with
  | ok a s' => exact .ok (hQ a s' rfl)
  | error e s' => exact .error (hE e s' rfl)

/-- What the step that is followed keeps holds as well. -/
theorem Follows.frame (h : Follows full P x y Q E) {C : σ → Prop} (hC : Action.Keeps C y) :
    Follows full (fun s => P s ∧ C s) x y (fun a s => Q a s ∧ C s) fun s => E s ∧ C s := by
  refine ⟨fun s hs => ?_, fun s hs => h.keeps s hs.1⟩
  have hbeside := h.beside s hs.1
  have hkept := hC s hs.2
  unfold Action.state at hkept
  generalize x s = first at hbeside
  generalize y s = second at hbeside hkept
  cases hbeside with
  | ok after => exact .ok ⟨after, hkept⟩
  | error after => exact .error ⟨after, hkept⟩
  | stoppedOk after passed => exact .stoppedOk ⟨after, hkept⟩ passed
  | stoppedError after passed => exact .stoppedError ⟨after, hkept⟩ passed

theorem follows_set {t : σ} {Q : PUnit → σ → Prop} (h : Q ⟨⟩ t)
    (hkeeps : ∀ s, P s → full s → full t) :
    Follows full P (set t : Action (Trap ε) σ PUnit) (set t) Q E where
  beside _ _ := .ok h
  keeps := hkeeps

/-- A counter that the first step passes the end of stays there. -/
theorem Follows.full_bind {f : α → Action (Trap ε) σ β} {g : α → Action ε σ β}
    (hx : Follows full P x y Q E) (hf : ∀ a, Follows full (Q a) (f a) (g a) R E) {s : σ}
    (hs : P s) (hpassed : full (y.state s)) : full ((y >>= g).state s) := by
  have hbeside := hx.beside s hs
  cases hy : y s with
  | ok a s' =>
    rw [Action.state_of_ok hy] at hpassed
    rw [Action.state_bind_of_ok hy]
    rw [hy] at hbeside
    refine (hf a).keeps s' ?_ hpassed
    generalize x s = first at hbeside
    cases hbeside with
    | ok after => exact after
    | stoppedOk after _ => exact after
  | error e s' =>
    rw [Action.state_of_error hy] at hpassed
    rw [Action.state_bind_of_error hy]
    exact hpassed

/-- One step after the other. -/
theorem Follows.bind {f : α → Action (Trap ε) σ β} {g : α → Action ε σ β}
    (hx : Follows full P x y Q E) (hf : ∀ a, Follows full (Q a) (f a) (g a) R E) :
    Follows full P (x >>= f) (y >>= g) R E := by
  refine ⟨fun s hs => ?_, fun s hs hfull => hx.full_bind hf hs (hx.keeps s hs hfull)⟩
  have hbeside := hx.beside s hs
  rw [Action.bind_apply, Action.bind_apply]
  generalize x s = first at hbeside
  generalize y s = second at hbeside
  cases hbeside with
  | ok after => exact (hf _).beside _ after
  | error after => exact .error after
  | stoppedOk after passed =>
    exact ((hf _).beside _ after).stopped _ ((hf _).keeps _ after passed)
  | stoppedError after passed => exact .stoppedError after passed

/-- Steps that look at their state first. -/
theorem follows_get {f : σ → Action (Trap ε) σ β} {g : σ → Action ε σ β}
    (h : ∀ s, P s → Follows full (· = s) (f s) (g s) R E) :
    Follows full P (get >>= f) (get >>= g) R E where
  beside s hs := (h s hs).beside s rfl
  keeps s hs := (h s hs).keeps s rfl

theorem Follows.ite {c : Prop} [Decidable c] {x' : Action (Trap ε) σ α} {y' : Action ε σ α}
    (h : c → Follows full P x y Q E) (h' : ¬ c → Follows full P x' y' Q E) :
    Follows full P (if c then x else x') (if c then y else y') Q E := by
  by_cases hc : c
  · rw [if_pos hc, if_pos hc]
    exact h hc
  · rw [if_neg hc, if_neg hc]
    exact h' hc

/-- An operation that finds what it relies on. -/
theorem follows_lift {o : Except Fault β} {b : β} {f : β → Action (Trap ε) σ α}
    (ho : o = .ok b) (h : Follows full P (f b) y Q E) :
    Follows full P (liftM o >>= f) y Q E := by
  subst ho
  exact h

/-- A computation that returns something. -/
theorem follows_ofExcept_ok {o : Except (Trap ε) β} {b : β} {f : β → Action (Trap ε) σ α}
    (ho : o = .ok b) (h : Follows full P (f b) y Q E) :
    Follows full P (Action.ofExcept o >>= f) y Q E := by
  subst ho
  exact h

/-- An event that is counted before a step which itself counts it. -/
theorem follows_tick {n : Nat} {f : Nat → Action (Trap ε) σ α}
    (h : Follows full P (f (n + 1)) y Q E)
    (hfull : 2 ^ 64 ≤ n + 1 → ∀ s, P s → full (y.state s)) :
    Follows full P (liftM (tick n) >>= f) y Q E := by
  by_cases hn : n + 1 < 2 ^ 64
  · exact follows_lift (tick_eq hn) h
  · have hlast : 2 ^ 64 ≤ n + 1 := Nat.not_lt.mp hn
    rw [tick_eq_error hlast]
    constructor
    · intro s hs
      exact (h.beside s hs).stopped s (hfull hlast s hs)
    · exact h.keeps

theorem follows_ofExcept {o : Except (Trap ε) α} {p : Except ε α}
    (h : o = p.mapError Trap.failure) (hok : ∀ a s, p = .ok a → P s → Q a s)
    (herror : ∀ s, P s → E s) :
    Follows full P (Action.ofExcept o) (Action.ofExcept p) Q E := by
  subst h
  cases p with
  | ok a => exact follows_pure fun s hs => hok a s rfl hs
  | error e => exact follows_throw herror

/-- A failure that is handed back as a value. -/
theorem Follows.attempt (h : Follows full P x y Q E) {Q' : Except ε α → σ → Prop}
    (hok : ∀ a s, Q a s → Q' (.ok a) s) (herror : ∀ e s, E s → Q' (.error e) s) :
    Follows full P (attempt x : Action (Trap ε') σ (Except ε α)) y.attempt Q' E' := by
  constructor
  · intro s hs
    have hbeside := h.beside s hs
    unfold Checked.attempt Action.attempt
    generalize x s = first at hbeside
    generalize y s = second at hbeside
    cases hbeside with
    | ok after => exact .ok (hok _ _ after)
    | error after => exact .ok (herror _ _ after)
    | stoppedOk after passed => exact .stoppedOk (hok _ _ after) passed
    | stoppedError after passed => exact .stoppedOk (herror _ _ after) passed
  · intro s hs hfull
    rw [Action.state_attempt]
    exact h.keeps s hs hfull

theorem Follows.mapFailure (h : Follows full P x y Q E) (f : ε → ε') :
    Follows full P (x.mapError (Trap.map f)) (y.mapError f) Q E := by
  constructor
  · intro s hs
    have hbeside := h.beside s hs
    unfold Action.mapError
    generalize x s = first at hbeside
    generalize y s = second at hbeside
    cases hbeside with
    | ok after => exact .ok after
    | error after => exact .error after
    | stoppedOk after passed => exact .stoppedOk after passed
    | stoppedError after passed => exact .stoppedError after passed
  · intro s hs hfull
    rw [Action.state_mapError]
    exact h.keeps s hs hfull

/-- The state that a checked step leaves behind, whether it failed or not, unless it faults. -/
def run (x : Action (Trap ε) σ α) (s : σ) : Except Fault σ :=
  match x s with
  | .ok _ s' => .ok s'
  | .error (.failure _) s' => .ok s'
  | .error (.fault cause) _ => .error cause

theorem Follows.run_counts (h : Follows full P x y Q E) {s : σ} (hs : P s) :
    Counts (full (y.state s)) (run x s) (y.state s) := by
  have hbeside := h.beside s hs
  unfold run Action.state
  generalize x s = first at hbeside
  generalize y s = second at hbeside
  cases hbeside with
  | ok after => exact counts_ok _
  | error after => exact counts_ok _
  | stoppedOk after passed => exact Or.inr ⟨rfl, passed⟩
  | stoppedError after passed => exact Or.inr ⟨rfl, passed⟩

theorem Follows.state_mem (h : Follows full P x y (fun _ => E) E) {s : σ} (hs : P s) :
    E (y.state s) := by
  have hbeside := h.beside s hs
  unfold Action.state
  generalize x s = first at hbeside
  generalize y s = second at hbeside
  cases hbeside with
  | ok after => exact after
  | error after => exact after
  | stoppedOk after passed => exact after
  | stoppedError after passed => exact after

/-- A step on a part of a larger state. -/
theorem Follows.on {part : τ → σ} {put : σ → τ → τ} {fullAll : τ → Prop} {P' : τ → Prop}
    {Q' : α → τ → Prop} {E' : τ → Prop} (h : Follows full P x y Q E)
    (hpart : ∀ t, P' t → P (part t)) (hok : ∀ a s t, P' t → Q a s → Q' a (put s t))
    (herror : ∀ s t, P' t → E s → E' (put s t))
    (hpassed : ∀ s t, P' t → full s → fullAll (put s t))
    (hkeeps : ∀ s t, P' t → (full (part t) → full s) → fullAll t → fullAll (put s t)) :
    Follows fullAll P' (x.on part put) (y.on part put) Q' E' := by
  constructor
  · intro t ht
    have hbeside := h.beside (part t) (hpart t ht)
    unfold Action.on
    generalize x (part t) = first at hbeside
    generalize y (part t) = second at hbeside
    cases hbeside with
    | ok after => exact .ok (hok _ _ _ ht after)
    | error after => exact .error (herror _ _ ht after)
    | stoppedOk after passed => exact .stoppedOk (hok _ _ _ ht after) (hpassed _ _ ht passed)
    | stoppedError after passed => exact .stoppedError (herror _ _ ht after) (hpassed _ _ ht passed)
  · intro t ht hfull
    rw [Action.state_on]
    exact hkeeps _ t ht (h.keeps (part t) (hpart t ht)) hfull

/-- A step on the first of two states, whatever is known of the second. -/
theorem Follows.onFirst {S : τ → Prop} (h : Follows full P x y Q E) :
    Follows (fun s : σ × τ => full s.1) (fun s => P s.1 ∧ S s.2) x.onFirst y.onFirst
      (fun a s => Q a s.1 ∧ S s.2) fun s => E s.1 ∧ S s.2 :=
  h.on (fun _ hs => hs.1) (fun _ _ _ hs hfirst => ⟨hfirst, hs.2⟩)
    (fun _ _ hs hfirst => ⟨hfirst, hs.2⟩) (fun _ _ _ hfull => hfull)
    fun _ _ _ hkeeps hfull => hkeeps hfull

end Checked

end RomCast
