import RomCast.Endpoint

set_option autoImplicit false

/-!
# What sending leaves alone

What is none of the link's business and not about the frames that go out is not touched by what an
endpoint does with its buffers (`Aside`): not by reserving and submitting them, nor by flushing, nor
by sending frames or datagrams that ask for nobody's address.  Such a thing is how an endpoint is
configured and how far it has come in resolving its peer (`settled_aside`).  All of this holds over
any link, and also when a step fails.
-/

namespace RomCast.Endpoint

open RomCast.Action (Keeps)

variable {L : Type} {ε α : Type} {P : Endpoint L → Prop} {config : Config} {resolver : Resolver}

/-- A property that is none of the link's business and not about the frames that go out. -/
structure Aside (P : Endpoint L → Prop) : Prop where
  link : ∀ e link, P e → P { e with link }
  counters : ∀ e frames dropped, P e →
    P { e with counters := { e.counters with txFrames := frames, txDropped := dropped } }

theorem Aside.onLink (h : Aside P) (x : Action ε L α) : Keeps P (Endpoint.onLink x) :=
  Keeps.on fun _ he => h.link _ _ he

/-- An endpoint with this configuration that has come so far in resolving its peer. -/
def Settled (config : Config) (resolver : Resolver) (e : Endpoint L) : Prop :=
  e.config = config ∧ e.resolver = resolver

theorem settled_aside : Aside (Settled config resolver : Endpoint L → Prop) :=
  ⟨fun _ _ h => h, fun _ _ _ h => h⟩

theorem count_settled (f : Counters → Counters) :
    Keeps (Settled config resolver) (count f : Action ε (Endpoint L) Unit) :=
  Action.keeps_modify fun _ h => h

variable [Transport L]

/-! ## Buffers -/

theorem Aside.drainAcks (h : Aside P) :
    Keeps P (Endpoint.drainAcks : Action ε (Endpoint L) Unit) :=
  Action.keeps_modify fun _ he => h.link _ _ he

theorem Aside.reserveTries (h : Aside P) (length tries : Nat) :
    Keeps P (Endpoint.reserveTries length tries :
      Action LinkError (Endpoint L) (Option Descriptor)) := by
  induction tries with
  | zero =>
    exact (Action.keeps_modify fun e he => h.counters e e.counters.txFrames _ he).bind fun _ =>
      Action.keeps_pure _ none
  | succ tries ih =>
    refine (h.onLink _).attempt.bind fun answer => ?_
    cases answer with
    | ok d => exact Action.keeps_pure _ (some d)
    | error cause =>
      cases cause with
      | exhausted => exact (h.onLink _).bind fun _ => h.drainAcks.bind fun _ => ih
      | tooLarge length => exact Action.keeps_throw _ _
      | failed cause => exact Action.keeps_throw _ _

theorem Aside.reserve (h : Aside P) (length : Nat) :
    Keeps P (Endpoint.reserve length : Action LinkError (Endpoint L) (Option Descriptor)) :=
  h.drainAcks.bind fun _ => h.reserveTries length _

theorem Aside.submit (h : Aside P) (d : Descriptor) :
    Keeps P (Endpoint.submit d : Action LinkError (Endpoint L) Unit) := by
  refine Keeps.bind (Action.keeps_get _) fun e => ?_
  have hsubmit : Keeps P (Endpoint.onLink (Transport.submit d) >>= fun _ =>
      count fun c => { c with txFrames := c.txFrames + 1 } :
        Action LinkError (Endpoint L) Unit) :=
    (h.onLink _).bind fun _ =>
      Action.keeps_modify fun e he => h.counters e _ e.counters.txDropped he
  exact Keeps.ite hsubmit ((h.onLink _).bind fun _ => hsubmit)

theorem Aside.flush (h : Aside P) :
    Keeps P (Endpoint.flush : Action LinkError (Endpoint L) Unit) :=
  (h.onLink _).bind fun _ => h.drainAcks

/-! ## Frames and datagrams -/

theorem Aside.send (h : Aside P) (frame : Bytes) :
    Keeps P (Endpoint.send frame : Action FrameError (Endpoint L) Bool) := by
  refine ((h.reserve _).mapError FrameError.link).bind fun d? => ?_
  cases d? with
  | none => exact Action.keeps_pure _ false
  | some d =>
    refine (Action.keeps_modify fun _ he => h.link _ _ he).bind fun _ => ?_
    exact ((h.submit d).mapError FrameError.link).bind fun _ => Action.keeps_pure _ true

/-- Sending a datagram takes an identification as well. -/
theorem Aside.sendDatagram (h : Aside P)
    (hidentification : ∀ e identification, P e → P { e with identification }) (room : Nat)
    (fill : Action GuardError Writer Unit) :
    Keeps P (Endpoint.sendDatagram room fill : Action FrameError (Endpoint L) Bool) := by
  refine ((h.reserve _).mapError FrameError.link).bind fun d? => ?_
  cases d? with
  | none => exact Action.keeps_pure _ false
  | some d =>
    refine (Action.keeps_modify fun _ he => hidentification _ _ he).bind fun _ => ?_
    refine Keeps.bind (Action.keeps_get _) fun e => ?_
    refine (Action.keeps_modify fun _ he => h.link _ _ he).bind fun _ => ?_
    cases (e.addressing.write fill).result { buffer := Transport.content e.link d } with
    | error cause =>
      exact (Action.keeps_modify fun _ he => h.link _ _ he).bind fun _ => Action.keeps_throw _ _
    | ok length =>
      exact ((h.submit _).mapError FrameError.link).bind fun _ => Action.keeps_pure _ true

theorem sendDatagram_settled (room : Nat) (fill : Action GuardError Writer Unit) :
    Keeps (Settled config resolver)
      (sendDatagram room fill : Action FrameError (Endpoint L) Bool) :=
  settled_aside.sendDatagram (fun _ _ h => h) room fill

end RomCast.Endpoint
