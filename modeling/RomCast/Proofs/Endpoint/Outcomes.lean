import RomCast.Endpoint

set_option autoImplicit false

/-!
# What sending leaves behind

A frame or a datagram is sent, dropped for want of a buffer, or refused, and each of these leaves
its own mark on the endpoint and no other: besides the link, a sent frame changes the count of sent
frames, a dropped one the count of dropped frames, and a datagram that got its buffer the
identification.  All of this holds over any link.
-/

namespace RomCast.Endpoint

variable {L : Type}

/-- One more frame has been dropped. -/
def dropped (e : Endpoint L) : Endpoint L :=
  { e with counters := { e.counters with txDropped := e.counters.txDropped + 1 } }

/-- How trying for a buffer ends: without one the frame is dropped. -/
def ReserveEnds (e : Endpoint L) :
    EStateM.Result LinkError (Endpoint L) (Option Descriptor) → Prop
  | .ok (some _) e' => e' = { e with link := e'.link }
  | .ok none e' => e' = { e.dropped with link := e'.link }
  | .error _ e' => e' = { e with link := e'.link }

/-- How sending a whole frame ends. -/
def SendEnds (e : Endpoint L) : EStateM.Result FrameError (Endpoint L) Bool → Prop
  | .ok true e' => e' = { e with
      link := e'.link, counters := { e.counters with txFrames := e.counters.txFrames + 1 } }
  | .ok false e' => e' = { e.dropped with link := e'.link }
  | .error _ e' => e' = { e with link := e'.link }

/-- How sending a datagram ends: once it has its buffer, it has its identification. -/
def DatagramEnds (e : Endpoint L) : EStateM.Result FrameError (Endpoint L) Bool → Prop
  | .ok true e' => e' = { e with
      link := e'.link, identification := e.identification + 1
      counters := { e.counters with txFrames := e.counters.txFrames + 1 } }
  | .ok false e' => e' = { e.dropped with link := e'.link }
  | .error _ e' => e' = { e with link := e'.link, identification := e'.identification }

/-- What happened on the link before makes no difference. -/
theorem ReserveEnds.of_link {e : Endpoint L} {l : L}
    {result : EStateM.Result LinkError (Endpoint L) (Option Descriptor)}
    (h : ReserveEnds { e with link := l } result) : ReserveEnds e result := by
  cases result with
  | error cause e' => exact h
  | ok d? e' =>
    cases d? with
    | none => exact h
    | some d => exact h

/-- A datagram ends as a frame does, but for the identification. -/
theorem DatagramEnds.sendEnds {e : Endpoint L}
    {result : EStateM.Result FrameError (Endpoint L) Bool} (h : DatagramEnds e result) :
    ∃ n, SendEnds { e with identification := n } result := by
  cases result with
  | error cause e' => exact ⟨e'.identification, h⟩
  | ok sent e' =>
    cases sent with
    | true => exact ⟨e.identification + 1, h⟩
    | false => exact ⟨e.identification, h⟩

/-- A frame that is not sent is counted as dropped, and one that is sent is not. -/
theorem SendEnds.txDropped_of_ok {e e' : Endpoint L} {sent : Bool} (h : SendEnds e (.ok sent e')) :
    e'.counters.txDropped = e.counters.txDropped + if sent then 0 else 1 := by
  cases sent with
  | true => exact congrArg (fun e => e.counters.txDropped) h
  | false => exact congrArg (fun e => e.counters.txDropped) h

/-- Whatever else becomes of a frame that is not dropped, the drops are as many as before. -/
theorem SendEnds.txDropped_eq {x : Action FrameError (Endpoint L) Bool} {e s : Endpoint L}
    (h : SendEnds e (x s)) (hnever : ∀ s', x s ≠ .ok false s') :
    (x.state s).counters.txDropped = e.counters.txDropped := by
  unfold Action.state
  cases hresult : x s with
  | error cause s' =>
    rw [hresult] at h
    exact congrArg (fun e => e.counters.txDropped) h
  | ok sent s' =>
    rw [hresult] at h
    cases sent with
    | false => exact absurd hresult (hnever s')
    | true => exact h.txDropped_of_ok

variable [Transport L]

/-! ## Buffers -/

theorem reserveTries_ends (length tries : Nat) (e : Endpoint L) :
    ReserveEnds e (reserveTries length tries e) := by
  induction tries generalizing e with
  | zero => rfl
  | succ tries ih =>
    unfold reserveTries
    simp only [Action.bind_apply, Action.attempt, onLink, Action.on]
    cases Transport.alloc length e.link with
    | ok d l => rfl
    | error cause l =>
      cases cause with
      | tooLarge length => rfl
      | failed cause => rfl
      | exhausted =>
        simp only [Action.bind_apply, Action.on, drainAcks, Action.modify_apply]
        cases Transport.process l with
        | error cause l' => rfl
        | ok _ l' => exact (ih { e with link := Transport.drainAcks l' }).of_link

/-- A buffer that is there is taken at the first try. -/
theorem reserveTries_of_alloc {length : Nat} {e : Endpoint L} {d : Descriptor} {l : L}
    (h : Transport.alloc length e.link = .ok d l) (tries : Nat) :
    reserveTries length (tries + 1) e = .ok (some d) { e with link := l } := by
  simp only [reserveTries, Action.bind_apply, Action.attempt, onLink, Action.on, h,
    Action.pure_apply]

theorem reserve_ends (length : Nat) (e : Endpoint L) : ReserveEnds e (reserve length e) :=
  (reserveTries_ends length _ { e with link := Transport.drainAcks e.link }).of_link

/-- Submitting counts the frame, unless the link fails. -/
theorem submit_ends (d : Descriptor) (e : Endpoint L) :
    match (submit d : Action LinkError (Endpoint L) Unit) e with
    | .ok _ e' => e' = { e with
        link := e'.link, counters := { e.counters with txFrames := e.counters.txFrames + 1 } }
    | .error _ e' => e' = { e with link := e'.link } := by
  have hsubmit (l : L) :
      match (onLink (Transport.submit d) >>= fun _ =>
          count fun c => { c with txFrames := c.txFrames + 1 } : Action LinkError (Endpoint L) Unit)
          { e with link := l } with
      | .ok _ e' => e' = { e with
          link := e'.link, counters := { e.counters with txFrames := e.counters.txFrames + 1 } }
      | .error _ e' => e' = { e with link := e'.link } := by
    simp only [Action.bind_apply, onLink, Action.on]
    cases Transport.submit d l with
    | ok _ l' => rfl
    | error cause l' => rfl
  unfold submit
  simp only [Action.bind_apply, Action.get_apply]
  cases Transport.ready e.link with
  | true => exact hsubmit e.link
  | false =>
    simp only [Bool.false_eq_true, if_false, Action.bind_apply]
    simp only [Action.bind_apply, onLink, Action.on] at hsubmit ⊢
    cases Transport.process e.link with
    | ok _ l => exact hsubmit l
    | error cause l => rfl

/-! ## Frames and datagrams -/

theorem send_ends (frame : Bytes) (e : Endpoint L) : SendEnds e (send frame e) := by
  have hreserve := reserve_ends frame.length e
  unfold send
  rw [Action.bind_apply, Action.mapError]
  cases hresult : reserve frame.length e with
  | error cause e₁ =>
    rw [hresult] at hreserve
    exact hreserve
  | ok d? e₁ =>
    rw [hresult] at hreserve
    cases d? with
    | none => exact hreserve
    | some d =>
      have hheld : e₁ = { e with link := e₁.link } := hreserve
      have hsubmit := submit_ends d { e with link := Transport.store e₁.link d frame }
      have hsame : ({ e₁ with link := Transport.store e₁.link d frame } : Endpoint L) =
          { e with link := Transport.store e₁.link d frame } := by
        rw [hheld]
      simp only [Action.bind_apply, Action.modify_apply, Action.mapError, hsame]
      cases hsubmitted : (submit d : Action LinkError (Endpoint L) Unit)
          { e with link := Transport.store e₁.link d frame } with
      | error cause e₂ =>
        rw [hsubmitted] at hsubmit
        exact hsubmit
      | ok _ e₂ =>
        rw [hsubmitted] at hsubmit
        exact hsubmit

theorem sendDatagram_ends (room : Nat) (fill : Action GuardError Writer Unit) (e : Endpoint L) :
    DatagramEnds e (sendDatagram room fill e) := by
  have hreserve := reserve_ends (frameOverhead + room) e
  unfold sendDatagram
  rw [Action.bind_apply, Action.mapError]
  cases hresult : reserve (frameOverhead + room) e with
  | error cause e₁ =>
    rw [hresult] at hreserve
    have hsame : e₁ = { e with link := e₁.link } := hreserve
    show e₁ = { e with link := e₁.link, identification := e₁.identification }
    rw [hsame]
  | ok d? e₁ =>
    rw [hresult] at hreserve
    cases d? with
    | none => exact hreserve
    | some d =>
      have hheld : e₁ = { e with link := e₁.link } := hreserve
      rw [hheld]
      simp only [Action.bind_apply, Action.modify_apply, Action.get_apply]
      generalize Action.result _ _ = written
      generalize (Transport.store _ _ _ : L) = l
      cases written with
      | error cause => rfl
      | ok length =>
        simp only [Action.bind_apply, Action.mapError]
        have hsubmit := submit_ends (d.truncate length)
          { e with link := l, identification := e.identification + 1 }
        cases hsubmitted : (submit (d.truncate length) : Action LinkError (Endpoint L) Unit)
            { e with link := l, identification := e.identification + 1 } with
        | error cause e₂ =>
          rw [hsubmitted] at hsubmit
          have hsame : e₂ = { e with
              link := e₂.link, identification := e.identification + 1 } := hsubmit
          show e₂ = { e with link := e₂.link, identification := e₂.identification }
          rw [hsame]
        | ok _ e₂ =>
          rw [hsubmitted] at hsubmit
          exact hsubmit

/-! ## When nothing is dropped -/

/-- A frame is dropped only for want of a buffer. -/
theorem send_ne_dropped {frame : Bytes} {e : Endpoint L}
    (h : ∀ e', reserve frame.length e ≠ .ok none e') (e' : Endpoint L) :
    send frame e ≠ .ok false e' := by
  unfold send
  rw [Action.bind_apply, Action.mapError]
  cases hresult : reserve frame.length e with
  | error cause e₁ =>
    intro hfalse
    cases hfalse
  | ok d? e₁ =>
    cases d? with
    | none => exact absurd hresult (h e₁)
    | some d =>
      simp only [Action.bind_apply, Action.modify_apply, Action.mapError]
      cases (submit d : Action LinkError (Endpoint L) Unit)
          { e₁ with link := Transport.store e₁.link d frame } with
      | error cause e₂ =>
        intro hfalse
        cases hfalse
      | ok _ e₂ =>
        intro hfalse
        cases hfalse

theorem sendDatagram_ne_dropped {room : Nat} {fill : Action GuardError Writer Unit}
    {e : Endpoint L} (h : ∀ e', reserve (frameOverhead + room) e ≠ .ok none e')
    (e' : Endpoint L) : sendDatagram room fill e ≠ .ok false e' := by
  unfold sendDatagram
  rw [Action.bind_apply, Action.mapError]
  cases hresult : reserve (frameOverhead + room) e with
  | error cause e₁ =>
    intro hfalse
    cases hfalse
  | ok d? e₁ =>
    cases d? with
    | none => exact absurd hresult (h e₁)
    | some d =>
      simp only [Action.bind_apply, Action.modify_apply, Action.get_apply]
      generalize Action.result _ _ = written
      cases written with
      | error cause =>
        intro hfalse
        cases hfalse
      | ok length =>
        simp only [Action.bind_apply, Action.mapError]
        generalize (submit (d.truncate length) : Action LinkError (Endpoint L) Unit) _ = submitted
        cases submitted with
        | error cause e₂ =>
          intro hfalse
          cases hfalse
        | ok _ e₂ =>
          intro hfalse
          cases hfalse

end RomCast.Endpoint
