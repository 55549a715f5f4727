import RomCast.Proofs.Endpoint.Layout
import RomCast.Proofs.Endpoint.Settled

set_option autoImplicit false

/-!
# How a frame is dealt with

Which of the ways through an endpoint a frame takes, by the type in its Ethernet header and by what
its ARP packet says; and what is counted of it on every one of them.  All of this holds over any
link.
-/

namespace RomCast

/-- What a step does to a state is part of what it does there. -/
theorem Action.state_congr {ε σ α : Type} {x y : Action ε σ α} {s t : σ} (h : x s = y t) :
    x.state s = y.state t := by
  rw [state, state, h]

namespace Endpoint

open RomCast.Action (Keeps)

variable {L : Type} [Transport L] {P : Endpoint L → Prop}

/-! ## What an ARP packet leads to -/

theorem receiveArp_of_short (e : Endpoint L) {frame : Bytes} (h : frame.length < 42) :
    receiveArp (e, frame) = .error (.guarded ⟨14, 28, frame.length - 14⟩) (e, frame) := by
  unfold receiveArp
  simp only [Action.bind_apply, Action.get_apply, read_arpAt,
    if_neg (show ¬ 42 ≤ frame.length by omega)]
  rfl

/-- The answer to a question goes out of the buffer that the question came in. -/
theorem receiveArp_of_question (e : Endpoint L) {frame : Bytes} (h : 42 ≤ frame.length)
    (hkind : (arpAt frame).isEthernetIpv4 = true)
    (hop : (arpAt frame).opcode = ArpPacket.opRequest)
    (hmine : e.config.source = some (arpAt frame).targetIp) :
    receiveArp (e, frame) =
      (send ((answerInPlace (Transport.mac e.link) frame).take 42) >>= fun sent =>
        if sent then count fun c => { c with arpReplies := c.arpReplies + 1 } else pure () :
          Action FrameError (Endpoint L) Unit).onFirst
        (e, answerInPlace (Transport.mac e.link) frame) := by
  unfold receiveArp
  simp only [Action.bind_apply, Action.get_apply, read_arpAt, if_pos h, Action.except_mapError_ok,
    Action.ofExcept, hkind, hop, hmine, Bool.not_true, Bool.false_eq_true, if_false, if_true,
    ne_eq, not_true_eq_false, Action.set_apply, Action.onFirst, Action.on]
  have hlength : Header.size EthernetHeader + Header.size ArpPacket = 42 := rfl
  rw [hlength]
  cases send ((answerInPlace (Transport.mac e.link) frame).take 42) e with
  | error cause e' => rfl
  | ok sent e' =>
    cases sent with
    | false => rfl
    | true => rfl

theorem receiveArp_of_reply (e : Endpoint L) {frame : Bytes} (h : 42 ≤ frame.length)
    (hkind : (arpAt frame).isEthernetIpv4 = true)
    (hop : (arpAt frame).opcode = ArpPacket.opReply) :
    receiveArp (e, frame) = .ok ()
      ({ e with
          resolver := (e.resolver.handleReply (arpAt frame).senderIp (arpAt frame).senderMac).2 },
        frame) := by
  have hno : ArpPacket.opReply ≠ ArpPacket.opRequest := by decide
  unfold receiveArp
  simp only [Action.bind_apply, Action.get_apply, read_arpAt, if_pos h, Action.except_mapError_ok,
    Action.ofExcept, hkind, hop, Bool.not_true, Bool.false_eq_true, if_false, if_true, if_neg hno]
  rfl

theorem receiveArp_of_other (e : Endpoint L) {frame : Bytes} (h : 42 ≤ frame.length)
    (hquestion : ¬ ((arpAt frame).isEthernetIpv4 = true ∧
      (arpAt frame).opcode = ArpPacket.opRequest ∧ e.config.source = some (arpAt frame).targetIp))
    (hreply : ¬ ((arpAt frame).isEthernetIpv4 = true ∧
      (arpAt frame).opcode = ArpPacket.opReply)) :
    receiveArp (e, frame) = .ok () (e, frame) := by
  unfold receiveArp
  simp only [Action.bind_apply, Action.get_apply, read_arpAt, if_pos h, Action.except_mapError_ok,
    Action.ofExcept]
  cases hkind : (arpAt frame).isEthernetIpv4 with
  | false => rfl
  | true =>
    simp only [Bool.not_true, Bool.false_eq_true, if_false]
    by_cases hop : (arpAt frame).opcode = ArpPacket.opRequest
    · have hforeign : e.config.source ≠ some (arpAt frame).targetIp :=
        fun hmine => hquestion ⟨hkind, hop, hmine⟩
      rw [if_pos hop, if_pos hforeign]
      rfl
    · rw [if_neg hop, if_neg fun hop' => hreply ⟨hkind, hop'⟩]
      rfl

/-! ## What a frame's type leads to -/

theorem dispatch_of_short (e : Endpoint L) {frame : Bytes} (h : frame.length < 14) :
    dispatch (e, frame) = .error (.guarded ⟨0, 14, frame.length⟩) (e, frame) := by
  unfold dispatch
  simp only [Action.bind_apply, Action.get_apply, readFront_ethernetAt,
    if_neg (show ¬ 14 ≤ frame.length by omega)]
  rfl

theorem dispatch_of_arp (e : Endpoint L) {frame : Bytes} (h : 14 ≤ frame.length)
    (htype : frame.word16 12 = etherTypeArp) :
    dispatch (e, frame) =
      (receiveArp >>= fun _ => pure none : Action FrameError (Endpoint L × Bytes) _)
        (e, frame) := by
  unfold dispatch
  simp only [Action.bind_apply, Action.get_apply, readFront_ethernetAt, if_pos h,
    Action.except_mapError_ok, Action.ofExcept, etherType_ethernetAt h, if_pos htype]

theorem dispatch_of_ipv4 (e : Endpoint L) {frame : Bytes} (h : 14 ≤ frame.length)
    (htype : frame.word16 12 = etherTypeIpv4) :
    dispatch (e, frame) =
      (receiveIpv4 (ethernetAt frame).source frame).onFirst (e, frame) := by
  have hnotArp : etherTypeIpv4 ≠ etherTypeArp := by decide
  unfold dispatch
  simp only [Action.bind_apply, Action.get_apply, readFront_ethernetAt, if_pos h,
    Action.except_mapError_ok, Action.ofExcept, etherType_ethernetAt h, htype, if_neg hnotArp,
    if_true]

theorem dispatch_of_other (e : Endpoint L) {frame : Bytes} (h : 14 ≤ frame.length)
    (harp : frame.word16 12 ≠ etherTypeArp) (hip : frame.word16 12 ≠ etherTypeIpv4) :
    dispatch (e, frame) = .ok none (e, frame) := by
  unfold dispatch
  simp only [Action.bind_apply, Action.get_apply, readFront_ethernetAt, if_pos h,
    Action.except_mapError_ok, Action.ofExcept, etherType_ethernetAt h, if_neg harp, if_neg hip]
  rfl

/-- Handling is dispatching, with the frame counted before and what comes of it after. -/
theorem handle_eq (e : Endpoint L) (frame : Bytes) :
    handle (e, frame) =
      match dispatch ({ e with counters.rxFrames := e.counters.rxFrames + 1 }, frame) with
      | .ok (some range) s => .ok (some range)
          ({ s.1 with counters.rxDelivered := s.1.counters.rxDelivered + 1 }, s.2)
      | .ok none s => .ok none s
      | .error cause s => .error cause
          ({ s.1 with counters.rxDropped := s.1.counters.rxDropped + 1 }, s.2) := by
  have hcount : (count fun c => { c with rxFrames := c.rxFrames + 1 } :
      Action FrameError (Endpoint L) Unit).onFirst (e, frame) =
        .ok () ({ e with counters.rxFrames := e.counters.rxFrames + 1 }, frame) := rfl
  unfold handle
  simp only [Action.bind_apply, hcount, Action.attempt]
  cases dispatch ({ e with counters.rxFrames := e.counters.rxFrames + 1 }, frame) with
  | error cause s => rfl
  | ok range? s =>
    cases range? with
    | none => rfl
    | some range => rfl

/-- What comes of dispatching is what comes of handling, but for two counts. -/
theorem state_handle (e : Endpoint L) (frame : Bytes) :
    let s := dispatch.state ({ e with counters.rxFrames := e.counters.rxFrames + 1 }, frame)
    ∃ delivered dropped, handle.state (e, frame) = ({ s.1 with counters :=
      { s.1.counters with rxDelivered := delivered, rxDropped := dropped } }, s.2) := by
  intro s
  have hs : s = dispatch.state ({ e with counters.rxFrames := e.counters.rxFrames + 1 }, frame) :=
    rfl
  unfold Action.state at hs ⊢
  rw [handle_eq]
  cases hresult : dispatch ({ e with counters.rxFrames := e.counters.rxFrames + 1 }, frame) with
  | error cause s' =>
    rw [hresult] at hs
    exact ⟨s.1.counters.rxDelivered, s.1.counters.rxDropped + 1, by rw [hs]⟩
  | ok range? s' =>
    rw [hresult] at hs
    cases range? with
    | none => exact ⟨s.1.counters.rxDelivered, s.1.counters.rxDropped, by rw [hs]⟩
    | some range => exact ⟨s.1.counters.rxDelivered + 1, s.1.counters.rxDropped, by rw [hs]⟩

/-! ## What dealing with a frame leaves alone -/

/-- A property that says nothing about what a frame changes by itself: the resolver, and how many
questions were answered. -/
structure Indifferent (P : Endpoint L → Prop) : Prop where
  resolver : ∀ e resolver, P e → P { e with resolver }
  replies : ∀ e n, P e → P { e with counters := { e.counters with arpReplies := n } }

omit [Transport L] in
theorem Indifferent.receiveIpv4 (hP : Indifferent P) (sender : Mac) (frame : Bytes) :
    Keeps P (Endpoint.receiveIpv4 sender frame :
      Action FrameError (Endpoint L) (Option (Nat × Nat))) := by
  refine (Action.keeps_ofExcept _ _).bind fun ip => (Action.keeps_get _).bind fun _ => ?_
  refine Keeps.ite (Action.keeps_pure _ none) ?_
  refine Keeps.bind (Action.keeps_modify ?_) fun _ => Action.keeps_ofExcept _ _
  exact fun e h => hP.resolver e _ h

/-- What sending keeps, dealing with an ARP frame keeps. -/
theorem Indifferent.receiveArp (hP : Indifferent P) {e : Endpoint L} (h : P e)
    (hsend : ∀ bytes, P ((send bytes : Action FrameError (Endpoint L) Bool).state e))
    (frame : Bytes) : P (Endpoint.receiveArp.state (e, frame)).1 := by
  rcases Nat.lt_or_ge frame.length 42 with hshort | hlong
  · rw [Action.state_of_error (receiveArp_of_short e hshort)]
    exact h
  by_cases hquestion : (arpAt frame).isEthernetIpv4 = true ∧
      (arpAt frame).opcode = ArpPacket.opRequest ∧ e.config.source = some (arpAt frame).targetIp
  · obtain ⟨hkind, hop, hmine⟩ := hquestion
    rw [Action.state_congr (receiveArp_of_question e hlong hkind hop hmine),
      Action.state_onFirst]
    refine Keeps.state_bind (hsend _) fun sent => Keeps.ite ?_ ?_
    · exact Action.keeps_modify fun e he => hP.replies e _ he
    · exact Action.keeps_pure _ ()
  by_cases hreply : (arpAt frame).isEthernetIpv4 = true ∧
      (arpAt frame).opcode = ArpPacket.opReply
  · rw [Action.state_of_ok (receiveArp_of_reply e hlong hreply.1 hreply.2)]
    exact hP.resolver e _ h
  · rw [Action.state_of_ok (receiveArp_of_other e hlong hquestion hreply)]
    exact h

/-- What sending keeps, dealing with a frame keeps. -/
theorem Indifferent.dispatch (hP : Indifferent P) {e : Endpoint L} (h : P e)
    (hsend : ∀ bytes, P ((send bytes : Action FrameError (Endpoint L) Bool).state e))
    (frame : Bytes) : P (Endpoint.dispatch.state (e, frame)).1 := by
  rcases Nat.lt_or_ge frame.length 14 with hshort | hfront
  · rw [Action.state_of_error (dispatch_of_short e hshort)]
    exact h
  by_cases harp : frame.word16 12 = etherTypeArp
  · rw [Action.state_congr (dispatch_of_arp e hfront harp), Action.state_bind_pure]
    exact hP.receiveArp h hsend frame
  by_cases hip : frame.word16 12 = etherTypeIpv4
  · rw [Action.state_congr (dispatch_of_ipv4 e hfront hip), Action.state_onFirst]
    exact hP.receiveIpv4 (ethernetAt frame).source frame e h
  · rw [Action.state_of_ok (dispatch_of_other e hfront harp hip)]
    exact h

/-! ## What is counted -/

/-- So many frames have come in, been handed out and been refused. -/
def Received (c : Counters) (e : Endpoint L) : Prop :=
  e.counters.rxFrames = c.rxFrames ∧ e.counters.rxDelivered = c.rxDelivered ∧
    e.counters.rxDropped = c.rxDropped

theorem dispatch_received (e : Endpoint L) (frame : Bytes) :
    Received e.counters (dispatch.state (e, frame)).1 := by
  have haside : Aside (Received e.counters : Endpoint L → Prop) :=
    ⟨fun _ _ h => h, fun _ _ _ h => h⟩
  have hindifferent : Indifferent (Received e.counters : Endpoint L → Prop) :=
    ⟨fun _ _ h => h, fun _ _ h => h⟩
  exact hindifferent.dispatch ⟨rfl, rfl, rfl⟩ (fun bytes => haside.send bytes e ⟨rfl, rfl, rfl⟩)
    frame

/-- What a call does to the counts of what came in. -/
def CountsArrival (before : Counters) :
    EStateM.Result FrameError (Endpoint L × Bytes) (Option (Nat × Nat)) → Prop
  | .ok (some _) s => Received
      { before with rxFrames := before.rxFrames + 1, rxDelivered := before.rxDelivered + 1 } s.1
  | .ok none s => Received { before with rxFrames := before.rxFrames + 1 } s.1
  | .error _ s => Received
      { before with rxFrames := before.rxFrames + 1, rxDropped := before.rxDropped + 1 } s.1

/-- Every frame is counted once as such, and once as handed out or as refused when it is. -/
theorem handle_counts (e : Endpoint L) (frame : Bytes) :
    CountsArrival e.counters (handle (e, frame)) := by
  have hreceived := dispatch_received
    { e with counters.rxFrames := e.counters.rxFrames + 1 } frame
  rw [handle_eq]
  unfold Action.state at hreceived
  cases hresult : dispatch ({ e with counters.rxFrames := e.counters.rxFrames + 1 }, frame) with
  | error cause s =>
    rw [hresult] at hreceived
    obtain ⟨hframes, hdelivered, hdropped⟩ := hreceived
    exact ⟨hframes, hdelivered, congrArg (· + 1) hdropped⟩
  | ok range? s =>
    rw [hresult] at hreceived
    cases range? with
    | none => exact hreceived
    | some range =>
      obtain ⟨hframes, hdelivered, hdropped⟩ := hreceived
      exact ⟨hframes, congrArg (· + 1) hdelivered, hdropped⟩

end Endpoint

end RomCast
