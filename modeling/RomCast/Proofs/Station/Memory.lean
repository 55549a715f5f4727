import RomCast.Proofs.Endpoint.Inbound
import RomCast.Proofs.Station.Turn

set_option autoImplicit false

/-!
# Turns on a link in memory

A turn takes the oldest inbound frame.  Which packet the role gets depends on that frame and on the
configuration alone (`packetIn?`), and before the role acts the endpoint sends at most an answer to
an ARP question.
-/

namespace RomCast.Station

variable {ρ : Type}

/-- The packet that a frame carries for a station with this configuration. -/
def packetIn? (config : Endpoint.Config) (frame : Bytes) : Option Message :=
  (config.payloadRange? frame).bind fun range =>
    (Message.decode (frame.slice range.1 range.2)).toOption

/-- The endpoint when the oldest inbound frame has been taken. -/
def popped (s : Station MemoryLink ρ) (rest : List Bytes) : Endpoint.OnMemory :=
  { s.endpoint with link := { s.endpoint.link with inbound := rest } }

/-- A frame that a datagram with a packet makes is that packet to whoever accepts it. -/
theorem packetIn?_frame (config : Endpoint.Config) (a : Endpoint.Addressing) {payload : Bytes}
    (h : payload.length ≤ maxDatagram) :
    packetIn? config (a.frame payload) =
      if config.accepts a.target = true ∧ a.port = config.port then
        (Message.decode payload).toOption else none := by
  rw [packetIn?, Endpoint.payloadRange?_frame config a h]
  by_cases hmine : config.accepts a.target = true ∧ a.port = config.port
  · rw [if_pos hmine, if_pos hmine, Option.bind_some, Endpoint.slice_frame]
  · rw [if_neg hmine, if_neg hmine, Option.bind_none]

/-- An ARP frame carries no packet. -/
theorem packetIn?_arp (config : Endpoint.Config) {frame : Bytes} {opcode : UInt16}
    (h : ArpFrame opcode frame) : packetIn? config frame = none := by
  have hrange : config.payloadRange? frame = none := by
    have hlength : frame.length = 42 := h.length_eq
    have hsize : Header.size EthernetHeader = 14 := rfl
    unfold Endpoint.Config.payloadRange?
    rw [Reader.readFront_eq, hsize, if_pos (by omega)]
    have htype : (Header.decode (frame.take 14) : EthernetHeader).etherType = etherTypeArp := by
      have htake : Bytes.word16 (frame.take 14) 12 = frame.word16 12 :=
        Bytes.word16_take (by omega) (by omega)
      rw [← h.etherType_eq, ← htake]
      rfl
    simp only [htype, if_true]
  rw [packetIn?, hrange, Option.bind_none]

/-! ## Reading -/

theorem read_of_nil {s : Station MemoryLink ρ} (h : s.endpoint.link.inbound = []) :
    read s = .ok none s := by
  obtain ⟨⟨⟨mac, pool, outbound, inbound, batch⟩, config, resolver, identification, counters⟩, role,
    buffer⟩ := s
  subst h
  rfl

/-- Receiving takes the oldest frame. -/
theorem receive_of_cons {s : Station MemoryLink ρ} {frame : Bytes} {rest : List Bytes}
    (hinbound : s.endpoint.link.inbound = frame :: rest) :
    (receive : Action LinkError (Station MemoryLink ρ) (Option Nat)) s =
      .ok (some (min frame.length s.buffer.length))
        ⟨s.popped rest, s.role, s.buffer.overwrite 0 frame⟩ := by
  obtain ⟨⟨⟨mac, pool, outbound, inbound, batch⟩, config, resolver, identification, counters⟩, role,
    buffer⟩ := s
  subst hinbound
  rfl

/-- Reading takes the oldest frame and finds its packet. -/
theorem read_of_cons {s : Station MemoryLink ρ} {frame : Bytes} {rest : List Bytes}
    (hinbound : s.endpoint.link.inbound = frame :: rest)
    (haccounts : s.endpoint.link.pool.Accounts []) (hbuffer : s.buffer.length = bufferSize) :
    ∃ e buffer out,
      read s = .ok (some (packetIn? s.endpoint.config (frame.take bufferSize)))
        ⟨e, s.role, buffer⟩ ∧
      (s.popped rest).Emits e out ∧ Endpoint.Answers (frame.take bufferSize) out ∧
      buffer.length = bufferSize := by
  have hframe : (s.buffer.overwrite 0 frame).take (min frame.length s.buffer.length) =
      frame.take bufferSize := by
    rw [Bytes.take_overwrite_zero, hbuffer]
  obtain ⟨e, frame', out, hresult, hemits, hanswers, hlength, hsame⟩ :=
    Endpoint.handle_handles (s.popped rest) (frame.take bufferSize) haccounts
  have hconfig : (s.popped rest).config = s.endpoint.config := rfl
  rw [hconfig] at hresult hsame
  refine ⟨e, (s.buffer.overwrite 0 frame).overwrite 0 frame', out, ?_, hemits, hanswers, ?_⟩
  · unfold read
    rw [Action.bind_apply, receive_of_cons hinbound]
    simp only [Action.bind_apply, readPacket, hframe]
    rcases hresult with hok | ⟨hnone, cause, herror⟩
    · rw [hok, packetIn?]
      cases hrange : s.endpoint.config.payloadRange? (frame.take bufferSize) with
      | none => rfl
      | some range =>
        have hkept : frame' = frame.take bufferSize := hsame (by rw [hrange]; exact nofun)
        rw [hkept]
        rfl
    · rw [herror, packetIn?, hnone]
      rfl
  · rw [Bytes.length_overwrite, Bytes.length_overwrite, hbuffer]

theorem packet?_of_nil {s : Station MemoryLink ρ} (h : s.endpoint.link.inbound = []) :
    packet? s = none := by
  rw [packet?, read_of_nil h]

/-- The packet of a turn is the one that the oldest frame carries. -/
theorem packet?_of_cons {s : Station MemoryLink ρ} {frame : Bytes} {rest : List Bytes}
    (hinbound : s.endpoint.link.inbound = frame :: rest)
    (haccounts : s.endpoint.link.pool.Accounts []) (hbuffer : s.buffer.length = bufferSize) :
    packet? s = packetIn? s.endpoint.config (frame.take bufferSize) := by
  obtain ⟨e, buffer, out, hread, -, -, -⟩ := read_of_cons hinbound haccounts hbuffer
  rw [packet?, hread]
  cases packetIn? s.endpoint.config (frame.take bufferSize) with
  | none => rfl
  | some message => rfl

/-! ## Turns -/

theorem turn_of_nil (handler : Handler MemoryLink ρ) {s : Station MemoryLink ρ}
    (h : s.endpoint.link.inbound = []) : turn handler s = .ok false s := by
  rw [turn, Action.bind_apply, read_of_nil h]
  rfl

/-- The station after its role has handled what was read. -/
def acted (handler : Handler MemoryLink ρ) (packet : Option Message) (e : Endpoint.OnMemory)
    (role : ρ) (buffer : Bytes) : Station MemoryLink ρ :=
  match packet with
  | none => ⟨e, role, buffer⟩
  | some message =>
      let (e', role') := (handler message).state (e, role)
      ⟨e', role', buffer⟩

/-- A turn takes the oldest frame and hands its packet to the role, at the endpoint as reading has
left it. -/
theorem turn_of_cons (handler : Handler MemoryLink ρ) {s : Station MemoryLink ρ} {frame : Bytes}
    {rest : List Bytes} (hinbound : s.endpoint.link.inbound = frame :: rest)
    (haccounts : s.endpoint.link.pool.Accounts []) (hbuffer : s.buffer.length = bufferSize) :
    ∃ e buffer out,
      turn handler s = .ok true
        (acted handler (packetIn? s.endpoint.config (frame.take bufferSize)) e s.role buffer) ∧
      (afterRead s).endpoint = e ∧ (s.popped rest).Emits e out ∧
      Endpoint.Answers (frame.take bufferSize) out ∧ buffer.length = bufferSize := by
  obtain ⟨e, buffer, out, hread, hemits, hanswers, hlength⟩ :=
    read_of_cons hinbound haccounts hbuffer
  have hafter : afterRead s = ⟨e, s.role, buffer⟩ := Action.state_of_ok hread
  refine ⟨e, buffer, out, ?_, congrArg Station.endpoint hafter, hemits, hanswers, hlength⟩
  rw [turn, Action.bind_apply, hread]
  cases packetIn? s.endpoint.config (frame.take bufferSize) with
  | none => rfl
  | some message =>
    simp only [Action.bind_apply, acted, dispatch, Action.on, Action.attempt, Action.state]
    cases handler message (e, s.role) with
    | ok _ t => rfl
    | error _ t => rfl

/-! ## What a turn sends -/

section Roles

variable (change : Message → ρ → ρ) (answer : ρ → Message → List Bytes)

/-- How a role handles packets: what it makes of its own state, and the packets that it answers
with. -/
def Plays (handler : Handler MemoryLink ρ) : Prop :=
  ∀ (message : Message) (e : Endpoint.OnMemory) (role : ρ), e.link.pool.Accounts [] →
    ∃ e' out, (handler message).state (e, role) = (e', change message role) ∧
      e.Streams e' (answer role message) out

/-- A station after a turn that took a frame: the role has handled the packet, and the packets that
answer it are on their way. -/
structure Turned (s s' : Station MemoryLink ρ) (frame : Bytes) (rest : List Bytes)
    (answers out : List Outgoing) : Prop where
  role : s'.role = match packetIn? s.endpoint.config (frame.take bufferSize) with
    | none => s.role
    | some message => change message s.role
  emits : (s.popped rest).Emits s'.endpoint (answers ++ out)
  answers : Endpoint.Answers (frame.take bufferSize) answers
  sublist : (Outgoing.payloads out).Sublist
    (((packetIn? s.endpoint.config (frame.take bufferSize)).map (answer s.role)).getD [])
  complete : s.endpoint.link.Flows → Outgoing.payloads out =
    ((packetIn? s.endpoint.config (frame.take bufferSize)).map (answer s.role)).getD []
  chatter : Outgoing.totalChatter out ≤ 2 *
    (((packetIn? s.endpoint.config (frame.take bufferSize)).map (answer s.role)).getD []).length
  buffer : s'.buffer.length = bufferSize

variable {change answer}

theorem turn_turned {handler : Handler MemoryLink ρ} (hplays : Plays change answer handler)
    {s : Station MemoryLink ρ} {frame : Bytes} {rest : List Bytes}
    (hinbound : s.endpoint.link.inbound = frame :: rest)
    (haccounts : s.endpoint.link.pool.Accounts []) (hbuffer : s.buffer.length = bufferSize) :
    ∃ s' answers out, turn handler s = .ok true s' ∧
      Turned change answer s s' frame rest answers out := by
  obtain ⟨e, buffer, answers, hturn, -, hemits, hanswers, hlength⟩ :=
    turn_of_cons handler hinbound haccounts hbuffer
  rw [hturn]
  cases hpacket : packetIn? s.endpoint.config (frame.take bufferSize) with
  | none =>
    refine ⟨_, answers, [], rfl, ?_⟩
    constructor
    · rw [hpacket]
      rfl
    · rw [List.append_nil]
      exact hemits
    · exact hanswers
    · exact List.nil_sublist _
    · intro _
      rw [hpacket]
      rfl
    · exact Nat.zero_le _
    · exact hlength
  | some message =>
    obtain ⟨e', out, hstate, hstreams⟩ := hplays message e s.role hemits.accounts
    have hacted : acted handler (some message) e s.role buffer =
        ⟨e', change message s.role, buffer⟩ := by
      simp only [acted, hstate]
    refine ⟨_, answers, out, rfl, ?_⟩
    rw [hacted]
    constructor
    · rw [hpacket]
    · exact hemits.trans hstreams.emits
    · exact hanswers
    · rw [hpacket]
      exact hstreams.sublist
    · intro hflows
      rw [hpacket]
      refine hstreams.complete ?_
      have hpopped : (s.popped rest).link.Flows := ⟨hflows.buffers, hflows.batch⟩
      exact hpopped.congr hemits.queued
    · rw [hpacket]
      exact hstreams.chatter
    · exact hlength

end Roles

end RomCast.Station
