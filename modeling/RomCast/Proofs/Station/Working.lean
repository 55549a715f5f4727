import RomCast.Exchange
import RomCast.Proofs.Endpoint.Transmit
import RomCast.Proofs.Station.Intact

set_option autoImplicit false

/-!
# Stations that work

A station on a link in memory works when its buffers are accounted for and its link flows.  It goes
on working whatever it reads and sends.  A working station that reads a frame of a peer whose
datagrams are for it gets what the peer has sent, and its answers leave less traffic to come than
there was (`Turned.of_arp`, `Turned.of_datagram`).
-/

namespace RomCast

/-- The datagrams of a sender are for the receiver: they go to its port, and to its address, to the
broadcast address, or to a receiver that has no address. -/
def Endpoint.Config.Hears (receiver sender : Endpoint.Config) : Prop :=
  receiver.accepts (sender.target.getD Ipv4Address.broadcast) = true ∧ sender.port = receiver.port

instance (receiver sender : Endpoint.Config) : Decidable (receiver.Hears sender) :=
  inferInstanceAs (Decidable (_ ∧ _))

namespace Outgoing

theorem etherType_datagram (a : Endpoint.Addressing) (payload : Bytes) :
    (a.frame payload).word16 12 = etherTypeIpv4 :=
  congrArg EthernetHeader.etherType (LawfulHeader.decode_encode_append a.ethernet _)

theorem take_frame (o : Outgoing) : o.frame.take bufferSize = o.frame :=
  List.take_of_length_le o.length_frame_le

/-- What a receiver reads in a frame that is for it. -/
theorem packetIn?_frame (o : Outgoing) {receiver sender : Endpoint.Config} (ho : o.From sender)
    (hhears : receiver.Hears sender) :
    Station.packetIn? receiver (o.frame.take bufferSize) =
      o.payload?.bind fun payload => (Message.decode payload).toOption := by
  rw [o.take_frame]
  cases o with
  | arp opcode bytes valid => exact Station.packetIn?_arp receiver valid
  | datagram a payload fits =>
    obtain ⟨-, htarget, hport⟩ := ho
    unfold Endpoint.Config.Hears at hhears
    rw [frame, Station.packetIn?_frame receiver a fits, htarget, hport, if_pos hhears]
    rfl

end Outgoing

namespace Station

variable {ρ : Type}

/-! ## Reading what a peer has sent -/

section Reading

variable {change : Message → ρ → ρ} {answer : ρ → Message → List Bytes}
  {s s' : Station MemoryLink ρ} {frame : Bytes} {rest : List Bytes} {answers out : List Outgoing}

/-- An ARP frame leaves the role alone, and is answered by less than it was. -/
theorem Turned.of_arp (h : Turned change answer s s' frame rest answers out) {o : Outgoing}
    (ho : o.frame = frame) (hnone : o.payload? = none) :
    s'.role = s.role ∧ Outgoing.payloads (answers ++ out) = [] ∧
      Outgoing.totalChatter (answers ++ out) < o.chatter := by
  cases o with
  | datagram a payload fits => cases hnone
  | arp opcode bytes valid =>
    have hframe : frame.take bufferSize = bytes := by
      rw [← ho]
      exact (Outgoing.arp opcode bytes valid).take_frame
    have hrole := h.role
    have hsublist := h.sublist
    have hchatter := h.chatter
    have hanswers := h.answers
    rw [hframe, packetIn?_arp s.endpoint.config valid] at hrole hsublist hchatter
    rw [hframe] at hanswers
    have hsilent : Outgoing.totalChatter out = 0 := Nat.le_zero.mp hchatter
    refine ⟨hrole, ?_, ?_⟩
    · have hout : Outgoing.payloads out = [] := List.sublist_nil.mp hsublist
      rcases hanswers with hnil | ⟨-, -, bytes', valid', hone⟩
      · rw [hnil, List.nil_append, hout]
      · rw [hone, Outgoing.payloads_append, hout]
        rfl
    · rw [Outgoing.totalChatter_append, hsilent]
      rcases hanswers with hnil | ⟨-, hopcode, bytes', valid', hone⟩
      · rw [hnil, Outgoing.totalChatter_nil, Outgoing.chatter]
        split
        · omega
        · omega
      · rw [valid.opcode_eq] at hopcode
        rw [hone, Outgoing.chatter, if_pos hopcode]
        exact Nat.lt_succ_self 1

/-- A datagram is handled as the packet it carries, and answered as the role answers. -/
theorem Turned.of_datagram (h : Turned change answer s s' frame rest answers out)
    (hflows : s.endpoint.link.Flows) {o : Outgoing} (ho : o.frame = frame)
    {sender : Endpoint.Config} (hfrom : o.From sender) (hhears : s.endpoint.config.Hears sender)
    {payload : Bytes} (hpayload : o.payload? = some payload) (message : Message)
    (hdecode : Message.decode payload = .ok message) :
    s'.role = change message s.role ∧
      Outgoing.payloads (answers ++ out) = answer s.role message ∧
      Outgoing.totalChatter (answers ++ out) ≤ 2 * (answer s.role message).length := by
  have hpacket : packetIn? s.endpoint.config (frame.take bufferSize) = some message := by
    rw [← ho, o.packetIn?_frame hfrom hhears, hpayload, Option.bind_some, hdecode]
    rfl
  have hnone : answers = [] := by
    rcases h.answers with hnil | ⟨htype, -⟩
    · exact hnil
    · cases o with
      | arp opcode bytes valid => cases hpayload
      | datagram a content fits =>
        rw [← ho, Outgoing.take_frame, Outgoing.frame, Outgoing.etherType_datagram] at htype
        exact absurd htype (by decide)
  have hrole := h.role
  have hcomplete := h.complete hflows
  have hchatter := h.chatter
  rw [hpacket] at hrole hcomplete hchatter
  rw [hnone, List.nil_append]
  exact ⟨hrole, hcomplete, hchatter⟩

end Reading

/-! ## Going on working -/

/-- The station can send and receive, under this configuration. -/
structure Working (config : Endpoint.Config) (s : Station MemoryLink ρ) : Prop where
  accounts : s.endpoint.link.pool.Accounts []
  buffer : s.buffer.length = bufferSize
  config_eq : s.endpoint.config = config
  flows : s.endpoint.link.Flows

/-- Nothing lies on the station's wires, and nothing waits to be sent. -/
structure Silent (s : Station MemoryLink ρ) : Prop where
  inbound : s.endpoint.link.inbound = []
  outbound : s.endpoint.link.outbound = []
  submitted : s.endpoint.link.pool.submitted = []

theorem Silent.pipeline {s : Station MemoryLink ρ} (h : s.Silent) :
    s.endpoint.link.pipeline = [] := by
  rw [MemoryLink.pipeline, TransmitPool.waiting, h.outbound, h.submitted]
  rfl

variable {config : Endpoint.Config} {s s' : Station MemoryLink ρ}

theorem Working.emit (h : Working config s) {out : List Outgoing}
    (hemits : s.endpoint.Emits s'.endpoint out) (hbuffer : s'.buffer.length = bufferSize) :
    Working config s' :=
  ⟨hemits.accounts, hbuffer, hemits.config.trans h.config_eq, h.flows.congr hemits.queued⟩

theorem Working.turned {change : Message → ρ → ρ} {answer : ρ → Message → List Bytes}
    {frame : Bytes} {rest : List Bytes} {answers out : List Outgoing} (h : Working config s)
    (hturned : Turned change answer s s' frame rest answers out) : Working config s' := by
  have hpopped : Working config { s with endpoint := s.popped rest } :=
    ⟨h.accounts, h.buffer, h.config_eq, h.flows.buffers, h.flows.batch⟩
  exact hpopped.emit hturned.emits hturned.buffer

/-- What happens on the wires, or to the role, does not matter. -/
theorem Working.congr (h : Working config s)
    (hpool : s'.endpoint.link.pool = s.endpoint.link.pool)
    (hbatch : s'.endpoint.link.batch = s.endpoint.link.batch) (hbuffer : s'.buffer = s.buffer)
    (hconfig : s'.endpoint.config = s.endpoint.config) : Working config s' := by
  refine ⟨?_, ?_, ?_, ?_, ?_⟩
  · rw [hpool]
    exact h.accounts
  · rw [hbuffer]
    exact h.buffer
  · rw [hconfig]
    exact h.config_eq
  · rw [hpool]
    exact h.flows.buffers
  · rw [hbatch]
    exact h.flows.batch

/-- What was given to a station lies before it. -/
theorem give_eq (frames : List Bytes) (s : Station MemoryLink ρ) :
    Exchange.give frames s =
      { s with endpoint := { s.endpoint with link := { s.endpoint.link with
        inbound := s.endpoint.link.inbound ++ frames } } } := by
  have hfold : ∀ link : MemoryLink,
      frames.foldl (fun link frame => Wired.deliver frame link) link =
        { link with inbound := link.inbound ++ frames } := by
    induction frames with
    | nil =>
      intro link
      rw [List.foldl_nil, List.append_nil]
    | cons frame rest ih =>
      intro link
      rw [List.foldl_cons, ih]
      simp [Wired.deliver, MemoryLink.deliver]
  rw [Exchange.give, hfold]

theorem Intact.give {queue : Nat} (h : Intact queue s) (frames : List Bytes) :
    Intact queue (Exchange.give frames s) := by
  rw [give_eq]
  exact h.congr rfl rfl

theorem Working.give (h : Working config s) (frames : List Bytes) :
    Working config (Exchange.give frames s) := by
  rw [give_eq]
  exact h.congr rfl rfl rfl rfl

theorem Working.turn {change : Message → ρ → ρ} {answer : ρ → Message → List Bytes}
    {handler : Handler MemoryLink ρ} (hplays : Plays change answer handler)
    (h : Working config s) : Working config ((Station.turn handler).state s) :=
  turn_keeps hplays h.accounts h.buffer h h.turned

/-! ## Flushing -/

/-- Only a station with nothing to send has nothing on the wire after a flush. -/
theorem Working.outbound_flushed (h : Working config s)
    (hnone : s.endpoint.flushed.link.outbound = []) :
    s.endpoint.link.outbound = [] ∧ s.endpoint.link.pool.submitted = [] := by
  have hpipeline := (Endpoint.flushed_emits h.accounts).queued.pipeline
  have hsubmitted := Endpoint.submitted_flushed s.endpoint
  have hlength := congrArg List.length hpipeline
  simp only [MemoryLink.pipeline, TransmitPool.waiting, hnone, List.nil_append, List.length_append,
    List.length_map, hsubmitted, List.length_drop, List.length_nil, Nat.add_zero] at hlength
  by_cases hwaiting : s.endpoint.link.pool.submitted = []
  · rw [hwaiting, List.length_nil] at hlength
    exact ⟨List.eq_nil_of_length_eq_zero (by omega), hwaiting⟩
  · have hquota := h.flows.quota_pos hwaiting
    have hpos := List.length_pos_iff.mpr hwaiting
    omega

theorem Working.intact (h : Working config s) : Intact s.endpoint.link.pool.buffers.length s :=
  ⟨h.accounts, rfl, h.buffer⟩

end Station

end RomCast
