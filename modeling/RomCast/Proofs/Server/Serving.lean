import RomCast.Proofs.Endpoint.Asking
import RomCast.Proofs.Server.History
import RomCast.Proofs.Station.Sending

set_option autoImplicit false

/-!
# What a server sends while it is polled

A server that is polled deals with the inbound frames one by one.  In each turn it answers an ARP
question, or streams the content that a request names, or sends nothing (`polled_streams_content`).
A stream is the content: its packets carry the content's slices in order, each once, with nothing
missing and nothing between them; a question for the peer's address goes out before the first of
them if nobody has asked yet.
-/

namespace RomCast.Server

/-! ## The packets of a content -/

/-- Packets that carry a content under a name, slice by slice, of which only the last one says that
it is the last. -/
structure Carries (name : ModuleName) (content : Bytes) (packets : List Bytes) : Prop where
  length_eq : packets.length = (content.length + (maxPayload - 1)) / maxPayload
  slice : ∀ i packet, packets[i]? = some packet → ∃ f : Fragment,
    Message.decode packet = .ok ⟨name, ContentHash.of content, .data f⟩ ∧
      f.contentSize.toNat = content.length ∧
      f.offset.toNat = i * maxPayload ∧
      f.payload = content.slice (i * maxPayload) (min ((i + 1) * maxPayload) content.length) ∧
      f.payloadSize.toNat = f.payload.length ∧
      f.validate = .ok () ∧
      (f.isLast = true ↔ i + 1 = packets.length)

/-- What a server of these contents has to send for a packet: the content that a request names, if
it is served and fits the wire format, and nothing for anything else. -/
def Due (contents : Registry Publication) : Option Message → List Bytes → Prop
  | some ⟨name, _, .update⟩, packets =>
      match contents.find? name with
      | some p =>
          if p.content.length < UInt32.size then Carries name p.content packets else packets = []
      | none => packets = []
  | _, packets => packets = []

theorem chunk_eq_slice (content : Bytes) (i : Nat) :
    chunk content i =
      content.slice (i * maxPayload) (min ((i + 1) * maxPayload) content.length) := by
  rw [chunk, Bytes.slice, List.take_eq_take_iff, List.length_drop, Nat.succ_mul]
  omega

/-- The packets of a publication carry its content. -/
theorem packets_carry (name : ModuleName) {p : Publication} (hp : p.Honest)
    (hlength : p.content.length < UInt32.size) : Carries name p.content (packets name p) := by
  have hcount : (packets name p).length = fragmentCount p.content := by
    rw [packets, if_pos hlength, List.length_map, List.length_range]
  refine ⟨hcount.trans rfl, ?_⟩
  intro i packet hpacket
  have hi : i < fragmentCount p.content := by
    rw [← hcount]
    exact (List.getElem?_eq_some_iff.mp hpacket).1
  have hfragment : packet = fragmentPacket name p i := by
    rw [packets, if_pos hlength, List.getElem?_map, List.getElem?_range hi] at hpacket
    exact (Option.some.inj hpacket).symm
  refine ⟨fragment p.content i, ?_, contentSize_fragment hlength i, offset_fragment hi hlength,
    chunk_eq_slice p.content i, payloadSize_fragment p.content i, validate_fragment hi hlength, ?_⟩
  · rw [hfragment, decode_fragmentPacket, show p.hash = ContentHash.of p.content from hp]
  · rw [isLast_fragment hi hlength, decide_eq_true_iff, hcount]

/-- An honest server answers with what is due. -/
theorem answer_due {contents : Registry Publication} (h : AllHonest contents)
    (packet : Option Message) :
    Due contents packet ((packet.map (answer contents)).getD []) := by
  rcases packet with _ | ⟨name, hash, _ | _ | f⟩
  · rfl
  · rfl
  · unfold Due
    simp only [Option.map_some, Option.getD_some, answer]
    cases hfind : contents.find? name with
    | none => rfl
    | some p =>
      simp only
      by_cases hlength : p.content.length < UInt32.size
      · rw [if_pos hlength]
        exact packets_carry name (h name p hfind) hlength
      · rw [if_neg hlength, packets, if_neg hlength]
  · rfl

/-! ## Sending them -/

/-- An endpoint that has sent packets, one in each of these datagrams, behind the question that had
to be asked before the first of them. -/
structure Sends (e e' : Endpoint.OnMemory) (packets : List Bytes) (datagrams : List Outgoing) :
    Prop where
  emits : e.Emits e' ((if packets = [] then [] else e.questions) ++ datagrams)
  carried : datagrams.map Outgoing.payload? = packets.map some

theorem sends_nothing {e : Endpoint.OnMemory} (h : e.link.pool.Accounts []) : Sends e e [] [] :=
  ⟨Endpoint.emits_refl h, rfl⟩

section Sources

variable {σ : Type} [ContentSource σ]

theorem streamFrom_sends (now : Nat) (name : ModuleName) (source : σ) (n i offset : Nat)
    (hcount : i + n = sourceCount source) (hoffset : n ≠ 0 → offset = i * maxPayload)
    (e : Endpoint.OnMemory) (h : e.link.pool.Accounts []) (hflows : e.link.Flows) :
    ∃ e' datagrams, (streamFrom now name source (ContentSource.size source)
        (ContentSource.hash source) n offset : Action FrameError Endpoint.OnMemory Unit) e =
          .ok () e' ∧
      Sends e e' ((List.range' i n).map (sourcePacket name source)) datagrams := by
  induction n generalizing i offset e with
  | zero => exact ⟨e, [], rfl, sends_nothing h⟩
  | succ n ih =>
    obtain rfl : offset = i * maxPayload := hoffset (Nat.succ_ne_zero n)
    obtain ⟨e₁, a, fits, hsent, hemits, hresolver⟩ :=
      Endpoint.transmit_asks now (dataOverhead + room source i)
        (writeFragment_fills name source i) (length_sourcePacket_le name source i)
        (room_le_maxDatagram source i) e h hflows
    obtain ⟨e', datagrams, hrest, hsends⟩ := ih (i + 1) (i * maxPayload + room source i)
      (by omega) (fun hn => next_start (by omega)) e₁ hemits.accounts
      (hflows.congr hemits.queued)
    -- The question before the first datagram has been noted, so that there is no other one.
    have hquestions : e₁.questions = [] := by
      refine Endpoint.questions_of_asked ?_
      rw [hresolver]
      exact Resolver.needsRequest_asked e.resolver now
    refine ⟨e', .datagram a (sourcePacket name source i) fits :: datagrams, ?_, ?_, ?_⟩
    · rw [streamFrom_succ now name source n i (by omega), Action.bind_apply, hsent]
      exact hrest
    · have hall := hemits.trans hsends.emits
      rw [hquestions, ite_self, List.nil_append, List.append_assoc] at hall
      rw [List.range'_succ, List.map_cons, if_neg (List.cons_ne_nil _ _)]
      exact hall
    · rw [List.range'_succ, List.map_cons, List.map_cons, List.map_cons, hsends.carried]
      rfl

theorem stream_sends (now : Nat) (name : ModuleName) (source : σ) (e : Endpoint.OnMemory)
    (h : e.link.pool.Accounts []) (hflows : e.link.Flows) :
    ∃ e' datagrams, (stream now name source : Action FrameError Endpoint.OnMemory Unit) e =
        .ok () e' ∧ Sends e e' (sourcePackets name source) datagrams := by
  refine stream_of now name source (sends_nothing h) ?_ ?_
  · exact streamFrom_sends now name source (sourceCount source) 0 0 (Nat.zero_add _)
      (fun _ => (Nat.zero_mul _).symm) e h hflows
  · intro e₁ packets datagrams hsends
    exact ⟨hsends.emits.flush, hsends.carried⟩

theorem handler_sends (now : Nat) (message : Message) (e : Endpoint.OnMemory)
    (contents : Registry σ) (h : e.link.pool.Accounts []) (hflows : e.link.Flows) :
    ∃ e' datagrams, (handler now message).state (e, contents) = (e', contents) ∧
      Sends e e' (reply contents message) datagrams :=
  handler_of now message contents (sends_nothing h)
    fun source => stream_sends now message.module source e h hflows

theorem handler_conveys (now : Nat) :
    Station.Conveys (fun _ (contents : Registry σ) => contents) reply (handler now) := by
  intro message e contents h hflows
  obtain ⟨e', datagrams, hstate, hsends⟩ := handler_sends now message e contents h hflows
  refine ⟨e', datagrams, hstate, ?_, hsends.carried⟩
  have hnone : datagrams = [] ↔ reply contents message = [] := by
    rw [← List.map_eq_nil_iff, hsends.carried, List.map_eq_nil_iff]
  simp only [hnone]
  exact hsends.emits

end Sources

/-! ## Turn by turn -/

/-- What a server sends in one turn: the answer to an ARP question, the question before a stream,
and the datagrams of the stream with their packets. -/
structure Turn where
  replies : List Outgoing
  questions : List Outgoing
  datagrams : List Outgoing
  packets : List Bytes

/-- The bytes on the wire. -/
def Turn.frames (t : Turn) : List Bytes :=
  (t.replies ++ (t.questions ++ t.datagrams)).map Outgoing.frame

/-- What a server of these contents sends when it reads a frame: at most an answer to the ARP
question that the frame is, and the packets that are due for the packet in it; and a question for
the peer's address only before the first of them, and only if nobody has asked yet then. -/
structure Serves (contents : Registry Publication) (s : Server MemoryLink Publication)
    (frame : Bytes) (t : Turn) : Prop where
  replies : Endpoint.Answers (frame.take bufferSize) t.replies
  questions : t.questions = if t.packets = [] then [] else (Station.afterRead s).endpoint.questions
  carried : t.datagrams.map Outgoing.payload? = t.packets.map some
  due : Due contents (Station.packet? s) t.packets

/-- A request is answered with the content that it names. -/
theorem Serves.carries {contents : Registry Publication} {s : Server MemoryLink Publication}
    {frame : Bytes} {t : Turn} (h : Serves contents s frame t) {name : ModuleName}
    {hash : ContentHash} (hpacket : Station.packet? s = some ⟨name, hash, .update⟩)
    {p : Publication} (hfind : contents.find? name = some p)
    (hlength : p.content.length < UInt32.size) : Carries name p.content t.packets := by
  have hdue := h.due
  rw [hpacket] at hdue
  simp only [Due, hfind] at hdue
  rwa [if_pos hlength] at hdue

/-- What is sent in a turn, with the packets that it carries. -/
def Turn.of (t : Station.Sent) : Turn :=
  ⟨t.replies, t.questions, t.datagrams, Outgoing.payloads t.datagrams⟩

/-- A server that answers what it reads sends what is due. -/
theorem Serves.of {contents : Registry Publication} (hhonest : AllHonest contents)
    {config : Endpoint.Config} {s : Server MemoryLink Publication} {frame : Bytes}
    {t : Station.Sent} (h : Station.SendsFor config (answer contents) s frame t) :
    Serves contents s frame (Turn.of t) := by
  have hpackets : Outgoing.payloads t.datagrams =
      Station.answersIn config (answer contents) frame := by
    have hpayloads : Outgoing.payloads t.datagrams =
        (t.datagrams.map Outgoing.payload?).filterMap id := by
      rw [List.filterMap_map]
      rfl
    rw [hpayloads, h.carried, List.filterMap_map]
    exact List.filterMap_some
  have hcarried : t.datagrams.map Outgoing.payload? =
      (Outgoing.payloads t.datagrams).map some := by
    rw [hpackets]
    exact h.carried
  have hnone : Outgoing.payloads t.datagrams = [] ↔ t.datagrams = [] := by
    rw [← List.map_eq_nil_iff (f := some), ← hcarried, List.map_eq_nil_iff]
  refine ⟨h.replies, ?_, hcarried, ?_⟩
  · simp only [Turn.of, hnone]
    exact h.questions
  · have hdue := answer_due hhonest (Station.packet? s)
    rw [h.read] at hdue ⊢
    show Due contents _ (Outgoing.payloads t.datagrams)
    rw [hpackets]
    exact hdue

/-- The inbound frames are dealt with one by one, each as the state finds it that the earlier ones
have left. -/
theorem turns_serve {queue : Nat} (now : Nat) {s : Server MemoryLink Publication}
    (h : Sound queue s) (hflows : s.endpoint.link.Flows) :
    ∃ turns : List Turn,
      let frames := s.endpoint.link.inbound
      let s' := Station.afterTurns (handler now) frames.length s
      s'.endpoint.link.inbound = [] ∧ turns.length = frames.length ∧
      s'.endpoint.link.pipeline = s.endpoint.link.pipeline ++ turns.flatMap Turn.frames ∧
      ∀ (k : Nat) frame t, frames[k]? = some frame → turns[k]? = some t →
        Serves s.role (Station.afterTurns (handler now) k s) frame t := by
  obtain ⟨sent, -, hnone, hlength, hpipeline, -, hall⟩ :=
    Station.turns_send (handler_conveys (σ := Publication) now) (fun _ _ => rfl) _ h.intact hflows
      rfl
  refine ⟨sent.map Turn.of, hnone, (List.length_map _).trans hlength, ?_, ?_⟩
  · rw [List.flatMap_map]
    exact hpipeline
  · intro k frame t hframe ht
    rw [List.getElem?_map] at ht
    obtain ⟨t', ht', rfl⟩ := Option.map_eq_some_iff.mp ht
    have hsends := hall k frame t' hframe ht'
    rw [reply_publication] at hsends
    exact Serves.of h.honest hsends

/-! ## Polling -/

/-- What polling a server comes to: all inbound frames are read, and what was submitted is what was
sent turn by turn. -/
structure Polled (now : Nat) (s s' : Server MemoryLink Publication) (turns : List Turn) : Prop where
  result : Server.poll now s = .ok s.endpoint.link.inbound.length s'
  inbound : s'.endpoint.link.inbound = []
  role : s'.role = s.role
  pipeline : s'.endpoint.link.pipeline = s.endpoint.link.pipeline ++ turns.flatMap Turn.frames
  length_eq : turns.length = s.endpoint.link.inbound.length
  serves : ∀ (k : Nat) frame t, s.endpoint.link.inbound[k]? = some frame → turns[k]? = some t →
    Serves s.role (Station.afterTurns (handler now) k s) frame t

/-- Whatever has happened to a server, when it is polled on a link that has buffers and does not
stand still, every request is answered with the whole content that it names, and beside the streams
there are only answers to ARP questions and the questions that had to be asked. -/
theorem polled_streams_content (setup : Exchange.Setup) (hqueue : 0 < setup.queue)
    (history : List Incident) (now : Nat) :
    let s := afterAll (Server.new setup.endpoint) history
    s.endpoint.link.batch ≠ some 0 → ∃ s' turns, Polled now s s' turns := by
  intro s hbatch
  have hsound : Sound setup.queue s := (sound_new setup).run history
  have hflows : s.endpoint.link.Flows := ⟨hsound.buffers ▸ hqueue, hbatch⟩
  obtain ⟨turns, hinbound, hlength, hpipeline, hserves⟩ := turns_serve now hsound hflows
  have hpoll := hsound.intact.poll_eq (handler_plays now)
  have hafter := (hsound.intact.afterTurns (handler_plays now)
    s.endpoint.link.inbound.length).accounts
  refine ⟨_, turns, hpoll, ?_, afterTurns_role now _ s, ?_, hlength, hserves⟩
  · exact (Endpoint.flushed_emits hafter).queued.inbound.trans hinbound
  · exact (Endpoint.pipeline_flushed hafter).trans hpipeline

namespace OneRequest

def rom : ModuleName := ⟨"rom", ModuleName.valid_rom⟩

/-- A server that knows its client's address but not its hardware address, with one buffer. -/
def setup : Exchange.Setup where
  mac := Mac.zero
  queue := 1
  batch := some 1
  config := { target := some (Ipv4Address.ofBytes [10, 0, 0, 2]) }

/-- The client's request. -/
def request : Bytes :=
  ({ sourceMac := Mac.zero, targetMac := Mac.broadcast, source := Ipv4Address.ofBytes [10, 0, 0, 3],
     target := Ipv4Address.broadcast, identification := 1, port := Endpoint.defaultPort,
     withChecksum := true } : Endpoint.Addressing).frame
    (controlPacket .update rom ContentHash.zero)

/-- Three bytes are served, and are asked for. -/
def history : List Incident :=
  [.register rom true (some [1, 2, 3]), .endpoint (.deliver request)]

/-- The server before it is polled. -/
def server : Server MemoryLink Publication := afterAll (Server.new setup.endpoint) history

end OneRequest

/-- The request is read as one, and the content goes out in one packet behind a question. -/
theorem polled_streams_requested :
    Station.packet? OneRequest.server = some ⟨OneRequest.rom, ContentHash.zero, .update⟩ ∧
      ∃ s' t, Polled 0 OneRequest.server s' [t] ∧ t.packets.length = 1 ∧
        t.questions.length = 1 := by
  have hpacket : Station.packet? OneRequest.server =
      some ⟨OneRequest.rom, ContentHash.zero, .update⟩ := by decide +kernel
  have hinbound : OneRequest.server.endpoint.link.inbound = [OneRequest.request] := rfl
  obtain ⟨s', turns, hpolled⟩ :=
    polled_streams_content OneRequest.setup (by decide) OneRequest.history 0 (by decide)
  have hlength := hpolled.length_eq
  rw [show afterAll (Server.new OneRequest.setup.endpoint) OneRequest.history = OneRequest.server
    from rfl] at hpolled hlength
  rw [hinbound] at hlength
  obtain ⟨t, rfl⟩ := List.length_eq_one_iff.mp hlength
  have hserves : Serves OneRequest.server.role OneRequest.server OneRequest.request t :=
    hpolled.serves 0 OneRequest.request t (by rw [hinbound]; rfl) rfl
  have hfind : OneRequest.server.role.find? OneRequest.rom =
      some (Publication.new OneRequest.rom true (some [1, 2, 3])) := rfl
  have hone : t.packets.length = 1 := (hserves.carries hpacket hfind (by decide)).length_eq
  have hquestions := hserves.questions
  have hsome : t.packets ≠ [] := by
    intro hnil
    rw [hnil] at hone
    cases hone
  rw [if_neg hsome] at hquestions
  refine ⟨hpacket, s', t, hpolled, hone, ?_⟩
  rw [hquestions]
  have hasked : (Station.afterRead OneRequest.server).endpoint.questions.length = 1 := by
    decide +kernel
  exact hasked

end RomCast.Server
