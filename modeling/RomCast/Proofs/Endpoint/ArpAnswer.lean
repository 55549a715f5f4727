import RomCast.Proofs.Endpoint.Backpressure
import RomCast.Proofs.Endpoint.Delivery
import RomCast.Proofs.Endpoint.PeerOrigin

set_option autoImplicit false

/-!
# Which frames are answered

A question for the local address is answered with one frame, byte by byte the question turned
around; no other frame is answered, and none changes the buffer it came in
(`questions_answered_once`).  What a frame makes of the resolver is read off its bytes as well
(`Learned`).
-/

namespace RomCast

theorem Mac.eq_ofBytes {mac : Mac} {b : Bytes} (h : mac.bytes = b) : mac = Mac.ofBytes b := by
  rw [← h, ← List.append_nil mac.bytes, Mac.ofBytes_append]

theorem Ipv4Address.map_bytes_eq_some {a? : Option Ipv4Address} {a : Ipv4Address} :
    a?.map Ipv4Address.bytes = some a.bytes ↔ a? = some a := by
  cases a? with
  | none => simp
  | some b => simp [Ipv4Address.bytes_inj]

namespace Resolver

variable {r : Resolver} {ip : Ipv4Address} {mac : Mac}

theorem handleReply_of_awaited (hstate : r.state.IsAwaiting) (htarget : r.target = some ip)
    (mac : Mac) : (r.handleReply ip mac).2 = { r with state := .resolved mac } := by
  obtain ⟨attempts, lastSent, hawaiting⟩ := hstate
  simp only [handleReply, hawaiting, if_pos htarget]

theorem handleReply_of_not (h : ¬ (r.state.IsAwaiting ∧ r.target = some ip)) (mac : Mac) :
    (r.handleReply ip mac).2 = r := by
  unfold handleReply
  cases hstate : r.state with
  | idle => rfl
  | resolved known => rfl
  | awaiting attempts lastSent =>
    have htarget : r.target ≠ some ip := fun htarget => h ⟨⟨_, _, hstate⟩, htarget⟩
    simp only [if_neg htarget]

theorem learn_of_open (hstate : ¬ r.state.IsResolved) (htarget : r.target = some ip)
    (hmac : mac.IsUsable) : (r.learn ip mac).2 = { r with state := .resolved mac } := by
  unfold learn
  have hcounts : r.target = some ip ∧ mac ≠ Mac.broadcast ∧ mac ≠ Mac.zero := ⟨htarget, hmac⟩
  cases hcase : r.state with
  | idle => simp only [if_pos hcounts]
  | awaiting attempts lastSent => simp only [if_pos hcounts]
  | resolved known => exact absurd ⟨known, hcase⟩ hstate

theorem learn_of_not (h : ¬ (¬ r.state.IsResolved ∧ r.target = some ip ∧ mac.IsUsable)) :
    (r.learn ip mac).2 = r := by
  rcases r.learns_learn ip mac with hsame | ⟨hopen, hlearned⟩
  · exact hsame
  · -- Otherwise the address would have counted.
    have hresolved : (r.learn ip mac).2.state = .resolved mac := by rw [hlearned]
    rcases (learn_resolved r ip mac mac).mp hresolved with hknown | ⟨-, htarget, husable, -⟩
    · exact absurd ⟨mac, hknown⟩ hopen
    · exact absurd ⟨hopen, htarget, husable⟩ h

end Resolver

/-- What stands behind a header is none of its business. -/
theorem LawfulHeader.decode_append {α : Type} [Header α] [LawfulHeader α] {bytes : Bytes}
    (h : Header.encode (Header.decode bytes : α) = bytes) (rest : Bytes) :
    (Header.decode (bytes ++ rest) : α) = Header.decode bytes := by
  conv_lhs => rw [← h]
  exact LawfulHeader.decode_encode_append _ rest

namespace Endpoint

open RomCast.Action (Keeps)

/-! ## Questions and their answers -/

/-- A frame with an ARP packet for Ethernet and IPv4, of this opcode. -/
structure ArpFor (opcode : UInt16) (frame : Bytes) : Prop where
  long : 42 ≤ frame.length
  etherType : frame.word16 12 = 0x0806
  hardwareType : frame.word16 14 = 1
  protocolType : frame.word16 16 = 0x0800
  hardwareLength : frame.byteAt 18 = 6
  protocolLength : frame.byteAt 19 = 4
  opcode : frame.word16 20 = opcode

/-- A frame that asks who has this address. -/
structure AsksFor (owner : Ipv4Address) (frame : Bytes) : Prop where
  arp : ArpFor 1 frame
  target : frame.slice 38 42 = owner.bytes

/-- The question turned around: to where the frame came from, and from here; with the same kinds of
addresses, and the opcode of an answer; about the address asked for, and to whoever asked. -/
def answerTo (mac : Mac) (owner : Ipv4Address) (question : Bytes) : Bytes :=
  question.slice 6 12 ++ (mac.bytes ++ (question.slice 12 20 ++ ([0, 2] ++
    (mac.bytes ++ (owner.bytes ++ (question.slice 22 28 ++ question.slice 28 32))))))

theorem length_answerTo (mac : Mac) (owner : Ipv4Address) {question : Bytes}
    (h : 42 ≤ question.length) : (answerTo mac owner question).length = 42 := by
  simp only [answerTo, List.length_append, Mac.length_bytes, Ipv4Address.length_bytes,
    List.length_cons, List.length_nil]
  rw [Bytes.length_slice (by omega), Bytes.length_slice (by omega), Bytes.length_slice (by omega),
    Bytes.length_slice (by omega)]

section Frame

variable {frame : Bytes} {opcode : UInt16} {owner : Ipv4Address}

theorem isEthernetIpv4_arpAt_iff (h : 42 ≤ frame.length) :
    (arpAt frame).isEthernetIpv4 = true ↔ frame.word16 14 = 1 ∧ frame.word16 16 = 0x0800 ∧
      frame.byteAt 18 = 6 ∧ frame.byteAt 19 = 4 := by
  rw [ArpPacket.isEthernetIpv4, hardwareType_arpAt h, protocolType_arpAt h,
    hardwareLength_arpAt, protocolLength_arpAt]
  simp only [Bool.and_eq_true, decide_eq_true_eq, and_assoc]
  rfl

theorem arpFor_iff (hlong : 42 ≤ frame.length) (htype : frame.word16 12 = etherTypeArp) :
    ArpFor opcode frame ↔
      (arpAt frame).isEthernetIpv4 = true ∧ (arpAt frame).opcode = opcode := by
  rw [isEthernetIpv4_arpAt_iff hlong, opcode_arpAt hlong]
  constructor
  · intro h
    exact ⟨⟨h.hardwareType, h.protocolType, h.hardwareLength, h.protocolLength⟩, h.opcode⟩
  · rintro ⟨⟨hhardware, hprotocol, hlength, hlength'⟩, hop⟩
    exact ⟨hlong, htype, hhardware, hprotocol, hlength, hlength', hop⟩

theorem asksFor_iff (hlong : 42 ≤ frame.length) (htype : frame.word16 12 = etherTypeArp) :
    AsksFor owner frame ↔ (arpAt frame).isEthernetIpv4 = true ∧
      (arpAt frame).opcode = ArpPacket.opRequest ∧ (arpAt frame).targetIp = owner := by
  have harp : ArpFor 1 frame ↔ _ := arpFor_iff hlong htype
  rw [← Ipv4Address.bytes_inj, bytes_targetIp_arpAt hlong, ← and_assoc]
  exact ⟨fun h => ⟨harp.mp h.arp, h.target⟩, fun h => ⟨harp.mpr h.1, h.2⟩⟩

/-- The packet behind the Ethernet header is turned around first, and then the header. -/
theorem answerInPlace_eq (mac : Mac) (h : 42 ≤ frame.length) :
    answerInPlace mac frame =
      Header.encode ({ ethernetAt frame with
        target := (ethernetAt frame).source, source := mac } : EthernetHeader) ++
      (Header.encode ((arpAt frame).reply mac) ++ frame.drop 42) := by
  have hfront : (frame.slice 0 14).length = 14 := Bytes.length_slice (by omega)
  have hbehind : (frame.slice 14 42).length = 28 := Bytes.length_slice h
  have hsplit : frame = frame.slice 0 14 ++ (frame.slice 14 42 ++ frame.drop 42) := by
    rw [← List.append_assoc, Bytes.slice_append_slice frame (by omega) (by omega)]
    exact (List.take_append_drop 42 frame).symm
  have hpacket := modifyAt_append (frame.slice 0 14) (frame.slice 14 42) (frame.drop 42) hbehind
    fun p : ArpPacket => p.reply mac
  rw [LawfulHeader.decode_append (ArpPacket.encode_decode hbehind), hfront, ← hsplit] at hpacket
  have hheader := modifyAt_append [] (frame.slice 0 14)
    (Header.encode ((arpAt frame).reply mac) ++ frame.drop 42) hfront
    fun h : EthernetHeader => { h with target := h.source, source := mac }
  rw [LawfulHeader.decode_append (EthernetHeader.encode_decode hfront)] at hheader
  unfold answerInPlace
  rw [show ipv4Start = 14 from rfl, hpacket]
  exact hheader

/-- What stands in the buffer afterwards: the answer, and behind it what stood there before. -/
theorem answerInPlace_of_asksFor (mac : Mac) (h : AsksFor owner frame) :
    answerInPlace mac frame = answerTo mac owner frame ++ frame.drop 42 := by
  have hlong := h.arp.long
  have hethernet : Header.encode ({ ethernetAt frame with
      target := (ethernetAt frame).source, source := mac } : EthernetHeader) =
        frame.slice 6 12 ++ (mac.bytes ++ frame.slice 12 14) := by
    rw [← @bytes_source_ethernetAt frame (by omega),
      ← Bytes.ofWord16_word16_slice (b := frame) (n := 12) (by omega),
      ← @etherType_ethernetAt frame (by omega)]
    rfl
  have hpacket : Header.encode ((arpAt frame).reply mac) =
      frame.slice 14 16 ++ (frame.slice 16 18 ++ (frame.slice 18 20 ++ ([0, 2] ++
        (mac.bytes ++ (owner.bytes ++ (frame.slice 22 28 ++ frame.slice 28 32)))))) := by
    have hop : ([0, 2] : Bytes) = Bytes.ofWord16 ArpPacket.opReply := by decide
    rw [hop, ← h.target, ← bytes_targetIp_arpAt hlong, ← bytes_senderMac_arpAt hlong,
      ← bytes_senderIp_arpAt hlong, ← Bytes.ofWord16_word16_slice (b := frame) (n := 14) (by omega),
      ← Bytes.ofWord16_word16_slice (b := frame) (n := 16) (by omega),
      ← Bytes.pair_byteAt (b := frame) (n := 18) (by omega), ← hardwareType_arpAt hlong,
      ← protocolType_arpAt hlong, ← hardwareLength_arpAt, ← protocolLength_arpAt]
    rfl
  have hkinds : frame.slice 12 20 =
      frame.slice 12 14 ++ (frame.slice 14 16 ++ (frame.slice 16 18 ++ frame.slice 18 20)) := by
    rw [Bytes.slice_append_slice frame (by omega) (by omega),
      Bytes.slice_append_slice frame (by omega) (by omega),
      Bytes.slice_append_slice frame (by omega) (by omega)]
  rw [answerInPlace_eq mac hlong, hethernet, hpacket, answerTo, hkinds]
  simp only [List.append_assoc]

end Frame

/-! ## What becomes of the frame and of the link -/

section Handling

variable {L : Type} [Transport L] {e : Endpoint L} {frame : Bytes}

/-- Nothing was sent, nothing was dropped, and the frame stands in its buffer as it came in. -/
structure Quiet (e : Endpoint L) (frame : Bytes) (s : Endpoint L × Bytes) : Prop where
  link : s.1.link = e.link
  txFrames : s.1.counters.txFrames = e.counters.txFrames
  txDropped : s.1.counters.txDropped = e.counters.txDropped
  buffer : s.2 = frame

/-- A frame that asks nothing leaves its buffer as it is, and has nothing sent. -/
theorem dispatch_quiet (hnone : ∀ owner, e.config.source = some owner → ¬ AsksFor owner frame) :
    Quiet e frame (dispatch.state (e, frame)) := by
  rcases Nat.lt_or_ge frame.length 14 with hshort | hfront
  · rw [Action.state_of_error (dispatch_of_short e hshort)]
    exact ⟨rfl, rfl, rfl, rfl⟩
  by_cases harp : frame.word16 12 = etherTypeArp
  · rw [Action.state_congr (dispatch_of_arp e hfront harp), Action.state_bind_pure]
    rcases Nat.lt_or_ge frame.length 42 with hshort | hlong
    · rw [Action.state_of_error (receiveArp_of_short e hshort)]
      exact ⟨rfl, rfl, rfl, rfl⟩
    by_cases hreply : (arpAt frame).isEthernetIpv4 = true ∧
        (arpAt frame).opcode = ArpPacket.opReply
    · rw [Action.state_of_ok (receiveArp_of_reply e hlong hreply.1 hreply.2)]
      exact ⟨rfl, rfl, rfl, rfl⟩
    · have hquestion : ¬ ((arpAt frame).isEthernetIpv4 = true ∧
          (arpAt frame).opcode = ArpPacket.opRequest ∧
          e.config.source = some (arpAt frame).targetIp) := by
        rintro ⟨hkind, hop, hmine⟩
        exact hnone _ hmine ((asksFor_iff hlong harp).mpr ⟨hkind, hop, rfl⟩)
      rw [Action.state_of_ok (receiveArp_of_other e hlong hquestion hreply)]
      exact ⟨rfl, rfl, rfl, rfl⟩
  by_cases hip : frame.word16 12 = etherTypeIpv4
  · rw [Action.state_congr (dispatch_of_ipv4 e hfront hip)]
    have hkeeps : Keeps (fun e' : Endpoint L => Quiet e frame (e', frame))
        (receiveIpv4 (ethernetAt frame).source frame) := by
      refine Indifferent.receiveIpv4 ⟨?_, ?_⟩ _ frame
      · exact fun _ _ h => ⟨h.link, h.txFrames, h.txDropped, rfl⟩
      · exact fun _ _ h => ⟨h.link, h.txFrames, h.txDropped, rfl⟩
    rw [Action.state_onFirst]
    exact hkeeps e ⟨rfl, rfl, rfl, rfl⟩
  · rw [Action.state_of_ok (dispatch_of_other e hfront harp hip)]
    exact ⟨rfl, rfl, rfl, rfl⟩

theorem handle_quiet (hnone : ∀ owner, e.config.source = some owner → ¬ AsksFor owner frame) :
    Quiet e frame (handle.state (e, frame)) := by
  obtain ⟨delivered, dropped, hstate⟩ := state_handle e frame
  rw [hstate]
  obtain ⟨hlink, hframes, hdropped, hbuffer⟩ :=
    dispatch_quiet (e := { e with counters.rxFrames := e.counters.rxFrames + 1 }) hnone
  exact ⟨hlink, hframes, hdropped, hbuffer⟩

/-- A question is turned around in its buffer, and sent from there. -/
theorem dispatch_of_asksFor {owner : Ipv4Address} (hmine : e.config.source = some owner)
    (hasks : AsksFor owner frame) :
    dispatch.state (e, frame) =
      ((send ((answerInPlace (Transport.mac e.link) frame).take 42) >>= fun sent =>
          if sent then count fun c => { c with arpReplies := c.arpReplies + 1 } else pure () :
            Action FrameError (Endpoint L) Unit).state e,
        answerInPlace (Transport.mac e.link) frame) := by
  have hlong := hasks.arp.long
  have htype : frame.word16 12 = etherTypeArp := hasks.arp.etherType
  obtain ⟨hkind, hop, htarget⟩ := (asksFor_iff hlong htype).mp hasks
  rw [Action.state_congr (dispatch_of_arp e (by omega) htype), Action.state_bind_pure,
    Action.state_congr (receiveArp_of_question e hlong hkind hop (htarget ▸ hmine)),
    Action.state_onFirst]

end Handling

/-- On a link that flows a question is answered, from the buffer that it came in. -/
theorem handle_of_asksFor {e : OnMemory} {frame : Bytes} {owner : Ipv4Address}
    (h : e.link.pool.Accounts []) (hflows : e.link.Flows) (hmine : e.config.source = some owner)
    (hasks : AsksFor owner frame) :
    let s := handle.state (e, frame)
    s.1.link.pipeline = e.link.pipeline ++ [answerTo e.link.mac owner frame] ∧
      s.1.counters.txFrames = e.counters.txFrames + 1 ∧
      s.2 = answerTo e.link.mac owner frame ++ frame.drop 42 := by
  intro s
  have hlong := hasks.arp.long
  have htype : frame.word16 12 = etherTypeArp := hasks.arp.etherType
  let counted : OnMemory := { e with counters.rxFrames := e.counters.rxFrames + 1 }
  have hplace := answerInPlace_of_asksFor e.link.mac hasks
  have htake : (answerInPlace e.link.mac frame).take 42 = answerTo e.link.mac owner frame := by
    rw [hplace, ← length_answerTo e.link.mac owner hlong, List.take_left]
  obtain ⟨sent, e₁, hsend, hemits, hsent⟩ := send_emits
    (.arp ArpPacket.opReply _ (answerInPlace_arpFrame e.link.mac hlong htype)) counted h trivial
  obtain rfl := hsent hflows
  rw [Outgoing.frame] at hsend
  have hends := send_ends ((answerInPlace e.link.mac frame).take 42) counted
  rw [hsend] at hends
  have hstate : dispatch.state (counted, frame) =
      ({ e₁ with counters.arpReplies := e₁.counters.arpReplies + 1 },
        answerInPlace e.link.mac frame) := by
    rw [dispatch_of_asksFor (e := counted) hmine hasks]
    exact congrArg (·, answerInPlace e.link.mac frame) (Action.state_bind_of_ok hsend)
  obtain ⟨delivered, dropped, hhandle⟩ := state_handle e frame
  rw [hstate] at hhandle
  refine ⟨?_, ?_, ?_⟩
  · rw [← htake]
    show (handle.state (e, frame)).1.link.pipeline = _
    rw [hhandle]
    exact hemits.queued.pipeline
  · show (handle.state (e, frame)).1.counters.txFrames = _
    rw [hhandle]
    exact congrArg (fun e' : OnMemory => e'.counters.txFrames) hends
  · rw [← hplace]
    show (handle.state (e, frame)).2 = _
    rw [hhandle]

/-! ## What becomes of the resolver -/

/-- An awaited answer about the peer. -/
structure AwaitedReply (r : Resolver) (frame : Bytes) : Prop where
  arp : ArpFor 2 frame
  awaited : r.state.IsAwaiting
  peer : r.target.map Ipv4Address.bytes = some (frame.slice 28 32)

/-- A packet of the peer for this host, from an address that a card can have, while the peer's is
open. -/
structure PeerPacket (source : Option Ipv4Address) (r : Resolver) (frame : Bytes) : Prop where
  packet : Ipv4For source frame
  unresolved : ¬ r.state.IsResolved
  peer : r.target.map Ipv4Address.bytes = some (frame.slice 26 30)
  usable : (Mac.ofBytes (frame.slice 6 12)).IsUsable

/-- What becomes of a resolver by a frame that comes to a host with this address. -/
inductive Learned (source : Option Ipv4Address) (r : Resolver) (frame : Bytes) :
    Resolver → Prop where
  | reply (h : AwaitedReply r frame) :
      Learned source r frame { r with state := .resolved (Mac.ofBytes (frame.slice 22 28)) }
  | packet (h : PeerPacket source r frame) :
      Learned source r frame { r with state := .resolved (Mac.ofBytes (frame.slice 6 12)) }
  | nothing (hreply : ¬ AwaitedReply r frame) (hpacket : ¬ PeerPacket source r frame) :
      Learned source r frame r

section Learning

variable {config : Config} {r : Resolver} {frame : Bytes}

theorem tidings?_of_reply (config : Config) (h : ArpFor 2 frame) :
    config.tidings? frame =
      some (.answer (arpAt frame).senderIp (arpAt frame).senderMac) := by
  have hlong := h.long
  have htype : frame.word16 12 = etherTypeArp := h.etherType
  have hkind := (arpFor_iff hlong htype).mp h
  unfold Config.tidings? arpTidings?
  rw [readFront_ethernetAt, if_pos (by omega), read_arpAt, if_pos hlong]
  simp only [etherType_ethernetAt (show 14 ≤ frame.length by omega), if_pos htype]
  exact if_pos hkind

theorem tidings?_of_packet (h : Ipv4For config.source frame) :
    config.tidings? frame =
      some (.traffic (ipv4At frame).source (ethernetAt frame).source) := by
  have hlong := h.sound.long
  have htype : frame.word16 12 = etherTypeIpv4 := h.etherType
  have hnotArp : etherTypeIpv4 ≠ etherTypeArp := by decide
  have hcheck := (checkIpv4_eq_ok_iff frame _).mpr ⟨h.sound, rfl⟩
  have haccepts := (accepts_ipv4At_iff config hlong).mpr h.target
  unfold Config.tidings? Config.ipv4Tidings?
  rw [readFront_ethernetAt, if_pos (by omega), hcheck]
  simp only [etherType_ethernetAt (show 14 ≤ frame.length by omega), htype, if_neg hnotArp,
    if_true, haccepts]

theorem tidings?_of_neither (hreply : ¬ ArpFor 2 frame) (hpacket : ¬ Ipv4For config.source frame) :
    config.tidings? frame = none := by
  unfold Config.tidings? arpTidings? Config.ipv4Tidings?
  rw [readFront_ethernetAt, read_arpAt]
  by_cases hfront : 14 ≤ frame.length
  · simp only [if_pos hfront, etherType_ethernetAt hfront]
    by_cases harp : frame.word16 12 = etherTypeArp
    · rw [if_pos harp]
      by_cases hlong : 42 ≤ frame.length
      · rw [if_pos hlong]
        exact if_neg fun hkind => hreply ((arpFor_iff hlong harp).mpr hkind)
      · rw [if_neg hlong]
    rw [if_neg harp]
    by_cases hip : frame.word16 12 = etherTypeIpv4
    · rw [if_pos hip]
      cases hcheck : checkIpv4 frame with
      | error cause => rfl
      | ok ip =>
        obtain ⟨hsound, rfl⟩ := (checkIpv4_eq_ok_iff frame ip).mp hcheck
        refine if_neg fun haccepts => hpacket ⟨hip, hsound, ?_⟩
        exact (accepts_ipv4At_iff config hsound.long).mp haccepts
    · rw [if_neg hip]
  · rw [if_neg hfront]

/-- Every resolver becomes by a frame what the frame's bytes say. -/
theorem heed_learned (config : Config) (r : Resolver) (frame : Bytes) :
    Learned config.source r frame (r.heed (config.tidings? frame)) := by
  by_cases harp : ArpFor 2 frame
  · have hnot : ¬ PeerPacket config.source r frame := by
      intro h
      have htype := h.packet.etherType
      rw [harp.etherType] at htype
      cases htype
    have hmac : (arpAt frame).senderMac = Mac.ofBytes (frame.slice 22 28) :=
      Mac.eq_ofBytes (bytes_senderMac_arpAt harp.long)
    have hpeer : r.target.map Ipv4Address.bytes = some (frame.slice 28 32) ↔
        r.target = some (arpAt frame).senderIp := by
      rw [← bytes_senderIp_arpAt harp.long]
      exact Ipv4Address.map_bytes_eq_some
    rw [tidings?_of_reply config harp, Resolver.heed]
    by_cases hcounts : r.state.IsAwaiting ∧ r.target = some (arpAt frame).senderIp
    · rw [Resolver.handleReply_of_awaited hcounts.1 hcounts.2, hmac]
      exact .reply ⟨harp, hcounts.1, hpeer.mpr hcounts.2⟩
    · rw [Resolver.handleReply_of_not hcounts]
      exact .nothing (fun h => hcounts ⟨h.awaited, hpeer.mp h.peer⟩) hnot
  · have hnot : ¬ AwaitedReply r frame := fun h => harp h.arp
    by_cases hpacket : Ipv4For config.source frame
    · have hlong := hpacket.sound.long
      have hmac : (ethernetAt frame).source = Mac.ofBytes (frame.slice 6 12) :=
        Mac.eq_ofBytes (bytes_source_ethernetAt (by omega))
      have hpeer : r.target.map Ipv4Address.bytes = some (frame.slice 26 30) ↔
          r.target = some (ipv4At frame).source := by
        rw [← bytes_source_ipv4At hlong]
        exact Ipv4Address.map_bytes_eq_some
      rw [tidings?_of_packet hpacket, Resolver.heed, hmac]
      by_cases hcounts : ¬ r.state.IsResolved ∧ r.target = some (ipv4At frame).source ∧
          (Mac.ofBytes (frame.slice 6 12)).IsUsable
      · rw [Resolver.learn_of_open hcounts.1 hcounts.2.1 hcounts.2.2]
        exact .packet ⟨hpacket, hcounts.1, hpeer.mpr hcounts.2.1, hcounts.2.2⟩
      · rw [Resolver.learn_of_not hcounts]
        exact .nothing hnot fun h => hcounts ⟨h.unresolved, hpeer.mp h.peer, h.usable⟩
    · rw [tidings?_of_neither harp hpacket]
      exact .nothing hnot fun h => hpacket h.packet

end Learning

/-- Whatever has happened at an endpoint on a link in memory with a buffer, when the link moves now:
a frame that asks for the local address is answered with one frame and with no other, and its buffer
holds the answer and the bytes that stood behind the question; any other frame leaves its buffer and
the link as they are.  The resolver changes by awaited answers and by packets of the peer only. -/
theorem questions_answered_once (mac : Mac) (queue : Nat) (batch : Option Nat) (config : Config)
    (incidents : List Incident) (frame : Bytes) (hqueue : 0 < queue)
    (hbatch : (incidents.foldl Tapped.step
      ⟨new { MemoryLink.ofQueue mac queue with batch } config, []⟩).endpoint.link.batch ≠ some 0) :
    let start : OnMemory := new { MemoryLink.ofQueue mac queue with batch } config
    let e := (incidents.foldl Tapped.step ⟨start, []⟩).endpoint
    let s := handle.state (e, frame)
    (∀ owner, e.config.source = some owner → AsksFor owner frame →
      s.1.link.pipeline = e.link.pipeline ++ [answerTo e.link.mac owner frame] ∧
      (answerTo e.link.mac owner frame).length = 42 ∧
      s.1.counters.txFrames = e.counters.txFrames + 1 ∧
      s.2 = answerTo e.link.mac owner frame ++ frame.drop 42) ∧
    ((∀ owner, e.config.source = some owner → ¬ AsksFor owner frame) → Quiet e frame s) ∧
    Learned e.config.source e.resolver frame s.1.resolver := by
  intro start e s
  have hwhole := (Tapped.whole_new mac queue batch config).run incidents
  refine ⟨?_, handle_quiet, ?_⟩
  · intro owner hmine hasks
    obtain ⟨hpipeline, hframes, hplace⟩ :=
      handle_of_asksFor hwhole.accounts (hwhole.flows hqueue hbatch) hmine hasks
    exact ⟨hpipeline, length_answerTo _ owner hasks.arp.long, hframes, hplace⟩
  · have hlearned := heed_learned e.config e.resolver frame
    rwa [← (handle_heeds e frame).2] at hlearned

/-- A padded question for 10.0.0.1 is answered to whoever asked, and the padding stays. -/
theorem padded_question_answered :
    let owner : Ipv4Address := .ofBytes [10, 0, 0, 1]
    let asker : Mac := .ofBytes [2, 0, 0, 0, 0, 9]
    let frame := requestFrame asker (.ofBytes [10, 0, 0, 2]) owner ++ [7, 7]
    let e : OnMemory := new { MemoryLink.ofQueue Mac.zero 1 with batch := some 1 }
      { source := some owner }
    (0 < 1 ∧ e.link.batch ≠ some 0) ∧ AsksFor owner frame ∧
      (handle.state (e, frame)).1.link.pipeline = [answerTo Mac.zero owner frame] ∧
      (handle.state (e, frame)).2.drop 42 = [7, 7] := by
  intro owner asker frame e
  have hbatch : e.link.batch ≠ some 0 := by
    intro h
    cases h
  have hasks : AsksFor owner frame :=
    ⟨⟨by decide, by decide, by decide, by decide, by decide, by decide, by decide⟩, by decide⟩
  obtain ⟨hanswered, -, -⟩ := questions_answered_once Mac.zero 1 (some 1) { source := some owner }
    [] frame (by decide) hbatch
  obtain ⟨hpipeline, hlength, -, hplace⟩ := hanswered owner rfl hasks
  refine ⟨⟨by decide, hbatch⟩, hasks, hpipeline, ?_⟩
  have hbehind := congrArg (List.drop 42) hplace
  rw [← hlength, List.drop_left, hlength] at hbehind
  exact hbehind.trans (by decide)

end Endpoint

end RomCast
