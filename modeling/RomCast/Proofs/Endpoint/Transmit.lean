import RomCast.Proofs.Endpoint.Emits
import RomCast.Proofs.Message

set_option autoImplicit false

/-!
# Sending frames

An endpoint that sends a frame puts just that frame into its pipeline, or drops it (`send_emits`);
one that sends a datagram may ask for the peer's address first (`transmit_emits`).  On a link that
flows nothing is dropped.  An endpoint that sends several packets sends some of them, in order
(`Streams`).
-/

namespace RomCast.Endpoint

/-! ## Submitting -/

/-- What was written into a held buffer is queued. -/
theorem submit_emits {e₀ e : OnMemory} {length : Nat} {d : Descriptor}
    (hreserves : Reserves e₀ e length (some d)) (hlength : length ≤ bufferSize) (bytes : Bytes)
    (o : Outgoing) (ho : o.From e₀.config) (hfits : o.frame.length ≤ length)
    (hbytes : bytes.take o.frame.length = o.frame) (used : Nat) (hused : used = o.frame.length) :
    ∃ e', (submit (d.truncate used) : Action LinkError OnMemory Unit)
        { e with link := Transport.store e.link d bytes } = .ok () e' ∧ Emits e₀ e' [o] := by
  have haccounts : e.link.pool.Accounts [d.slot] := hreserves.accounts
  have hd : d.length = length := hreserves.length_eq d rfl
  have hlong : o.frame.length ≤ bytes.length := by
    have hcongr := congrArg List.length hbytes
    rw [List.length_take] at hcongr
    omega
  have hcontent : (e.link.pool.store d bytes).content (d.truncate used) = o.frame := by
    rw [hused, TransmitPool.content_store_truncate haccounts (by omega) hlong (by omega), hbytes]
  have hwaiting := TransmitPool.waiting_store haccounts bytes
  refine ⟨_, rfl, ?_, ?_, hreserves.config, ?_⟩
  · rw [← List.nil_append ([o].map Outgoing.frame)]
    refine hreserves.queued.trans ⟨?_, rfl, rfl, rfl, ?_⟩
    · show e.link.outbound ++ ((e.link.pool.store d bytes).submit (d.truncate used)).waiting =
        e.link.pipeline ++ [o.frame]
      rw [TransmitPool.waiting_submit, hcontent, hwaiting, ← List.append_assoc]
      rfl
    · show (e.link.pool.store d bytes).buffers.length = e.link.pool.buffers.length
      simp [TransmitPool.store]
  · exact TransmitPool.submit_accounts (d := d.truncate used)
      (TransmitPool.store_accounts haccounts bytes)
  · intro o' ho'
    rw [List.mem_singleton.mp ho']
    exact ho

/-- Sending a complete frame. -/
theorem send_emits (o : Outgoing) (e : OnMemory) (h : e.link.pool.Accounts [])
    (ho : o.From e.config) :
    ∃ sent e', (send o.frame : Action FrameError OnMemory Bool) e = .ok sent e' ∧
      Emits e e' (if sent then [o] else []) ∧ (e.link.Flows → sent = true) := by
  obtain ⟨d?, e₁, hreserve, hreserves, hsome⟩ :=
    reserve_reserves o.frame.length o.length_frame_le e h
  unfold send
  rw [Action.bind_apply, Action.mapError, hreserve]
  cases d? with
  | none =>
    refine ⟨false, e₁, rfl, ?_, ?_⟩
    · exact ⟨hreserves.queued, hreserves.accounts, hreserves.config, by simp⟩
    · intro hflows
      exact absurd rfl (hsome hflows)
  | some d =>
    have hd : d.length = o.frame.length := hreserves.length_eq d rfl
    have hwhole : d.truncate o.frame.length = d := by
      rw [Descriptor.truncate, ← hd, Nat.min_self]
    obtain ⟨e', hsubmit, hemits⟩ := submit_emits hreserves o.length_frame_le o.frame o ho
      (Nat.le_refl _) List.take_length o.frame.length rfl
    rw [hwhole] at hsubmit
    refine ⟨true, e', ?_, hemits, fun _ => rfl⟩
    simp only [Action.bind_apply, Action.modify_apply, Action.mapError, hsubmit,
      Action.pure_apply]

/-! ## Asking for the peer's address -/

theorem requestFrame_arpFrame (mac : Mac) (source target : Ipv4Address) :
    ArpFrame ArpPacket.opRequest (requestFrame mac source target) := by
  have hethernet : ∀ h : EthernetHeader, (Header.encode h).length = 14 :=
    LawfulHeader.length_encode
  have harp : ∀ p : ArpPacket, (Header.encode p).length = 28 := LawfulHeader.length_encode
  constructor
  · rw [requestFrame, List.length_append, hethernet, harp]
  · have hdecode := congrArg EthernetHeader.etherType (LawfulHeader.decode_encode_append
      ({ target := Mac.broadcast, source := mac, etherType := etherTypeArp } : EthernetHeader)
      (Header.encode (ArpPacket.request mac source target)))
    exact hdecode
  · have hdecode := congrArg ArpPacket.opcode (LawfulHeader.decode_encode_append
      (ArpPacket.request mac source target) [])
    rw [List.append_nil] at hdecode
    rw [requestFrame, Bytes.word16_append_right (by rw [hethernet]; omega), hethernet]
    exact hdecode

theorem sendRequest_emits (now : Nat) (e : OnMemory) (h : e.link.pool.Accounts []) :
    ∃ e' out, (sendRequest now : Action FrameError OnMemory Unit) e = .ok () e' ∧
      Emits e e' out ∧ Outgoing.AtMostQuestion out := by
  unfold sendRequest
  rw [Action.bind_apply, Action.get_apply]
  cases htarget : e.resolver.target with
  | none =>
    refine ⟨e, [], ?_, emits_refl h, Or.inl rfl⟩
    simp only [htarget]
    rfl
  | some target =>
    obtain ⟨sent, e₁, hsend, hemits, -⟩ := send_emits (.arp ArpPacket.opRequest
      (requestFrame (Transport.mac e.link) e.sourceAddress target)
      (requestFrame_arpFrame _ _ _)) e h trivial
    simp only [htarget, Action.bind_apply]
    rw [Outgoing.frame] at hsend
    rw [hsend]
    cases sent with
    | false => exact ⟨e₁, [], rfl, hemits, Or.inl rfl⟩
    | true =>
      refine ⟨_, _, rfl, hemits.congr rfl rfl, Or.inr ⟨_, _, rfl⟩⟩

/-- Looking at the timer sends at most a question. -/
theorem pollTimers_emits (now : Nat) (e : OnMemory) (h : e.link.pool.Accounts []) :
    ∃ e' out, (pollTimers now : Action FrameError OnMemory Unit) e = .ok () e' ∧
      Emits e e' out ∧ Outgoing.AtMostQuestion out := by
  let e₁ : OnMemory := { e with resolver := (e.resolver.poll now).2 }
  have hemits : Emits e e₁ [] := (emits_refl h).congr rfl rfl
  unfold pollTimers
  simp only [Action.bind_apply, Action.get_apply, Action.modify_apply, Action.ite_apply]
  by_cases hresend : (e.resolver.poll now).1 = .resend
  · rw [if_pos hresend]
    obtain ⟨e', out, hsend, hasked, hatMost⟩ := sendRequest_emits now e₁ h
    exact ⟨e', out, hsend, hemits.trans hasked, hatMost⟩
  · rw [if_neg hresend]
    exact ⟨e₁, [], rfl, hemits, Or.inl rfl⟩

/-! ## Datagrams -/

/-- The frames of a datagram that was sent or dropped: perhaps a question before it. -/
def Transmits (out : List Outgoing) (payload : Bytes) (sent : Bool) : Prop :=
  ∃ questions, Outgoing.AtMostQuestion questions ∧
    if sent then ∃ a fits, out = questions ++ [Outgoing.datagram a payload fits]
    else out = questions

section

variable {out : List Outgoing} {payload : Bytes} {sent : Bool}

/-- Behind the question only the payload is carried, if it was sent, and no ARP traffic. -/
theorem Transmits.split (h : Transmits out payload sent) :
    ∃ questions datagrams, Outgoing.AtMostQuestion questions ∧ out = questions ++ datagrams ∧
      Outgoing.payloads datagrams = (if sent then [payload] else []) ∧
      Outgoing.totalChatter datagrams = 0 := by
  obtain ⟨questions, hatMost, hout⟩ := h
  cases sent with
  | false => exact ⟨questions, [], hatMost, hout.trans (List.append_nil _).symm, rfl, rfl⟩
  | true =>
    obtain ⟨a, fits, hone⟩ : ∃ a fits, out = questions ++ [Outgoing.datagram a payload fits] := hout
    exact ⟨questions, _, hatMost, hone, rfl, rfl⟩

theorem Transmits.payloads_eq (h : Transmits out payload sent) :
    Outgoing.payloads out = if sent then [payload] else [] := by
  obtain ⟨questions, datagrams, hatMost, hout, hpayloads, -⟩ := h.split
  rw [hout, Outgoing.payloads_append, hatMost.payloads_eq, hpayloads, List.nil_append]

theorem Transmits.totalChatter_le (h : Transmits out payload sent) :
    Outgoing.totalChatter out ≤ 2 := by
  obtain ⟨questions, datagrams, hatMost, hout, -, hchatter⟩ := h.split
  rw [hout, Outgoing.totalChatter_append, hchatter]
  exact hatMost.totalChatter_le

end

theorem askFirst_emits (now : Nat) (e : OnMemory) (h : e.link.pool.Accounts []) :
    ∃ e' out, (askFirst now : Action FrameError OnMemory Unit) e = .ok () e' ∧
      Emits e e' out ∧ Outgoing.AtMostQuestion out := by
  unfold askFirst
  simp only [Action.bind_apply, Action.get_apply, Action.ite_apply]
  by_cases hneeds : e.resolver.needsRequest = true
  · rw [if_pos hneeds]
    exact sendRequest_emits now e h
  · rw [if_neg hneeds]
    exact ⟨e, [], rfl, emits_refl h, Or.inl rfl⟩

/-- Sending a datagram without a question. -/
theorem sendDatagram_emits (room : Nat) {fill : Action GuardError Writer Unit} {payload : Bytes}
    (hfill : Writer.FillsWithin room fill payload) (hroom : payload.length ≤ room)
    (hmax : room ≤ maxDatagram) (e : OnMemory) (h : e.link.pool.Accounts []) :
    ∃ sent e' out, (sendDatagram room fill : Action FrameError OnMemory Bool) e = .ok sent e' ∧
      Emits e e' out ∧ (if sent then ∃ a fits, out = [Outgoing.datagram a payload fits]
        else out = []) ∧ (e.link.Flows → sent = true) := by
  have hlength : frameOverhead + room ≤ bufferSize := by
    have hmax' : room ≤ 1558 := hmax
    show 42 + room ≤ 1600
    omega
  obtain ⟨d?, e₁, hreserve, hreserves, hsome⟩ :=
    reserve_reserves (frameOverhead + room) hlength e h
  unfold sendDatagram
  rw [Action.bind_apply, Action.mapError, hreserve]
  cases d? with
  | none =>
    refine ⟨false, e₁, [], rfl, ?_, rfl, ?_⟩
    · exact ⟨hreserves.queued, hreserves.accounts, hreserves.config, by simp⟩
    · intro hflows
      exact absurd rfl (hsome hflows)
  | some d =>
    have haccounts : e₁.link.pool.Accounts [d.slot] := hreserves.accounts
    have hd : d.length = 42 + room := hreserves.length_eq d rfl
    -- The frame is written into the buffer as the endpoint is when the buffer is there.
    let e₂ : OnMemory := { e₁ with identification := e₁.identification + 1 }
    have hbuffer : 42 + room ≤ (Transport.content e₂.link d).length := by
      show 42 + room ≤ ((e₁.link.pool.buffer d.slot).take d.length).length
      rw [List.length_take, haccounts.length_buffer, hd]
      have hlength' : 42 + room ≤ bufferSize := hlength
      omega
    obtain ⟨rest, hwrite⟩ := e₂.addressing.write_holding hfill hroom hbuffer
    have hfits : payload.length ≤ maxDatagram := Nat.le_trans hroom hmax
    have hfrom : (Outgoing.datagram e₂.addressing payload hfits).From e.config := by
      rw [← hreserves.config]
      exact ⟨rfl, rfl, rfl⟩
    have hframe : (Outgoing.datagram e₂.addressing payload hfits).frame.length =
        42 + payload.length := e₂.addressing.length_frame payload
    have hreserves₂ : Reserves e e₂ (frameOverhead + room) (some d) :=
      ⟨hreserves.queued, hreserves.config, hreserves.resolver, hreserves.accounts,
        hreserves.length_eq⟩
    obtain ⟨e', hsubmit, hemits⟩ := submit_emits hreserves₂ hlength
      (e₂.addressing.frame payload ++ rest)
      (Outgoing.datagram e₂.addressing payload hfits) hfrom
      (by rw [hframe]; show 42 + payload.length ≤ 42 + room; omega)
      List.take_left (42 + payload.length) hframe.symm
    refine ⟨true, e', _, ?_, hemits, ⟨_, _, rfl⟩, fun _ => rfl⟩
    simp only [Action.bind_apply, Action.modify_apply, Action.get_apply, Action.state,
      Action.result]
    rw [hwrite]
    simp only [Action.bind_apply, Writer.buffer_holding, Action.mapError]
    rw [hsubmit]
    rfl

/-- Sending a datagram. -/
theorem transmit_emits (now room : Nat) {fill : Action GuardError Writer Unit} {payload : Bytes}
    (hfill : Writer.FillsWithin room fill payload) (hroom : payload.length ≤ room)
    (hmax : room ≤ maxDatagram) (e : OnMemory) (h : e.link.pool.Accounts []) :
    ∃ sent e' out, (transmit now room fill : Action FrameError OnMemory Bool) e = .ok sent e' ∧
      Emits e e' out ∧ Transmits out payload sent ∧ (e.link.Flows → sent = true) := by
  obtain ⟨e₁, questions, hasked, hquestions, hatMost⟩ := askFirst_emits now e h
  obtain ⟨sent, e', out, hsent, hemits, hout, hflows⟩ :=
    sendDatagram_emits room hfill hroom hmax e₁ hquestions.accounts
  refine ⟨sent, e', questions ++ out, ?_, hquestions.trans hemits, ⟨questions, hatMost, ?_⟩, ?_⟩
  · rw [transmit, Action.bind_apply, hasked]
    exact hsent
  · cases sent with
    | false =>
      have hnil : out = [] := hout
      simp [hnil]
    | true =>
      obtain ⟨a, fits, hone⟩ : ∃ a fits, out = [Outgoing.datagram a payload fits] := hout
      exact ⟨a, fits, by rw [hone]⟩
  · intro hlink
    exact hflows (hlink.congr hquestions.queued)

/-! ## Packets -/

/-- An endpoint after it has sent these packets: some of them went out, in order, and questions
between them. -/
structure Streams (e e' : OnMemory) (packets : List Bytes) (out : List Outgoing) : Prop where
  emits : Emits e e' out
  sublist : (Outgoing.payloads out).Sublist packets
  complete : e.link.Flows → Outgoing.payloads out = packets
  chatter : Outgoing.totalChatter out ≤ 2 * packets.length

theorem streams_refl {e : OnMemory} (h : e.link.pool.Accounts []) : Streams e e [] [] :=
  ⟨emits_refl h, List.Sublist.slnil, fun _ => rfl, Nat.le_refl _⟩

/-- Sending a signal or an update. -/
theorem control_streams (now : Nat) (kind : PacketKind) (name : ModuleName) (hash : ContentHash)
    (e : OnMemory) (h : e.link.pool.Accounts []) :
    ∃ e' out, (do
        let _ ← transmit now (Header.size PacketHeader) (encodeControl kind name hash)
        flush.mapError FrameError.link : Action FrameError OnMemory Unit) e = .ok () e' ∧
      Streams e e' [controlPacket kind name hash] out := by
  have hsize : Header.size PacketHeader = 100 := rfl
  obtain ⟨sent, e₁, out, hsent, hemits, htransmits, hflows⟩ := transmit_emits now 100
    ((encodeControl_fills kind name hash).within 100)
    (Nat.le_of_eq (length_controlPacket kind name hash))
    (by decide) e h
  refine ⟨e₁.flushed, out, ?_, hemits.flush, ?_, ?_, htransmits.totalChatter_le⟩
  · rw [hsize, Action.bind_apply, hsent]
    rfl
  · rw [htransmits.payloads_eq]
    cases sent with
    | false => exact List.nil_sublist _
    | true => exact List.Sublist.refl _
  · intro hlink
    rw [htransmits.payloads_eq, hflows hlink]
    rfl

/-! ## Chores -/

/-- What an endpoint does besides handling frames and sending packets. -/
inductive Chore where
  | flush
  | timers (now : Nat)

/-- An endpoint after a chore. -/
def Chore.apply : Chore → OnMemory → OnMemory
  | flush => (Endpoint.flush : Action LinkError OnMemory Unit).state
  | timers now => (pollTimers now).state

/-- A chore sends at most a question. -/
theorem Chore.apply_emits (chore : Chore) {e : OnMemory} (h : e.link.pool.Accounts []) :
    ∃ out, e.Emits (chore.apply e) out ∧ Outgoing.AtMostQuestion out := by
  cases chore with
  | flush => exact ⟨[], flushed_emits h, Or.inl rfl⟩
  | timers now =>
    obtain ⟨e', out, htimers, hemits, hatMost⟩ := pollTimers_emits now e h
    refine ⟨out, ?_, hatMost⟩
    rw [apply, Action.state_of_ok htimers]
    exact hemits

end RomCast.Endpoint
