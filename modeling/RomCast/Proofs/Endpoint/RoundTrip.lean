import RomCast.Link.Raw
import RomCast.Proofs.Endpoint.Addressed
import RomCast.Proofs.Endpoint.Inbound

set_option autoImplicit false

/-!
# A payload comes back out of its frame

The frame that an endpoint submits for a payload is made of the configuration, the two hardware
addresses, the identification and the payload (`datagramFrame`), and of nothing that lay in the
transmit buffer before.  Every endpoint that listens on the same port and takes the frame's target
for its own finds exactly the payload in it, whatever bytes follow the frame
(`datagram_round_trip`).
-/

namespace RomCast.Endpoint

variable {L M : Type} [Transport L] [PooledTransport L] [Transport M]

/-- The frame of a datagram, as an endpoint with this configuration sends it. -/
def datagramFrame (mac : Mac) (config : Config) (peer : Mac) (identification : UInt16)
    (payload : Bytes) : Bytes :=
  Addressing.frame
    { sourceMac := mac
      targetMac := peer
      source := config.source.getD Ipv4Address.unspecified
      target := config.target.getD Ipv4Address.broadcast
      identification
      port := config.port
      withChecksum := !config.checksumOffload } payload

theorem putBytes_fills (payload : Bytes) : Writer.Fills (Writer.putBytes payload) payload := by
  intro done old rest hlength
  exact Writer.putBytes_holding done old rest payload hlength.symm

/-! ## Sending -/

/-- A datagram that gets a buffer is submitted, whatever was in the buffer. -/
theorem sendDatagram_submits {room : Nat} {fill : Action GuardError Writer Unit} {payload : Bytes}
    (hfill : Writer.Fills fill payload) (hroom : payload.length ≤ room)
    (hmax : frameOverhead + room ≤ bufferSize) {e e₁ : Endpoint L} {d : Descriptor}
    (h : (Transport.pool e.link).Accounts [])
    (hreserve : reserve (frameOverhead + room) e = .ok (some d) e₁) :
    ∃ e' before, (sendDatagram room fill : Action FrameError (Endpoint L) Bool) e = .ok true e' ∧
      (Transport.pool e'.link).waiting = before ++
        [({ e.addressing with identification := e.identification + 1 } : Addressing).frame
          payload] ∧
      e'.counters.txFrames = e₁.counters.txFrames + 1 := by
  obtain ⟨_, _, hreserved, hsteady, hlength⟩ := reserve_steady hmax e h
  rw [hreserve] at hreserved
  obtain ⟨rfl, rfl⟩ : some d = _ ∧ e₁ = _ := by
    injection hreserved with hd he
    exact ⟨hd, he⟩
  have hd : d.length = 42 + room := hlength d rfl
  have hfits : 42 + room ≤ 1600 := hmax
  have haccounts : (Transport.pool e₁.link).Accounts [d.slot] := hsteady.accounts
  let e₂ : Endpoint L := { e₁ with identification := e₁.identification + 1 }
  have hidentification : e₁.identification = e.identification :=
    congrArg Addressing.identification hsteady.addressing
  have haddressing : e₂.addressing =
      { e.addressing with identification := e.identification + 1 } := by
    rw [← hsteady.addressing, ← hidentification]
    rfl
  have hbuffer : 42 + room ≤ (Transport.content e₂.link d).length := by
    show 42 + room ≤ (((Transport.pool e₁.link).buffer d.slot).take d.length).length
    rw [List.length_take, haccounts.length_buffer, hd]
    show 42 + room ≤ min (42 + room) 1600
    omega
  obtain ⟨rest, hwrite⟩ := e₂.addressing.write_holding (hfill.within room) hroom hbuffer
  -- The whole buffer goes back into the pool, and the frame is its front.
  let filled : Bytes := e₂.addressing.frame payload ++ rest
  have hstored : (Transport.pool (Transport.store e₂.link d filled)).Accounts [d.slot] := by
    show (Transport.pool (Transport.setPool _ e₁.link)).Accounts [d.slot]
    rw [PooledTransport.pool_setPool]
    exact TransmitPool.store_accounts haccounts filled
  obtain ⟨e', before, hsubmit, -, hwaiting, hcount⟩ :=
    submit_steady (d.truncate (42 + payload.length))
      { e₂ with link := Transport.store e₂.link d filled } hstored
  have hframe : (e₂.addressing.frame payload).length = 42 + payload.length :=
    e₂.addressing.length_frame payload
  have hcontent : Transport.content (Transport.store e₂.link d filled)
      (d.truncate (42 + payload.length)) = e₂.addressing.frame payload := by
    have hfront : ((Transport.pool e₁.link).store d filled).content
        (d.truncate (42 + payload.length)) = filled.take (42 + payload.length) := by
      refine TransmitPool.content_store_truncate haccounts (by omega) ?_ ?_
      · rw [List.length_append, hframe]
        omega
      · show d.length ≤ 1600
        omega
    rw [Transport.content, Transport.store, PooledTransport.pool_setPool]
    refine hfront.trans ?_
    rw [← hframe, List.take_left]
  refine ⟨e', before, ?_, ?_, hcount⟩
  · unfold sendDatagram
    rw [Action.bind_apply, Action.mapError, hreserve]
    simp only [Action.bind_apply, Action.modify_apply, Action.get_apply, Action.state,
      Action.result]
    rw [hwrite]
    simp only [Action.bind_apply, Writer.buffer_holding, Action.mapError]
    rw [hsubmit]
    rfl
  · rw [hwaiting, hcontent, haddressing]

/-! ## Receiving -/

/-- An endpoint hands out the payload that a frame has for it, and leaves the frame as it is. -/
theorem handle_of_payloadRange? (r : Endpoint M) {frame : Bytes} {range : Nat × Nat}
    (h : r.config.payloadRange? frame = some range) :
    ∃ r', (handle : Action FrameError (Endpoint M × Bytes) (Option (Nat × Nat))) (r, frame) =
      .ok (some range) (r', frame) := by
  unfold Config.payloadRange? at h
  cases hethernet : Reader.readFront EthernetHeader frame with
  | error cause => simp [hethernet] at h
  | ok ethernet =>
    simp only [hethernet] at h
    by_cases harp : ethernet.etherType = etherTypeArp
    · simp [harp] at h
    · by_cases hip : ethernet.etherType = etherTypeIpv4
      · rw [if_neg harp, if_pos hip] at h
        cases hcheck : checkIpv4 frame with
        | error cause => simp [hcheck] at h
        | ok ip =>
          simp only [hcheck] at h
          by_cases haccepts : r.config.accepts ip.target = true
          · rw [if_pos haccepts] at h
            cases hudp : checkUdp r.config.port frame ip with
            | error cause => simp [hudp, Except.toOption] at h
            | ok found =>
              obtain rfl : found = some range := by simpa [hudp, Except.toOption] using h
              simp only [handle, dispatch, Action.bind_apply, Action.attempt, Action.onFirst,
                Action.on, count, Action.modify_apply, Action.get_apply, hethernet,
                Action.except_mapError_ok, Action.ofExcept, if_neg harp, if_pos hip,
                receiveIpv4_eq, hcheck, haccepts, if_true, hudp, Action.ite_apply]
              exact ⟨_, rfl⟩
          · simp [haccepts] at h
      · simp [harp, hip] at h

/-! ## Both -/

/-- A sender all of whose buffers are accounted for, as they are between any two operations, and
that can have a buffer after it has asked for its peer, submits one frame for a payload, which does
not depend on what was in the buffer.  A receiver on the same port, without an address of its own or
with one that the frame is for, takes exactly the payload out of the frame, whatever follows it. -/
theorem datagram_round_trip (sender : Endpoint L) (receiver : Endpoint M) (payload extra : Bytes)
    (now room : Nat) {d : Descriptor} {reserved : Endpoint L}
    (haccounts : (Transport.pool sender.link).Accounts [])
    (hroom : payload.length ≤ room) (hmax : room ≤ bufferSize - frameOverhead)
    (havailable : reserve (frameOverhead + room)
      ((askFirst now : Action FrameError (Endpoint L) Unit).state sender) = .ok (some d) reserved)
    (hport : receiver.config.port = sender.config.port)
    (hcompatible : receiver.config.source = none ∨
      receiver.config.source = some sender.targetAddress ∨
      sender.targetAddress = Ipv4Address.broadcast) :
    let frame := datagramFrame (Transport.mac sender.link) sender.config sender.resolver.peerMac
      (sender.identification + 1) payload
    frame.length = 42 + payload.length ∧
      (∃ sender' before, (transmit now room (Writer.putBytes payload) :
          Action FrameError (Endpoint L) Bool) sender = .ok true sender' ∧
        (Transport.pool sender'.link).waiting = before ++ [frame] ∧
        sender'.counters.txFrames = reserved.counters.txFrames + 1) ∧
      ∃ receiver' start stop,
        (handle : Action FrameError (Endpoint M × Bytes) (Option (Nat × Nat)))
          (receiver, frame ++ extra) = .ok (some (start, stop)) (receiver', frame ++ extra) ∧
        (frame ++ extra).slice start stop = payload := by
  intro frame
  have hroom' : room ≤ 1558 := hmax
  have hfits : payload.length ≤ maxDatagram := Nat.le_trans hroom hroom'
  have haccepts : receiver.config.accepts sender.targetAddress = true := by
    rcases hcompatible with hnone | hsame | hbroadcast
    · simp [Config.accepts, hnone]
    · simp [Config.accepts, hsame]
    · unfold Config.accepts
      cases receiver.config.source with
      | none => rfl
      | some source => simp [hbroadcast]
  refine ⟨Addressing.length_frame _ payload, ?_, ?_⟩
  · obtain ⟨asked, hasked, hsteady⟩ := askFirst_steady now sender haccounts
    rw [Action.state_of_ok hasked] at havailable
    obtain ⟨sender', before, hsent, hwaiting, hcount⟩ := sendDatagram_submits
      (putBytes_fills payload) hroom (by show 42 + room ≤ 1600; omega) hsteady.accounts havailable
    refine ⟨sender', before, ?_, ?_, hcount⟩
    · rw [transmit, Action.bind_apply, hasked]
      exact hsent
    · have hidentification : asked.identification = sender.identification :=
        congrArg Addressing.identification hsteady.addressing
      rw [hwaiting, hsteady.addressing, hidentification]
      rfl
  · have hrange : receiver.config.payloadRange? (frame ++ extra) =
        some (42, 42 + payload.length) := by
      refine (payloadRange?_frame_append receiver.config _ hfits extra).trans ?_
      exact if_pos ⟨haccepts, hport.symm⟩
    obtain ⟨receiver', hhandled⟩ := handle_of_payloadRange? receiver hrange
    exact ⟨receiver', 42, 42 + payload.length, hhandled, slice_frame_append _ payload extra⟩

/-- A link in memory whose only buffer holds an old frame, and a receiver on a raw socket. -/
theorem datagram_round_trip_over_stale_buffer :
    let link : MemoryLink := { MemoryLink.ofQueue Mac.zero 1 with
      pool := { TransmitPool.ofCount 1 with buffers := [List.replicate 1600 7] } }
    let sender : Endpoint MemoryLink := new link {}
    let receiver : Endpoint RawLink :=
      new { mac := Mac.zero, interface := 1, pool := TransmitPool.ofCount 1 } {}
    let frame := datagramFrame Mac.zero {} Mac.broadcast 1 [1, 2, 3]
    frame.length = 45 ∧
      (∃ sender' before, (transmit 0 4 (Writer.putBytes [1, 2, 3]) :
          Action FrameError (Endpoint MemoryLink) Bool) sender = .ok true sender' ∧
        sender'.link.pool.waiting = before ++ [frame]) ∧
      ∃ receiver' start stop,
        (handle : Action FrameError (Endpoint RawLink × Bytes) (Option (Nat × Nat)))
          (receiver, frame ++ [0, 0]) = .ok (some (start, stop)) (receiver', frame ++ [0, 0]) ∧
        (frame ++ [0, 0]).slice start stop = [1, 2, 3] := by
  intro link sender receiver frame
  have haccounts : link.pool.Accounts [] := by
    refine ⟨List.Perm.refl _, ?_⟩
    intro buffer hbuffer
    rw [List.mem_singleton.mp hbuffer, List.length_replicate]
    rfl
  obtain ⟨hlength, ⟨sender', before, hsent, hwaiting, -⟩, hhandled⟩ :=
    datagram_round_trip sender receiver [1, 2, 3] [0, 0] 0 4 haccounts (by decide) (by decide)
      rfl rfl (Or.inl rfl)
  exact ⟨hlength, ⟨sender', before, hsent, hwaiting⟩, hhandled⟩

end RomCast.Endpoint
