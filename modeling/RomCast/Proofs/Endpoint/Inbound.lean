import RomCast.Proofs.Endpoint.Payload

set_option autoImplicit false

/-!
# What an endpoint does with a frame

Whatever bytes come in, an endpoint finds the payload that the frame has for it, and sends nothing
but the answer to an ARP question (`handle_emits`).
-/

namespace RomCast

namespace Bytes

theorem word16_append_left {x : Bytes} {n : Nat} (h : n + 2 ≤ x.length) (y : Bytes) :
    word16 (x ++ y) n = word16 x n := by
  have hdrop : (x ++ y).drop n = x.drop n ++ y := List.drop_append_of_le_length (by omega)
  have hlength : 2 ≤ (x.drop n).length := by
    rw [List.length_drop]
    omega
  rw [word16, word16, hdrop]
  cases hfront : x.drop n with
  | nil => simp [hfront] at hlength
  | cons high behind =>
    cases behind with
    | nil => simp [hfront] at hlength
    | cons low rest => rfl

theorem word16_drop (b : Bytes) (m n : Nat) : word16 (b.drop m) n = word16 b (m + n) := by
  rw [word16, word16, List.drop_drop]

theorem word16_take {b : Bytes} {n k : Nat} (h : n + 2 ≤ k) (hlength : k ≤ b.length) :
    word16 (b.take k) n = word16 b n := by
  have htake : (b.take k).length = k := by
    rw [List.length_take]
    omega
  have hleft := word16_append_left (x := b.take k) (n := n) (by omega) (b.drop k)
  rw [List.take_append_drop] at hleft
  exact hleft.symm

end Bytes

/-- Reading a header succeeds when all of it is there. -/
theorem Reader.result_read_eq {α : Type} [Header α] (b : Bytes) (n : Nat) :
    (Reader.read α).result ⟨b, n⟩ =
      if Header.size α ≤ b.length - n then .ok (Header.decode ((b.drop n).take (Header.size α)))
      else .error ⟨n, Header.size α, b.length - n⟩ := by
  by_cases hsize : Header.size α ≤ b.length - n
  · have hremaining : Header.size α ≤ Reader.remaining ⟨b, n⟩ := hsize
    rw [if_pos hsize]
    simp only [read, Action.result, Action.bind_apply, Reader.take, if_pos hremaining,
      Action.pure_apply, Reader.rest]
  · have hremaining : ¬ Header.size α ≤ Reader.remaining ⟨b, n⟩ := hsize
    rw [if_neg hsize]
    simp only [read, Action.result, Action.bind_apply, Reader.take, if_neg hremaining]
    rfl

theorem Reader.readFront_eq {α : Type} [Header α] (b : Bytes) :
    readFront α b = if Header.size α ≤ b.length then .ok (Header.decode (b.take (Header.size α)))
      else .error ⟨0, Header.size α, b.length⟩ :=
  result_read_eq b 0

namespace Endpoint

/-- Changing a header that stands behind others. -/
theorem modifyAt_append {α : Type} [Header α] [LawfulHeader α] (front old rest : Bytes)
    (h : old.length = Header.size α) (f : α → α) :
    Header.modifyAt (front ++ (old ++ rest)) front.length f =
      front ++ (Header.encode (f (Header.decode (old ++ rest))) ++ rest) := by
  rw [Header.modifyAt, List.drop_left]
  exact Bytes.overwrite_middle front old rest _ ((LawfulHeader.length_encode _).trans h.symm)

/-- The answer to a question is an ARP answer. -/
theorem answerInPlace_arpFrame (owner : Mac) {frame : Bytes} (hlength : 42 ≤ frame.length)
    (htype : frame.word16 12 = etherTypeArp) :
    ArpFrame ArpPacket.opReply ((answerInPlace owner frame).take 42) := by
  obtain ⟨ethernet, rest₁, hsplit₁, hethernet⟩ :=
    Bytes.exists_split (n := 14) (b := frame) (by omega)
  subst hsplit₁
  simp only [List.length_append] at hlength
  obtain ⟨arp, rest, hsplit₂, harp⟩ := Bytes.exists_split (n := 28) (b := rest₁) (by omega)
  subst hsplit₂
  rw [Bytes.word16_append_left (by omega)] at htype
  have hencodeArp : ∀ p : ArpPacket, (Header.encode p).length = 28 := LawfulHeader.length_encode
  have hencodeEthernet : ∀ h : EthernetHeader, (Header.encode h).length = 14 :=
    LawfulHeader.length_encode
  have hanswered := modifyAt_append ethernet arp rest harp fun p : ArpPacket => p.reply owner
  rw [hethernet] at hanswered
  obtain ⟨answer, hanswer⟩ : ∃ answer : ArpPacket,
      answer = (Header.decode (arp ++ rest) : ArpPacket).reply owner := ⟨_, rfl⟩
  rw [← hanswer] at hanswered
  obtain ⟨header, hheader, hsame⟩ : ∃ header : EthernetHeader,
      answerInPlace owner (ethernet ++ (arp ++ rest)) =
        Header.encode header ++ (Header.encode answer ++ rest) ∧
      header.etherType = etherTypeArp := by
    let before : EthernetHeader := Header.decode (ethernet ++ (Header.encode answer ++ rest))
    refine ⟨{ before with target := before.source, source := owner }, ?_, ?_⟩
    · have hturned := modifyAt_append [] ethernet (Header.encode answer ++ rest) hethernet
        fun h : EthernetHeader => { h with target := h.source, source := owner }
      show Header.modifyAt (Header.modifyAt (ethernet ++ (arp ++ rest)) 14
        fun p : ArpPacket => p.reply owner) 0
          (fun h : EthernetHeader => { h with target := h.source, source := owner }) = _
      rw [hanswered]
      exact hturned
    · show Bytes.word16 (ethernet ++ (Header.encode answer ++ rest)) 12 = etherTypeArp
      rw [Bytes.word16_append_left (by omega), htype]
  have htake : (answerInPlace owner (ethernet ++ (arp ++ rest))).take 42 =
      Header.encode header ++ Header.encode answer := by
    have hboth : (Header.encode header ++ Header.encode answer).length = 42 := by
      rw [List.length_append, hencodeEthernet, hencodeArp]
    rw [hheader, ← List.append_assoc, ← hboth, List.take_left]
  rw [htake]
  constructor
  · rw [List.length_append, hencodeEthernet, hencodeArp]
  · have hdecode := congrArg EthernetHeader.etherType
      (LawfulHeader.decode_encode_append header (Header.encode answer))
    rw [← hsame]
    exact hdecode
  · have hdecode := congrArg ArpPacket.opcode (LawfulHeader.decode_encode_append answer [])
    rw [List.append_nil] at hdecode
    rw [Bytes.word16_append_right (by rw [hencodeEthernet]; omega), hencodeEthernet]
    have hop : answer.opcode = ArpPacket.opReply := by
      rw [hanswer]
      rfl
    rw [← hop]
    exact hdecode

/-! ## Handling a frame -/

/-- Nothing, or the answer to the ARP question that a frame is. -/
def Answers (frame : Bytes) (out : List Outgoing) : Prop :=
  out = [] ∨ (frame.word16 12 = etherTypeArp ∧ frame.word16 20 = ArpPacket.opRequest ∧
    ∃ bytes valid, out = [Outgoing.arp ArpPacket.opReply bytes valid])

/-- An ARP frame is answered at most, and its place keeps its length. -/
theorem receiveArp_emits (e : OnMemory) (frame : Bytes) (h : e.link.pool.Accounts [])
    (htype : frame.word16 12 = etherTypeArp) :
    ∃ e' frame' out, (receiveArp (L := MemoryLink)).state (e, frame) = (e', frame') ∧
      Emits e e' out ∧ Answers frame out ∧ frame'.length = frame.length := by
  unfold receiveArp
  rw [Action.state_bind_of_ok (Action.get_apply (e, frame))]
  simp only [Reader.result_read_eq]
  have hsize : Header.size ArpPacket = 28 := rfl
  have hstart : ipv4Start = 14 := rfl
  rw [hsize, hstart]
  by_cases hlength : 28 ≤ frame.length - 14
  · -- The packet is there; `arp` is what it says.
    rw [if_pos hlength]
    obtain ⟨arp, harp⟩ : ∃ arp : ArpPacket, arp = Header.decode ((frame.drop 14).take 28) :=
      ⟨_, rfl⟩
    have hopcode : arp.opcode = frame.word16 20 := by
      have htake : Bytes.word16 ((frame.drop 14).take 28) 6 = frame.word16 20 := by
        rw [Bytes.word16_take (by omega) (by rw [List.length_drop]; omega), Bytes.word16_drop]
      rw [harp, ← htake]
      rfl
    rw [← harp]
    have hread : (Action.ofExcept ((Except.ok arp : Except GuardError ArpPacket).mapError
        FrameError.guarded) : Action FrameError (OnMemory × Bytes) ArpPacket) (e, frame) =
          .ok arp (e, frame) := rfl
    rw [Action.state_bind_of_ok hread]
    by_cases hkind : arp.isEthernetIpv4 = true
    · simp only [hkind, Bool.not_true, Bool.false_eq_true, if_false]
      by_cases hquestion : arp.opcode = ArpPacket.opRequest
      · rw [if_pos hquestion]
        by_cases hmine : e.config.source = some arp.targetIp
        · -- A question for this endpoint is answered.
          simp only [hmine, ne_eq, not_true_eq_false, if_false]
          have hanswerLength : (answerInPlace (Transport.mac e.link) frame).length =
              frame.length := by
            simp [answerInPlace, Header.modifyAt]
          have hlong : 42 ≤ frame.length := by omega
          obtain ⟨sent, e₁, hsend, hemits, -⟩ := send_emits
            (.arp ArpPacket.opReply _ (answerInPlace_arpFrame (Transport.mac e.link) hlong
              htype)) e h trivial
          rw [Outgoing.frame] at hsend
          have hset : (set (e, answerInPlace (Transport.mac e.link) frame) :
              Action FrameError (OnMemory × Bytes) Unit) (e, frame) =
                .ok () (e, answerInPlace (Transport.mac e.link) frame) := rfl
          rw [Action.state_bind_of_ok hset]
          have hfirst : ∀ n, n = 42 →
              (send ((answerInPlace (Transport.mac e.link) frame).take n)).onFirst
                (e, answerInPlace (Transport.mac e.link) frame) =
              (.ok sent (e₁, answerInPlace (Transport.mac e.link) frame) :
                EStateM.Result FrameError (OnMemory × Bytes) Bool) := by
            intro n hn
            subst hn
            simp only [Action.onFirst, Action.on]
            rw [hsend]
          rw [Action.state_bind_of_ok (hfirst (Header.size EthernetHeader + 28) rfl)]
          cases sent with
          | false => exact ⟨e₁, _, [], rfl, hemits, Or.inl rfl, hanswerLength⟩
          | true =>
            refine ⟨_, _, _, rfl, hemits.congr rfl rfl, Or.inr ⟨htype, ?_, _, _, rfl⟩,
              hanswerLength⟩
            rw [← hopcode, hquestion]
        · simp only [ne_eq, hmine, not_false_eq_true, if_true]
          exact ⟨e, frame, [], rfl, emits_refl h, Or.inl rfl, rfl⟩
      · rw [if_neg hquestion]
        by_cases hreply : arp.opcode = ArpPacket.opReply
        · rw [if_pos hreply]
          exact ⟨_, _, [], rfl, (emits_refl h).congr rfl rfl, Or.inl rfl, rfl⟩
        · rw [if_neg hreply]
          exact ⟨e, frame, [], rfl, emits_refl h, Or.inl rfl, rfl⟩
    · simp only [hkind, Bool.not_false, if_true]
      exact ⟨e, frame, [], rfl, emits_refl h, Or.inl rfl, rfl⟩
  · rw [if_neg hlength]
    exact ⟨e, frame, [], rfl, emits_refl h, Or.inl rfl, rfl⟩

/-- What comes of handling a frame: the place of the payload that the frame has for the endpoint,
and at most an answer. -/
def Handles (e : OnMemory) (frame : Bytes)
    (result : EStateM.Result FrameError (OnMemory × Bytes) (Option (Nat × Nat))) : Prop :=
  ∃ e' frame' out,
    (result = .ok (e.config.payloadRange? frame) (e', frame') ∨
      e.config.payloadRange? frame = none ∧ ∃ cause, result = .error cause (e', frame')) ∧
    Emits e e' out ∧ Answers frame out ∧ frame'.length = frame.length ∧
    (e.config.payloadRange? frame ≠ none → frame' = frame)

theorem receiveIpv4_eq {L : Type} [Transport L] (sender : Mac) (frame : Bytes) (e : Endpoint L) :
    (receiveIpv4 sender frame : Action FrameError (Endpoint L) (Option (Nat × Nat))) e =
      match checkIpv4 frame with
      | .error cause => .error cause e
      | .ok ip =>
          if e.config.accepts ip.target then
            match checkUdp e.config.port frame ip with
            | .error cause =>
                .error cause { e with resolver := (e.resolver.learn ip.source sender).2 }
            | .ok range => .ok range { e with resolver := (e.resolver.learn ip.source sender).2 }
          else .ok none e := by
  unfold receiveIpv4
  simp only [Action.bind_apply, Action.ofExcept]
  cases checkIpv4 frame with
  | error cause => rfl
  | ok ip =>
    simp only [Action.get_apply]
    by_cases haccepts : e.config.accepts ip.target = true
    · simp only [haccepts, Bool.not_true, Bool.false_eq_true, if_false, if_true,
        Action.bind_apply, Action.modify_apply]
      cases checkUdp e.config.port frame ip with
      | error cause => rfl
      | ok range => rfl
    · simp only [haccepts, Bool.not_false, if_true, Bool.false_eq_true, if_false,
        Action.pure_apply]

theorem dispatch_handles (e : OnMemory) (frame : Bytes) (h : e.link.pool.Accounts []) :
    Handles e frame (dispatch (e, frame)) := by
  unfold dispatch Handles
  simp only [Action.bind_apply, Action.get_apply, Reader.readFront_eq]
  have hsize : Header.size EthernetHeader = 14 := rfl
  unfold Config.payloadRange?
  rw [Reader.readFront_eq, hsize]
  by_cases hlength : 14 ≤ frame.length
  · rw [if_pos hlength]
    obtain ⟨ethernet, hethernet⟩ : ∃ ethernet : EthernetHeader,
        ethernet = Header.decode (frame.take 14) := ⟨_, rfl⟩
    have htype : ethernet.etherType = frame.word16 12 := by
      have htake : Bytes.word16 (frame.take 14) 12 = frame.word16 12 :=
        Bytes.word16_take (by omega) hlength
      rw [hethernet, ← htake]
      rfl
    rw [← hethernet]
    simp only [Action.except_mapError_ok, Action.ofExcept]
    by_cases harp : ethernet.etherType = etherTypeArp
    · simp only [harp, if_true]
      obtain ⟨e', frame', out, hstate, hemits, hanswers, hkeeps⟩ :=
        receiveArp_emits e frame h (htype ▸ harp)
      refine ⟨e', frame', out, ?_, hemits, hanswers, hkeeps, fun hne => absurd rfl hne⟩
      cases hresult : receiveArp (L := MemoryLink) (e, frame) with
      | ok _ s =>
        rw [Action.state_of_ok hresult] at hstate
        refine Or.inl ?_
        simp only [Action.bind_apply, hresult, hstate, Action.pure_apply]
      | error cause s =>
        rw [Action.state_of_error hresult] at hstate
        refine Or.inr ⟨trivial, cause, ?_⟩
        simp only [Action.bind_apply, hresult, hstate]
    · simp only [harp, if_false]
      by_cases hip : ethernet.etherType = etherTypeIpv4
      · simp only [hip, if_true]
        simp only [Action.onFirst, Action.on, receiveIpv4_eq]
        cases hcheck : checkIpv4 frame with
        | error cause =>
          exact ⟨e, frame, [], Or.inr ⟨rfl, cause, rfl⟩, emits_refl h, Or.inl rfl, rfl,
            fun _ => rfl⟩
        | ok ip =>
          by_cases haccepts : e.config.accepts ip.target = true
          · simp only [haccepts, if_true]
            cases checkUdp e.config.port frame ip with
            | error cause =>
              exact ⟨_, frame, [], Or.inr ⟨rfl, cause, rfl⟩, (emits_refl h).congr rfl rfl,
                Or.inl rfl, rfl, fun _ => rfl⟩
            | ok range =>
              exact ⟨_, frame, [], Or.inl rfl, (emits_refl h).congr rfl rfl, Or.inl rfl, rfl,
                fun _ => rfl⟩
          · simp only [haccepts, Bool.false_eq_true, if_false]
            exact ⟨e, frame, [], Or.inl rfl, emits_refl h, Or.inl rfl, rfl, fun _ => rfl⟩
      · simp only [hip, if_false]
        exact ⟨e, frame, [], Or.inl rfl, emits_refl h, Or.inl rfl, rfl, fun _ => rfl⟩
  · rw [if_neg hlength]
    exact ⟨e, frame, [], Or.inr ⟨rfl, _, rfl⟩, emits_refl h, Or.inl rfl, rfl, fun _ => rfl⟩

/-- Whatever comes in, an endpoint finds the payload that the frame has for it, and sends at most an
answer. -/
theorem handle_handles (e : OnMemory) (frame : Bytes) (h : e.link.pool.Accounts []) :
    Handles e frame (handle (e, frame)) := by
  obtain ⟨e', frame', out, hresult, hemits, hanswers, hlength, hsame⟩ :=
    dispatch_handles { e with counters := { e.counters with rxFrames := e.counters.rxFrames + 1 } }
      frame h
  have hemits' : Emits e e' out :=
    ⟨hemits.queued, hemits.accounts, hemits.config, hemits.addressed⟩
  have hcount : ((count fun c => { c with rxFrames := c.rxFrames + 1 }).onFirst :
      Action FrameError (OnMemory × Bytes) Unit) (e, frame) =
        .ok () ({ e with counters := { e.counters with rxFrames := e.counters.rxFrames + 1 } },
          frame) := rfl
  unfold handle
  rw [Action.bind_apply, hcount]
  rcases hresult with hok | ⟨hnone, cause, herror⟩
  · simp only [Action.bind_apply, Action.attempt, hok]
    simp only at hsame ⊢
    cases hpayload : e.config.payloadRange? frame with
    | none =>
      refine ⟨e', frame', out, Or.inl ?_, hemits', hanswers, hlength, ?_⟩
      · rw [hpayload]
        rfl
      · exact fun hne => absurd hpayload hne
    | some range =>
      refine ⟨{ e' with counters := { e'.counters with
        rxDelivered := e'.counters.rxDelivered + 1 } }, frame', out, Or.inl ?_,
        hemits'.congr rfl rfl, hanswers, hlength, hsame⟩
      rw [hpayload]
      rfl
  · simp only [Action.bind_apply, Action.attempt, herror]
    exact ⟨_, frame', out, Or.inr ⟨hnone, cause, rfl⟩, hemits'.congr rfl rfl, hanswers, hlength,
      fun hne => absurd hnone hne⟩

end Endpoint

end RomCast
