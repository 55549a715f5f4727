import RomCast.Proofs.Endpoint.ArpAnswer
import RomCast.Proofs.Endpoint.Transmit
import RomCast.Proofs.Station.Working

set_option autoImplicit false

/-!
# Which packets an endpoint submits

Over any link that is built on a pool, what an operation of an endpoint submits is ARP traffic and,
as long as nothing is dropped, one datagram for each packet that it was asked to send, in the order
in which it was asked (`SubmitsPackets`).
-/

namespace RomCast

open RomCast.Action (Keeps)

variable {L : Type} [Transport L]

/-- A record of a link whose buffers are all accounted for, now and after every call. -/
def Recorded.InCustody (r : Recorded L) : Prop :=
  ∃ total, Recorded.Custody (Tally.trivial L) total none 0 r.link r

theorem Recorded.inCustody_of_accounts {link : L} (h : (Transport.pool link).Accounts []) :
    Recorded.InCustody ({ link } : Recorded L) :=
  ⟨_, rfl, h, rfl, (fun _ hcall => absurd hcall List.not_mem_nil), True.intro⟩

namespace Endpoint

variable {total : Nat} {e : Endpoint L} {f f' f'' : Endpoint (Recorded L)} {packets : List Bytes}

section Custody

variable [PooledTransport L]

theorem Watched.inCustody (h : Watched total none e f) : f.link.InCustody := by
  obtain ⟨m, rfl, hm⟩ := h
  have hlink : m.link = e.link := hm.link_eq
  exact ⟨total, rfl, hlink ▸ hm.accounts, hlink ▸ hm.length_eq, hm.calls, True.intro⟩

theorem exists_watched (h : f.link.InCustody) :
    ∃ (total : Nat) (e : Endpoint L), Watched total none e f := by
  obtain ⟨total, hlink, haccounts, hlength, hcalls, -⟩ := h
  exact ⟨total, f.withLink f.link.link, f.link, rfl, hlink, haccounts, hlength, hcalls, True.intro⟩

/-- An endpoint that does the same over related links leaves its buffers accounted for. -/
theorem inCustody_of_parallel {ε α : Type} {x : Action ε (Endpoint L) α}
    {y : Action ε (Endpoint (Recorded L)) α}
    (hxy : ∀ total, Action.Parallel (Paired (Recorded.custody (Tally.trivial L) total) none) x y)
    (h : f.link.InCustody) : (y.state f).link.InCustody := by
  obtain ⟨total, e, hwatched⟩ := exists_watched h
  exact Watched.inCustody ((hxy total).state hwatched)

end Custody

/-! ## What is submitted -/

/-- An endpoint after it was asked to send these packets: the frames that it has submitted are ARP
packets and datagrams of its own, and the datagrams are the packets unless a frame was dropped. -/
structure SubmitsPackets (f f' : Endpoint (Recorded L)) (packets : List Bytes) : Prop where
  custody : f'.link.InCustody
  config_eq : f'.config = f.config
  dropped_le : f.counters.txDropped ≤ f'.counters.txDropped
  exists_out : ∃ out : List Outgoing, f'.link.frames = f.link.frames ++ out.map Outgoing.frame ∧
    (∀ o ∈ out, o.From f.config) ∧
    (f'.counters.txDropped = f.counters.txDropped → Outgoing.payloads out = packets)

/-- What submits no frame and drops none. -/
theorem submitsPackets_nil (h : f'.link.InCustody) (hconfig : f'.config = f.config)
    (hdropped : f'.counters.txDropped = f.counters.txDropped)
    (hframes : f'.link.frames = f.link.frames) : SubmitsPackets f f' [] :=
  ⟨h, hconfig, Nat.le_of_eq hdropped.symm, [], hframes.trans (List.append_nil _).symm,
    (fun _ ho => absurd ho List.not_mem_nil), fun _ => rfl⟩

theorem submitsPackets_refl (h : f.link.InCustody) : SubmitsPackets f f [] :=
  submitsPackets_nil h rfl rfl rfl

theorem SubmitsPackets.trans {more : List Bytes} (h : SubmitsPackets f f' packets)
    (h' : SubmitsPackets f' f'' more) : SubmitsPackets f f'' (packets ++ more) := by
  obtain ⟨out, hframes, hfrom, hout⟩ := h.exists_out
  obtain ⟨out', hframes', hfrom', hout'⟩ := h'.exists_out
  have hle := h.dropped_le
  have hle' := h'.dropped_le
  refine ⟨h'.custody, h'.config_eq.trans h.config_eq, Nat.le_trans hle hle', out ++ out',
    ?_, ?_, ?_⟩
  · rw [hframes', hframes, List.map_append, List.append_assoc]
  · intro o ho
    rcases List.mem_append.mp ho with hfirst | hsecond
    · exact hfrom o hfirst
    · rw [← h.config_eq]
      exact hfrom' o hsecond
  · -- What is not dropped over both was dropped in neither.
    intro hnone
    rw [Outgoing.payloads_append, hout (by omega), hout' (by omega)]

/-- What comes of sending nothing more. -/
theorem SubmitsPackets.quiet (h : SubmitsPackets f f' packets)
    (h' : SubmitsPackets f' f'' []) : SubmitsPackets f f'' packets := by
  have hboth := h.trans h'
  rwa [List.append_nil] at hboth

/-- Only the link, the configuration and the count of dropped frames matter. -/
theorem SubmitsPackets.congr (h : SubmitsPackets f f' packets) (hlink : f''.link = f'.link)
    (hconfig : f''.config = f'.config)
    (hdropped : f''.counters.txDropped = f'.counters.txDropped) :
    SubmitsPackets f f'' packets := by
  obtain ⟨hcustody, hsame, hle, hout⟩ := h
  rw [← hlink] at hcustody hout
  rw [← hdropped] at hle hout
  exact ⟨hcustody, hconfig.trans hsame, hle, hout⟩

/-- What changes no more than a count before makes no difference. -/
theorem SubmitsPackets.of_counted (hlink : f'.link = f.link) (hconfig : f'.config = f.config)
    (hdropped : f'.counters.txDropped = f.counters.txDropped)
    (h : SubmitsPackets f' f'' packets) : SubmitsPackets f f'' packets := by
  obtain ⟨hcustody, hsame, hle, hout⟩ := h
  rw [hlink, hconfig, hdropped] at hout
  rw [hdropped] at hle
  exact ⟨hcustody, hsame.trans hconfig, hle, hout⟩

/-- Counting and noting beside what is sent. -/
theorem keeps_submitsPackets_modify {ε : Type} {g : Endpoint (Recorded L) → Endpoint (Recorded L)}
    (hg : ∀ f, (g f).link = f.link ∧ (g f).config = f.config ∧
      (g f).counters.txDropped = f.counters.txDropped) :
    Keeps (fun f' => SubmitsPackets f f' packets)
      (modify g : Action ε (Endpoint (Recorded L)) Unit) :=
  Action.keeps_modify fun f' h =>
    let ⟨hlink, hconfig, hdropped⟩ := hg f'
    h.congr hlink hconfig hdropped

/-! ## ARP packets -/

variable [PooledTransport L]

/-- An ARP packet is submitted or dropped; it is none of the packets that count. -/
theorem send_arp_submits {opcode : UInt16} {frame : Bytes} (hframe : ArpFrame opcode frame)
    (h : f.link.InCustody) :
    SubmitsPackets f
      ((send frame : Action FrameError (Endpoint (Recorded L)) Bool).state f) [] := by
  obtain ⟨total, e, hwatched⟩ := exists_watched h
  obtain ⟨sent, e', f', hsend, hwatched', hframes⟩ :=
    send_watched (Nat.le_trans (Nat.le_of_eq hframe.length_eq) (by decide)) hwatched
  have hends := send_ends frame f
  have hsettled := settled_aside.send (L := Recorded L) frame f ⟨rfl, rfl⟩
  rw [hsend] at hends
  rw [Action.state_of_ok hsend] at hsettled ⊢
  have hdropped := hends.txDropped_of_ok
  refine ⟨hwatched'.inCustody, hsettled.1, by omega, ?_⟩
  cases sent with
  | false => exact ⟨[], hframes, (fun _ ho => absurd ho List.not_mem_nil), fun _ => rfl⟩
  | true =>
    refine ⟨[.arp opcode frame hframe], hframes, ?_, fun _ => rfl⟩
    intro o ho
    rw [List.mem_singleton.mp ho]
    trivial

theorem sendRequest_submitsPackets (now : Nat) (h : f.link.InCustody) :
    SubmitsPackets f
      ((sendRequest now : Action FrameError (Endpoint (Recorded L)) Unit).state f) [] := by
  unfold sendRequest
  rw [Action.state_bind_of_ok (Action.get_apply f)]
  cases f.resolver.target with
  | none => exact submitsPackets_refl h
  | some target =>
    refine Keeps.state_bind (P := fun f' => SubmitsPackets f f' [])
      (send_arp_submits (requestFrame_arpFrame _ _ _) h) fun sent => Keeps.ite ?_ ?_
    · refine Keeps.bind (keeps_submitsPackets_modify ?_) fun _ => keeps_submitsPackets_modify ?_
      · exact fun _ => ⟨rfl, rfl, rfl⟩
      · exact fun _ => ⟨rfl, rfl, rfl⟩
    · exact Action.keeps_pure _ ()

theorem askFirst_submitsPackets (now : Nat) (h : f.link.InCustody) :
    SubmitsPackets f
      ((askFirst now : Action FrameError (Endpoint (Recorded L)) Unit).state f) [] := by
  unfold askFirst
  rw [Action.state_bind_of_ok (Action.get_apply f)]
  split
  · exact sendRequest_submitsPackets now h
  · exact submitsPackets_refl h

theorem pollTimers_submitsPackets (now : Nat) (h : f.link.InCustody) :
    SubmitsPackets f
      ((pollTimers now : Action FrameError (Endpoint (Recorded L)) Unit).state f) [] := by
  unfold pollTimers
  rw [Action.state_bind_of_ok (Action.get_apply f)]
  obtain ⟨action, resolver⟩ := f.resolver.poll now
  let polled : Endpoint (Recorded L) := { f with resolver }
  have hmodify : (modify fun f => { f with resolver } :
      Action FrameError (Endpoint (Recorded L)) Unit) f = .ok () polled := rfl
  simp only
  rw [Action.state_bind_of_ok hmodify]
  refine SubmitsPackets.of_counted (rfl : polled.link = f.link) rfl rfl ?_
  split
  · exact sendRequest_submitsPackets now h
  · exact submitsPackets_refl h

/-- Putting onto the wire what was submitted submits nothing. -/
theorem flush_submitsPackets (h : f.link.InCustody) :
    SubmitsPackets f
      ((flush : Action LinkError (Endpoint (Recorded L)) Unit).state f) [] := by
  have hframes : HasSubmitted f.link.frames (flush.state f) := flush_submits f rfl
  have hconfig := (settled_aside.flush (L := Recorded L) f ⟨rfl, rfl⟩).1
  have hdropped : Keeps (fun f' : Endpoint (Recorded L) =>
      f'.counters.txDropped = f.counters.txDropped) flush :=
    Keeps.bind (Keeps.on fun _ h => h) fun _ => Action.keeps_modify fun _ h => h
  exact submitsPackets_nil (inCustody_of_parallel (fun total => flush_parallel) h) hconfig
    (hdropped f rfl) hframes

/-- Dealing with a frame submits an answer to a question at most. -/
theorem handle_submitsPackets (frame : Bytes) (h : f.link.InCustody) :
    SubmitsPackets f (handle.state (f, frame)).1 [] := by
  have hconfig := (handle_heeds f frame).1
  by_cases hnone : ∀ owner, f.config.source = some owner → ¬ AsksFor owner frame
  · have hquiet := handle_quiet hnone
    exact (submitsPackets_refl h).congr hquiet.link hconfig hquiet.txDropped
  · simp only [not_forall, not_not] at hnone
    obtain ⟨owner, hmine, hasks⟩ := hnone
    let counted : Endpoint (Recorded L) :=
      { f with counters.rxFrames := f.counters.rxFrames + 1 }
    have hanswered : SubmitsPackets counted (dispatch.state (counted, frame)).1 [] := by
      rw [dispatch_of_asksFor (e := counted) hmine hasks]
      refine Keeps.state_bind (P := fun f' => SubmitsPackets counted f' [])
        (send_arp_submits (answerInPlace_arpFrame _ hasks.arp.long hasks.arp.etherType) h)
        fun sent => ?_
      cases sent with
      | true => exact keeps_submitsPackets_modify fun _ => ⟨rfl, rfl, rfl⟩
      | false => exact Action.keeps_pure _ ()
    obtain ⟨delivered, dropped, hstate⟩ := state_handle f frame
    rw [hstate]
    exact SubmitsPackets.of_counted (rfl : counted.link = f.link) rfl rfl
      (hanswered.congr rfl rfl rfl)

/-! ## Datagrams -/

/-- Once a datagram has its buffer, it is written into it and submitted. -/
theorem sendDatagram_of_reserve_watched {room : Nat} {fill : Action GuardError Writer Unit}
    {payload : Bytes} (hfill : Writer.FillsWithin room fill payload)
    (hroom : payload.length ≤ room) (hmax : 42 + room ≤ bufferSize) {d : Descriptor}
    {e₁ : Endpoint L} {f₁ : Endpoint (Recorded L)}
    (hreserve : reserve (frameOverhead + room) f = .ok (some d) f₁) (hd : d.length = 42 + room)
    (h : Watched total (some d) e₁ f₁) :
    let f₂ : Endpoint (Recorded L) := { f₁ with identification := f₁.identification + 1 }
    ∃ e' f', (sendDatagram room fill : Action FrameError (Endpoint (Recorded L)) Bool) f =
        .ok true f' ∧ Watched total none e' f' ∧
      f'.link.frames = f₁.link.frames ++ [f₂.addressing.frame payload] := by
  intro f₂
  have haccounts : (Transport.pool f₁.link).Accounts [d.slot] := h.accounts
  have hwatched : Watched total (some d)
      { e₁ with identification := e₁.identification + 1 } f₂ := by
    obtain ⟨m, hsame, hm⟩ := h
    refine ⟨m, ?_, hm⟩
    show ({ f₁ with identification := f₁.identification + 1 } : Endpoint (Recorded L)) = _
    rw [hsame]
    rfl
  have hbuffer : 42 + room ≤ (Transport.content f₂.link d).length := by
    show 42 + room ≤ (((Transport.pool f₁.link).buffer d.slot).take d.length).length
    rw [List.length_take, haccounts.length_buffer, hd]
    omega
  obtain ⟨rest, hwrite⟩ := f₂.addressing.write_holding hfill hroom hbuffer
  have hframe : (f₂.addressing.frame payload).length = 42 + payload.length :=
    f₂.addressing.length_frame payload
  have hshort : 42 + payload.length ≤ d.length := by omega
  have hwritten : 42 + payload.length ≤ (f₂.addressing.frame payload ++ rest).length := by
    rw [List.length_append, hframe]
    exact Nat.le_add_right ..
  obtain ⟨e', f', hsubmit, hwatched', hsubmitted⟩ :=
    store_submit_watched hwatched hshort hwritten (hd.symm ▸ hmax)
  have hfront : (f₂.addressing.frame payload ++ rest).take (42 + payload.length) =
      f₂.addressing.frame payload := by
    rw [← hframe, List.take_left]
  rw [hfront] at hsubmitted
  refine ⟨e', f', ?_, hwatched', hsubmitted⟩
  unfold sendDatagram
  rw [Action.bind_apply, Action.mapError, hreserve]
  simp only [Action.bind_apply, Action.modify_apply, Action.get_apply, Action.state,
    Action.result]
  rw [hwrite]
  simp only [Action.bind_apply, Writer.buffer_holding, Action.mapError]
  rw [hsubmit]
  rfl

/-- A datagram that gets a buffer is submitted, with the payload that was written. -/
theorem sendDatagram_watched (room : Nat) {fill : Action GuardError Writer Unit} {payload : Bytes}
    (hfill : Writer.FillsWithin room fill payload) (hroom : payload.length ≤ room)
    (hmax : room ≤ maxDatagram) (h : Watched total none e f) :
    ∃ sent e' f' out, (sendDatagram room fill : Action FrameError (Endpoint (Recorded L)) Bool) f =
        .ok sent f' ∧ Watched total none e' f' ∧
      f'.link.frames = f.link.frames ++ out.map Outgoing.frame ∧ (∀ o ∈ out, o.From f.config) ∧
      Outgoing.payloads out = if sent then [payload] else [] := by
  have hlength : frameOverhead + room ≤ bufferSize := by
    have hmax' : room ≤ 1558 := hmax
    show 42 + room ≤ 1600
    omega
  obtain ⟨d?, e₁, f₁, hreserve, hreserved, hframes, hd⟩ := reserve_watched hlength h
  cases d? with
  | none =>
    refine ⟨false, e₁, f₁, [], ?_, hreserved, hframes.trans (List.append_nil _).symm,
      (fun _ ho => absurd ho List.not_mem_nil), rfl⟩
    unfold sendDatagram
    rw [Action.bind_apply, Action.mapError, hreserve]
    rfl
  | some d =>
    have hconfig := (settled_aside.reserve (frameOverhead + room) f ⟨rfl, rfl⟩).1
    rw [Action.state_of_ok hreserve] at hconfig
    obtain ⟨e', f', hsend, hwatched, hsubmitted⟩ :=
      sendDatagram_of_reserve_watched hfill hroom hlength hreserve (hd d rfl) hreserved
    have hfits : payload.length ≤ maxDatagram := Nat.le_trans hroom hmax
    refine ⟨true, e', f', [.datagram _ payload hfits], hsend, hwatched,
      hframes ▸ hsubmitted, ?_, rfl⟩
    intro o ho
    rw [List.mem_singleton.mp ho, ← hconfig]
    exact ⟨rfl, rfl, rfl⟩

theorem transmit_submitsPackets (now room : Nat) {fill : Action GuardError Writer Unit}
    {payload : Bytes} (hfill : Writer.FillsWithin room fill payload)
    (hroom : payload.length ≤ room) (hmax : room ≤ maxDatagram) (h : f.link.InCustody) :
    ∃ sent f', (transmit now room fill : Action FrameError (Endpoint (Recorded L)) Bool) f =
      .ok sent f' ∧ SubmitsPackets f f' [payload] := by
  have hasked := askFirst_submitsPackets now h
  obtain ⟨total, e, hwatched⟩ := exists_watched h
  obtain ⟨e₁, f₁, -, hask, hwatched₁, -, -⟩ := askFirst_submits now hwatched
  rw [Action.state_of_ok hask] at hasked
  obtain ⟨sent, e', f', out, hsend, hwatched', hframes, hfrom, hpayloads⟩ :=
    sendDatagram_watched room hfill hroom hmax hwatched₁
  obtain ⟨n, hends⟩ := (sendDatagram_ends room fill f₁).sendEnds
  have hconfig := (sendDatagram_settled room fill f₁ ⟨rfl, rfl⟩).1
  rw [hsend] at hends
  rw [Action.state_of_ok hsend] at hconfig
  refine ⟨sent, f', ?_, ?_⟩
  · rw [transmit, Action.bind_apply, hask]
    exact hsend
  · have hdropped : f'.counters.txDropped = f₁.counters.txDropped + if sent then 0 else 1 :=
      hends.txDropped_of_ok
    refine hasked.trans ⟨hwatched'.inCustody, hconfig, by omega, out, hframes, hfrom, ?_⟩
    intro hnone
    cases sent with
    | true => exact hpayloads
    | false =>
      have hone : f'.counters.txDropped = f₁.counters.txDropped + 1 := hdropped
      omega

/-- A signal or an update is submitted, and put onto the wire. -/
theorem control_submitsPackets (now : Nat) (kind : PacketKind) (name : ModuleName)
    (hash : ContentHash) (h : f.link.InCustody) :
    SubmitsPackets f ((do
        let _ ← transmit now (Header.size PacketHeader) (encodeControl kind name hash)
        flush.mapError FrameError.link :
          Action FrameError (Endpoint (Recorded L)) Unit).state f)
      [controlPacket kind name hash] := by
  have hsize : Header.size PacketHeader = 100 := rfl
  obtain ⟨sent, f₁, hsent, hsubmits⟩ := transmit_submitsPackets now 100
    ((encodeControl_fills kind name hash).within 100)
    (Nat.le_of_eq (length_controlPacket kind name hash)) (by decide) h
  rw [hsize, Action.state_bind_of_ok hsent, Action.state_mapError]
  exact hsubmits.quiet (flush_submitsPackets hsubmits.custody)

end Endpoint

end RomCast
