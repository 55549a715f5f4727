import RomCast.Proofs.Message
import RomCast.Proofs.Station.Memory
import RomCast.Server

set_option autoImplicit false

/-!
# What a server streams

A source is streamed as its fragments, in order and each once; some are left out when buffers run
short, none on a link that flows (`handler_replies`).  Nothing is asked of the source: a fragment
carries what the source gives for it, as far as there is room.
-/

namespace RomCast.Server

variable {σ : Type} [ContentSource σ]

/-! ## Packets -/

/-- How many fragments a source has. -/
def sourceCount (source : σ) : Nat := (ContentSource.size source + maxPayload - 1) / maxPayload

/-- How many bytes there is room for in the fragment with a number. -/
def room (source : σ) (i : Nat) : Nat :=
  min maxPayload (ContentSource.size source - i * maxPayload)

/-- What a source gives for the fragment with a number. -/
def given (source : σ) (i : Nat) : Bytes :=
  ContentSource.read source (room source i) (i * maxPayload)

/-- The packet of the fragment with a number. -/
def sourcePacket (name : ModuleName) (source : σ) (i : Nat) : Bytes :=
  dataPacket name (ContentSource.hash source) (UInt32.ofNat (ContentSource.size source))
    (UInt32.ofNat (i * maxPayload)) ((given source i).take (room source i))

/-- The packets of a source, in order.  One that is too long for the wire format has none. -/
def sourcePackets (name : ModuleName) (source : σ) : List Bytes :=
  if ContentSource.size source < UInt32.size then
    (List.range (sourceCount source)).map (sourcePacket name source)
  else []

/-- The packets that answer a packet. -/
def reply (contents : Registry σ) (message : Message) : List Bytes :=
  match message.body, contents.find? message.module with
  | .update, some source => sourcePackets message.module source
  | _, _ => []

theorem room_le (source : σ) (i : Nat) : room source i ≤ maxPayload := Nat.min_le_left ..

theorem length_sourcePacket_le (name : ModuleName) (source : σ) (i : Nat) :
    (sourcePacket name source i).length ≤ dataOverhead + room source i := by
  have hoverhead : dataOverhead = 110 := rfl
  rw [sourcePacket, length_dataPacket, List.length_take, hoverhead]
  exact Nat.add_le_add_left (Nat.min_le_left ..) 110

/-- Whatever a source gives, the packet is a fragment. -/
theorem decode_sourcePacket (name : ModuleName) (source : σ) (i : Nat) :
    ∃ f, Message.decode (sourcePacket name source i) =
      .ok ⟨name, ContentSource.hash source, .data f⟩ := by
  refine ⟨_, Message.decode_data _ _ _ _ ?_⟩
  rw [List.length_take]
  exact Nat.le_trans (Nat.min_le_left ..) (room_le source i)

/-- Only a request is answered, and with fragments. -/
theorem mem_reply {contents : Registry σ} {message : Message} {packet : Bytes}
    (h : packet ∈ reply contents message) : message.body = .update ∧
      ∃ name hash f, Message.decode packet = .ok ⟨name, hash, .data f⟩ := by
  unfold reply at h
  split at h
  · rename_i source hbody _
    refine ⟨hbody, message.module, ContentSource.hash source, ?_⟩
    unfold sourcePackets at h
    split at h
    · obtain ⟨i, -, rfl⟩ := List.mem_map.mp h
      exact decode_sourcePacket message.module source i
    · cases h
  · cases h

/-! ## Streaming -/

/-- What writes the packet of the fragment with a number. -/
def writeFragment (name : ModuleName) (source : σ) (i : Nat) : Action GuardError Writer Unit :=
  do
    let _ ← encodeData name (ContentSource.hash source)
      (UInt32.ofNat (ContentSource.size source)) (UInt32.ofNat (i * maxPayload)) (room source i)
      fun place =>
        let bytes := ContentSource.read source place.length (i * maxPayload)
        (bytes, bytes.length)

theorem writeFragment_fills (name : ModuleName) (source : σ) (i : Nat) :
    Writer.FillsWithin (dataOverhead + room source i) (writeFragment name source i)
      (sourcePacket name source i) := by
  refine encodeData_fills name _ _ _ (room_le source i) ?_
  intro place hplace
  simp only [hplace]
  rfl

/-- A fragment that there is starts within the source. -/
theorem start_lt_size {source : σ} {i : Nat} (h : i < sourceCount source) :
    i * maxPayload < ContentSource.size source := by
  have hmax : maxPayload = 1024 := rfl
  rw [sourceCount, hmax] at h
  rw [hmax]
  omega

/-- The next fragment starts where this one ends. -/
theorem next_start {source : σ} {i : Nat} (h : i + 1 < sourceCount source) :
    i * maxPayload + room source i = (i + 1) * maxPayload := by
  have hnext := start_lt_size h
  rw [Nat.succ_mul] at hnext ⊢
  rw [room]
  omega

/-- Streaming sends the next fragment, and then the others. -/
theorem streamFrom_succ {L : Type} [Transport L] (now : Nat) (name : ModuleName) (source : σ)
    (n i : Nat) (hi : i < sourceCount source) :
    (streamFrom now name source (ContentSource.size source) (ContentSource.hash source) (n + 1)
        (i * maxPayload) : Action FrameError (Endpoint L) Unit) =
      (do
        let _ ← Endpoint.transmit now (dataOverhead + room source i)
          (writeFragment name source i)
        streamFrom now name source (ContentSource.size source) (ContentSource.hash source) n
          (i * maxPayload + room source i)) := by
  rw [streamFrom, if_pos (start_lt_size hi)]
  rfl

theorem room_le_maxDatagram (source : σ) (i : Nat) :
    dataOverhead + room source i ≤ maxDatagram := by
  have hroom : room source i ≤ 1024 := room_le source i
  show 110 + room source i ≤ 1558
  omega

theorem streamFrom_streams (now : Nat) (name : ModuleName) (source : σ) (n i offset : Nat)
    (hcount : i + n = sourceCount source) (hoffset : n ≠ 0 → offset = i * maxPayload)
    (e : Endpoint.OnMemory) (h : e.link.pool.Accounts []) :
    ∃ e' out, (streamFrom now name source (ContentSource.size source) (ContentSource.hash source) n
        offset : Action FrameError Endpoint.OnMemory Unit) e = .ok () e' ∧
      e.Streams e' ((List.range' i n).map (sourcePacket name source)) out := by
  induction n generalizing i offset e with
  | zero => exact ⟨e, [], rfl, Endpoint.streams_refl h⟩
  | succ n ih =>
    obtain rfl : offset = i * maxPayload := hoffset (Nat.succ_ne_zero n)
    obtain ⟨sent, e₁, out₁, hsent, hemits, htransmits, hflows⟩ :=
      Endpoint.transmit_emits now (dataOverhead + room source i)
        (writeFragment_fills name source i) (length_sourcePacket_le name source i)
        (room_le_maxDatagram source i) e h
    obtain ⟨e', out₂, hrest, hstreams⟩ := ih (i + 1) (i * maxPayload + room source i) (by omega)
      (fun hn => next_start (by omega)) e₁ hemits.accounts
    refine ⟨e', out₁ ++ out₂, ?_, hemits.trans hstreams.emits, ?_, ?_, ?_⟩
    · rw [streamFrom_succ now name source n i (by omega), Action.bind_apply, hsent]
      exact hrest
    · rw [Outgoing.payloads_append, htransmits.payloads_eq, List.range'_succ, List.map_cons]
      cases sent with
      | false => exact List.Sublist.cons _ hstreams.sublist
      | true => exact List.Sublist.cons_cons _ hstreams.sublist
    · intro hlink
      have hall := hstreams.complete (hlink.congr hemits.queued)
      rw [Outgoing.payloads_append, htransmits.payloads_eq, hflows hlink, hall,
        List.range'_succ, List.map_cons]
      rfl
    · have hfirst := htransmits.totalChatter_le
      have hsecond := hstreams.chatter
      rw [List.length_map, List.length_range'] at hsecond
      rw [Outgoing.totalChatter_append, List.length_map, List.length_range']
      omega

section Outcomes

variable {P : Endpoint.OnMemory → List Bytes → List Outgoing → Prop} {e : Endpoint.OnMemory}

/-- What holds when nothing is sent, and when the fragments have been sent one after the other and
the link has been flushed, holds of streaming. -/
theorem stream_of (now : Nat) (name : ModuleName) (source : σ) (hnothing : P e [] [])
    (hfragments : ∃ e₁ out, (streamFrom now name source (ContentSource.size source)
        (ContentSource.hash source) (sourceCount source) 0 :
          Action FrameError Endpoint.OnMemory Unit) e = .ok () e₁ ∧
      P e₁ ((List.range' 0 (sourceCount source)).map (sourcePacket name source)) out)
    (hflush : ∀ e₁ packets out, P e₁ packets out → P e₁.flushed packets out) :
    ∃ e' out, (stream now name source : Action FrameError Endpoint.OnMemory Unit) e = .ok () e' ∧
      P e' (sourcePackets name source) out := by
  unfold stream sourcePackets
  by_cases hshort : ContentSource.size source < UInt32.size
  · rw [if_pos hshort, if_pos hshort, List.range_eq_range']
    obtain ⟨e₁, out, hstream, hsent⟩ := hfragments
    refine ⟨e₁.flushed, out, ?_, hflush _ _ _ hsent⟩
    rw [Action.bind_apply, show (streamFrom now name source (ContentSource.size source)
      (ContentSource.hash source) ((ContentSource.size source + maxPayload - 1) / maxPayload) 0 :
        Action FrameError Endpoint.OnMemory Unit) e = .ok () e₁ from hstream]
    rfl
  · rw [if_neg hshort, if_neg hshort]
    exact ⟨e, [], rfl, hnothing⟩

/-- A server answers a request with the packets of what it serves, and nothing else with
anything. -/
theorem handler_of (now : Nat) (message : Message) (contents : Registry σ) (hnothing : P e [] [])
    (hstream : ∀ source : σ, ∃ e' out,
      (stream now message.module source : Action FrameError Endpoint.OnMemory Unit) e = .ok () e' ∧
        P e' (sourcePackets message.module source) out) :
    ∃ e' out, (handler now message).state (e, contents) = (e', contents) ∧
      P e' (reply contents message) out := by
  unfold handler reply
  cases message.body with
  | signal => exact ⟨e, [], rfl, hnothing⟩
  | data f => exact ⟨e, [], rfl, hnothing⟩
  | update =>
    simp only
    rw [Action.state_bind_of_ok (Action.get_apply (e, contents))]
    cases contents.find? message.module with
    | none => exact ⟨e, [], rfl, hnothing⟩
    | some source =>
      obtain ⟨e', out, hsent, hpackets⟩ := hstream source
      refine ⟨e', out, ?_, hpackets⟩
      simp only
      rw [Action.state_onFirst, Action.state_of_ok hsent]

end Outcomes

theorem stream_streams (now : Nat) (name : ModuleName) (source : σ) (e : Endpoint.OnMemory)
    (h : e.link.pool.Accounts []) :
    ∃ e' out, (stream now name source : Action FrameError Endpoint.OnMemory Unit) e = .ok () e' ∧
      e.Streams e' (sourcePackets name source) out := by
  refine stream_of now name source (Endpoint.streams_refl h) ?_ ?_
  · exact streamFrom_streams now name source (sourceCount source) 0 0 (Nat.zero_add _)
      (fun _ => (Nat.zero_mul _).symm) e h
  · intro e₁ packets out hstreams
    exact ⟨hstreams.emits.flush, hstreams.sublist, hstreams.complete, hstreams.chatter⟩

/-! ## Handling packets -/

section Roles

variable {L : Type} [Transport L]

/-- Handling a packet leaves what is served alone. -/
theorem handler_role (now : Nat) (message : Message) (e : Endpoint L) (contents : Registry σ) :
    ((handler now message).state (e, contents)).2 = contents := by
  unfold handler
  cases message.body with
  | signal => rfl
  | data f => rfl
  | update =>
    simp only
    rw [Action.state_bind_of_ok (Action.get_apply (e, contents))]
    cases contents.find? message.module with
    | none => rfl
    | some source => rw [Action.state_onFirst]

theorem turn_role (now : Nat) (s : Server L σ) :
    ((Station.turn (handler now)).state s).role = s.role := by
  rw [Station.role_turn (handler now) (fun _ contents => contents) (handler_role now)]
  cases Station.packet? s with
  | none => rfl
  | some message => rfl

theorem afterTurns_role (now n : Nat) (s : Server L σ) :
    (Station.afterTurns (handler now) n s).role = s.role := by
  induction n generalizing s with
  | zero => rfl
  | succ n ih => exact (ih _).trans (turn_role now s)

end Roles

/-- What a server sends for a packet is the packets of its reply. -/
theorem handler_replies (now : Nat) :
    Station.Plays (fun _ (contents : Registry σ) => contents) reply
      (handler (L := MemoryLink) now) := by
  intro message e contents h
  exact handler_of now message contents (Endpoint.streams_refl h)
    fun source => stream_streams now message.module source e h

end RomCast.Server
