import RomCast.Proofs.Exchange.Broadcast

set_option autoImplicit false

/-!
# Where the server's frames come from

Every frame that the server has sent or will send is a fragment of a recorded stream, or carries no
fragment at all; and the last fragments come in the order of their streams (`Sourced`).
-/

namespace RomCast.Exchange

/-- A frame of the server, with the stream and the number of the fragment that it carries. -/
inductive Origin where
  | other (o : Outgoing)
  | fragment (stream : Stream) (number : Nat) (o : Outgoing)

namespace Origin

/-- The frame itself. -/
def outgoing : Origin → Outgoing
  | other o => o
  | fragment _ _ o => o

/-- The bytes of the frame. -/
def frame (o : Origin) : Bytes := o.outgoing.frame

/-- The stream whose last fragment the frame carries. -/
def ends? : Origin → Option Stream
  | other _ => none
  | fragment s i _ => if i + 1 = Server.fragmentCount s.content then some s else none

/-- The frame carries what it is said to carry. -/
def Valid (streams : List Stream) : Origin → Prop
  | other o => ∀ payload, o.payload? = some payload →
      ∃ name hash, payload = controlPacket .signal name hash
  | fragment s i o => s ∈ streams ∧ o.frame ∈ s.frames ∧ o.payload? = some (s.packet i) ∧
      i < Server.fragmentCount s.content ∧ s.content.length < UInt32.size

theorem Valid.append {streams : List Stream} {o : Origin} (h : o.Valid streams)
    (later : List Stream) : o.Valid (streams ++ later) := by
  cases o with
  | other o => exact h
  | fragment s i o =>
    obtain ⟨hmem, hrest⟩ := h
    exact ⟨List.mem_append_left _ hmem, hrest⟩

/-- Frames that carry nothing or signals. -/
theorem exists_others (out : List Outgoing) (streams : List Stream)
    (h : ∀ payload ∈ Outgoing.payloads out,
      ∃ name hash, payload = controlPacket .signal name hash) :
    ∃ origins : List Origin, origins.map outgoing = out ∧
      (∀ o ∈ origins, o.Valid streams) ∧ origins.filterMap ends? = [] := by
  refine ⟨out.map other, ?_, ?_, ?_⟩
  · rw [List.map_map]
    exact List.map_id _
  · intro o ho
    obtain ⟨o', ho', rfl⟩ := List.mem_map.mp ho
    intro payload hpayload
    exact h payload (List.mem_filterMap.mpr ⟨o', ho', hpayload⟩)
  · rw [List.filterMap_map]
    exact List.filterMap_eq_nil_iff.mpr fun _ _ => rfl

/-- Frames that carry these fragments of a stream, in order. -/
theorem exists_fragments (s : Stream) (streams : List Stream) (hs : s ∈ streams)
    (hlength : s.content.length < UInt32.size) (numbers : List Nat)
    (hnumbers : ∀ i ∈ numbers, i < Server.fragmentCount s.content) (out : List Outgoing)
    (hout : Outgoing.payloads out = numbers.map s.packet)
    (hframes : ∀ o ∈ out, o.frame ∈ s.frames) :
    ∃ origins : List Origin, origins.map outgoing = out ∧ (∀ o ∈ origins, o.Valid streams) ∧
      origins.filterMap ends? =
        (numbers.filter fun i => i + 1 = Server.fragmentCount s.content).map fun _ => s := by
  induction out generalizing numbers with
  | nil =>
    have hnil : numbers = [] := by
      cases numbers with
      | nil => rfl
      | cons i rest => cases hout
    subst hnil
    exact ⟨[], rfl, by simp, rfl⟩
  | cons o rest ih =>
    have hrest : ∀ o' ∈ rest, o'.frame ∈ s.frames :=
      fun o' ho' => hframes o' (List.mem_cons_of_mem _ ho')
    cases hpayload : o.payload? with
    | none =>
      have hout' : Outgoing.payloads rest = numbers.map s.packet := by
        rw [← hout, Outgoing.payloads, Outgoing.payloads, List.filterMap_cons_none hpayload]
      obtain ⟨origins, hmap, hvalid, hends⟩ := ih numbers hnumbers hout' hrest
      refine ⟨other o :: origins, ?_, ?_, ?_⟩
      · rw [List.map_cons, hmap]
        rfl
      · intro o' ho'
        rcases List.mem_cons.mp ho' with hhead | htail
        · subst hhead
          intro payload hsome
          rw [hpayload] at hsome
          cases hsome
        · exact hvalid o' htail
      · rw [List.filterMap_cons_none rfl, hends]
    | some payload =>
      rw [Outgoing.payloads, List.filterMap_cons_some hpayload] at hout
      cases numbers with
      | nil => cases hout
      | cons i later =>
        rw [List.map_cons, List.cons.injEq] at hout
        obtain ⟨hhead, hlater⟩ := hout
        obtain ⟨origins, hmap, hvalid, hends⟩ := ih later
          (fun j hj => hnumbers j (List.mem_cons_of_mem _ hj)) hlater hrest
        refine ⟨fragment s i o :: origins, ?_, ?_, ?_⟩
        · rw [List.map_cons, hmap]
          rfl
        · intro o' ho'
          rcases List.mem_cons.mp ho' with hfirst | htail
          · subst hfirst
            exact ⟨hs, hframes o (List.mem_cons_self ..), by rw [hpayload, hhead],
              hnumbers i (List.mem_cons_self ..), hlength⟩
          · exact hvalid o' htail
        · rw [List.filter_cons]
          by_cases hlast : i + 1 = Server.fragmentCount s.content
          · rw [List.filterMap_cons_some (b := s) (by simp [ends?, hlast]), hends]
            simp [hlast]
          · rw [List.filterMap_cons_none (by simp [ends?, hlast]), hends]
            simp [hlast]

/-- A stream's frames end it at most once. -/
theorem exists_stream (s : Stream) (streams : List Stream) (hs : s ∈ streams)
    (hlength : s.content.length < UInt32.size) (out : List Outgoing)
    (hout : (Outgoing.payloads out).Sublist
      ((List.range (Server.fragmentCount s.content)).map s.packet))
    (hframes : ∀ o ∈ out, o.frame ∈ s.frames) :
    ∃ origins : List Origin, origins.map outgoing = out ∧ (∀ o ∈ origins, o.Valid streams) ∧
      (origins.filterMap ends?).Sublist [s] := by
  obtain ⟨numbers, hsub, hnumbers⟩ := List.sublist_map_iff.mp hout
  obtain ⟨origins, hmap, hvalid, hends⟩ := exists_fragments s streams hs hlength numbers
    (fun i hi => List.mem_range.mp (hsub.subset hi)) out hnumbers hframes
  refine ⟨origins, hmap, hvalid, ?_⟩
  rw [hends]
  have hlast : ((List.range (Server.fragmentCount s.content)).filter fun i =>
      i + 1 = Server.fragmentCount s.content).length ≤ 1 := by
    cases hcount : Server.fragmentCount s.content with
    | zero => simp
    | succ n =>
      have hnone : (List.range n).filter (fun i => decide (i + 1 = n + 1)) = [] := by
        rw [List.filter_eq_nil_iff]
        intro i hi
        have hlt := List.mem_range.mp hi
        simp only [decide_eq_true_eq]
        omega
      rw [List.range_succ, List.filter_append, hnone]
      simp
  have hfew : (numbers.filter fun i => i + 1 = Server.fragmentCount s.content).length ≤ 1 :=
    Nat.le_trans (hsub.filter _).length_le hlast
  match numbers.filter (fun i => i + 1 = Server.fragmentCount s.content), hfew with
  | [], _ => exact List.nil_sublist _
  | [i], _ => exact List.Sublist.refl _

end Origin

/-! ## What a packet makes the server send -/

/-- The packets that answer a packet, and the stream that is recorded for it: none of either, or the
fragments of that stream. -/
def Answered (frames packets : List Bytes) (stream? : Option Stream) : Prop :=
  (packets = [] ∧ stream? = none) ∨
    ∃ s, stream? = some s ∧ s.frames = frames ∧ s.content.length < UInt32.size ∧
      packets = (List.range (Server.fragmentCount s.content)).map s.packet

theorem answered {contents : Registry Publication} (hhonest : Server.AllHonest contents)
    (frames : List Bytes) (message? : Option Message) :
    Answered frames ((message?.map (Server.answer contents)).getD [])
      (message?.bind (streamOf contents frames)) := by
  cases message? with
  | none => exact Or.inl ⟨rfl, rfl⟩
  | some message =>
    rw [Option.map_some, Option.getD_some, Option.bind_some]
    cases hbody : message.body with
    | signal => exact Or.inl ⟨by simp [Server.answer, hbody], by simp [streamOf, hbody]⟩
    | data f => exact Or.inl ⟨by simp [Server.answer, hbody], by simp [streamOf, hbody]⟩
    | update =>
      cases hfind : contents.find? message.module with
      | none =>
        exact Or.inl ⟨by simp [Server.answer, hbody, hfind], by simp [streamOf, hbody, hfind]⟩
      | some p =>
        by_cases hlength : p.content.length < UInt32.size
        · refine Or.inr ⟨⟨message.module, p.content, frames⟩, ?_, rfl, hlength, ?_⟩
          · simp [streamOf, hbody, hfind, hlength]
          · have hhash : p.hash = ContentHash.of p.content := hhonest message.module p hfind
            simp only [Server.answer, hbody, hfind, Server.packets, if_pos hlength]
            refine List.map_congr_left ?_
            intro i _
            rw [Server.fragmentPacket, hhash]
            rfl
        · exact Or.inl ⟨by simp [Server.answer, hbody, hfind, Server.packets, hlength],
            by simp [streamOf, hbody, hfind, hlength]⟩

/-- Frames that carry part of an answer have their origins in the stream that is recorded for it. -/
theorem Answered.exists_origins {frames packets : List Bytes} {stream? : Option Stream}
    (h : Answered frames packets stream?) (streams : List Stream) {out : List Outgoing}
    (hout : (Outgoing.payloads out).Sublist packets) (hframes : ∀ o ∈ out, o.frame ∈ frames) :
    ∃ origins : List Origin, origins.map Origin.outgoing = out ∧
      (∀ o ∈ origins, o.Valid (streams ++ stream?.toList)) ∧
      (origins.filterMap Origin.ends?).Sublist stream?.toList := by
  rcases h with ⟨hnil, hnone⟩ | ⟨s, hsome, hsame, hlength, hpackets⟩
  · rw [hnil] at hout
    have hsilent : Outgoing.payloads out = [] := List.sublist_nil.mp hout
    obtain ⟨origins, hmap, hvalid, hends⟩ := Origin.exists_others out
      (streams ++ stream?.toList) (by simp [hsilent])
    refine ⟨origins, hmap, hvalid, ?_⟩
    rw [hends]
    exact List.nil_sublist _
  · rw [hpackets] at hout
    rw [hsome]
    apply Origin.exists_stream s _ (by simp) hlength out hout
    intro o ho
    rw [hsame]
    exact hframes o ho

/-! ## The server's side -/

/-- Every frame of the server has an origin. -/
structure Sourced {κ : Type} (b : Broadcast κ) : Prop where
  accounts : b.server.endpoint.link.pool.Accounts []
  buffer : b.server.buffer.length = bufferSize
  honest : Server.AllHonest b.server.role
  origins : ∃ origins : List Origin,
    origins.map Origin.frame = b.sent ++ b.server.endpoint.link.pipeline ∧
    (∀ o ∈ origins, o.Valid b.streams) ∧ (origins.filterMap Origin.ends?).Sublist b.streams

namespace Sourced

variable {κ : Type} {b : Broadcast κ}

/-- The server has queued frames, and perhaps streamed a content with them. -/
theorem extend (h : Sourced b) {b' : Broadcast κ} (later : List Stream) (out : List Outgoing)
    (hstreams : b'.streams = b.streams ++ later) (hsent : b'.sent = b.sent)
    (hpipeline : b'.server.endpoint.link.pipeline =
      b.server.endpoint.link.pipeline ++ out.map Outgoing.frame)
    (haccounts : b'.server.endpoint.link.pool.Accounts [])
    (hbuffer : b'.server.buffer.length = bufferSize) (hrole : b'.server.role = b.server.role)
    (hout : ∃ origins : List Origin, origins.map Origin.outgoing = out ∧
      (∀ o ∈ origins, o.Valid b'.streams) ∧ (origins.filterMap Origin.ends?).Sublist later) :
    Sourced b' := by
  obtain ⟨old, hold, hvalid, hends⟩ := h.origins
  obtain ⟨new, hnew, hvalid', hends'⟩ := hout
  refine ⟨haccounts, hbuffer, ?_, old ++ new, ?_, ?_, ?_⟩
  · rw [hrole]
    exact h.honest
  · have hframes : new.map Origin.frame = out.map Outgoing.frame := by
      rw [← hnew, List.map_map]
      rfl
    rw [List.map_append, hold, hframes, hsent, hpipeline, List.append_assoc]
  · intro o ho
    rcases List.mem_append.mp ho with hfirst | hsecond
    · rw [hstreams]
      exact (hvalid o hfirst).append later
    · exact hvalid' o hsecond
  · rw [List.filterMap_append, hstreams]
    exact hends.append hends'

/-- The server has queued frames without fragments. -/
theorem emit (h : Sourced b) {b' : Broadcast κ} (out : List Outgoing)
    (hstreams : b'.streams = b.streams) (hsent : b'.sent = b.sent)
    (hemits : b.server.endpoint.Emits b'.server.endpoint out)
    (hbuffer : b'.server.buffer.length = bufferSize) (hrole : b'.server.role = b.server.role)
    (hout : ∀ payload ∈ Outgoing.payloads out,
      ∃ name hash, payload = controlPacket .signal name hash) : Sourced b' := by
  obtain ⟨new, hnew, hvalid, hends⟩ := Origin.exists_others out b'.streams hout
  refine h.extend [] out (by rw [hstreams, List.append_nil]) hsent hemits.queued.pipeline
    hemits.accounts hbuffer hrole ⟨new, hnew, hvalid, ?_⟩
  exact List.sublist_nil.mpr hends

/-- Nothing about the server's frames has changed. -/
theorem congr (h : Sourced b) {b' : Broadcast κ} (hstreams : b'.streams = b.streams)
    (hframes : b'.sent ++ b'.server.endpoint.link.pipeline =
      b.sent ++ b.server.endpoint.link.pipeline)
    (hpool : b'.server.endpoint.link.pool = b.server.endpoint.link.pool)
    (hbuffer : b'.server.buffer = b.server.buffer) (hrole : b'.server.role = b.server.role) :
    Sourced b' := by
  refine ⟨?_, ?_, ?_, ?_⟩
  · rw [hpool]
    exact h.accounts
  · rw [hbuffer]
    exact h.buffer
  · rw [hrole]
    exact h.honest
  · rw [hframes, hstreams]
    exact h.origins

/-- What happens at the client does not concern the server's frames. -/
theorem of_server_eq (h : Sourced b) {b' : Broadcast κ} (hserver : b'.server = b.server)
    (hsent : b'.sent = b.sent) (hstreams : b'.streams = b.streams) : Sourced b' :=
  h.congr hstreams (by rw [hserver, hsent]) (by rw [hserver]) (by rw [hserver]) (by rw [hserver])

/-- A publication changes, and stays honest. -/
theorem changing (h : Sourced b) (name : ModuleName) {f : Publication → Publication}
    (hf : ∀ p, p.Honest → (f p).Honest) : Sourced (b.changing name f) :=
  ⟨h.accounts, h.buffer, h.honest.modify name hf, h.origins⟩

/-- A turn of the server streams at most one content. -/
theorem serverTurn (h : Sourced b) (now : Nat) : Sourced (b.perform (.serverTurn now)) := by
  cases hinbound : b.server.endpoint.link.inbound with
  | nil =>
    have hturn : (Station.turn (Server.handler now)).state b.server = b.server :=
      Action.state_of_ok (Station.turn_of_nil _ hinbound)
    refine h.of_server_eq hturn rfl ?_
    simp [Broadcast.perform, Station.packet?_of_nil hinbound]
  | cons frame rest =>
    obtain ⟨s', answers, out, hturn, hturned⟩ := Station.turn_turned (Server.handler_plays now)
      hinbound h.accounts h.buffer
    have hstate : (Station.turn (Server.handler now)).state b.server = s' :=
      Action.state_of_ok hturn
    have hpacket := Station.packet?_of_cons hinbound h.accounts h.buffer
    have hrole : s'.role = b.server.role := by
      rw [hturned.role]
      split
      · rfl
      · rfl
    have hpipeline : s'.endpoint.link.pipeline =
        b.server.endpoint.link.pipeline ++ (answers ++ out).map Outgoing.frame :=
      hturned.emits.queued.pipeline
    have hframes : s'.endpoint.link.pipeline.drop b.server.endpoint.link.pipeline.length =
        (answers ++ out).map Outgoing.frame := by
      rw [hpipeline, List.drop_left]
    have hanswers : ∀ payload ∈ Outgoing.payloads answers,
        ∃ name hash, payload = controlPacket .signal name hash := by
      rcases hturned.answers with hnil | ⟨-, -, bytes, valid, hone⟩
      · rw [hnil]
        simp
      · rw [hone]
        simp [Outgoing.payloads, Outgoing.payload?]
    let stream? := (Station.packet? b.server).bind
      (streamOf b.server.role ((answers ++ out).map Outgoing.frame))
    have hperform : b.perform (.serverTurn now) =
        { b with server := s', streams := b.streams ++ stream?.toList } := by
      simp only [Broadcast.perform, hstate, hframes, stream?]
    rw [hperform]
    refine h.extend stream?.toList (answers ++ out) rfl rfl hpipeline hturned.emits.accounts
      hturned.buffer hrole ?_
    obtain ⟨first, hfirst, hfirstValid, hfirstEnds⟩ :=
      Origin.exists_others answers (b.streams ++ stream?.toList) hanswers
    -- What the role has sent is the stream that is recorded, or nothing with a payload.
    have hsublist := hturned.sublist
    rw [← hpacket] at hsublist
    obtain ⟨second, hsecond, hsecondValid, hsecondEnds⟩ :=
      (answered h.honest ((answers ++ out).map Outgoing.frame)
        (Station.packet? b.server)).exists_origins b.streams hsublist fun o ho =>
          List.mem_map_of_mem (List.mem_append_right _ ho)
    refine ⟨first ++ second, ?_, ?_, ?_⟩
    · rw [List.map_append, hfirst, hsecond]
    · intro o ho
      rcases List.mem_append.mp ho with hleft | hright
      · exact hfirstValid o hleft
      · exact hsecondValid o hright
    · rw [List.filterMap_append, hfirstEnds, List.nil_append]
      exact hsecondEnds

/-- A chore of the server sends no fragments. -/
theorem serverChore (h : Sourced b) (chore : Endpoint.Chore) :
    Sourced (b.perform (.serverChore chore)) := by
  obtain ⟨out, hemits, hatMost⟩ := chore.apply_emits h.accounts
  refine h.emit out rfl rfl hemits h.buffer rfl ?_
  intro payload hpayload
  rw [hatMost.payloads_eq] at hpayload
  cases hpayload

/-- An announcement sends a signal at most. -/
theorem announce (h : Sourced b) (now : Nat) (name : ModuleName) :
    Sourced (b.perform (.announce now name)) := by
  obtain ⟨e', out, hstate, hstreams⟩ :=
    Server.sendUpdate_streams (ε := LinkError) now name b.server h.accounts
  have hperform : b.perform (.announce now name) =
      { b with server := { b.server with endpoint := e' } } := by
    simp only [Broadcast.perform, hstate]
  rw [hperform]
  refine h.emit out rfl rfl hstreams.emits h.buffer rfl ?_
  intro payload hpayload
  have hsignal := hstreams.sublist.subset hpayload
  unfold Server.signal at hsignal
  cases hfind : b.server.role.find? name with
  | none =>
    rw [hfind] at hsignal
    cases hsignal
  | some p =>
    rw [hfind] at hsignal
    by_cases hempty : p.content.length ≠ 0
    · simp only [if_pos hempty, List.mem_singleton] at hsignal
      exact ⟨name, p.hash, hsignal⟩
    · simp only [if_neg hempty, List.not_mem_nil] at hsignal

theorem perform (h : Sourced b) (move : Move κ) : Sourced (b.perform move) := by
  cases move with
  | serverTurn now => exact h.serverTurn now
  | serverChore chore => exact h.serverChore chore
  | announce now name => exact h.announce now name
  | publish name content => exact h.changing name fun p _ => p.update_honest content
  | clear name => exact h.changing name fun _ hp => Publication.clear_honest hp
  | arrive frame => exact h.congr rfl rfl rfl rfl rfl
  | collect =>
    refine h.congr rfl ?_ rfl rfl rfl
    show (b.sent ++ b.server.endpoint.link.outbound) ++ ([] ++ _) = _
    rw [List.nil_append, List.append_assoc]
    rfl
  | deliver number => exact h.of_server_eq rfl rfl rfl
  | clientTurn now => exact h.of_server_eq rfl rfl rfl
  | clientChore chore => exact h.of_server_eq rfl rfl rfl
  | request now name => exact h.of_server_eq rfl rfl rfl
  | clientCollect => exact h.of_server_eq rfl rfl rfl
  | takeJournal => exact h.of_server_eq rfl rfl rfl
  | attach name label => exact h.of_server_eq rfl rfl rfl
  | sigh name session capability => exact h.of_server_eq rfl rfl rfl
  | detach name session => exact h.of_server_eq rfl rfl rfl

theorem run (h : Sourced b) (moves : List (Move κ)) : Sourced (b.run moves) := by
  induction moves generalizing b with
  | nil => exact h
  | cons move rest ih => exact ih (h.perform move)

end Sourced

/-! ## The start -/

theorem sourced_start {κ : Type} (server client : Setup)
    (contents : List (ModuleName × Bool × Option Bytes)) (limit : Nat)
    (modules : List (ModuleName × Option Bytes)) :
    Sourced (Broadcast.start server client contents limit modules : Broadcast κ) := by
  obtain ⟨hendpoint, hbuffer, hhonest⟩ := serving_honest server.endpoint contents
  refine ⟨?_, ?_, hhonest, [], ?_, by simp, List.nil_sublist _⟩
  · show (serving server.endpoint contents).endpoint.link.pool.Accounts []
    rw [hendpoint]
    exact server.accounts
  · show (serving server.endpoint contents).buffer.length = bufferSize
    rw [hbuffer, Bytes.length_zeros]
  · show [] = [] ++ (serving server.endpoint contents).endpoint.link.pipeline
    rw [hendpoint, server.pipeline]
    rfl

end RomCast.Exchange
