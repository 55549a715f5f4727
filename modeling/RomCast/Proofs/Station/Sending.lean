import RomCast.Proofs.Endpoint.Asking
import RomCast.Proofs.Station.Intact

set_option autoImplicit false

/-!
# What a station sends while it is polled

On a link that flows nothing is dropped, so that what a station sends is known frame by frame.  Turn
by turn it answers an ARP question, and then sends the packets with which its role answers what was
read, one in each datagram, behind the question for the peer's address if nobody has asked yet
(`poll_sends`).
-/

namespace RomCast.Station

variable {ρ : Type}

/-- What a station sends in one turn: the answer to an ARP question, and its datagrams behind the
question that had to be asked before the first of them. -/
structure Sent where
  replies : List Outgoing
  questions : List Outgoing
  datagrams : List Outgoing

/-- All that is sent in the turn, in order. -/
def Sent.all (t : Sent) : List Outgoing := t.replies ++ (t.questions ++ t.datagrams)

/-- The bytes on the wire. -/
def Sent.frames (t : Sent) : List Bytes := t.all.map Outgoing.frame

/-- The packets that answer a frame: what it carries is answered so. -/
def answersIn (config : Endpoint.Config) (answer : Message → List Bytes) (frame : Bytes) :
    List Bytes :=
  ((packetIn? config (frame.take bufferSize)).map answer).getD []

/-- What a station of this configuration sends in the turn in which it reads a frame, when its role
answers packets so. -/
structure SendsFor (config : Endpoint.Config) (answer : Message → List Bytes)
    (s : Station MemoryLink ρ) (frame : Bytes) (t : Sent) : Prop where
  read : packet? s = packetIn? config (frame.take bufferSize)
  replies : Endpoint.Answers (frame.take bufferSize) t.replies
  questions : t.questions = if t.datagrams = [] then [] else (afterRead s).endpoint.questions
  carried : t.datagrams.map Outgoing.payload? = (answersIn config answer frame).map some

section Roles

variable (change : Message → ρ → ρ) (answer : ρ → Message → List Bytes)

/-- How a role handles packets on a link that flows: it sends the packets that it answers with, all
of them and nothing else, behind the question that has to be asked. -/
def Conveys (handler : Handler MemoryLink ρ) : Prop :=
  ∀ (message : Message) (e : Endpoint.OnMemory) (role : ρ), e.link.pool.Accounts [] →
    e.link.Flows → ∃ e' datagrams, (handler message).state (e, role) = (e', change message role) ∧
      e.Emits e' ((if datagrams = [] then [] else e.questions) ++ datagrams) ∧
      datagrams.map Outgoing.payload? = (answer role message).map some

variable {change answer} {handler : Handler MemoryLink ρ} {queue : Nat} {s : Station MemoryLink ρ}

/-! ## Turn by turn -/

theorem turn_sends (hconveys : Conveys change answer handler) (h : Intact queue s)
    (hflows : s.endpoint.link.Flows) {frame : Bytes} {rest : List Bytes}
    (hinbound : s.endpoint.link.inbound = frame :: rest) :
    ∃ s' t, turn handler s = .ok true s' ∧ SendsFor s.endpoint.config (answer s.role) s frame t ∧
      (s'.role = s.role ∨ ∃ message, s'.role = change message s.role) ∧
      s'.buffer.length = bufferSize ∧ (s.popped rest).Emits s'.endpoint t.all := by
  obtain ⟨e, buffer, replies, hturn, hafter, hemits, hanswers, hbuffer⟩ :=
    turn_of_cons handler hinbound h.accounts h.buffer
  have hpacket := packet?_of_cons hinbound h.accounts h.buffer
  have hpopped : (s.popped rest).link.Flows := ⟨hflows.buffers, hflows.batch⟩
  rw [hturn]
  cases hmessage : packetIn? s.endpoint.config (frame.take bufferSize) with
  | none =>
    refine ⟨_, ⟨replies, [], []⟩, rfl, ⟨hpacket, hanswers, rfl, ?_⟩, Or.inl rfl, hbuffer, ?_⟩
    · rw [answersIn, hmessage]
      rfl
    · rw [Sent.all, List.append_nil, List.append_nil]
      exact hemits
  | some message =>
    obtain ⟨e', datagrams, hstate, hsends, hcarried⟩ := hconveys message e s.role hemits.accounts
      (hpopped.congr hemits.queued)
    have hacted : acted handler (some message) e s.role buffer =
        ⟨e', change message s.role, buffer⟩ := by
      simp only [acted, hstate]
    rw [hacted]
    refine ⟨_, ⟨replies, if datagrams = [] then [] else e.questions, datagrams⟩, rfl,
      ⟨hpacket, hanswers, ?_, ?_⟩, Or.inr ⟨message, rfl⟩, hbuffer, hemits.trans hsends⟩
    · rw [hafter]
    · rw [answersIn, hmessage]
      exact hcarried

/-- The inbound frames are dealt with one by one, each as the state finds it that the earlier ones
have left.  A role that answers the same whatever it has read gives each packet the answer that it
would have had at first. -/
theorem turns_send (hconveys : Conveys change answer handler)
    (hsteady : ∀ message role, answer (change message role) = answer role) (frames : List Bytes)
    (h : Intact queue s) (hflows : s.endpoint.link.Flows)
    (hinbound : s.endpoint.link.inbound = frames) :
    ∃ turns : List Sent,
      let s' := afterTurns handler frames.length s
      Intact queue s' ∧ s'.endpoint.link.inbound = [] ∧ turns.length = frames.length ∧
      s'.endpoint.link.pipeline = s.endpoint.link.pipeline ++ turns.flatMap Sent.frames ∧
      (turns.flatMap Sent.datagrams).map Outgoing.payload? =
        (frames.flatMap (answersIn s.endpoint.config (answer s.role))).map some ∧
      ∀ (k : Nat) frame t, frames[k]? = some frame → turns[k]? = some t →
        SendsFor s.endpoint.config (answer s.role) (afterTurns handler k s) frame t := by
  induction frames generalizing s with
  | nil =>
    refine ⟨[], h, hinbound, rfl, ?_, rfl, ?_⟩
    · rw [List.flatMap_nil, List.append_nil]
      rfl
    · intro k frame t hframe
      cases hframe
  | cons frame rest ih =>
    obtain ⟨s₁, t, hturn, hsends, hrole, hbuffer, hemits⟩ := turn_sends hconveys h hflows hinbound
    have hstate : (turn handler).state s = s₁ := Action.state_of_ok hturn
    have hintact : Intact queue s₁ :=
      ⟨hemits.accounts, hemits.queued.buffers.trans h.buffers, hbuffer⟩
    have hpopped : (s.popped rest).link.Flows := ⟨hflows.buffers, hflows.batch⟩
    have hanswer : answer s₁.role = answer s.role := by
      rcases hrole with hsame | ⟨message, hchanged⟩
      · rw [hsame]
      · rw [hchanged, hsteady]
    have hconfig : s₁.endpoint.config = s.endpoint.config := hemits.config
    obtain ⟨turns, hend, hnone, hlength, hpipeline, hcarried, hall⟩ :=
      ih hintact (hpopped.congr hemits.queued) hemits.queued.inbound
    rw [hanswer, hconfig] at hcarried hall
    refine ⟨t :: turns, ?_⟩
    simp only [List.length_cons, afterTurns, hstate]
    refine ⟨hend, hnone, by rw [hlength], ?_, ?_, ?_⟩
    · rw [hpipeline, hemits.queued.pipeline, List.flatMap_cons, List.append_assoc]
      rfl
    · rw [List.flatMap_cons, List.flatMap_cons, List.map_append, List.map_append, hsends.carried,
        hcarried]
    · intro k frame' t' hframe ht
      cases k with
      | zero =>
        obtain rfl : frame = frame' := Option.some.inj hframe
        obtain rfl : t = t' := Option.some.inj ht
        exact hsends
      | succ k =>
        rw [afterTurns, hstate]
        exact hall k frame' t' hframe ht

/-! ## Polling -/

/-- What polling a station comes to: all inbound frames are read, and what was submitted is what was
sent turn by turn. -/
structure Polled (handler : Handler MemoryLink ρ) (answer : Message → List Bytes)
    (s s' : Station MemoryLink ρ) (turns : List Sent) : Prop where
  result : poll handler s = .ok s.endpoint.link.inbound.length s'
  inbound : s'.endpoint.link.inbound = []
  length_eq : turns.length = s.endpoint.link.inbound.length
  pipeline : s'.endpoint.link.pipeline = s.endpoint.link.pipeline ++ turns.flatMap Sent.frames
  carried : (turns.flatMap Sent.datagrams).map Outgoing.payload? =
    (s.endpoint.link.inbound.flatMap (answersIn s.endpoint.config answer)).map some
  sends : ∀ (k : Nat) frame t, s.endpoint.link.inbound[k]? = some frame → turns[k]? = some t →
    SendsFor s.endpoint.config answer (afterTurns handler k s) frame t

theorem poll_sends (hplays : Plays change answer handler) (hconveys : Conveys change answer handler)
    (hsteady : ∀ message role, answer (change message role) = answer role)
    (h : Intact queue s) (hflows : s.endpoint.link.Flows) :
    ∃ s' turns, Polled handler (answer s.role) s s' turns := by
  obtain ⟨turns, hend, hinbound, hlength, hpipeline, hcarried, hsends⟩ :=
    turns_send hconveys hsteady _ h hflows rfl
  refine ⟨_, turns, h.poll_eq hplays, ?_, hlength, ?_, hcarried, hsends⟩
  · exact (Endpoint.flushed_emits hend.accounts).queued.inbound.trans hinbound
  · exact (Endpoint.pipeline_flushed hend.accounts).trans hpipeline

end Roles

end RomCast.Station
