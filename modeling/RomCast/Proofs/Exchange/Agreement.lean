import Mathlib.Data.List.Forall2
import RomCast.Proofs.Exchange.Origins

set_option autoImplicit false

/-!
# What is committed was streamed

Every commit comes of the last frame of a stream that the server has sent, and has the content that
the server was serving then; a channel that keeps the order and duplicates nothing makes of the
streams at most one commit each, in their order (`commits_follow_streams`).
-/

namespace RomCast.Exchange

variable {κ : Type}

/-! ## What is recorded about commits -/

/-- The commit came of the frame. -/
def Landing.Grounded (config : Endpoint.Config) (limit : Nat) (l : Landing) : Prop :=
  ∃ message, Station.packetIn? config (l.frame.take bufferSize) = some message ∧
    message.module = l.commit.module ∧ message.contentHash = l.commit.hash ∧
    message.body = .data l.commit.fragment ∧ l.commit.Sound limit

/-- The commit is the end of the stream: the frame is the stream's last one, and the content the one
that was streamed. -/
structure Landing.Ends (l : Landing) (s : Stream) : Prop where
  module_eq : s.module = l.commit.module
  content_eq : s.content = l.commit.content
  endsWith : s.EndsWith l.frame

namespace Broadcast

/-- The client, with its commits. -/
def watched (b : Broadcast κ) : Client.Watched MemoryLink κ :=
  ⟨b.client, b.landings.map Landing.commit⟩

/-- What has been committed under a name, in order. -/
def committed (b : Broadcast κ) (name : ModuleName) : List Bytes :=
  (b.landings.filter fun l => l.commit.module = name).map fun l => l.commit.content

/-- What has been streamed under a name, in order. -/
def streamed (b : Broadcast κ) (name : ModuleName) : List Bytes :=
  (b.streams.filter fun s => s.module = name).map Stream.content

end Broadcast

/-- The client has handled, in order, the frames that were delivered, and every commit came of one
of them. -/
structure Followed (config : Endpoint.Config) (limit : Nat) (start : Client MemoryLink κ)
    (b : Broadcast κ) : Prop where
  accounts : b.client.endpoint.link.pool.Accounts []
  buffer : b.client.buffer.length = bufferSize
  config_eq : b.client.endpoint.config = config
  faithful : Client.Faithful limit start b.watched
  handled : ∃ handled, handled ++ b.client.endpoint.link.inbound = b.delivered ∧
    (b.landings.map Landing.frame).Sublist handled
  sent : ∀ frame ∈ b.delivered, frame ∈ b.sent
  grounded : ∀ l ∈ b.landings, l.Grounded config limit

namespace Followed

variable {config : Endpoint.Config} {limit : Nat} {start : Client MemoryLink κ} {b : Broadcast κ}

/-- The client's sessions or its endpoint have changed, but nothing has been handled. -/
theorem congr (h : Followed config limit start b) {b' : Broadcast κ}
    (haccounts : b'.client.endpoint.link.pool.Accounts [])
    (hbuffer : b'.client.buffer = b.client.buffer)
    (hconfig : b'.client.endpoint.config = b.client.endpoint.config)
    (hinbound : b'.client.endpoint.link.inbound = b.client.endpoint.link.inbound)
    (hlandings : b'.landings = b.landings) (hdelivered : b'.delivered = b.delivered)
    (hsent : b'.sent = b.sent) (move : Client.Move MemoryLink κ)
    (hmove : b'.watched = b.watched.perform move) : Followed config limit start b' := by
  constructor
  · exact haccounts
  · rw [hbuffer, h.buffer]
  · rw [hconfig, h.config_eq]
  · rw [hmove]
    exact h.faithful.perform move
  · rw [hinbound, hlandings, hdelivered]
    exact h.handled
  · rw [hdelivered, hsent]
    exact h.sent
  · rw [hlandings]
    exact h.grounded

/-- What happens at the server does not concern the client. -/
theorem of_client_eq (h : Followed config limit start b) {b' : Broadcast κ}
    (hclient : b'.client = b.client) (hlandings : b'.landings = b.landings)
    (hdelivered : b'.delivered = b.delivered) (hsent : ∀ frame ∈ b.sent, frame ∈ b'.sent) :
    Followed config limit start b' := by
  have hwatched : b'.watched = b.watched := by
    rw [Broadcast.watched, hclient, hlandings]
    rfl
  constructor
  · rw [hclient]
    exact h.accounts
  · rw [hclient, h.buffer]
  · rw [hclient, h.config_eq]
  · rw [hwatched]
    exact h.faithful
  · rw [hclient, hlandings, hdelivered]
    exact h.handled
  · rw [hdelivered]
    exact fun frame hframe => hsent frame (h.sent frame hframe)
  · rw [hlandings]
    exact h.grounded

/-- A frame that was sent comes in. -/
theorem deliver (h : Followed config limit start b) (number : Nat) :
    Followed config limit start (b.perform (.deliver number)) := by
  have hinbound : (b.perform (.deliver number)).client.endpoint.link.inbound =
      b.client.endpoint.link.inbound ++ b.sent[number]?.toList := by
    show ((b.sent[number]?.toList).foldl (fun link frame => Wired.deliver frame link)
      b.client.endpoint.link).inbound = _
    cases b.sent[number]? with
    | none => exact (List.append_nil _).symm
    | some frame => rfl
  have hpool : (b.perform (.deliver number)).client.endpoint.link.pool =
      b.client.endpoint.link.pool := by
    show ((b.sent[number]?.toList).foldl (fun link frame => Wired.deliver frame link)
      b.client.endpoint.link).pool = _
    cases b.sent[number]? with
    | none => rfl
    | some frame => rfl
  constructor
  · rw [hpool]
    exact h.accounts
  · exact h.buffer
  · exact h.config_eq
  · exact h.faithful.perform
      (.endpoint fun _ => (b.perform (.deliver number)).client.endpoint)
  · obtain ⟨handled, hhandled, hlandings⟩ := h.handled
    refine ⟨handled, ?_, hlandings⟩
    rw [hinbound, ← List.append_assoc, hhandled]
    rfl
  · intro frame hframe
    rcases List.mem_append.mp hframe with hold | hnew
    · exact h.sent frame hold
    · exact List.mem_of_getElem? (Option.mem_toList.mp hnew)
  · exact h.grounded

/-- What a turn commits has come of the frame that it has read. -/
theorem landed (h : Followed config limit start b) {now : Nat} {s' : Client MemoryLink κ}
    {frame : Bytes} {commit : Client.Commit}
    (hpacket : Station.packet? b.client = Station.packetIn? config (frame.take bufferSize))
    (hstate : (Station.turn (Client.handler now)).state b.client = s')
    (hcommit : (Station.packet? b.client).bind (Client.commitOf b.client.role s'.role) =
      some commit) : Landing.Grounded config limit ⟨frame, commit⟩ := by
  rcases Client.turn_unseen_or_seen now b.client with hunseen | ⟨message, c, hmessage, hseen⟩
  · rw [hstate] at hunseen
    obtain ⟨message, -, hsome⟩ := Option.bind_eq_some_iff.mp hcommit
    rw [Client.commitOf_of_unseen hunseen message] at hsome
    cases hsome
  · rw [hstate] at hseen
    rw [hmessage, Option.bind_some, Client.commitOf_of_seen hseen, Option.some.injEq] at hcommit
    subst hcommit
    refine ⟨message, ?_, hseen.module, hseen.hash, hseen.body, ?_⟩
    · rw [← hpacket, hmessage]
    · rw [← h.faithful.limit_eq]
      exact hseen.sound

/-- A turn of the client commits at most once, and then because of the frame that it takes. -/
theorem clientTurn (h : Followed config limit start b) (now : Nat) :
    Followed config limit start (b.perform (.clientTurn now)) := by
  obtain ⟨handled, hhandled, hlandings⟩ := h.handled
  have hwatched : (b.perform (.clientTurn now)).watched = b.watched.perform (.turn now) := by
    simp only [Broadcast.watched, Broadcast.perform, Client.Watched.perform, List.map_append,
      List.map_map]
    congr 2
    exact List.map_id _
  have hfaithful : Client.Faithful limit start (b.perform (.clientTurn now)).watched := by
    rw [hwatched]
    exact h.faithful.perform (.turn now)
  cases hinbound : b.client.endpoint.link.inbound with
  | nil =>
    have hsame : b.perform (.clientTurn now) = b := by
      simp [Broadcast.perform, Station.packet?_of_nil hinbound,
        Action.state_of_ok (Station.turn_of_nil (Client.handler now) hinbound)]
    rw [hsame]
    exact h
  | cons frame rest =>
    obtain ⟨s', answers, out, hturn, hturned⟩ := Station.turn_turned (Client.handler_plays now)
      hinbound h.accounts h.buffer
    have hstate : (Station.turn (Client.handler now)).state b.client = s' :=
      Action.state_of_ok hturn
    have hpacket := Station.packet?_of_cons hinbound h.accounts h.buffer
    rw [h.config_eq] at hpacket
    have hperform : b.perform (.clientTurn now) =
        { b with
          client := s'
          landings := b.landings ++ (((Station.packet? b.client).bind
            (Client.commitOf b.client.role s'.role)).toList.map (⟨frame, ·⟩)) } := by
      simp only [Broadcast.perform, hstate, hinbound, List.head?_cons, Option.getD_some]
    rw [hperform] at hfaithful ⊢
    have hrest : s'.endpoint.link.inbound = rest := hturned.emits.queued.inbound
    have hconfig : s'.endpoint.config = config := by
      rw [hturned.emits.config]
      exact h.config_eq
    constructor
    · exact hturned.emits.accounts
    · exact hturned.buffer
    · exact hconfig
    · exact hfaithful
    · refine ⟨handled ++ [frame], ?_, ?_⟩
      · show (handled ++ [frame]) ++ s'.endpoint.link.inbound = b.delivered
        rw [hrest, ← hhandled, hinbound, List.append_assoc]
        rfl
      · show ((b.landings ++ _).map Landing.frame).Sublist _
        rw [List.map_append]
        refine hlandings.append ?_
        cases (Station.packet? b.client).bind (Client.commitOf b.client.role s'.role) with
        | none => exact List.nil_sublist _
        | some commit => exact List.Sublist.refl _
    · exact h.sent
    · intro l hl
      rcases List.mem_append.mp hl with hold | hnew
      · exact h.grounded l hold
      · obtain ⟨commit, hcommit, rfl⟩ := List.mem_map.mp hnew
        exact h.landed hpacket hstate (Option.mem_toList.mp hcommit)

/-- The client's endpoint has done something besides receiving. -/
theorem emit (h : Followed config limit start b) {e : Endpoint.OnMemory} {out : List Outgoing}
    (hemits : b.client.endpoint.Emits e out) :
    Followed config limit start { b with client := { b.client with endpoint := e } } :=
  h.congr hemits.accounts rfl hemits.config hemits.queued.inbound rfl rfl rfl
    (.endpoint fun _ => e) rfl

theorem perform (h : Followed config limit start b) (move : Move κ) :
    Followed config limit start (b.perform move) := by
  cases move with
  | serverTurn now => exact h.of_client_eq rfl rfl rfl fun _ hframe => hframe
  | serverChore chore => exact h.of_client_eq rfl rfl rfl fun _ hframe => hframe
  | announce now name => exact h.of_client_eq rfl rfl rfl fun _ hframe => hframe
  | publish name content => exact h.of_client_eq rfl rfl rfl fun _ hframe => hframe
  | clear name => exact h.of_client_eq rfl rfl rfl fun _ hframe => hframe
  | arrive frame => exact h.of_client_eq rfl rfl rfl fun _ hframe => hframe
  | collect => exact h.of_client_eq rfl rfl rfl fun _ hframe => List.mem_append_left _ hframe
  | deliver number => exact h.deliver number
  | clientTurn now => exact h.clientTurn now
  | clientChore chore =>
    obtain ⟨out, hemits, -⟩ := chore.apply_emits h.accounts
    exact h.emit hemits
  | request now name =>
    obtain ⟨e', out, hstate, hstreams⟩ := Client.requestUpdate_streams now name b.client h.accounts
    have hperform : b.perform (.request now name) =
        { b with client := { b.client with endpoint := e' } } := by
      simp only [Broadcast.perform, hstate]
    rw [hperform]
    exact h.emit hstreams.emits
  | clientCollect =>
    exact h.congr h.accounts rfl rfl rfl rfl rfl rfl
      (.endpoint fun _ => (takeSent b.client).2.endpoint) rfl
  | takeJournal => exact h.congr h.accounts rfl rfl rfl rfl rfl rfl .takeJournal rfl
  | attach name label => exact h.congr h.accounts rfl rfl rfl rfl rfl rfl (.attach name label) rfl
  | sigh name session capability =>
    exact h.congr h.accounts rfl rfl rfl rfl rfl rfl (.sigh name session capability) rfl
  | detach name session =>
    exact h.congr h.accounts rfl rfl rfl rfl rfl rfl (.detach name session) rfl

theorem run (h : Followed config limit start b) (moves : List (Move κ)) :
    Followed config limit start (b.run moves) := by
  induction moves generalizing b with
  | nil => exact h
  | cons move rest ih => exact ih (h.perform move)

end Followed

/-! ## The start -/

theorem followed_start (server client : Setup)
    (contents : List (ModuleName × Bool × Option Bytes)) (limit : Nat)
    (modules : List (ModuleName × Option Bytes)) :
    Followed client.config limit (Client.starting client.endpoint limit modules)
      (Broadcast.start server client contents limit modules : Broadcast κ) := by
  obtain ⟨hendpoint, hbuffer⟩ := starting_endpoint (κ := κ) client.endpoint limit modules
  constructor
  · show (Client.starting client.endpoint limit modules).endpoint.link.pool.Accounts []
    rw [hendpoint]
    exact client.accounts
  · show (Client.starting client.endpoint limit modules).buffer.length = bufferSize
    rw [hbuffer, Bytes.length_zeros]
  · show (Client.starting client.endpoint limit modules).endpoint.config = client.config
    rw [hendpoint]
    rfl
  · exact Client.faithful_starting client.endpoint limit modules
  · refine ⟨[], ?_, List.nil_sublist _⟩
    show [] ++ (Client.starting client.endpoint limit modules).endpoint.link.inbound = []
    rw [hendpoint]
    rfl
  · exact fun _ hframe => nomatch hframe
  · exact fun _ hl => nomatch hl

/-! ## Agreement -/

/-- A frame that brings a packet is a datagram, and the packet is what its payload says. -/
theorem exists_datagram {config : Endpoint.Config} {o : Outgoing} {message : Message}
    (h : Station.packetIn? config o.frame = some message) :
    ∃ a payload fits, o = .datagram a payload fits ∧ Message.decode payload = .ok message := by
  cases o with
  | arp opcode bytes valid =>
    rw [Outgoing.frame, Station.packetIn?_arp config valid] at h
    cases h
  | datagram a payload fits =>
    rw [Outgoing.frame, Station.packetIn?_frame config a fits] at h
    refine ⟨a, payload, fits, rfl, ?_⟩
    by_cases haccepts : config.accepts a.target = true ∧ a.port = config.port
    · rw [if_pos haccepts] at h
      cases hdecode : Message.decode payload with
      | error cause =>
        rw [hdecode] at h
        cases h
      | ok message' =>
        rw [hdecode] at h
        rw [Option.some.inj h]
    · rw [if_neg haccepts] at h
      cases h

/-- A frame that a commit came of is the last one of a stream, with a content of the committed one's
hash. -/
theorem Landing.Grounded.origin {config : Endpoint.Config} {limit : Nat} {l : Landing}
    (hl : l.Grounded config limit) {o : Origin} {streams : List Stream} (ho : o.Valid streams)
    (hframe : o.frame = l.frame) :
    ∃ s ∈ streams, o.ends? = some s ∧ s.module = l.commit.module ∧
      ContentHash.of s.content = ContentHash.of l.commit.content ∧ s.EndsWith l.frame := by
  obtain ⟨message, hpacket, hmodule, hhash, hbody, hsound⟩ := hl
  have hwhole : l.frame.take bufferSize = o.outgoing.frame := by
    rw [← hframe]
    exact List.take_of_length_le o.outgoing.length_frame_le
  rw [hwhole] at hpacket
  obtain ⟨a, payload, fits, houtgoing, hdecode⟩ := exists_datagram hpacket
  cases o with
  | other o =>
    obtain ⟨name, hash, rfl⟩ := ho payload (by
      have houtgoing' : o = .datagram a payload fits := houtgoing
      rw [houtgoing']
      rfl)
    rw [Message.decode_signal, Except.ok.injEq] at hdecode
    rw [← hdecode] at hbody
    cases hbody
  | fragment s i o =>
    obtain ⟨hmem, hframes, hpayload, hnumber, hlength⟩ := ho
    have houtgoing' : o = .datagram a payload fits := houtgoing
    rw [houtgoing', Outgoing.payload?, Option.some.injEq] at hpayload
    rw [hpayload, s.decode_packet i, Except.ok.injEq] at hdecode
    have hfragment : Server.fragment s.content i = l.commit.fragment := by
      rw [← hdecode] at hbody
      exact MessageBody.data.inj hbody
    have hlast : i + 1 = Server.fragmentCount s.content := by
      have hisLast := hsound.isLast
      rw [← hfragment, Server.isLast_fragment hnumber hlength] at hisLast
      exact of_decide_eq_true hisLast
    refine ⟨s, hmem, ?_, ?_, ?_, ?_⟩
    · rw [Origin.ends?, if_pos hlast]
    · rw [← hmodule, ← hdecode]
    · rw [hsound.hash_eq, ← hhash, ← hdecode]
    · rw [← hframe]
      refine ⟨hframes, a, ?_⟩
      have hnumber' : Server.fragmentCount s.content - 1 = i := by omega
      rw [hnumber', ← hpayload]
      show o.frame = _
      rw [houtgoing']
      rfl

/-- Commits of these frames, in this order, are the ends of streams, in this order. -/
theorem exists_ends {config : Endpoint.Config} {limit : Nat} {streams : List Stream}
    {landings : List Landing} {origins : List Origin}
    (hlandings : landings.map Landing.frame = origins.map Origin.frame)
    (hgrounded : ∀ l ∈ landings, l.Grounded config limit) (hvalid : ∀ o ∈ origins, o.Valid streams)
    (hinjective : ∀ l ∈ landings, ∀ s ∈ streams,
      ContentHash.of s.content = ContentHash.of l.commit.content → s.content = l.commit.content) :
    List.Forall₂ Landing.Ends landings (origins.filterMap Origin.ends?) := by
  induction landings generalizing origins with
  | nil =>
    cases origins with
    | nil => exact List.Forall₂.nil
    | cons o rest => cases hlandings
  | cons l rest ih =>
    cases origins with
    | nil => cases hlandings
    | cons o others =>
      rw [List.map_cons, List.map_cons, List.cons.injEq] at hlandings
      obtain ⟨hhead, htail⟩ := hlandings
      obtain ⟨s, hs, hends, hmodule, hhash, hendsWith⟩ :=
        (hgrounded l (List.mem_cons_self ..)).origin (hvalid o (List.mem_cons_self ..)) hhead.symm
      have hcontent := hinjective l (List.mem_cons_self ..) s hs hhash
      rw [List.filterMap_cons_some hends]
      refine List.Forall₂.cons ⟨hmodule, hcontent, hendsWith⟩ ?_
      exact ih htail (fun l' hl' => hgrounded l' (List.mem_cons_of_mem _ hl'))
        (fun o' ho' => hvalid o' (List.mem_cons_of_mem _ ho'))
        (fun l' hl' => hinjective l' (List.mem_cons_of_mem _ hl'))

namespace Broadcast

/-- The channel has kept the order and duplicated nothing, though it may have lost frames. -/
def Fifo (b : Broadcast κ) : Prop := b.delivered.Sublist b.sent

/-- No two contents that were streamed or committed have one hash. -/
def Collisionless (b : Broadcast κ) : Prop :=
  ∀ x ∈ b.involved, ∀ y ∈ b.involved, ContentHash.of x = ContentHash.of y → x = y

theorem Collisionless.eq {b : Broadcast κ} (h : b.Collisionless) {l : Landing} {s : Stream}
    (hl : l ∈ b.landings) (hs : s ∈ b.streams)
    (hhash : ContentHash.of s.content = ContentHash.of l.commit.content) :
    s.content = l.commit.content := by
  refine h _ (List.mem_append_left _ (List.mem_map_of_mem hs)) _ ?_ hhash
  exact List.mem_append_right _ (List.mem_map_of_mem hl)

/-- What is known of each commit. -/
theorem exists_stream {config : Endpoint.Config} {limit : Nat} {start : Client MemoryLink κ}
    {b : Broadcast κ} (hsourced : Sourced b) (hfollowed : Followed config limit start b)
    (hhashes : b.Collisionless) {l : Landing} (hl : l ∈ b.landings) :
    l.frame ∈ b.delivered ∧ ∃ s ∈ b.streams, l.Ends s := by
  obtain ⟨origins, hframes, hvalid, -⟩ := hsourced.origins
  obtain ⟨handled, hhandled, hsub⟩ := hfollowed.handled
  have hdelivered : l.frame ∈ b.delivered := by
    rw [← hhandled]
    exact List.mem_append_left _ (hsub.subset (List.mem_map_of_mem hl))
  have hsent : l.frame ∈ b.sent ++ b.server.endpoint.link.pipeline :=
    List.mem_append_left _ (hfollowed.sent l.frame hdelivered)
  rw [← hframes] at hsent
  obtain ⟨o, ho, hframe⟩ := List.mem_map.mp hsent
  obtain ⟨s, hs, -, hmodule, hhash, hends⟩ :=
    (hfollowed.grounded l hl).origin (hvalid o ho) hframe
  exact ⟨hdelivered, s, hs, hmodule, hhashes.eq hl hs hhash, hends⟩

/-- What is known of all commits together when the channel keeps the order. -/
theorem exists_streams {config : Endpoint.Config} {limit : Nat} {start : Client MemoryLink κ}
    {b : Broadcast κ} (hsourced : Sourced b) (hfollowed : Followed config limit start b)
    (hhashes : b.Collisionless) (hfifo : b.Fifo) :
    ∃ ended, ended.Sublist b.streams ∧ List.Forall₂ Landing.Ends b.landings ended := by
  obtain ⟨origins, hframes, hvalid, hends⟩ := hsourced.origins
  obtain ⟨handled, hhandled, hsub⟩ := hfollowed.handled
  have hlandings : (b.landings.map Landing.frame).Sublist (origins.map Origin.frame) := by
    rw [hframes]
    refine hsub.trans ?_
    refine List.Sublist.trans ?_ (hfifo.trans (List.sublist_append_left ..))
    rw [← hhandled]
    exact List.sublist_append_left ..
  obtain ⟨chosen, hchosen, heq⟩ := List.sublist_map_iff.mp hlandings
  refine ⟨chosen.filterMap Origin.ends?, (hchosen.filterMap _).trans hends, ?_⟩
  exact exists_ends heq hfollowed.grounded (fun o ho => hvalid o (hchosen.subset ho))
    (fun l hl s hs => hhashes.eq hl hs)

/-- Commits that end streams have their contents, name by name. -/
theorem committed_eq {landings : List Landing} {ended : List Stream}
    (h : List.Forall₂ Landing.Ends landings ended) (name : ModuleName) :
    (landings.filter fun l => l.commit.module = name).map (fun l => l.commit.content) =
      (ended.filter fun s => s.module = name).map Stream.content := by
  induction h with
  | nil => rfl
  | @cons l s _ _ hends _ ih =>
    rw [List.filter_cons, List.filter_cons, hends.module_eq]
    by_cases hname : decide (l.commit.module = name) = true
    · rw [if_pos hname, if_pos hname, List.map_cons, List.map_cons, hends.content_eq, ih]
    · rw [if_neg hname, if_neg hname, ih]

/-- Whatever the server is given to serve, whatever the channel loses, duplicates or reorders, and
in whatever order the two act: every commit is made while a delivered copy of the last frame of a
stream is handled, and has the content that was streamed.  If the channel keeps the order and
duplicates nothing, then the commits are the ends of some of the streams, each of one of its own, in
their order; so what is committed under a name is a subsequence of what was streamed under it.  All
commits are on record. -/
theorem commits_follow_streams (server client : Setup)
    (contents : List (ModuleName × Bool × Option Bytes)) (limit : Nat)
    (modules : List (ModuleName × Option Bytes)) (moves : List (Move κ))
    (hhashes : ((start server client contents limit modules).run moves).Collisionless) :
    let b := (start server client contents limit modules).run moves
    (∀ l ∈ b.landings, l.frame ∈ b.delivered ∧ ∃ s ∈ b.streams, l.Ends s) ∧
    (b.Fifo →
      (∃ ended, ended.Sublist b.streams ∧ List.Forall₂ Landing.Ends b.landings ended) ∧
      ∀ name, (b.committed name).Sublist (b.streamed name)) ∧
    (∀ name r, b.client.replica? name = some r →
      r.commits = (b.committed name).length ∧
        r.space.foreground = (b.committed name).getLast?) := by
  intro b
  have hsourced : Sourced b := (sourced_start server client contents limit modules).run moves
  have hfollowed : Followed client.config limit _ b :=
    (followed_start server client contents limit modules).run moves
  refine ⟨fun l hl => exists_stream hsourced hfollowed hhashes hl, ?_, ?_⟩
  · intro hfifo
    obtain ⟨ended, hsub, hends⟩ := exists_streams hsourced hfollowed hhashes hfifo
    refine ⟨⟨ended, hsub, hends⟩, ?_⟩
    intro name
    rw [committed, committed_eq hends name]
    exact (hsub.filter _).map _
  · intro name r hr
    obtain ⟨r₀, hstart, htraced⟩ := hfollowed.faithful.traced name r hr
    have hcommits : (b.watched.commitsOf name).map Client.Commit.content = b.committed name := by
      simp only [Client.Watched.commitsOf, watched, committed, List.filter_map, List.map_map]
      rfl
    refine ⟨?_, ?_⟩
    · rw [htraced.count, ← hcommits, List.length_map]
    · rw [htraced.foreground, ← hcommits, List.getLast?_map]

/-- Two versions of one content are asked for, streamed and sent, and only the second arrives. -/
def twoVersions : Broadcast Nat :=
  let name : ModuleName := ⟨"rom", ModuleName.valid_rom⟩
  let setup : Setup := { mac := Mac.zero, queue := 1, batch := none, config := {} }
  let asker : Endpoint.Addressing :=
    { sourceMac := Mac.zero, targetMac := Mac.broadcast, source := Ipv4Address.unspecified,
      target := Ipv4Address.broadcast, identification := 1, port := Endpoint.defaultPort,
      withChecksum := true }
  let question := asker.frame (controlPacket .update name ContentHash.zero)
  (start setup setup [(name, true, some [7, 8])] 16 [(name, none)]).run
    [.arrive question, .serverTurn 0, .publish name [9], .arrive question, .serverTurn 1,
      .collect, .deliver 1, .clientTurn 2]

theorem twoVersions_follows_streams :
    twoVersions.Collisionless ∧ twoVersions.Fifo ∧
      twoVersions.landings.map (fun l => l.commit.content) = [[9]] ∧
      (∀ l ∈ twoVersions.landings,
        l.frame ∈ twoVersions.delivered ∧ ∃ s ∈ twoVersions.streams, l.Ends s) ∧
      ∀ name, (twoVersions.committed name).Sublist (twoVersions.streamed name) := by
  have hhashes : twoVersions.Collisionless := by
    unfold Collisionless
    decide +kernel
  have hfifo : twoVersions.Fifo := by
    unfold Fifo
    decide +kernel
  obtain ⟨hends, hordered, -⟩ := commits_follow_streams _ _ _ _ _ _ hhashes
  exact ⟨hhashes, hfifo, by decide +kernel, hends, (hordered hfifo).2⟩

end Broadcast

end RomCast.Exchange
