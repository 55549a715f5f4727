import RomCast.Proofs.Client.Requesting
import RomCast.Proofs.Station.Reading

set_option autoImplicit false

/-!
# Modules do not interfere

What becomes of a module depends on the frames that carry fragments for it, and on nothing else that
a client reads.  Two clients that agree about a module and on how they are addressed go on agreeing
about it as long as they read the same fragments for it: neither other modules' packets, nor signals,
nor ARP frames, nor the peer's resolution, the link's buffers, or what earlier frames left in the
receive buffer can be told apart from the module's point of view (`handles_own_fragments_alone`).
-/

namespace RomCast

variable {κ : Type}

/-- All that a client keeps of one module: its replica, and what has happened to it since the
journal was last taken. -/
def Subscriptions.about (s : Subscriptions κ) (name : ModuleName) :
    Option (Replica κ) × List (Replica.Event κ) :=
  (s.replicas.find? name, (s.journal.filter (·.1 = name)).map Prod.snd)

/-- Whether a packet is a fragment of the module's content. -/
def Message.carriesFor (message : Message) (name : ModuleName) : Bool :=
  message.module = name && match message.body with
    | .data _ => true
    | .signal => false
    | .update => false

namespace Endpoint

/-- Where a payload lies depends on the local address and on the port alone. -/
theorem Config.payloadRange?_congr {config config' : Config}
    (hsource : config'.source = config.source) (hport : config'.port = config.port)
    (frame : Bytes) : config'.payloadRange? frame = config.payloadRange? frame := by
  have haccepts : config'.accepts = config.accepts := by
    funext target
    unfold Config.accepts
    rw [hsource]
  unfold Config.payloadRange?
  rw [haccepts, hport]

end Endpoint

namespace Station

theorem packetIn?_congr {config config' : Endpoint.Config}
    (hsource : config'.source = config.source) (hport : config'.port = config.port) :
    packetIn? config' = packetIn? config := by
  funext frame
  unfold packetIn?
  rw [Endpoint.Config.payloadRange?_congr hsource hport]

/-- Whether a frame delivers a fragment of the module's content. -/
def carriesFor (config : Endpoint.Config) (name : ModuleName) (frame : Bytes) : Bool :=
  (packetIn? config frame).any (·.carriesFor name)

end Station

namespace Client

open Station (heed carriesFor framesPolled Intact)

/-! ## What one packet does to what is known about a module -/

/-- A fragment of the module's content changes what is known about it by nothing but that. -/
theorem about_acceptFragment (name : ModuleName) (hash : ContentHash) (f : Fragment)
    (s : Subscriptions κ) :
    (acceptFragment name hash f s).about name =
      ((s.about name).1.map fun r => (r.accept hash f s.limit).1,
        (s.about name).2 ++
          ((s.about name).1.map fun r => (r.accept hash f s.limit).2).getD []) := by
  unfold acceptFragment Subscriptions.about
  cases hfind : s.replicas.find? name with
  | none => simp [hfind]
  | some r =>
    have hown : ∀ events : List (Replica.Event κ),
        (events.map (name, ·)).filter (fun entry => decide (entry.1 = name)) =
          events.map (name, ·) := by
      intro events
      refine List.filter_eq_self.mpr fun entry hentry => ?_
      obtain ⟨event, -, rfl⟩ := List.mem_map.mp hentry
      exact decide_eq_true rfl
    simp [Registry.find?_insert_self, List.filter_append, hown, Function.comp_def]

theorem about_acceptFragment_of_ne {module name : ModuleName} (h : name ≠ module)
    (hash : ContentHash) (f : Fragment) (s : Subscriptions κ) :
    (acceptFragment module hash f s).about name = s.about name := by
  unfold acceptFragment Subscriptions.about
  cases hfind : s.replicas.find? module with
  | none => rfl
  | some r =>
    have hforeign : ∀ events : List (Replica.Event κ),
        (events.map (module, ·)).filter (fun entry => decide (entry.1 = name)) = [] := by
      intro events
      refine List.filter_eq_nil_iff.mpr fun entry hentry => ?_
      obtain ⟨event, -, rfl⟩ := List.mem_map.mp hentry
      simpa using h.symm
    simp [Registry.find?_insert_of_ne _ h, List.filter_append, hforeign]

/-- Any other packet leaves it alone. -/
theorem about_deliver_of_not {message : Message} {name : ModuleName}
    (h : message.carriesFor name = false) (s : Subscriptions κ) :
    (deliver message s).about name = s.about name := by
  unfold deliver
  cases hbody : message.body with
  | signal => rfl
  | update => rfl
  | data f =>
    refine about_acceptFragment_of_ne ?_ _ f s
    rintro rfl
    simp [Message.carriesFor, hbody] at h

/-! ## Two clients that agree about a module -/

/-- Two clients take contents of the same length and agree about a module. -/
structure Concur (name : ModuleName) (s s' : Subscriptions κ) : Prop where
  limit : s'.limit = s.limit
  about : s'.about name = s.about name

theorem Concur.refl (name : ModuleName) (s : Subscriptions κ) : Concur name s s := ⟨rfl, rfl⟩

theorem Concur.symm {name : ModuleName} {s s' : Subscriptions κ} (h : Concur name s s') :
    Concur name s' s :=
  ⟨h.limit.symm, h.about.symm⟩

theorem Concur.trans {name : ModuleName} {s s' s'' : Subscriptions κ} (h : Concur name s s')
    (h' : Concur name s' s'') : Concur name s s'' :=
  ⟨h'.limit.trans h.limit, h'.about.trans h.about⟩

/-- They agree after the same packet, whichever module it is about. -/
theorem Concur.deliver {name : ModuleName} {s s' : Subscriptions κ} (h : Concur name s s')
    (message : Message) : Concur name (deliver message s) (deliver message s') := by
  refine ⟨?_, ?_⟩
  · rw [limit_deliver, limit_deliver, h.limit]
  · cases hown : message.carriesFor name with
    | false => rw [about_deliver_of_not hown, about_deliver_of_not hown, h.about]
    | true =>
      unfold Client.deliver
      cases hbody : message.body with
      | signal => exact h.about
      | update => exact h.about
      | data f =>
        obtain rfl : message.module = name := by simpa [Message.carriesFor, hbody] using hown
        simp only [about_acceptFragment, h.about, h.limit]

theorem concur_deliver {message : Message} {name : ModuleName}
    (h : message.carriesFor name = false) (s : Subscriptions κ) :
    Concur name s (Client.deliver message s) :=
  ⟨limit_deliver message s, about_deliver_of_not h s⟩

/-- They agree after the same frame. -/
theorem Concur.heed {name : ModuleName} {s s' : Subscriptions κ} (h : Concur name s s')
    (config : Endpoint.Config) (frame : Bytes) :
    Concur name (heed Client.deliver config s frame) (heed Client.deliver config s' frame) := by
  unfold Station.heed
  cases Station.packetIn? config frame with
  | none => exact h
  | some message => exact h.deliver message

/-- Leaving out the frames that carry nothing for the module makes no difference to it. -/
theorem concur_filter (config : Endpoint.Config) (name : ModuleName) (frames : List Bytes)
    {s s' : Subscriptions κ} (h : Concur name s s') :
    Concur name (frames.foldl (heed Client.deliver config) s)
      ((frames.filter (carriesFor config name)).foldl (heed Client.deliver config) s') := by
  induction frames generalizing s s' with
  | nil => exact h
  | cons frame rest ih =>
    cases hcarries : carriesFor config name frame with
    | true =>
      rw [List.filter_cons_of_pos hcarries]
      exact ih (h.heed config frame)
    | false =>
      rw [List.filter_cons_of_neg (by simp [hcarries])]
      refine ih (Concur.trans ?_ h)
      unfold Station.heed
      unfold Station.carriesFor at hcarries
      cases hpacket : Station.packetIn? config frame with
      | none => exact Concur.refl name s
      | some message =>
        rw [hpacket] at hcarries
        exact (concur_deliver hcarries s).symm

/-! ## Visits -/

section Visits

variable {L : Type} [Transport L]

/-- Asking for contents leaves the configuration alone. -/
theorem handler_keepsConfig (now : Nat) :
    Station.KeepsConfig (handler now : Station.Handler L (Subscriptions κ)) := by
  have hrequest : ∀ (name : ModuleName) (hash : ContentHash) (config : Endpoint.Config),
      Action.Keeps (fun e : Endpoint L => e.config = config) (request now name hash) := by
    intro name hash config e he
    have hknows : Action.Keeps (Endpoint.Knows config e.resolver.known?)
        (request now name hash : Action FrameError (Endpoint L) Unit) :=
      (Endpoint.transmit_knows now _ _).bind fun _ =>
        (Endpoint.knows_of_settled fun _ _ => Endpoint.settled_aside.flush).mapError FrameError.link
    exact (hknows e ⟨he, rfl⟩).1
  intro message config
  refine Action.Keeps.bind (Action.keeps_get _) fun s => Action.Keeps.ite ?_ ?_
  · cases message.body with
    | signal => exact Action.Keeps.on fun s hs => hrequest _ _ config s.1 hs
    | update => exact Action.keeps_pure _ ()
    | data f => exact fun s hs => hs
  · exact Action.keeps_pure _ ()

/-- A poll, and what has become of the endpoint and its link before it: frames came, buffers went,
peers were resolved, datagrams were sent. -/
structure Visit (L : Type) where
  change : Endpoint L → Endpoint L
  now : Nat
  /-- The endpoint is not configured anew. -/
  config_change : ∀ e, (change e).config = e.config

/-- The client that is about to be polled. -/
def prepared (c : Client L κ) (v : Visit L) : Client L κ := { c with endpoint := v.change c.endpoint }

/-- The client after visits, one after the other. -/
def afterVisits (c : Client L κ) (visits : List (Visit L)) : Client L κ :=
  visits.foldl (fun c v => (poll v.now).state (c.prepared v)) c

/-- The frames that are read during visits, in order. -/
def framesRead (c : Client L κ) : List (Visit L) → List Bytes
  | [] => []
  | v :: rest =>
      framesPolled (handler v.now) (c.prepared v) ++
        framesRead ((poll v.now).state (c.prepared v)) rest

/-- What a client keeps in the end is what the frames make of it that were read. -/
theorem role_afterVisits (c : Client L κ) (visits : List (Visit L)) :
    (c.afterVisits visits).role =
      (c.framesRead visits).foldl (heed deliver c.endpoint.config) c.role := by
  induction visits generalizing c with
  | nil => rfl
  | cons v rest ih =>
    obtain ⟨hrole, hconfig⟩ := Station.role_poll (handler_keepsConfig v.now)
      (handler_deliver (L := L) v.now) (c.prepared v)
    have hsame : (c.prepared v).endpoint.config = c.endpoint.config := v.config_change c.endpoint
    rw [hsame] at hrole hconfig
    have hrest := ih ((poll v.now).state (c.prepared v))
    rw [poll, hconfig, hrole] at hrest
    unfold framesRead
    rw [List.foldl_append]
    exact hrest

end Visits

/-! ## Isolation -/

/-- Two clients are addressed alike, and agree about a module.  Their links, their resolutions of the
peer, their receive buffers and their other modules may be anything. -/
structure Alike {L M : Type} (name : ModuleName) (c : Client L κ) (c' : Client M κ) : Prop where
  source : c'.endpoint.config.source = c.endpoint.config.source
  port : c'.endpoint.config.port = c.endpoint.config.port
  concur : Concur name c.role c'.role

/-- Two clients that agree about a module agree about it after having read the same fragments. -/
theorem Alike.about_eq {L M : Type} [Transport L] [Transport M] {name : ModuleName}
    {c : Client L κ} {c' : Client M κ} (h : Alike name c c') {visits : List (Visit L)}
    {visits' : List (Visit M)}
    (hframes : (c'.framesRead visits').filter (carriesFor c.endpoint.config name) =
      (c.framesRead visits).filter (carriesFor c.endpoint.config name)) :
    (c'.afterVisits visits').role.about name = (c.afterVisits visits).role.about name := by
  have hheed : heed (deliver (κ := κ)) c'.endpoint.config =
      heed deliver c.endpoint.config := by
    funext role frame
    unfold Station.heed
    rw [Station.packetIn?_congr h.source h.port]
  have hother := concur_filter c.endpoint.config name (c'.framesRead visits')
    (Concur.refl name c'.role)
  have hown := concur_filter c.endpoint.config name (c.framesRead visits) h.concur
  rw [hframes] at hother
  rw [role_afterVisits, role_afterVisits, hheed]
  exact hother.about.symm.trans hown.about

/-- What becomes of a module is the same as if the client had read nothing but the fragments for it.
Any client that starts out alike and reads the same fragments for the module, whatever else it reads
and whatever its link, ends with the same; and a client on a link in memory where these fragments
alone wait reads them and nothing else, so that it is such a client. -/
theorem handles_own_fragments_alone {L : Type} [Transport L] (c : Client L κ)
    (visits : List (Visit L)) (name : ModuleName) :
    let own := (c.framesRead visits).filter (carriesFor c.endpoint.config name)
    (∀ (M : Type) [Transport M] (c' : Client M κ) (visits' : List (Visit M)), Alike name c c' →
      (c'.framesRead visits').filter (carriesFor c.endpoint.config name) = own →
      (c'.afterVisits visits').role.about name = (c.afterVisits visits).role.about name) ∧
    (∀ (queue : Nat) (c' : Client MemoryLink κ) (now : Nat), Alike name c c' → Intact queue c' →
      c'.endpoint.link.inbound = own → (∀ frame ∈ own, frame.length ≤ bufferSize) →
      framesPolled (handler now) c' = own ∧
        ((poll now).state c').role.about name = (c.afterVisits visits).role.about name) := by
  intro own
  refine ⟨fun M _ c' visits' halike hframes => halike.about_eq hframes, ?_⟩
  intro queue c' now halike hintact hinbound hfits
  have hpolled : framesPolled (handler now) c' = own := by
    rw [hintact.framesPolled_eq (handler_plays now), hinbound]
    exact (List.map_congr_left (g := id) fun frame hframe =>
      List.take_of_length_le (hfits frame hframe)).trans (List.map_id own)
  refine ⟨hpolled, ?_⟩
  have hread : c'.framesRead [⟨id, now, fun _ => rfl⟩] = own := by
    rw [← hpolled]
    exact List.append_nil _
  have hfiltered : (c'.framesRead [⟨id, now, fun _ => rfl⟩]).filter
      (carriesFor c.endpoint.config name) = own := by
    rw [hread]
    exact List.filter_eq_self.mpr fun frame hframe => (List.mem_filter.mp hframe).2
  exact halike.about_eq hfiltered

namespace Mingled

/-- A fragment of a module's content, in the server's frame. -/
def fragment (name : ModuleName) (offset : UInt32) (bytes : Bytes) : Bytes :=
  ({ sourceMac := Mac.zero, targetMac := Mac.broadcast, source := Ipv4Address.ofBytes [10, 0, 0, 3],
     target := Ipv4Address.broadcast, identification := 1, port := Endpoint.defaultPort,
     withChecksum := true } : Endpoint.Addressing).frame
       (dataPacket name (Octets.fill 32 1) 6 offset bytes)

/-- A client of two modules that does not know where its peer is. -/
def client : Client MemoryLink Unit :=
  afterAll (Client.new TwoSignals.setup.endpoint 1024)
    [.subscribe fun s => { s with
      replicas := (s.replicas.insert TwoSignals.rom (Replica.new TwoSignals.rom none)).insert
        TwoSignals.other (Replica.new TwoSignals.other none) }]

/-- Frames come, and the client is polled. -/
def arrival (frames : List Bytes) : Visit MemoryLink where
  change e := { e with link := frames.foldl MemoryLink.deliver e.link }
  now := 0
  config_change _ := rfl

/-- Two fragments for one module, between them a longer one for the other module, a signal, a
question for an address, and something that is no packet. -/
def visits : List (Visit MemoryLink) :=
  [arrival [fragment TwoSignals.other 0 [1, 2, 3, 4], fragment TwoSignals.rom 0 [7, 8],
      TwoSignals.signal TwoSignals.rom TwoSignals.newer],
    arrival [Endpoint.requestFrame Mac.zero Ipv4Address.unspecified Ipv4Address.broadcast, [1, 2],
      fragment TwoSignals.rom 2 [9, 10], fragment TwoSignals.other 4 [5]]]

/-- More buffers, and a peer whose address is known. -/
def calmSetup : Exchange.Setup :=
  { TwoSignals.setup with
    queue := 4
    config := { TwoSignals.setup.config with targetMac := some Mac.broadcast } }

/-- A client of one of the modules, before which that module's fragments wait. -/
def calm : Client MemoryLink Unit :=
  afterAll (Client.new calmSetup.endpoint 1024)
    [.subscribe fun s => { s with
        replicas := s.replicas.insert TwoSignals.rom (Replica.new TwoSignals.rom none) },
      .endpoint (.deliver (fragment TwoSignals.rom 0 [7, 8])),
      .endpoint (.deliver (fragment TwoSignals.rom 2 [9, 10]))]

/-- Its visits: the fragments are read, and then a signal. -/
def calmVisits : List (Visit MemoryLink) :=
  [arrival [], arrival [TwoSignals.signal TwoSignals.rom TwoSignals.older]]

end Mingled

/-- Both clients put the same two fragments together, one of them between other frames. -/
theorem handles_mingled_fragments_alone :
    Mingled.calm.endpoint.link.inbound =
        (Mingled.client.framesRead Mingled.visits).filter
          (carriesFor Mingled.client.endpoint.config TwoSignals.rom) ∧
      (Mingled.client.framesRead Mingled.visits).length = 7 ∧
      ((poll 0).state Mingled.calm).role.about TwoSignals.rom =
        (Mingled.client.afterVisits Mingled.visits).role.about TwoSignals.rom ∧
      (Mingled.calm.afterVisits Mingled.calmVisits).role.about TwoSignals.rom =
        (Mingled.client.afterVisits Mingled.visits).role.about TwoSignals.rom := by
  obtain ⟨hinbound, hcount, hfits, hcalm⟩ :
      Mingled.calm.endpoint.link.inbound =
          (Mingled.client.framesRead Mingled.visits).filter
            (carriesFor Mingled.client.endpoint.config TwoSignals.rom) ∧
        (Mingled.client.framesRead Mingled.visits).length = 7 ∧
        (∀ frame ∈ Mingled.calm.endpoint.link.inbound, frame.length ≤ bufferSize) ∧
        (Mingled.calm.framesRead Mingled.calmVisits).filter
            (carriesFor Mingled.client.endpoint.config TwoSignals.rom) =
          (Mingled.client.framesRead Mingled.visits).filter
            (carriesFor Mingled.client.endpoint.config TwoSignals.rom) := by
    decide +kernel
  have halike : Alike TwoSignals.rom Mingled.client Mingled.calm := ⟨rfl, rfl, rfl, rfl⟩
  have hintact : Intact Mingled.calmSetup.queue Mingled.calm := intact_run (intact_new _ 1024) _
  obtain ⟨hagree, halone⟩ :=
    handles_own_fragments_alone Mingled.client Mingled.visits TwoSignals.rom
  rw [hinbound] at hfits
  obtain ⟨-, habout⟩ := halone _ Mingled.calm 0 halike hintact hinbound hfits
  exact ⟨hinbound, hcount, habout,
    hagree MemoryLink Mingled.calm Mingled.calmVisits halike hcalm⟩

end Client

end RomCast
