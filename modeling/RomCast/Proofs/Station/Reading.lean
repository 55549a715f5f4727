import RomCast.Proofs.Endpoint.PeerOrigin
import RomCast.Proofs.Endpoint.RoundTrip
import RomCast.Proofs.Station.Intact

set_option autoImplicit false

/-!
# Which frames a station reads

Over any link, the frame that is read next is what receiving leaves at the front of the buffer, up
to the length that the link gives (`nextFrame?`).  The packet of a turn is the one in this frame, so
that what polling makes of a role is a matter of the frames that were read, in their order, and of
nothing else (`role_poll`).  On a link in memory these are the frames that wait on it, whatever the
buffer held before (`Intact.framesIn_eq`).
-/

namespace RomCast

open RomCast.Action (Keeps)

variable {L : Type} [Transport L]

namespace Endpoint

/-! ## The payload that is handed out -/

/-- What is handed out of a frame is its payload; a frame that is refused has none. -/
theorem dispatch_range (e : Endpoint L) (frame : Bytes) :
    match dispatch (e, frame) with
    | .ok range? _ => range? = e.config.payloadRange? frame
    | .error _ _ => e.config.payloadRange? frame = none := by
  unfold dispatch Config.payloadRange?
  simp only [Action.bind_apply, Action.get_apply]
  cases hethernet : Reader.readFront EthernetHeader frame with
  | error cause => rfl
  | ok ethernet =>
    simp only [Action.except_mapError_ok, Action.ofExcept]
    by_cases harp : ethernet.etherType = etherTypeArp
    · simp only [harp, if_true, Action.bind_apply]
      cases receiveArp (e, frame) with
      | ok _ s => trivial
      | error cause s => trivial
    · by_cases hip : ethernet.etherType = etherTypeIpv4
      · simp only [if_neg harp, if_pos hip, Action.onFirst, Action.on, receiveIpv4_eq]
        cases checkIpv4 frame with
        | error cause => rfl
        | ok ip =>
          by_cases haccepts : e.config.accepts ip.target = true
          · simp only [haccepts, if_true]
            cases checkUdp e.config.port frame ip with
            | error cause => rfl
            | ok range? => rfl
          · simp only [haccepts, if_false, Bool.false_eq_true]
      · simp only [if_neg harp, if_neg hip]
        rfl

theorem handle_range (e : Endpoint L) (frame : Bytes) :
    match handle (e, frame) with
    | .ok range? _ => range? = e.config.payloadRange? frame
    | .error _ _ => e.config.payloadRange? frame = none := by
  let counted : Endpoint L := { e with counters.rxFrames := e.counters.rxFrames + 1 }
  have hdispatch := dispatch_range counted frame
  have hconfig : counted.config = e.config := rfl
  rw [hconfig] at hdispatch
  have hcount : (count fun c => { c with rxFrames := c.rxFrames + 1 } :
      Action FrameError (Endpoint L) Unit).onFirst (e, frame) = .ok () (counted, frame) := rfl
  unfold handle
  simp only [Action.bind_apply, hcount, Action.attempt]
  cases hresult : dispatch (counted, frame) with
  | error cause s =>
    rw [hresult] at hdispatch
    exact hdispatch
  | ok range? s =>
    rw [hresult] at hdispatch
    cases range? with
    | none => exact hdispatch
    | some range => exact hdispatch

end Endpoint

namespace Station

variable {ρ ε : Type}

/-! ## One frame -/

/-- A packet is read from the frame at the front of the buffer. -/
theorem readPacket_eq (length : Nat) (s : Station L ρ) :
    ∃ s', (readPacket length : Action ε (Station L ρ) (Option Message)) s =
        .ok (packetIn? s.endpoint.config (s.buffer.take length)) s' ∧
      s'.endpoint.config = s.endpoint.config := by
  have hrange := Endpoint.handle_range s.endpoint (s.buffer.take length)
  obtain ⟨hconfig, -⟩ := Endpoint.handle_heeds s.endpoint (s.buffer.take length)
  unfold readPacket packetIn?
  cases hpayload : s.endpoint.config.payloadRange? (s.buffer.take length) with
  | some range =>
    obtain ⟨e, hhandle⟩ := Endpoint.handle_of_payloadRange? s.endpoint hpayload
    rw [Action.state_of_ok hhandle] at hconfig
    simp only [hhandle, Option.bind_some]
    exact ⟨_, rfl, hconfig⟩
  | none =>
    rw [hpayload] at hrange
    cases hhandle : Endpoint.handle (s.endpoint, s.buffer.take length) with
    | error cause t =>
      rw [Action.state_of_error hhandle] at hconfig
      simp only [hhandle, Option.bind_none]
      exact ⟨{ s with endpoint := t.1, buffer := s.buffer.overwrite 0 t.2 }, rfl, hconfig⟩
    | ok range? t =>
      rw [hhandle] at hrange
      obtain rfl : range? = none := hrange
      rw [Action.state_of_ok hhandle] at hconfig
      simp only [hhandle, Option.bind_none]
      exact ⟨{ s with endpoint := t.1, buffer := s.buffer.overwrite 0 t.2 }, rfl, hconfig⟩

/-- The frame that the next turn reads, unless none waits or the link fails. -/
def nextFrame? (s : Station L ρ) : Option Bytes :=
  match (receive : Action LinkError (Station L ρ) (Option Nat)) s with
  | .ok (some length) s' => some (s'.buffer.take length)
  | _ => none

theorem config_receive (s : Station L ρ) :
    (receive.state s : Station L ρ).endpoint.config = s.endpoint.config := by
  unfold receive
  rw [Action.state_on]

/-- Reading the next frame finds the packet in it. -/
theorem read_of_nextFrame? {s : Station L ρ} {frame : Bytes} (h : nextFrame? s = some frame) :
    ∃ s', read s = .ok (some (packetIn? s.endpoint.config frame)) s' ∧
      s'.endpoint.config = s.endpoint.config := by
  have hconfig := config_receive s
  unfold nextFrame? at h
  unfold read
  cases hreceive : (receive : Action LinkError (Station L ρ) (Option Nat)) s with
  | error cause s₁ =>
    rw [hreceive] at h
    cases h
  | ok length? s₁ =>
    rw [hreceive] at h
    rw [Action.state_of_ok hreceive] at hconfig
    cases length? with
    | none => cases h
    | some length =>
      obtain ⟨s₂, hread, hsame⟩ := readPacket_eq (ε := LinkError) length s₁
      obtain rfl := Option.some.inj h
      rw [hconfig] at hread hsame
      refine ⟨s₂, ?_, hsame⟩
      rw [Action.bind_apply, hreceive]
      simp only [Action.bind_apply, hread]
      rfl

/-! ## Turns -/

/-- Whatever the role does with a packet, the endpoint goes on being configured as it is. -/
def KeepsConfig (handler : Handler L ρ) : Prop :=
  ∀ message config, Keeps (fun s : Endpoint L × ρ => s.1.config = config) (handler message)

section Roles

variable {handler : Handler L ρ} {change : Message → ρ → ρ} {s : Station L ρ}

/-- What a role makes of a frame. -/
def heed (change : Message → ρ → ρ) (config : Endpoint.Config) (role : ρ) (frame : Bytes) : ρ :=
  match packetIn? config frame with
  | none => role
  | some message => change message role

/-- The turn that reads a frame hands its packet to the role. -/
theorem turn_of_nextFrame? (hconfig : KeepsConfig handler)
    (hchange : ∀ message e role, ((handler message).state (e, role)).2 = change message role)
    {frame : Bytes} (h : nextFrame? s = some frame) :
    ∃ s', turn handler s = .ok true s' ∧ s'.endpoint.config = s.endpoint.config ∧
      s'.role = heed change s.endpoint.config s.role frame := by
  obtain ⟨s₁, hread, hsame⟩ := read_of_nextFrame? h
  have hrole : s₁.role = s.role := by
    have hkept := role_read s
    rwa [Action.state_of_ok hread] at hkept
  unfold turn heed
  rw [Action.bind_apply, hread]
  cases packetIn? s.endpoint.config frame with
  | none => exact ⟨s₁, rfl, hsame, hrole⟩
  | some message =>
    have hstate := state_dispatch (ε := LinkError) handler message s₁
    have hkept := hconfig message s.endpoint.config (s₁.endpoint, s₁.role) hsame
    have hplayed := hchange message s₁.endpoint s₁.role
    refine ⟨handled handler message s₁, ?_, hkept, ?_⟩
    · rw [← hstate]
      simp only [Action.bind_apply, dispatch, Action.on, Action.attempt, Action.state]
      cases handler message (s₁.endpoint, s₁.role) <;> rfl
    · show ((handler message).state (s₁.endpoint, s₁.role)).2 = _
      rw [hplayed, hrole]

/-- A turn that reads no frame is the last one, and leaves the role and the configuration alone. -/
theorem turn_of_nextFrame?_eq_none (h : nextFrame? s = none) :
    (∀ s', turn handler s ≠ .ok true s') ∧
      ((turn handler).state s).role = s.role ∧
      ((turn handler).state s).endpoint.config = s.endpoint.config := by
  have hconfig := config_receive s
  have hrole := role_receive s
  unfold nextFrame? at h
  cases hreceive : (receive : Action LinkError (Station L ρ) (Option Nat)) s with
  | error cause s₁ =>
    rw [Action.state_of_error hreceive] at hconfig hrole
    have hread : read s = .error cause s₁ := by
      unfold read
      rw [Action.bind_apply, hreceive]
    have hturn : turn handler s = .error cause s₁ := by
      unfold turn
      rw [Action.bind_apply, hread]
    rw [hturn, Action.state_of_error hturn]
    exact ⟨fun s' => nofun, hrole, hconfig⟩
  | ok length? s₁ =>
    rw [hreceive] at h
    rw [Action.state_of_ok hreceive] at hconfig hrole
    cases length? with
    | some length => cases h
    | none =>
      have hread : read s = .ok none s₁ := by
        unfold read
        rw [Action.bind_apply, hreceive]
        rfl
      have hturn : turn handler s = .ok false s₁ := by
        unfold turn
        rw [Action.bind_apply, hread]
        rfl
      rw [hturn, Action.state_of_ok hturn]
      refine ⟨fun s' hmore => ?_, hrole, hconfig⟩
      cases hmore

/-! ## Polling -/

/-- The frames that are read in so many turns at most, in order. -/
def framesIn (handler : Handler L ρ) : Nat → Station L ρ → List Bytes
  | 0, _ => []
  | n + 1, s =>
      match nextFrame? s with
      | none => []
      | some frame => frame :: framesIn handler n ((turn handler).state s)

/-- The frames that are read when the station is polled. -/
def framesPolled (handler : Handler L ρ) (s : Station L ρ) : List Bytes :=
  framesIn handler (Transport.pending s.endpoint.link + 1) s

theorem drainFrom_heeds (hconfig : KeepsConfig handler)
    (hchange : ∀ message e role, ((handler message).state (e, role)).2 = change message role)
    (n : Nat) (s : Station L ρ) :
    ((drainFrom handler n).state s).role =
        (framesIn handler n s).foldl (heed change s.endpoint.config) s.role ∧
      ((drainFrom handler n).state s).endpoint.config = s.endpoint.config := by
  induction n generalizing s with
  | zero => exact ⟨rfl, rfl⟩
  | succ n ih =>
    unfold drainFrom framesIn
    cases hframe : nextFrame? s with
    | none =>
      obtain ⟨hlast, hrole, hsame⟩ : (∀ s', turn handler s ≠ .ok true s') ∧ _ ∧ _ :=
        turn_of_nextFrame?_eq_none hframe
      cases hturn : turn handler s with
      | error cause s₁ =>
        rw [Action.state_of_error hturn] at hrole hsame
        rw [Action.state_bind_of_error hturn]
        exact ⟨hrole, hsame⟩
      | ok more s₁ =>
        cases more with
        | true => exact absurd hturn (hlast s₁)
        | false =>
          rw [Action.state_of_ok hturn] at hrole hsame
          rw [Action.state_bind_of_ok hturn]
          exact ⟨hrole, hsame⟩
    | some frame =>
      obtain ⟨s₁, hturn, hsame, hrole⟩ := turn_of_nextFrame? hconfig hchange hframe
      obtain ⟨hrest, hkept⟩ := ih s₁
      rw [Action.state_bind_of_ok hturn, if_pos rfl, Action.state_bind_pure,
        Action.state_of_ok hturn, List.foldl_cons, ← hrole]
      rw [hsame] at hrest hkept
      exact ⟨hrest, hkept⟩

/-- What polling makes of a role is what the role makes of the frames that were read, in their
order. -/
theorem role_poll (hconfig : KeepsConfig handler)
    (hchange : ∀ message e role, ((handler message).state (e, role)).2 = change message role)
    (s : Station L ρ) :
    ((poll handler).state s).role =
        (framesPolled handler s).foldl (heed change s.endpoint.config) s.role ∧
      ((poll handler).state s).endpoint.config = s.endpoint.config := by
  obtain ⟨hrole, hsame⟩ :=
    drainFrom_heeds hconfig hchange (Transport.pending s.endpoint.link + 1) s
  unfold poll framesPolled
  rw [Action.state_bind_of_ok (Action.get_apply s)]
  cases hdrain : drainFrom handler (Transport.pending s.endpoint.link + 1) s with
  | error cause s₁ =>
    rw [Action.state_of_error hdrain] at hrole hsame
    rw [Action.state_bind_of_error hdrain]
    exact ⟨hrole, hsame⟩
  | ok frames s₁ =>
    rw [Action.state_of_ok hdrain] at hrole hsame
    rw [Action.state_bind_of_ok hdrain, Action.state_bind_pure, onEndpoint, Action.state_on]
    have hflushed := Endpoint.settled_aside.flush (L := L) s₁.endpoint ⟨rfl, rfl⟩
    exact ⟨hrole, hflushed.1.trans hsame⟩

end Roles

/-! ## Links in memory -/

section Memory

variable {change : Message → ρ → ρ} {answer : ρ → Message → List Bytes}
  {handler : Handler MemoryLink ρ} {queue : Nat} {s : Station MemoryLink ρ}

theorem nextFrame?_memory (s : Station MemoryLink ρ) :
    nextFrame? s = s.endpoint.link.inbound.head?.map (·.take s.buffer.length) := by
  cases hinbound : s.endpoint.link.inbound with
  | nil =>
    unfold nextFrame?
    obtain ⟨⟨⟨mac, pool, outbound, inbound, batch⟩, config, resolver, identification, counters⟩,
      role, buffer⟩ := s
    subst hinbound
    rfl
  | cons frame rest =>
    unfold nextFrame?
    rw [receive_of_cons hinbound]
    exact congrArg some (Bytes.take_overwrite_zero s.buffer frame)

/-- A station on a link in memory reads the frames that wait, each cut to the buffer's length, and
nothing of what the buffer held before. -/
theorem Intact.framesIn_eq (hplays : Plays change answer handler) (h : Intact queue s) {n : Nat}
    (hn : s.endpoint.link.inbound.length ≤ n) :
    framesIn handler n s = s.endpoint.link.inbound.map (·.take bufferSize) := by
  induction n generalizing s with
  | zero =>
    have hnil : s.endpoint.link.inbound = [] := List.eq_nil_of_length_eq_zero (Nat.le_zero.mp hn)
    rw [hnil]
    rfl
  | succ n ih =>
    unfold framesIn
    rw [nextFrame?_memory, h.buffer]
    cases hinbound : s.endpoint.link.inbound with
    | nil => rfl
    | cons frame rest =>
      obtain ⟨s', answers, out, hturn, hturned⟩ :=
        turn_turned hplays hinbound h.accounts h.buffer
      have hrest : s'.endpoint.link.inbound = rest := hturned.emits.queued.inbound
      have hbehind := ih (h.turned hturned) (by
        rw [hrest]
        rw [hinbound, List.length_cons] at hn
        exact Nat.le_of_succ_le_succ hn)
      rw [hrest] at hbehind
      simp only [List.head?_cons, Option.map_some, List.map_cons, Action.state_of_ok hturn, hbehind]

theorem Intact.framesPolled_eq (hplays : Plays change answer handler) (h : Intact queue s) :
    framesPolled handler s = s.endpoint.link.inbound.map (·.take bufferSize) :=
  h.framesIn_eq hplays (Nat.le_succ s.endpoint.link.inbound.length)

end Memory

end Station

end RomCast
