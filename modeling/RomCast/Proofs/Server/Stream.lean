import RomCast.Proofs.Server.Fragments
import RomCast.Proofs.Server.Sources

set_option autoImplicit false

/-!
# What a server of publications streams

A publication holds its content, so that the packets it is streamed as are the content's fragments
(`handler_plays`), and it announces the hash of what it serves.
-/

namespace RomCast

/-- A publication that announces the hash of what it serves. -/
def Publication.Honest (p : Publication) : Prop := p.hash = ContentHash.of p.content

theorem Publication.new_honest (name : ModuleName) (binary : Bool) (default : Option Bytes) :
    (Publication.new name binary default).Honest := rfl

theorem Publication.update_honest (p : Publication) (content : Bytes) :
    (p.update content).2.Honest := rfl

theorem Publication.clear_honest {p : Publication} (h : p.Honest) : p.clear.2.Honest := by
  unfold Publication.clear
  cases p.live with
  | none => exact h
  | some _ => rfl

namespace Server

/-- Every publication announces the hash of what it serves. -/
def AllHonest (contents : Registry Publication) : Prop :=
  ∀ name p, contents.find? name = some p → p.Honest

/-- A publication changes, and stays honest. -/
theorem AllHonest.modify {contents : Registry Publication} (h : AllHonest contents)
    (name : ModuleName) {f : Publication → Publication} (hf : ∀ p, p.Honest → (f p).Honest) :
    AllHonest (contents.modify name f) := by
  intro other p hp
  rw [Registry.find?_modify] at hp
  by_cases hother : other = name
  · rw [if_pos hother] at hp
    obtain ⟨p', hp', hmapped⟩ := Option.map_eq_some_iff.mp hp
    rw [← hmapped]
    exact hf p' (h other p' hp')
  · rw [if_neg hother] at hp
    exact h other p hp

/-- A publication is added, or takes another one's place. -/
theorem AllHonest.insert {contents : Registry Publication} (h : AllHonest contents)
    (name : ModuleName) {p : Publication} (hp : p.Honest) : AllHonest (contents.insert name p) := by
  intro other p' hp'
  by_cases hother : other = name
  · rw [hother, Registry.find?_insert_self] at hp'
    rw [← Option.some.inj hp']
    exact hp
  · rw [Registry.find?_insert_of_ne _ hother] at hp'
    exact h other p' hp'

/-! ## Packets -/

/-- The packet of the fragment with a number. -/
def fragmentPacket (name : ModuleName) (p : Publication) (i : Nat) : Bytes :=
  dataPacket name p.hash (UInt32.ofNat p.content.length) (UInt32.ofNat (i * maxPayload))
    (chunk p.content i)

/-- The packets of a content, in order.  One that is too long for the wire format has none. -/
def packets (name : ModuleName) (p : Publication) : List Bytes :=
  if p.content.length < UInt32.size then
    (List.range (fragmentCount p.content)).map (fragmentPacket name p)
  else []

theorem decode_fragmentPacket (name : ModuleName) (p : Publication) (i : Nat) :
    Message.decode (fragmentPacket name p i) =
      .ok ⟨name, p.hash, .data (fragment p.content i)⟩ :=
  Message.decode_data _ _ _ _ (length_chunk_le p.content i)

/-- The packets that answer a packet. -/
def answer (contents : Registry Publication) (message : Message) : List Bytes :=
  match message.body, contents.find? message.module with
  | .update, some p => packets message.module p
  | _, _ => []

/-- The signal that announces a content; an empty content is not announced. -/
def signal (contents : Registry Publication) (name : ModuleName) : List Bytes :=
  match contents.find? name with
  | none => []
  | some p => if p.content.length ≠ 0 then [controlPacket .signal name p.hash] else []

/-- Announcing a module's content sends a signal for it. -/
theorem sendUpdate_streams {ε : Type} (now : Nat) (name : ModuleName)
    (s : Server MemoryLink Publication) (h : s.endpoint.link.pool.Accounts []) :
    ∃ e' out, (sendUpdate now name : Action ε (Server MemoryLink Publication) Unit).state s =
        { s with endpoint := e' } ∧
      s.endpoint.Streams e' (signal s.role name) out := by
  unfold sendUpdate signal
  rw [Action.state_bind_of_ok (Action.get_apply s)]
  cases s.role.find? name with
  | none => exact ⟨s.endpoint, [], rfl, Endpoint.streams_refl h⟩
  | some p =>
    have hsize : ContentSource.size p = p.content.length := rfl
    simp only [hsize]
    by_cases hempty : p.content.length ≠ 0
    · rw [if_pos hempty, if_pos hempty]
      obtain ⟨e', out, hannounce, hstreams⟩ :=
        Endpoint.control_streams now .signal name p.hash s.endpoint h
      refine ⟨e', out, ?_, hstreams⟩
      rw [Action.state_bind_pure, Station.onEndpoint, Action.state_on, Action.state_attempt]
      rw [show (announce now name (ContentSource.hash p)).state s.endpoint = e' from
        Action.state_of_ok hannounce]
    · rw [if_neg hempty, if_neg hempty]
      exact ⟨s.endpoint, [], rfl, Endpoint.streams_refl h⟩

/-- What a publication gives for a fragment is the chunk of its content. -/
theorem sourcePacket_publication (name : ModuleName) (p : Publication) (i : Nat) :
    sourcePacket name p i = fragmentPacket name p i := by
  have hgiven : (given p i).take (room p i) = chunk p.content i := by
    show ((p.content.drop (i * maxPayload)).take (room p i)).take (room p i) = _
    have hroom : room p i = min maxPayload (p.content.length - i * maxPayload) := rfl
    rw [List.take_take, Nat.min_self, chunk, List.take_eq_take_iff, List.length_drop, hroom]
    omega
  rw [sourcePacket, hgiven]
  rfl

theorem sourcePackets_publication (name : ModuleName) (p : Publication) :
    sourcePackets name p = packets name p := by
  unfold sourcePackets packets
  rw [show sourcePacket name p = fragmentPacket name p from
    funext (sourcePacket_publication name p)]
  rfl

theorem reply_publication (contents : Registry Publication) : reply contents = answer contents := by
  funext message
  unfold reply answer
  cases message.body with
  | signal => rfl
  | data f => rfl
  | update =>
    cases contents.find? message.module with
    | none => rfl
    | some p => exact sourcePackets_publication message.module p

/-- A server answers a request with the packets of the content, and nothing else with anything. -/
theorem handler_plays (now : Nat) :
    Station.Plays (fun _ contents => contents) answer (handler (L := MemoryLink) now) := by
  rw [← funext reply_publication]
  exact handler_replies now

end Server

end RomCast
