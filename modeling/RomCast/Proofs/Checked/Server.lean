import RomCast.Proofs.Checked.Station
import RomCast.Server

set_option autoImplicit false

/-!
# Checked servers

A content is streamed from offsets that are kept below its size, into places that may be longer than
what is left of it.
-/

namespace RomCast

open RomCast.Checked Endpoint

namespace Publication.Checked

/-- Copy what is served from `offset` on into a place; nothing from behind the end. -/
def transfer (p : Publication) (offset : Nat) : CheckedFill := fun place =>
  if p.content.length < offset then return (place, 0)
  else do
    let source ← slice p.content offset p.content.length
    let length := min source.length place.length
    return (← copy place 0 length (← slice source 0 length), length)

/-- What a transfer from `offset` on writes. -/
def fill (p : Publication) (offset : Nat) : Fill := fun place =>
  let bytes := ContentSource.read p place.length offset
  (bytes, bytes.length)

theorem transfer_writes (p : Publication) (offset : Nat) :
    (transfer p offset).Writes (fill p offset) := by
  have hfill : ∀ place : Bytes, fill p offset place =
      ((p.content.drop offset).take place.length,
        ((p.content.drop offset).take place.length).length) := fun _ => rfl
  refine ⟨fun place => ?_, fun place => ?_⟩
  · rw [hfill]
    exact List.length_take_le ..
  rw [transfer, hfill]
  by_cases hbehind : p.content.length < offset
  · rw [if_pos hbehind, List.drop_of_length_le (Nat.le_of_lt hbehind), List.take_nil,
      Bytes.overwrite_zero_of_le (Nat.zero_le _)]
    rfl
  · have hsource : slice p.content offset p.content.length = .ok (p.content.drop offset) :=
      slice_end_eq (Nat.not_lt.mp hbehind)
    have hpart : slice (p.content.drop offset) 0 (min (p.content.drop offset).length place.length) =
        .ok ((p.content.drop offset).take place.length) := by
      rw [slice_zero_eq (Nat.min_le_left ..), Nat.min_comm, ← List.take_eq_take_min]
    have hlength : ((p.content.drop offset).take place.length).length =
        min (p.content.drop offset).length place.length := by
      rw [List.length_take, Nat.min_comm]
    have hcopy : copy place 0 (min (p.content.drop offset).length place.length)
        ((p.content.drop offset).take place.length) =
          .ok (place.overwrite 0 ((p.content.drop offset).take place.length)) :=
      copy_eq (by omega) (Nat.min_le_right ..)
    simp only [if_neg hbehind, hsource, ok_bind, hpart, hcopy, hlength]
    rfl

end Publication.Checked

namespace Server.Checked

/-- Stream a content of `size` bytes from `offset` on, in at most `n` fragments, with the
`fragments` that were sent before. -/
def streamFrom (now : Nat) (name : ModuleName) (p : Publication) (size : Nat) (hash : ContentHash) :
    (n offset fragments : Nat) → Action (Trap FrameError) OnMemory Unit
  | 0, _, _ => return ()
  | n + 1, offset, fragments => do
      if offset < size then
        let chunk := min maxPayload (← sub size offset)
        let _ ← Endpoint.Checked.transmit now (← add dataOverhead chunk) do
          let _ ← Message.Checked.encodeData name hash (UInt32.ofNat size) (UInt32.ofNat offset)
            chunk (Publication.Checked.transfer p offset)
        streamFrom now name p size hash n (← add offset chunk) (← add fragments 1)

/-- Stream a content.  One that is too long for the wire format is not streamed at all. -/
def stream (now : Nat) (name : ModuleName) (p : Publication) :
    Action (Trap FrameError) OnMemory Unit := do
  let size := p.content.length
  if size < UInt32.size then
    streamFrom now name p size p.hash ((size + maxPayload - 1) / maxPayload) 0 0
    Endpoint.Checked.flush.mapError (Trap.map FrameError.link)

/-- Handle a packet: stream the content that a request names. -/
def handler (now : Nat) : Station.Checked.Handler (Registry Publication) := fun message => do
  match message.body with
  | .update =>
      match (← get).2.find? message.module with
      | some p => (stream now message.module p).onFirst
      | none => return ()
  | .signal => return ()
  | .data _ => return ()

/-- Announce a module's content; empty content is not announced. -/
def sendUpdate {ε : Type} (now : Nat) (name : ModuleName) :
    Action (Trap ε) (Server MemoryLink Publication) Unit := do
  if let some p := (← get).role.find? name then
    if p.content.length ≠ 0 then
      let _ ← Station.onEndpoint
        (attempt (Endpoint.Checked.sendControl now .signal name p.hash))

variable {seen : Nat}

/-- Every fragment moves the offset forward, so that there are no more fragments than bytes. -/
theorem streamFrom_follows (now : Nat) (name : ModuleName) (p : Publication) {size : Nat}
    (hsize : size < UInt32.size) (hash : ContentHash) (n : Nat) {offset fragments : Nat}
    (hfragments : fragments ≤ offset) :
    Follows Full (Ready [] seen) (streamFrom now name p size hash n offset fragments)
      (Server.streamFrom now name p size hash n offset) (fun _ => Ready [] seen)
      (Ready [] seen) := by
  have hlimit : UInt32.size = 2 ^ 32 := rfl
  have hmax : maxPayload = 1024 := rfl
  have hoverhead : dataOverhead = 110 := rfl
  induction n generalizing offset fragments with
  | zero => exact follows_pure fun e he => he
  | succ n ih =>
    refine Follows.ite (fun hoffset => ?_) fun _ => follows_pure fun e he => he
    obtain ⟨chunk, hchunk⟩ : ∃ chunk, chunk = min maxPayload (size - offset) := ⟨_, rfl⟩
    have hsub : sub size offset = .ok (size - offset) := sub_eq (Nat.le_of_lt hoffset)
    have hroom : add dataOverhead chunk = .ok (dataOverhead + chunk) := add_eq (by omega)
    have hnext : add offset chunk = .ok (offset + chunk) := add_eq (by omega)
    have hcount : add fragments 1 = .ok (fragments + 1) := add_eq (by omega)
    refine follows_lift hsub ?_
    simp only [← hchunk]
    refine follows_lift hroom ?_
    refine (Endpoint.Checked.transmit_follows now (by omega)
      (Message.Checked.encodeData_fills name hash _ _ chunk
        (Publication.Checked.transfer_writes p offset))).bind fun _ => ?_
    exact follows_lift hnext (follows_lift hcount (ih (by omega)))

theorem stream_follows (now : Nat) (name : ModuleName) (p : Publication) :
    Follows Full (Ready [] seen) (stream now name p) (Server.stream now name p)
      (fun _ => Ready [] seen) (Ready [] seen) := by
  refine Follows.ite (fun hsize => ?_) fun _ => follows_pure fun e he => he
  exact (streamFrom_follows now name p hsize _ _ (Nat.le_refl 0)).bind fun _ =>
    Endpoint.Checked.flush_follows.mapFailure FrameError.link

theorem handler_handles (now : Nat) :
    Station.Checked.Handles (fun _ _ => True) (handler now) (Server.handler now) := by
  refine ⟨fun _ _ h => h, fun seen message _ => ?_⟩
  unfold handler Server.handler
  cases message.body with
  | signal => exact follows_pure fun s hs => hs
  | data f => exact follows_pure fun s hs => hs
  | update =>
    refine follows_get fun s hs => ?_
    cases s.2.find? message.module with
    | none => exact follows_pure fun _ hsame => hsame ▸ hs
    | some p =>
      exact ((stream_follows now message.module p).onFirst (S := fun _ => True)).mono
        (fun _ hsame => hsame ▸ hs) (fun _ _ h => h) fun _ h => h

theorem sendUpdate_follows {ε : Type} {R : Nat → Registry Publication → Prop} (now : Nat)
    (name : ModuleName) :
    Follows Station.Checked.Full (Station.Checked.Idle R)
      (sendUpdate now name : Action (Trap ε) (Server MemoryLink Publication) Unit)
      (Server.sendUpdate now name) (fun _ => Station.Checked.Idle R) (Station.Checked.Idle R) := by
  refine follows_get fun s hs => ?_
  have hsame : ∀ s', s' = s → Station.Checked.Idle R s' := fun _ h => h ▸ hs
  cases s.role.find? name with
  | none => exact follows_pure hsame
  | some p =>
    refine Follows.ite (fun _ => ?_) fun _ => follows_pure hsame
    refine Follows.bind (Q := fun _ => Station.Checked.Idle R) ?_ fun _ => follows_pure fun _ h => h
    refine (Station.Checked.onEndpoint_follows fun seen => ?_).mono hsame (fun _ _ h => h)
      fun _ h => h
    exact (Endpoint.Checked.sendControl_follows now (by decide) name p.hash).attempt
      (fun _ _ h => h) fun _ _ h => h

end Server.Checked

end RomCast
