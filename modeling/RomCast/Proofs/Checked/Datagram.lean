import RomCast.Proofs.Checked.Checksum
import RomCast.Proofs.Checked.Endpoint
import RomCast.Proofs.Checked.Message

set_option autoImplicit false

/-!
# Checked datagrams

The headers of a datagram are written when its payload is there, into places that were claimed
before it; the lengths in them are differences of positions that only went up.
-/

namespace RomCast

open RomCast.Checked

namespace Ipv4Header.Checked

/-- Fill the checksum in. -/
def withChecksum (h : Ipv4Header) : Except Fault Ipv4Header := do
  return { h with checksum := ← Checksum.Checked.internet (Header.encode { h with checksum := 0 }) }

theorem withChecksum_eq (h : Ipv4Header) : withChecksum h = .ok h.withChecksum := by
  have hlength : (Header.encode { h with checksum := 0 }).length = 20 :=
    LawfulHeader.length_encode _
  rw [withChecksum, Checksum.Checked.internet_eq (by omega)]
  rfl

end Ipv4Header.Checked

/-- A checked step that fills a payload wherever a writer stands, beside the step that it follows:
it neither moves the writer back nor changes the length of its buffer. -/
def Writer.Checked.Fills (strict : Action (Trap GuardError) Writer Unit)
    (plain : Action GuardError Writer Unit) : Prop :=
  ∀ size low, size ≤ bufferSize →
    Follows never (Within size low) strict plain (fun _ => Within size low) fun _ => True

/-- Signals and updates fill a payload. -/
theorem Message.Checked.encodeControl_fills {kind : PacketKind} (hkind : kind ≠ .data)
    (module : ModuleName) (hash : ContentHash) :
    Writer.Checked.Fills (encodeControl kind module hash)
      (RomCast.encodeControl kind module hash) := by
  have hbuffer : bufferSize < 2 ^ 64 := by decide
  intro size low hlow
  exact encodeControl_follows (Nat.lt_of_le_of_lt hlow hbuffer) hkind module hash

/-- So does data, when its own payload is filled in place. -/
theorem Message.Checked.encodeData_fills (module : ModuleName) (hash : ContentHash)
    (contentSize offset : UInt32) (room : Nat) {strict : CheckedFill} {fill : Fill}
    (hfill : strict.Writes fill) :
    Writer.Checked.Fills
      (do let _ ← encodeData module hash contentSize offset room strict)
      (do let _ ← RomCast.encodeData module hash contentSize offset room fill) := by
  have hbuffer : bufferSize < 2 ^ 64 := by decide
  intro size low hlow
  exact (encodeData_follows (Nat.lt_of_le_of_lt hlow hbuffer) module hash contentSize offset room
    fun _ => hfill).bind fun _ => follows_pure fun _ hw => hw

namespace Endpoint.Addressing.Checked

open Writer.Checked

/-- The IPv4 header of a datagram. -/
def ipv4 (a : Addressing) (length : Nat) : Except Fault Ipv4Header :=
  Ipv4Header.Checked.withChecksum
    { versionLength := 0x45, service := 0, totalLength := UInt16.ofNat length,
      identification := a.identification, fragment := 0x4000, timeToLive := Endpoint.timeToLive,
      protocol := Checksum.udpProtocol, checksum := 0, source := a.source, target := a.target }

/-- Write the IPv4 and UDP headers in front of a payload that is there already. -/
def complete (a : Addressing) (ipStart udpStart : Nat) :
    Action (Trap GuardError) Writer Nat := do
  let stop := (← get).position
  let length ← sub stop udpStart
  patch udpStart (udpStart + Header.size UdpHeader) (Header.encode (a.udp length))
  if a.withChecksum then
    let segment ← slice (← get).buffer udpStart stop
    let checksum ← Checksum.Checked.udp a.source a.target segment
    patch (← add udpStart 6) (← add udpStart 8) (Bytes.ofWord16 checksum)
  let total ← sub stop ipStart
  patch ipStart (ipStart + Header.size Ipv4Header) (Header.encode (← ipv4 a total))
  return stop

/-- Write a frame whose payload is written by `fill`. -/
def write (a : Addressing) (fill : Action (Trap GuardError) Writer Unit) :
    Action (Trap GuardError) Writer Nat := do
  put a.ethernet
  let ipStart ← Writer.Checked.reserve (Header.size Ipv4Header)
  let udpStart ← Writer.Checked.reserve (Header.size UdpHeader)
  fill
  complete a ipStart udpStart

variable {a : Addressing} {size low ipStart udpStart : Nat}

theorem complete_follows (hip : ipStart + 20 ≤ udpStart) (hudp : udpStart + 8 ≤ low)
    (hsize : size ≤ 1600) :
    Follows never (Writer.Within size low) (complete a ipStart udpStart)
      (a.complete ipStart udpStart) (fun _ w => w.buffer.length = size)
      fun _ => True := by
  refine follows_get fun w hw => ?_
  have hlow := hw.low_le
  have hposition := hw.le_size
  refine follows_lift (sub_eq (by omega)) ?_
  -- The IPv4 header comes last, with a checksum in the UDP header or without.
  have hlast : Follows never (Writer.Within size low)
      (do
        let total ← sub w.position ipStart
        patch ipStart (ipStart + Header.size Ipv4Header) (Header.encode (← ipv4 a total))
        return w.position)
      (do
        Writer.patch ipStart (Header.encode (a.ipv4 (w.position - ipStart)))
        return w.position)
      (fun _ w => w.buffer.length = size) fun _ => True := by
    refine follows_lift (sub_eq (by omega)) ?_
    refine follows_lift (Ipv4Header.Checked.withChecksum_eq _) ?_
    refine Follows.bind (patch_follows ?_ ?_) fun _ => follows_pure fun _ h => h.length_eq
    · exact congrArg (ipStart + ·) (LawfulHeader.length_encode _)
    · show ipStart + 20 ≤ low
      omega
  have hheader : Follows never (· = w)
      (patch udpStart (udpStart + Header.size UdpHeader)
        (Header.encode (a.udp (w.position - udpStart))))
      (Writer.patch udpStart (Header.encode (a.udp (w.position - udpStart))))
      (fun _ => Writer.Within size w.position) fun _ => True := by
    refine (patch_follows ?_ ?_).mono (fun w' hsame => ?_) (fun _ _ h => h) fun _ h => h
    · exact congrArg (udpStart + ·) (LawfulHeader.length_encode _)
    · show udpStart + 8 ≤ w.position
      omega
    · rw [hsame]
      exact ⟨hw.length_eq, Nat.le_refl _, hposition⟩
  refine hheader.bind fun _ => Follows.ite (fun _ => ?_) fun _ => ?_
  · refine follows_get fun w' hw' => ?_
    have hlength := hw'.length_eq
    have hsegment : (w'.buffer.slice udpStart w.position).length ≤ 65535 := by
      refine Nat.le_trans (List.length_take_le ..) ?_
      omega
    refine follows_lift (slice_eq (by omega) (by omega)) ?_
    refine follows_lift (Checksum.Checked.udp_eq _ _ hsegment) ?_
    refine follows_lift (add_eq (by omega)) (follows_lift (add_eq (by omega)) ?_)
    have hchecksum : Follows never (· = w')
        (patch (udpStart + 6) (udpStart + 8) (Bytes.ofWord16
          (Checksum.udp a.source a.target (w'.buffer.slice udpStart w.position))))
        (Writer.patch (udpStart + 6) (Bytes.ofWord16
          (Checksum.udp a.source a.target (w'.buffer.slice udpStart w.position))))
        (fun _ => Writer.Within size low) fun _ => True := by
      refine (patch_follows ?_ (by omega)).mono (fun w'' hsame => ?_) (fun _ _ h => h)
        fun _ h => h
      · rw [Bytes.length_ofWord16]
      · rw [hsame]
        exact hw'.mono hlow
    exact hchecksum.bind fun _ => hlast
  · exact hlast.mono (fun _ h => h.mono hlow) (fun _ _ h => h) fun _ h => h

theorem write_follows {strict : Action (Trap GuardError) Writer Unit}
    {fill : Action GuardError Writer Unit} (hfill : Fills strict fill) (hsize : size ≤ bufferSize) :
    Follows never (Writer.Within size 0) (write a strict) (a.write fill)
      (fun _ w => w.buffer.length = size) fun _ => True := by
  have hsize' : size ≤ 1600 := hsize
  have hlt : size < 2 ^ 64 := by omega
  refine (put_follows hlt a.ethernet).bind fun _ => ?_
  refine (reserve_follows hlt _).bind fun ipStart => follows_of_and fun _ => ?_
  refine (reserve_follows hlt _).bind fun udpStart => follows_of_and fun hip => ?_
  exact (hfill size _ hsize).bind fun _ => complete_follows hip (Nat.le_refl _) hsize'

end Endpoint.Addressing.Checked

namespace Endpoint.Checked

/-- Send one datagram as it is addressed now; false when it had to be dropped.  When `fill` fails,
the buffer goes back. -/
def sendDatagram (room : Nat) (fill : Action (Trap GuardError) Writer Unit) :
    Action (Trap FrameError) OnMemory Bool := do
  let length ← add frameOverhead room
  match ← (reserve length).mapError (Trap.map FrameError.link) with
  | none => return false
  | some d =>
      modify fun e => { e with identification := e.identification + 1 }
      let e ← get
      let place ← TransmitPool.Checked.content e.link.pool d
      let written := Addressing.Checked.write e.addressing fill
      let filled := (written.state { buffer := place }).buffer
      modify fun e => { e with link := Transport.store e.link d filled }
      match written.result { buffer := place } with
      | .error (.fault cause) => throw (.fault cause)
      | .error (.failure cause) =>
          change fun e => do
            let pool ← TransmitPool.Checked.release e.link.pool d
            return { e with link := { e.link with pool } }
          throw (.failure (.guarded cause))
      | .ok length =>
          (submit (d.truncate length)).mapError (Trap.map FrameError.link)
          return true

/-- Send one datagram of at most `room` bytes, written by `fill`. -/
def transmit (now room : Nat) (fill : Action (Trap GuardError) Writer Unit) :
    Action (Trap FrameError) OnMemory Bool := do
  askFirst now
  sendDatagram room fill

/-- Send a signal or an update. -/
def sendControl (now : Nat) (kind : PacketKind) (module : ModuleName) (hash : ContentHash) :
    Action (Trap FrameError) OnMemory Unit := do
  let _ ← transmit now (Header.size PacketHeader) (Message.Checked.encodeControl kind module hash)
  flush.mapError (Trap.map FrameError.link)

variable {seen : Nat}

theorem sendDatagram_follows {room : Nat} (hroom : room ≤ 65535)
    {strict : Action (Trap GuardError) Writer Unit} {fill : Action GuardError Writer Unit}
    (hfill : Writer.Checked.Fills strict fill) :
    Follows Full (Ready [] seen) (sendDatagram room strict) (Endpoint.sendDatagram room fill)
      (fun _ => Ready [] seen) (Ready [] seen) := by
  have hoverhead : frameOverhead = 42 := rfl
  refine follows_lift (add_eq (by omega)) ?_
  refine ((reserve_follows _).mapFailure FrameError.link).bind fun d? => ?_
  cases d? with
  | none => exact follows_pure fun e he => he.1
  | some d =>
    refine follows_of_and_right fun hgranted => ?_
    obtain ⟨hlength, hfits⟩ := hgranted d rfl
    have hd : d.length ≤ bufferSize := hlength ▸ hfits
    have hnumbered : Follows Full (Ready [d.slot] seen)
        (modify fun e => { e with identification := e.identification + 1 } :
          Action (Trap FrameError) OnMemory Unit)
        (modify fun e => { e with identification := e.identification + 1 })
        (fun _ => Ready [d.slot] seen) (Ready [] seen) :=
      follows_modify (fun e he => ⟨he.pool, he.seen_le⟩) fun _ _ hfull => hfull
    refine hnumbered.bind fun _ => follows_get fun e he => ?_
    have haccounts := he.pool.accounts
    refine follows_lift (TransmitPool.Checked.content_eq haccounts (by simp) hd) ?_
    have hplace : Writer.Within d.length 0 { buffer := Transport.content e.link d } := by
      refine ⟨?_, Nat.le_refl 0, Nat.zero_le _⟩
      show ((e.link.pool.buffer d.slot).take d.length).length = d.length
      rw [List.length_take, haccounts.length_buffer, Nat.min_eq_left hd]
    have hwrite := Addressing.Checked.write_follows (a := e.addressing) hfill hd
    have hstate := hwrite.state_of_never hplace
    have hresult := hwrite.result_of_never hplace
    have hstored (filled : Bytes) : Follows Full (· = e)
        (modify fun e => { e with link := Transport.store e.link d filled } :
          Action (Trap FrameError) OnMemory Unit)
        (modify fun e => { e with link := Transport.store e.link d filled })
        (fun _ => Ready [d.slot] seen) (Ready [] seen) := by
      refine follows_modify (fun e' hsame => ?_) fun _ _ hfull => hfull
      rw [hsame]
      exact ⟨he.pool.store filled, he.seen_le⟩
    simp only [show e.link.pool.content d = Transport.content e.link d from rfl, hstate, hresult]
    refine (hstored _).bind fun _ => ?_
    cases (e.addressing.write fill).result { buffer := Transport.content e.link d } with
    | ok length =>
      have hsubmit : Follows Full (Ready [d.slot] seen) (submit (d.truncate length))
          (Endpoint.submit (d.truncate length)) (fun _ => Ready [] seen) (Ready [] seen) :=
        submit_follows (d := d.truncate length) (Nat.le_trans (Nat.min_le_left ..) hd)
      exact (hsubmit.mapFailure FrameError.link).bind fun _ => follows_pure fun _ h => h
    | error cause =>
      have hreleased : Follows Full (Ready [d.slot] seen)
          (change fun e : OnMemory => do
            let pool ← TransmitPool.Checked.release e.link.pool d
            return { e with link := { e.link with pool } } : Action (Trap FrameError) OnMemory Unit)
          (modify fun e => { e with link := Transport.release e.link d })
          (fun _ => Ready [] seen) (Ready [] seen) := by
        refine follows_change (fun e' he' => ?_) (fun e' he' => ?_) fun _ _ hfull => hfull
        · rw [TransmitPool.Checked.release_eq he'.pool.accounts]
          rfl
        · exact ⟨he'.pool.release, he'.seen_le⟩
      exact hreleased.bind fun _ => follows_throw fun _ h => h

theorem transmit_follows (now : Nat) {room : Nat} (hroom : room ≤ 65535)
    {strict : Action (Trap GuardError) Writer Unit} {fill : Action GuardError Writer Unit}
    (hfill : Writer.Checked.Fills strict fill) :
    Follows Full (Ready [] seen) (transmit now room strict) (Endpoint.transmit now room fill)
      (fun _ => Ready [] seen) (Ready [] seen) :=
  (askFirst_follows now).bind fun _ => sendDatagram_follows hroom hfill

theorem sendControl_follows (now : Nat) {kind : PacketKind} (hkind : kind ≠ .data)
    (module : ModuleName) (hash : ContentHash) :
    Follows Full (Ready [] seen) (sendControl now kind module hash)
      (do
        let _ ← Endpoint.transmit now (Header.size PacketHeader) (encodeControl kind module hash)
        Endpoint.flush.mapError FrameError.link)
      (fun _ => Ready [] seen) (Ready [] seen) :=
  (transmit_follows now (by decide) (Message.Checked.encodeControl_fills hkind module hash)).bind
    fun _ => flush_follows.mapFailure FrameError.link

end Endpoint.Checked

end RomCast
