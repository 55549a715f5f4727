import RomCast.Proofs.Checked.Datagram

set_option autoImplicit false

/-!
# Checked frames that come in

The lengths in a frame's headers are whatever the sender wrote.  Each is compared with what is there
before it becomes the end of a slice, and what one function compares the next one slices: a frame
that `checkIpv4` lets through is long enough for what `checkUdp` takes from it, and the payload's
place that comes out lies within the frame.
-/

namespace RomCast

open RomCast.Checked

namespace Endpoint.Checked

/-- The length of an IPv4 header in bytes, options included. -/
def headerLength (ip : Ipv4Header) : Except Fault Nat := mul (ip.versionLength.toNat % 16) 4

/-- The IPv4 header of a frame, when its version, lengths and checksum are right. -/
def checkIpv4 (frame : Bytes) : Except (Trap FrameError) Ipv4Header := do
  let reader ← (Reader.Checked.skip ipv4Start ⟨frame, 0⟩).mapError (Trap.map FrameError.guarded)
  let (ip, _) ← (Reader.Checked.read Ipv4Header reader).mapError (Trap.map FrameError.guarded)
  let length ← headerLength ip
  if ip.version ≠ 4 ∨ length < Header.size Ipv4Header then .error (.failure badVersion)
  else do
    let total := ip.totalLength.toNat
    let stop ← add ipv4Start total
    if total < length ∨ frame.length < stop then .error (.failure badTotalLength)
    else do
      let header ← slice frame ipv4Start (← add ipv4Start length)
      if (← Checksum.Checked.internet header) ≠ 0 then .error (.failure badHeaderChecksum)
      else return ip

/-- Where the payload of a datagram lies within its frame. -/
def checkUdp (port : UInt16) (frame : Bytes) (ip : Ipv4Header) :
    Except (Trap FrameError) (Option (Nat × Nat)) :=
  if ip.protocol ≠ Checksum.udpProtocol then return none
  else if ip.isFragment then .error (.failure isFragmented)
  else do
    let start ← add ipv4Start (← headerLength ip)
    let datagram ← slice frame start (← add ipv4Start ip.totalLength.toNat)
    let udp ←
      (Reader.Checked.readFront UdpHeader datagram).mapError (Trap.map FrameError.guarded)
    let length := udp.length.toNat
    if length < Header.size UdpHeader ∨ datagram.length < length then
      .error (.failure badUdpLength)
    else if udp.targetPort ≠ port then return none
    else do
      let segment ← slice datagram 0 length
      if ¬ (← Checksum.Checked.udpValid ip.source ip.target segment) then
        .error (.failure badUdpChecksum)
      else return some (← add start (Header.size UdpHeader), ← add start length)

/-- An IPv4 frame from `sender`: where the payload of a datagram for this endpoint lies. -/
def receiveIpv4 (sender : Mac) (frame : Bytes) :
    Action (Trap FrameError) OnMemory (Option (Nat × Nat)) := do
  let ip ← Action.ofExcept (checkIpv4 frame)
  let config := (← get).config
  if !config.accepts ip.target then return none
  modify fun e => { e with resolver := (e.resolver.learn ip.source sender).2 }
  Action.ofExcept (checkUdp config.port frame ip)

/-- An ARP frame: answer a question for the local address, take note of an awaited answer. -/
def receiveArp : Action (Trap FrameError) (OnMemory × Bytes) Unit := do
  let (e, frame) ← get
  let arp ← Action.ofExcept
    ((Header.Checked.view ArpPacket ipv4Start frame).mapError (Trap.map FrameError.guarded))
  if !arp.isEthernetIpv4 then return ()
  if arp.opcode = ArpPacket.opRequest then
    if e.config.source ≠ some arp.targetIp then return ()
    let _ ← Action.ofExcept
      ((Header.Checked.view EthernetHeader 0 frame).mapError (Trap.map FrameError.guarded))
    let answer := answerInPlace (Transport.mac e.link) frame
    set (e, answer)
    let length := Header.size EthernetHeader + Header.size ArpPacket
    if ← (send (← slice answer 0 length)).onFirst then (count .arpReplies).onFirst
  else if arp.opcode = ArpPacket.opReply then
    set ({ e with resolver := (e.resolver.handleReply arp.senderIp arp.senderMac).2 }, frame)

/-- A frame, by what its Ethernet header says it carries. -/
def dispatch : Action (Trap FrameError) (OnMemory × Bytes) (Option (Nat × Nat)) := do
  let frame := (← get).2
  let ethernet ← Action.ofExcept
    ((Reader.Checked.readFront EthernetHeader frame).mapError (Trap.map FrameError.guarded))
  if ethernet.etherType = etherTypeArp then
    receiveArp
    return none
  else if ethernet.etherType = etherTypeIpv4 then (receiveIpv4 ethernet.source frame).onFirst
  else return none

/-- Deal with one inbound frame that has been counted. -/
def settle : Action (Trap FrameError) (OnMemory × Bytes) (Option (Nat × Nat)) := do
  match ← attempt dispatch with
  | .ok (some range) =>
      (count .rxDelivered).onFirst
      return some range
  | .ok none => return none
  | .error cause =>
      (count .rxDropped).onFirst
      throw (.failure cause)

/-- Deal with one inbound frame: where the payload of a datagram for this endpoint lies. -/
def handle : Action (Trap FrameError) (OnMemory × Bytes) (Option (Nat × Nat)) := do
  (count .rxFrames).onFirst
  settle

/-! ## The checks -/

theorem headerLength_eq (ip : Ipv4Header) : headerLength ip = .ok ip.headerLength := by
  have hmod : ip.versionLength.toNat % 16 < 16 := Nat.mod_lt _ (by omega)
  exact mul_eq (by omega)

/-- The lengths of a packet fit each other and the frame. -/
structure Fits (frame : Bytes) (ip : Ipv4Header) : Prop where
  header_le : 20 ≤ ip.headerLength
  total_le : ip.headerLength ≤ ip.totalLength.toNat
  frame_le : 14 + ip.totalLength.toNat ≤ frame.length

theorem checkIpv4_eq {frame : Bytes} (hstart : 14 ≤ frame.length)
    (hlength : frame.length ≤ 65535) :
    checkIpv4 frame = (Endpoint.checkIpv4 frame).mapError Trap.failure ∧
      ∀ ip, Endpoint.checkIpv4 frame = .ok ip → Fits frame ip := by
  have hskip : Reader.Checked.skip ipv4Start ⟨frame, 0⟩ = .ok ⟨frame, 14⟩ :=
    Reader.Checked.skip_eq (Nat.zero_le _) (by omega) (m := 14) hstart
  have hsize : Header.size Ipv4Header = 20 := rfl
  have hfrom : ipv4Start = 14 := rfl
  rw [checkIpv4, hskip, Endpoint.checkIpv4]
  simp only [Action.except_mapError_ok, ok_bind, Reader.Checked.read_eq hstart (by omega),
    Reader.result_read_eq, hsize, hfrom, headerLength_eq, lift_ok, pure_bind]
  by_cases hroom : 20 ≤ frame.length - 14
  · simp only [if_pos hroom, Action.except_mapError_ok, ok_bind]
    obtain ⟨ip, hip⟩ : ∃ ip : Ipv4Header, ip = Header.decode ((frame.drop 14).take 20) := ⟨_, rfl⟩
    simp only [← hip]
    by_cases hversion : ip.version ≠ 4 ∨ ip.headerLength < 20
    · simp only [if_pos hversion]
      exact ⟨rfl, fun ip hip => nomatch hip⟩
    have htotalLt : ip.totalLength.toNat < 65536 := ip.totalLength.toNat_lt
    have htotal : add 14 ip.totalLength.toNat = .ok (14 + ip.totalLength.toNat) :=
      add_eq (by omega)
    simp only [if_neg hversion, htotal, lift_ok, pure_bind]
    by_cases hend : ip.totalLength.toNat < ip.headerLength ∨
        frame.length < 14 + ip.totalLength.toNat
    · simp only [if_pos hend]
      exact ⟨rfl, fun ip hip => nomatch hip⟩
    -- The lengths fit, so the header can be summed up.
    have hfits : Fits frame ip := by
      constructor <;> omega
    have hheader := hfits.header_le
    have hpacket := hfits.total_le
    have hframe := hfits.frame_le
    have hadd : add 14 ip.headerLength = .ok (14 + ip.headerLength) := add_eq (by omega)
    have hslice : slice frame 14 (14 + ip.headerLength) =
        .ok (frame.slice 14 (14 + ip.headerLength)) := slice_eq (by omega) (by omega)
    have hsum : (frame.slice 14 (14 + ip.headerLength)).length ≤ 65535 := by
      refine Nat.le_trans (List.length_take_le ..) ?_
      omega
    simp only [if_neg hend, hadd, hslice, Checksum.Checked.internet_eq hsum, lift_ok, pure_bind]
    by_cases hchecksum : Checksum.internet (frame.slice 14 (14 + ip.headerLength)) ≠ 0
    · simp only [if_pos hchecksum]
      exact ⟨rfl, fun ip hip => nomatch hip⟩
    · simp only [if_neg hchecksum]
      refine ⟨rfl, fun other hother => ?_⟩
      cases hother
      exact hfits
  · simp only [if_neg hroom]
    exact ⟨rfl, fun ip hip => nomatch hip⟩

/-- A place within `length` bytes. -/
def Inside (length : Nat) (range : Nat × Nat) : Prop := range.1 ≤ range.2 ∧ range.2 ≤ length

theorem checkUdp_eq (port : UInt16) {frame : Bytes} {ip : Ipv4Header} (hfits : Fits frame ip)
    (hlength : frame.length ≤ 65535) :
    checkUdp port frame ip = (Endpoint.checkUdp port frame ip).mapError Trap.failure ∧
      ∀ range, Endpoint.checkUdp port frame ip = .ok (some range) →
        Inside frame.length range := by
  have hheader := hfits.header_le
  have hpacket := hfits.total_le
  have hframe := hfits.frame_le
  have hfrom : ipv4Start = 14 := rfl
  have hsize : Header.size UdpHeader = 8 := rfl
  rw [checkUdp, Endpoint.checkUdp]
  by_cases hprotocol : ip.protocol ≠ Checksum.udpProtocol
  · simp only [if_pos hprotocol]
    exact ⟨rfl, by rintro range ⟨⟩⟩
  by_cases hfragment : ip.isFragment = true
  · simp only [if_neg hprotocol, if_pos hfragment]
    exact ⟨rfl, by rintro range ⟨⟩⟩
  have hstart : add 14 ip.headerLength = .ok (14 + ip.headerLength) := add_eq (by omega)
  have hstop : add 14 ip.totalLength.toNat = .ok (14 + ip.totalLength.toNat) :=
    add_eq (by omega)
  have hdatagram : slice frame (14 + ip.headerLength) (14 + ip.totalLength.toNat) =
      .ok (frame.slice (14 + ip.headerLength) (14 + ip.totalLength.toNat)) :=
    slice_eq (by omega) hframe
  obtain ⟨datagram, hdatagramEq⟩ : ∃ datagram,
      datagram = frame.slice (14 + ip.headerLength) (14 + ip.totalLength.toNat) := ⟨_, rfl⟩
  have hpresent : datagram.length = ip.totalLength.toNat - ip.headerLength := by
    rw [hdatagramEq, Bytes.slice, List.length_take, List.length_drop]
    omega
  rw [← hdatagramEq] at hdatagram
  simp only [if_neg hprotocol, if_neg hfragment, hfrom, headerLength_eq, hstart, hstop, hdatagram,
    lift_ok, pure_bind, ← hdatagramEq, Reader.Checked.readFront_eq (b := datagram) (by omega),
    Reader.readFront_eq, hsize]
  by_cases hroom : 8 ≤ datagram.length
  · simp only [if_pos hroom, Action.except_mapError_ok, ok_bind]
    obtain ⟨udp, hudp⟩ : ∃ udp : UdpHeader, udp = Header.decode (datagram.take 8) := ⟨_, rfl⟩
    simp only [← hudp]
    by_cases hlong : udp.length.toNat < 8 ∨ datagram.length < udp.length.toNat
    · simp only [if_pos hlong]
      exact ⟨rfl, by rintro range ⟨⟩⟩
    by_cases hport : udp.targetPort ≠ port
    · simp only [if_neg hlong, if_pos hport]
      exact ⟨rfl, by rintro range ⟨⟩⟩
    have hsegment : slice datagram 0 udp.length.toNat = .ok (datagram.take udp.length.toNat) :=
      slice_zero_eq (by omega)
    have hsum : (datagram.take udp.length.toNat).length ≤ 65535 := by
      refine Nat.le_trans (List.length_take_le ..) ?_
      omega
    simp only [if_neg hlong, if_neg hport, hsegment, Checksum.Checked.udpValid_eq _ _ hsum, lift_ok,
      pure_bind]
    by_cases hvalid :
        ¬ Checksum.udpValid ip.source ip.target (datagram.take udp.length.toNat) = true
    · simp only [if_pos hvalid]
      exact ⟨rfl, by rintro range ⟨⟩⟩
    · have hfirst : add (14 + ip.headerLength) 8 = .ok (14 + ip.headerLength + 8) :=
        add_eq (by omega)
      have hlast : add (14 + ip.headerLength) udp.length.toNat =
          .ok (14 + ip.headerLength + udp.length.toNat) := add_eq (by omega)
      simp only [if_neg hvalid, hfirst, hlast, lift_ok, pure_bind]
      refine ⟨rfl, fun range hrange => ?_⟩
      cases hrange
      exact ⟨by omega, by omega⟩
  · simp only [if_neg hroom]
    exact ⟨rfl, by rintro range ⟨⟩⟩

/-! ## Handling a frame -/

variable {seen n : Nat} {frame : Bytes}

theorem receiveIpv4_follows (sender : Mac) (hstart : 14 ≤ frame.length)
    (hlength : frame.length ≤ 65535) :
    Follows Full (Ready [] seen) (receiveIpv4 sender frame) (Endpoint.receiveIpv4 sender frame)
      (fun range? e => Ready [] seen e ∧ ∀ range, range? = some range → Inside frame.length range)
      (Ready [] seen) := by
  obtain ⟨hcheck, hfits⟩ := checkIpv4_eq hstart hlength
  have hchecked : Follows Full (Ready [] seen) (Action.ofExcept (checkIpv4 frame))
      (Action.ofExcept (Endpoint.checkIpv4 frame))
      (fun ip e => Ready [] seen e ∧ Endpoint.checkIpv4 frame = .ok ip) (Ready [] seen) :=
    follows_ofExcept hcheck (fun ip e hip he => ⟨he, hip⟩) fun e he => he
  refine hchecked.bind fun ip => follows_of_and_right fun hip => ?_
  refine follows_get fun e he => Follows.ite (fun _ => ?_) fun _ => ?_
  · exact follows_pure fun _ hsame => ⟨hsame ▸ he, fun range hrange => nomatch hrange⟩
  · have hlearned : Follows Full (· = e)
        (modify fun e => { e with resolver := (e.resolver.learn ip.source sender).2 } :
          Action (Trap FrameError) OnMemory Unit)
        (modify fun e => { e with resolver := (e.resolver.learn ip.source sender).2 })
        (fun _ => Ready [] seen) (Ready [] seen) := by
      refine follows_modify (fun e' hsame => ?_) fun _ _ hfull => hfull
      rw [hsame]
      exact ⟨he.pool, he.seen_le⟩
    obtain ⟨hudp, hinside⟩ := checkUdp_eq e.config.port (hfits ip hip) hlength
    exact hlearned.bind fun _ =>
      follows_ofExcept hudp (fun range? e hrange he => ⟨he, fun range hsome =>
        hinside range (hsome ▸ hrange)⟩) fun e he => he

/-- An endpoint with a sound pool beside a frame of `n` bytes. -/
structure Facing (seen n : Nat) (s : OnMemory × Bytes) : Prop where
  ready : Ready [] seen s.1
  length_eq : s.2.length = n

/-- An endpoint beside a frame that has counted past the end of a counter. -/
abbrev FullFacing (s : OnMemory × Bytes) : Prop := Full s.1

/-- A step of the endpoint leaves the frame as it is. -/
theorem onFirst_follows {ε α : Type} {x : Action (Trap ε) OnMemory α} {y : Action ε OnMemory α}
    {Q : α → OnMemory → Prop} {E : OnMemory → Prop} (h : Follows Full (Ready [] seen) x y Q E) :
    Follows FullFacing (Facing seen n) x.onFirst y.onFirst (fun a s => Q a s.1 ∧ s.2.length = n)
      fun s => E s.1 ∧ s.2.length = n :=
  (h.onFirst (S := fun frame => frame.length = n)).mono (fun _ hs => ⟨hs.ready, hs.length_eq⟩)
    (fun _ _ hs => hs) fun _ hs => hs

/-- A step of an endpoint that has seen more frames after it. -/
theorem facing_follows {ε α : Type} {now : Nat} {x : Action (Trap ε) OnMemory α}
    {y : Action ε OnMemory α}
    (h : Follows Full (Ready [] seen) x y (fun _ => Ready [] now) (Ready [] now)) :
    Follows FullFacing (Facing seen n) x.onFirst y.onFirst (fun _ => Facing now n)
      (Facing now n) :=
  (onFirst_follows h).mono (fun _ hs => hs) (fun _ _ hs => ⟨hs.1, hs.2⟩)
    fun _ hs => ⟨hs.1, hs.2⟩

theorem receiveArp_follows :
    Follows FullFacing (Facing seen n) receiveArp Endpoint.receiveArp (fun _ => Facing seen n)
      (Facing seen n) := by
  refine follows_get fun s hs => ?_
  obtain ⟨e, frame⟩ := s
  have hsame : ∀ s, s = (e, frame) → Facing seen n s := fun s h => h ▸ hs
  have hview : Follows FullFacing (· = (e, frame))
      (Action.ofExcept
        ((Header.Checked.view ArpPacket ipv4Start frame).mapError (Trap.map FrameError.guarded)))
      (Action.ofExcept
        (((Reader.read ArpPacket).result ⟨frame, ipv4Start⟩).mapError FrameError.guarded))
      (fun _ s => s = (e, frame) ∧ 42 ≤ frame.length) (Facing seen n) := by
    refine follows_ofExcept ?_ (fun arp s harp hs => ⟨hs, ?_⟩) hsame
    · rw [Header.Checked.view_eq (by decide), mapError_failure_map]
    · have hsize : Header.size ArpPacket = 28 := rfl
      have hfrom : ipv4Start = 14 := rfl
      rw [Reader.result_read_eq, hsize, hfrom] at harp
      by_cases hroom : 28 ≤ frame.length - 14
      · omega
      · rw [if_neg hroom] at harp
        cases harp
  refine hview.bind fun arp => follows_of_and_right fun hlong => ?_
  refine Follows.ite (fun _ => follows_pure hsame) fun _ => ?_
  refine Follows.ite (fun _ => ?_) fun _ => Follows.ite (fun _ => ?_) fun _ => follows_pure hsame
  · refine Follows.ite (fun _ => follows_pure hsame) fun _ => ?_
    -- The answer is put together in the frame, which is long enough for it.
    have hethernet : (Header.Checked.view EthernetHeader 0 frame).mapError
        (Trap.map FrameError.guarded) = .ok (Header.decode (frame.take 14)) := by
      have hsize : Header.size EthernetHeader = 14 := rfl
      rw [Header.Checked.view_eq (by decide), Reader.result_read_eq, hsize, if_pos (by omega),
        List.drop_zero]
      rfl
    have hanswer : (answerInPlace (Transport.mac e.link) frame).length = n := by
      simp only [answerInPlace, Header.modifyAt, Bytes.length_overwrite]
      exact hs.length_eq
    refine follows_ofExcept_ok hethernet ?_
    refine Follows.bind (Q := fun _ => Facing seen n) ?_ fun _ => ?_
    · exact follows_set ⟨hs.ready, hanswer⟩ fun s hsame hfull => by rwa [hsame] at hfull
    have hfront : slice (answerInPlace (Transport.mac e.link) frame) 0 (14 + 28) =
        .ok ((answerInPlace (Transport.mac e.link) frame).take (14 + 28)) :=
      slice_zero_eq (by rw [hanswer, ← hs.length_eq]; exact hlong)
    refine follows_lift hfront ?_
    refine Follows.bind (facing_follows (send_follows _)) fun sent => ?_
    exact Follows.ite (fun _ => facing_follows (count_follows .arpReplies)) fun _ =>
      follows_pure fun _ h => h
  · refine follows_set ⟨⟨hs.ready.pool, hs.ready.seen_le⟩, hs.length_eq⟩ ?_
    rintro s rfl hfull
    exact hfull

theorem dispatch_follows (hlength : n ≤ 65535) :
    Follows FullFacing (Facing seen n) dispatch Endpoint.dispatch
      (fun range? s => Facing seen n s ∧ ∀ range, range? = some range → Inside n range)
      (fun s => Facing seen n s) := by
  refine follows_get fun s hs => ?_
  obtain ⟨e, frame⟩ := s
  have hframe : frame.length = n := hs.length_eq
  have hview : Follows FullFacing (· = (e, frame))
      (Action.ofExcept
        ((Reader.Checked.readFront EthernetHeader frame).mapError (Trap.map FrameError.guarded)))
      (Action.ofExcept ((Reader.readFront EthernetHeader frame).mapError FrameError.guarded))
      (fun _ s => Facing seen n s ∧ 14 ≤ frame.length) (Facing seen n) := by
    refine follows_ofExcept ?_ (fun ethernet s hethernet hsame => ⟨hsame ▸ hs, ?_⟩)
      fun s hsame => hsame ▸ hs
    · rw [Reader.Checked.readFront_eq (by omega), mapError_failure_map]
    · have hsize : Header.size EthernetHeader = 14 := rfl
      rw [Reader.readFront_eq, hsize] at hethernet
      by_cases hroom : 14 ≤ frame.length
      · exact hroom
      · rw [if_neg hroom] at hethernet
        cases hethernet
  refine hview.bind fun ethernet => follows_of_and_right fun hstart => ?_
  refine Follows.ite (fun _ => ?_) fun _ => Follows.ite (fun _ => ?_) fun _ => ?_
  · exact receiveArp_follows.bind fun _ =>
      follows_pure fun s hs => ⟨hs, fun range hrange => nomatch hrange⟩
  · refine (onFirst_follows (receiveIpv4_follows ethernet.source hstart (by omega))).mono
      (fun _ h => h) (fun range? s h => ⟨⟨h.1.1, h.2⟩, ?_⟩) fun s h => ⟨h.1, h.2⟩
    rw [← hframe]
    exact h.1.2
  · exact follows_pure fun s hs => ⟨hs, fun range hrange => nomatch hrange⟩

end Endpoint.Checked

namespace Endpoint

/-- Deal with one inbound frame that has been counted. -/
def settle : Action FrameError (OnMemory × Bytes) (Option (Nat × Nat)) := do
  match ← dispatch.attempt with
  | .ok (some range) =>
      (count Counter.rxDelivered.bump).onFirst
      return some range
  | .ok none => return none
  | .error cause =>
      (count Counter.rxDropped.bump).onFirst
      throw cause

/-- A frame is counted before anything else is done with it. -/
theorem handle_eq_settle :
    (handle : Action FrameError (OnMemory × Bytes) (Option (Nat × Nat))) =
      (count Counter.rxFrames.bump).onFirst >>= fun _ => settle :=
  rfl

namespace Checked

variable {seen n : Nat}

theorem settle_follows (hlength : n ≤ 65535) :
    Follows FullFacing (Facing seen n) settle Endpoint.settle
      (fun range? s => Facing seen n s ∧ ∀ range, range? = some range → Inside n range)
      (Facing seen n) := by
  have hattempt : Follows FullFacing (Facing seen n)
      (attempt dispatch : Action (Trap FrameError) (OnMemory × Bytes)
        (Except FrameError (Option (Nat × Nat))))
      Endpoint.dispatch.attempt
      (fun answer s => Facing seen n s ∧ ∀ range, answer = .ok (some range) → Inside n range)
      (Facing seen n) := by
    refine (dispatch_follows hlength).attempt (fun range? s h => ⟨h.1, fun range hrange => ?_⟩)
      fun e s h => ⟨h, fun range hrange => nomatch hrange⟩
    cases hrange
    exact h.2 range rfl
  refine hattempt.bind fun answer => ?_
  cases answer with
  | ok range? =>
    cases range? with
    | some range =>
      refine follows_of_and_right fun hinside =>
        (facing_follows (count_follows .rxDelivered)).bind fun _ => ?_
      refine follows_pure fun s hs => ⟨hs, fun other hother => ?_⟩
      cases hother
      exact hinside range rfl
    | none => exact follows_pure fun s hs => ⟨hs.1, fun range hrange => nomatch hrange⟩
  | error cause =>
    refine follows_of_and_right fun _ => ?_
    exact (facing_follows (count_follows .rxDropped)).bind fun _ => follows_throw fun s hs => hs

theorem handle_follows (hlength : n ≤ 65535) :
    Follows FullFacing (Facing seen n) handle Endpoint.handle
      (fun range? s => Facing (seen + 1) n s ∧ ∀ range, range? = some range → Inside n range)
      (Facing (seen + 1) n) := by
  rw [handle_eq_settle]
  exact (facing_follows count_rxFrames_follows).bind fun _ => settle_follows hlength

/-- A frame too many for the counter of frames. -/
theorem handle_full {s : OnMemory × Bytes} (hlength : n ≤ 65535) (hs : Facing seen n s)
    (hlast : 2 ^ 64 ≤ s.1.counters.rxFrames + 1) : FullFacing (Endpoint.handle.state s) := by
  rw [handle_eq_settle]
  obtain ⟨e, frame⟩ := s
  have hcounted : (Endpoint.count Counter.rxFrames.bump :
      Action FrameError OnMemory Unit).onFirst (e, frame) =
        .ok () ({ e with counters := Counter.rxFrames.bump e.counters }, frame) := rfl
  rw [Action.state_bind_of_ok hcounted]
  refine (settle_follows hlength).keeps _ ⟨hs.ready.bump .rxFrames, hs.length_eq⟩ ?_
  exact ⟨.rxFrames, hlast⟩

end Checked

end Endpoint

end RomCast
