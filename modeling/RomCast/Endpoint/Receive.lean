import RomCast.Endpoint

set_option autoImplicit false

/-!
# Frames that come in

A frame is either ARP, which the endpoint deals with itself, or IPv4, which is checked layer by
layer until the payload of a datagram for this endpoint is left; everything else is ignored.  A
question for the local address is answered in the very buffer it came in.
-/

namespace RomCast.Endpoint

variable {L : Type} [Transport L]

/-- Why an IPv4 frame is malformed. -/
def badVersion : FrameError := .malformed "IPv4 version or header length"
/-- The total length does not fit the header or the frame. -/
def badTotalLength : FrameError := .malformed "IPv4 total length"
/-- A fragment of a datagram. -/
def isFragmented : FrameError := .malformed "IPv4 fragment"
/-- The UDP length does not fit the header or the datagram. -/
def badUdpLength : FrameError := .malformed "UDP length"
/-- The sum over the IPv4 header is wrong. -/
def badHeaderChecksum : FrameError := .badChecksum "IPv4 header"
/-- The sum over the UDP segment is wrong. -/
def badUdpChecksum : FrameError := .badChecksum "UDP"

/-- Where the IPv4 packet of a frame starts. -/
def ipv4Start : Nat := 14

/-- The IPv4 header of a frame, when its version, lengths and checksum are right. -/
def checkIpv4 (frame : Bytes) : Except FrameError Ipv4Header := do
  let reader : Reader := ⟨frame, ipv4Start⟩
  let ip ← ((Reader.read Ipv4Header).result reader).mapError FrameError.guarded
  if ip.version ≠ 4 ∨ ip.headerLength < Header.size Ipv4Header then throw badVersion
  let total := ip.totalLength.toNat
  if total < ip.headerLength ∨ frame.length < ipv4Start + total then throw badTotalLength
  if Checksum.internet (frame.slice ipv4Start (ipv4Start + ip.headerLength)) ≠ 0 then
    throw badHeaderChecksum
  return ip

/-- Whether a packet for `target` is for an endpoint with this configuration. -/
def Config.accepts (config : Config) (target : Ipv4Address) : Bool :=
  match config.source with
  | none => true
  | some source => target = source || target = Ipv4Address.broadcast

/-- Where the payload of a datagram lies within its frame; none when the packet carries no datagram
for this port. -/
def checkUdp (port : UInt16) (frame : Bytes) (ip : Ipv4Header) :
    Except FrameError (Option (Nat × Nat)) := do
  if ip.protocol ≠ Checksum.udpProtocol then return none
  if ip.isFragment then throw isFragmented
  let start := ipv4Start + ip.headerLength
  let datagram := frame.slice start (ipv4Start + ip.totalLength.toNat)
  let udp ← (Reader.readFront UdpHeader datagram).mapError FrameError.guarded
  let length := udp.length.toNat
  if length < Header.size UdpHeader ∨ datagram.length < length then throw badUdpLength
  if udp.targetPort ≠ port then return none
  if ¬ Checksum.udpValid ip.source ip.target (datagram.take length) then throw badUdpChecksum
  return some (start + Header.size UdpHeader, start + length)

/-- An IPv4 frame from `sender`: where the payload of a datagram for this endpoint lies. -/
def receiveIpv4 (sender : Mac) (frame : Bytes) :
    Action FrameError (Endpoint L) (Option (Nat × Nat)) := do
  let ip ← Action.ofExcept (checkIpv4 frame)
  let config := (← get).config
  if !config.accepts ip.target then return none
  modify fun e => { e with resolver := (e.resolver.learn ip.source sender).2 }
  Action.ofExcept (checkUdp config.port frame ip)

/-- A question turned around: the frame that answers it. -/
def answerInPlace (owner : Mac) (frame : Bytes) : Bytes :=
  let answered := Header.modifyAt frame ipv4Start fun p : ArpPacket => p.reply owner
  Header.modifyAt answered 0 fun h : EthernetHeader =>
    { h with target := h.source, source := owner }

/-- An ARP frame: answer a question for the local address, take note of an awaited answer. -/
def receiveArp : Action FrameError (Endpoint L × Bytes) Unit := do
  let (e, frame) ← get
  let reader : Reader := ⟨frame, ipv4Start⟩
  let arp ← Action.ofExcept
    (((Reader.read ArpPacket).result reader).mapError FrameError.guarded)
  if !arp.isEthernetIpv4 then return ()
  if arp.opcode = ArpPacket.opRequest then
    if e.config.source ≠ some arp.targetIp then return ()
    let answer := answerInPlace (Transport.mac e.link) frame
    set (e, answer)
    let length := Header.size EthernetHeader + Header.size ArpPacket
    if ← (send (answer.take length)).onFirst then
      (count fun c => { c with arpReplies := c.arpReplies + 1 }).onFirst
  else if arp.opcode = ArpPacket.opReply then
    set ({ e with resolver := (e.resolver.handleReply arp.senderIp arp.senderMac).2 }, frame)

/-- A frame, by what its Ethernet header says it carries. -/
def dispatch : Action FrameError (Endpoint L × Bytes) (Option (Nat × Nat)) := do
  let frame := (← get).2
  let ethernet ← Action.ofExcept
    ((Reader.readFront EthernetHeader frame).mapError FrameError.guarded)
  if ethernet.etherType = etherTypeArp then
    receiveArp
    return none
  else if ethernet.etherType = etherTypeIpv4 then (receiveIpv4 ethernet.source frame).onFirst
  else return none

/-- Deal with one inbound frame, which stands in a buffer of its own length: where the payload of a
datagram for this endpoint lies, or none.  Every frame is counted, and delivered and refused ones
again as such. -/
def handle : Action FrameError (Endpoint L × Bytes) (Option (Nat × Nat)) := do
  (count fun c => { c with rxFrames := c.rxFrames + 1 }).onFirst
  match ← dispatch.attempt with
  | .ok (some range) =>
      (count fun c => { c with rxDelivered := c.rxDelivered + 1 }).onFirst
      return some range
  | .ok none => return none
  | .error cause =>
      (count fun c => { c with rxDropped := c.rxDropped + 1 }).onFirst
      throw cause

end RomCast.Endpoint
