import RomCast.Cursor
import RomCast.Header
import RomCast.Link.Transport
import RomCast.Resolver

set_option autoImplicit false

/-!
# Endpoints

An endpoint speaks Ethernet, ARP, IPv4 and UDP over a link.  This module holds its state and what
goes out: datagrams, whole frames, questions for the peer's address.  When no transmit buffer is
free the link is asked to send what waits, a bounded number of times; after that the frame is
dropped and counted.
-/

namespace RomCast

/-- Why a frame is refused. -/
inductive FrameError where
  | guarded (cause : GuardError)
  | link (cause : LinkError)
  | malformed (what : String)
  | badChecksum (what : String)
  deriving DecidableEq, Repr, Inhabited

/-- The wording of a refused frame. -/
def FrameError.message : FrameError → String
  | guarded cause => cause.message
  | link cause => cause.message
  | malformed what => "malformed frame: " ++ what
  | badChecksum what => "bad " ++ what ++ " checksum"

namespace Endpoint

/-- The port that every datagram comes from. -/
def sourcePort : UInt16 := 51234

/-- The port that datagrams go to unless configured otherwise. -/
def defaultPort : UInt16 := 9009

/-- How many routers a datagram may pass. -/
def timeToLive : UInt8 := 10

/-- Ethernet, IPv4 and UDP headers together. -/
def frameOverhead : Nat := 42

/-- How often the link is asked to send before a frame is dropped for want of a buffer; the buffer
is tried for once more than that. -/
def maxAllocRetries : Nat := 64

/-- How an endpoint is set up. -/
structure Config where
  /-- The local address.  Without one every destination is accepted, and 0.0.0.0 is the source. -/
  source : Option Ipv4Address := none
  /-- The peer's address.  Without one datagrams go to 255.255.255.255, and nothing is resolved. -/
  target : Option Ipv4Address := none
  /-- The peer's hardware address, when it need not be resolved. -/
  targetMac : Option Mac := none
  port : UInt16 := defaultPort
  /-- Leave the UDP checksum out, for the network card to fill in. -/
  checksumOffload : Bool := false
  /-- Milliseconds between two questions for the peer's hardware address. -/
  retryInterval : Nat := 1000
  maxRetries : Nat := 5
  deriving DecidableEq, Inhabited

/-- What an endpoint has counted. -/
structure Counters where
  rxFrames : Nat := 0
  rxDropped : Nat := 0
  rxDelivered : Nat := 0
  txFrames : Nat := 0
  txDropped : Nat := 0
  arpReplies : Nat := 0
  arpRequests : Nat := 0
  deriving DecidableEq, Repr, Inhabited

end Endpoint

/-- An endpoint on a link. -/
structure Endpoint (L : Type) where
  link : L
  config : Endpoint.Config
  resolver : Resolver
  /-- The identification of the last datagram. -/
  identification : UInt16 := 0
  counters : Endpoint.Counters := {}
  deriving Inhabited

namespace Endpoint

variable {L : Type} [Transport L] {ε α : Type}

/-- An endpoint that has sent and received nothing. -/
def new (link : L) (config : Config) : Endpoint L :=
  let resolver := Resolver.new config.target config.retryInterval config.maxRetries
  { link, config
    resolver := match config.targetMac with
      | some mac => resolver.withStatic mac
      | none => resolver }

/-- The address that datagrams come from. -/
def sourceAddress (e : Endpoint L) : Ipv4Address := e.config.source.getD Ipv4Address.unspecified

/-- The address that datagrams go to. -/
def targetAddress (e : Endpoint L) : Ipv4Address := e.config.target.getD Ipv4Address.broadcast

/-- A step of the link below. -/
def onLink (x : Action ε L α) : Action ε (Endpoint L) α :=
  x.on Endpoint.link fun link e => { e with link }

/-- Count something. -/
def count (f : Counters → Counters) : Action ε (Endpoint L) Unit :=
  modify fun e => { e with counters := f e.counters }

/-! ## Buffers -/

/-- Give every sent buffer back. -/
def drainAcks : Action ε (Endpoint L) Unit :=
  modify fun e => { e with link := Transport.drainAcks e.link }

/-- Try for a buffer `n` times, asking the link to send what waits after each failure.  Without one
in the end, count the frame as dropped. -/
def reserveTries (length : Nat) : Nat → Action LinkError (Endpoint L) (Option Descriptor)
  | 0 => do
      count fun c => { c with txDropped := c.txDropped + 1 }
      return none
  | n + 1 => do
      match ← (onLink (Transport.alloc length)).attempt with
      | .ok d => return some d
      | .error .exhausted =>
          onLink Transport.process
          drainAcks
          reserveTries length n
      | .error e => throw e

/-- A transmit buffer for `length` bytes, or none when the frame has to be dropped. -/
def reserve (length : Nat) : Action LinkError (Endpoint L) (Option Descriptor) := do
  drainAcks
  reserveTries length (maxAllocRetries + 1)

/-- Queue a filled buffer. -/
def submit (d : Descriptor) : Action LinkError (Endpoint L) Unit := do
  unless Transport.ready (← get).link do
    onLink Transport.process
  onLink (Transport.submit d)
  count fun c => { c with txFrames := c.txFrames + 1 }

/-- Put what was submitted onto the wire, and give sent buffers back. -/
def flush : Action LinkError (Endpoint L) Unit := do
  onLink Transport.process
  drainAcks

/-- Send a complete frame; false when it had to be dropped. -/
def send (frame : Bytes) : Action FrameError (Endpoint L) Bool := do
  match ← (reserve frame.length).mapError FrameError.link with
  | none => return false
  | some d =>
      modify fun e => { e with link := Transport.store e.link d frame }
      (submit d).mapError FrameError.link
      return true

/-! ## Resolving the peer -/

/-- The frame that asks who owns an address. -/
def requestFrame (mac : Mac) (source target : Ipv4Address) : Bytes :=
  Header.encode ({ target := Mac.broadcast, source := mac, etherType := etherTypeArp }
    : EthernetHeader) ++ Header.encode (ArpPacket.request mac source target)

/-- Ask for the peer's hardware address. -/
def sendRequest (now : Nat) : Action FrameError (Endpoint L) Unit := do
  let e ← get
  match e.resolver.target with
  | none => return ()
  | some target =>
      if ← send (requestFrame (Transport.mac e.link) e.sourceAddress target) then
        modify fun e => { e with resolver := e.resolver.requestSent now }
        count fun c => { c with arpRequests := c.arpRequests + 1 }

/-- Look at the timer, and ask again when it is time. -/
def pollTimers (now : Nat) : Action FrameError (Endpoint L) Unit := do
  let (action, resolver) := (← get).resolver.poll now
  modify fun e => { e with resolver }
  if action = .resend then sendRequest now

/-! ## Datagrams -/

/-- What the headers of a datagram are made of. -/
structure Addressing where
  sourceMac : Mac
  targetMac : Mac
  source : Ipv4Address
  target : Ipv4Address
  identification : UInt16
  port : UInt16
  withChecksum : Bool
  deriving DecidableEq, Inhabited

/-- The Ethernet header of a datagram. -/
def Addressing.ethernet (a : Addressing) : EthernetHeader :=
  { target := a.targetMac, source := a.sourceMac, etherType := etherTypeIpv4 }

/-- The UDP header of a datagram, without its checksum. -/
def Addressing.udp (a : Addressing) (length : Nat) : UdpHeader :=
  { sourcePort := Endpoint.sourcePort, targetPort := a.port, length := UInt16.ofNat length,
    checksum := 0 }

/-- The IPv4 header of a datagram. -/
def Addressing.ipv4 (a : Addressing) (length : Nat) : Ipv4Header :=
  Ipv4Header.withChecksum
    { versionLength := 0x45, service := 0, totalLength := UInt16.ofNat length,
      identification := a.identification, fragment := 0x4000, timeToLive := Endpoint.timeToLive,
      protocol := Checksum.udpProtocol, checksum := 0, source := a.source, target := a.target }

/-- Write the IPv4 and UDP headers in front of a payload that is there already; the answer is where
the payload ends. -/
def Addressing.complete (a : Addressing) (ipStart udpStart : Nat) :
    Action GuardError Writer Nat := do
  let stop := (← get).position
  Writer.patch udpStart (Header.encode (a.udp (stop - udpStart)))
  if a.withChecksum then
    let segment := (← get).buffer.slice udpStart stop
    Writer.patch (udpStart + 6) (Bytes.ofWord16 (Checksum.udp a.source a.target segment))
  Writer.patch ipStart (Header.encode (a.ipv4 (stop - ipStart)))
  return stop

/-- Write a frame whose payload is written by `fill`; the answer is the frame's length.  The headers
hold lengths and checksums, so they are written when the payload is there. -/
def Addressing.write (a : Addressing) (fill : Action GuardError Writer Unit) :
    Action GuardError Writer Nat := do
  Writer.put a.ethernet
  let ipStart ← Writer.reserve (Header.size Ipv4Header)
  let udpStart ← Writer.reserve (Header.size UdpHeader)
  fill
  a.complete ipStart udpStart

/-- How the next datagram is addressed. -/
def addressing (e : Endpoint L) : Addressing where
  sourceMac := Transport.mac e.link
  targetMac := e.resolver.peerMac
  source := e.sourceAddress
  target := e.targetAddress
  identification := e.identification
  port := e.config.port
  withChecksum := !e.config.checksumOffload

/-- Ask for the peer's hardware address, unless that was done or need not be done. -/
def askFirst (now : Nat) : Action FrameError (Endpoint L) Unit := do
  if (← get).resolver.needsRequest then sendRequest now

/-- Send one datagram as it is addressed now; false when it had to be dropped.  When `fill` fails,
the buffer goes back. -/
def sendDatagram (room : Nat) (fill : Action GuardError Writer Unit) :
    Action FrameError (Endpoint L) Bool := do
  match ← (reserve (frameOverhead + room)).mapError FrameError.link with
  | none => return false
  | some d =>
      modify fun e => { e with identification := e.identification + 1 }
      let e ← get
      let writer : Writer := { buffer := Transport.content e.link d }
      let written := e.addressing.write fill
      let filled := (written.state writer).buffer
      modify fun e => { e with link := Transport.store e.link d filled }
      match written.result writer with
      | .error cause =>
          modify fun e => { e with link := Transport.release e.link d }
          throw (.guarded cause)
      | .ok length =>
          (submit (d.truncate length)).mapError FrameError.link
          return true

/-- Send one datagram of at most `room` bytes, written by `fill`; false when it had to be dropped. -/
def transmit (now room : Nat) (fill : Action GuardError Writer Unit) :
    Action FrameError (Endpoint L) Bool := do
  askFirst now
  sendDatagram room fill

end Endpoint

end RomCast
