import RomCast.Address
import RomCast.Bytes
import RomCast.Checksum
import RomCast.ContentHash

set_option autoImplicit false

/-!
# Header layouts

A header is a value with a fixed layout on the wire: all numbers big-endian, no padding.  Every
byte string of the right length is some header, so reading cannot fail once the bytes are there.
-/

namespace RomCast

/-- A value with a fixed layout of `size` bytes. -/
class Header (α : Type) where
  /-- How many bytes the header takes. -/
  size : Nat
  /-- The header's bytes. -/
  encode : α → Bytes
  /-- The header at the front of a byte string of at least `size` bytes. -/
  decode : Bytes → α

/-- Change the header at position `start` of a buffer in place. -/
def Header.modifyAt {α : Type} [Header α] (buffer : Bytes) (start : Nat) (f : α → α) : Bytes :=
  Bytes.overwrite buffer start (Header.encode (f (Header.decode (buffer.drop start))))

/-! ## Ethernet headers

The fourteen bytes in front of every frame. -/

/-- What an Ethernet frame carries: IPv4. -/
def etherTypeIpv4 : UInt16 := 0x0800

/-- What an Ethernet frame carries: ARP. -/
def etherTypeArp : UInt16 := 0x0806

/-- An Ethernet II header. -/
structure EthernetHeader where
  target : Mac
  source : Mac
  etherType : UInt16
  deriving DecidableEq, Inhabited

namespace EthernetHeader

instance : Header EthernetHeader where
  size := 14
  encode h := h.target.bytes ++ (h.source.bytes ++ Bytes.ofWord16 h.etherType)
  decode b := ⟨Mac.ofBytes b, Mac.ofBytes (b.drop 6), b.word16 12⟩

end EthernetHeader

/-! ## ARP packets

A question for the hardware address behind an IPv4 address, or its answer.  Only packets for
Ethernet and IPv4 are understood; the others are ignored. -/

/-- An ARP packet with Ethernet and IPv4 addresses. -/
structure ArpPacket where
  hardwareType : UInt16
  protocolType : UInt16
  hardwareLength : UInt8
  protocolLength : UInt8
  opcode : UInt16
  senderMac : Mac
  senderIp : Ipv4Address
  targetMac : Mac
  targetIp : Ipv4Address
  deriving DecidableEq, Inhabited

namespace ArpPacket

/-- The hardware type of Ethernet. -/
def ethernetType : UInt16 := 1

/-- The opcode of a question. -/
def opRequest : UInt16 := 1

/-- The opcode of an answer. -/
def opReply : UInt16 := 2

/-- The question who owns `targetIp`. -/
def request (senderMac : Mac) (senderIp targetIp : Ipv4Address) : ArpPacket where
  hardwareType := ethernetType
  protocolType := etherTypeIpv4
  hardwareLength := 6
  protocolLength := 4
  opcode := opRequest
  senderMac := senderMac
  senderIp := senderIp
  targetMac := Mac.zero
  targetIp := targetIp

/-- Whether the packet speaks of Ethernet and IPv4 addresses. -/
def isEthernetIpv4 (p : ArpPacket) : Bool :=
  p.hardwareType = ethernetType && p.protocolType = etherTypeIpv4 &&
    p.hardwareLength = 6 && p.protocolLength = 4

/-- The answer to a question, from the owner of the address asked for. -/
def reply (p : ArpPacket) (owner : Mac) : ArpPacket :=
  { p with
    opcode := opReply
    senderMac := owner
    senderIp := p.targetIp
    targetMac := p.senderMac
    targetIp := p.senderIp }

instance : Header ArpPacket where
  size := 28
  encode p :=
    Bytes.ofWord16 p.hardwareType ++ (Bytes.ofWord16 p.protocolType ++
      ([p.hardwareLength, p.protocolLength] ++ (Bytes.ofWord16 p.opcode ++
        (p.senderMac.bytes ++ (p.senderIp.bytes ++ (p.targetMac.bytes ++ p.targetIp.bytes))))))
  decode b :=
    { hardwareType := b.word16 0
      protocolType := b.word16 2
      hardwareLength := b.byteAt 4
      protocolLength := b.byteAt 5
      opcode := b.word16 6
      senderMac := Mac.ofBytes (b.drop 8)
      senderIp := Ipv4Address.ofBytes (b.drop 14)
      targetMac := Mac.ofBytes (b.drop 18)
      targetIp := Ipv4Address.ofBytes (b.drop 24) }

end ArpPacket

/-! ## IPv4 and UDP headers -/

/-- An IPv4 header without its options. -/
structure Ipv4Header where
  /-- The version in the high four bits, the header length in 32-bit words in the low four. -/
  versionLength : UInt8
  service : UInt8
  totalLength : UInt16
  identification : UInt16
  /-- Three flags, and the fragment offset in the low thirteen bits. -/
  fragment : UInt16
  timeToLive : UInt8
  protocol : UInt8
  checksum : UInt16
  source : Ipv4Address
  target : Ipv4Address
  deriving DecidableEq, Inhabited

namespace Ipv4Header

/-- The version number; 4 for IPv4. -/
def version (h : Ipv4Header) : Nat := h.versionLength.toNat / 16

/-- The length in bytes, options included. -/
def headerLength (h : Ipv4Header) : Nat := h.versionLength.toNat % 16 * 4

/-- Whether more fragments follow or this one does not start at offset zero. -/
def isFragment (h : Ipv4Header) : Bool := h.fragment &&& 0x3fff ≠ 0

instance : Header Ipv4Header where
  size := 20
  encode h :=
    [h.versionLength, h.service] ++ (Bytes.ofWord16 h.totalLength ++
      (Bytes.ofWord16 h.identification ++ (Bytes.ofWord16 h.fragment ++
        ([h.timeToLive, h.protocol] ++ (Bytes.ofWord16 h.checksum ++
          (h.source.bytes ++ h.target.bytes))))))
  decode b :=
    { versionLength := b.byteAt 0
      service := b.byteAt 1
      totalLength := b.word16 2
      identification := b.word16 4
      fragment := b.word16 6
      timeToLive := b.byteAt 8
      protocol := b.byteAt 9
      checksum := b.word16 10
      source := Ipv4Address.ofBytes (b.drop 12)
      target := Ipv4Address.ofBytes (b.drop 16) }

/-- The header with the checksum that makes it valid. -/
def withChecksum (h : Ipv4Header) : Ipv4Header :=
  { h with checksum := Checksum.internet (Header.encode { h with checksum := 0 }) }

end Ipv4Header

/-- A UDP header. -/
structure UdpHeader where
  sourcePort : UInt16
  targetPort : UInt16
  /-- Header and payload together. -/
  length : UInt16
  checksum : UInt16
  deriving DecidableEq, Inhabited

namespace UdpHeader

instance : Header UdpHeader where
  size := 8
  encode h :=
    Bytes.ofWord16 h.sourcePort ++ (Bytes.ofWord16 h.targetPort ++
      (Bytes.ofWord16 h.length ++ Bytes.ofWord16 h.checksum))
  decode b := ⟨b.word16 0, b.word16 2, b.word16 4, b.word16 6⟩

end UdpHeader

/-! ## Application headers

Every packet starts with the module's name, the hash of the content it belongs to, and its kind.  A
fragment of content adds its place within the content. -/

/-- The header of every packet. -/
structure PacketHeader where
  /-- The module's name, filled up with zero bytes. -/
  moduleName : Octets 64
  contentHash : ContentHash
  kind : UInt32
  deriving DecidableEq, Inhabited

/-- Where a fragment belongs. -/
structure FragmentHeader where
  /-- The length of the whole content. -/
  contentSize : UInt32
  /-- Where the fragment starts. -/
  offset : UInt32
  /-- The length of the fragment. -/
  payloadSize : UInt16
  deriving DecidableEq, Inhabited

instance : Header PacketHeader where
  size := 100
  encode h := h.moduleName.bytes ++ (h.contentHash.bytes ++ Bytes.ofWord32 h.kind)
  decode b := ⟨Octets.ofBytes 64 b, Octets.ofBytes 32 (b.drop 64), b.word32 96⟩

instance : Header FragmentHeader where
  size := 10
  encode h :=
    Bytes.ofWord32 h.contentSize ++ (Bytes.ofWord32 h.offset ++ Bytes.ofWord16 h.payloadSize)
  decode b := ⟨b.word32 0, b.word32 4, b.word16 8⟩

end RomCast
