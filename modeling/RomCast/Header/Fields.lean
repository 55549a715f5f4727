import RomCast.Header

set_option autoImplicit false

/-!
# Fields by name

The fields of every header, in the order in which they stand on the wire, for whoever shows a header
or changes one field of it.
-/

namespace RomCast

/-- What a field holds. -/
inductive FieldValue where
  | number (value : Nat)
  | mac (address : Mac)
  | octets (bytes : Bytes)
  deriving DecidableEq, Inhabited

namespace FieldValue

/-- The value as a number. -/
def toNat : FieldValue → Nat
  | number value => value
  | mac _ => 0
  | octets _ => 0

/-- The value as bytes. -/
def toBytes : FieldValue → Bytes
  | number _ => []
  | mac address => address.bytes
  | octets bytes => bytes

end FieldValue

/-- One field of a header. -/
structure HeaderField (α : Type) where
  name : String
  get : α → FieldValue
  set : FieldValue → α → α

namespace HeaderField

variable {α : Type}

/-- A field of 8 bits. -/
def word8 (name : String) (get : α → UInt8) (set : UInt8 → α → α) : HeaderField α :=
  ⟨name, fun h => .number (get h).toNat, fun v => set (UInt8.ofNat v.toNat)⟩

/-- A field of 16 bits. -/
def word16 (name : String) (get : α → UInt16) (set : UInt16 → α → α) : HeaderField α :=
  ⟨name, fun h => .number (get h).toNat, fun v => set (UInt16.ofNat v.toNat)⟩

/-- A field of 32 bits. -/
def word32 (name : String) (get : α → UInt32) (set : UInt32 → α → α) : HeaderField α :=
  ⟨name, fun h => .number (get h).toNat, fun v => set (UInt32.ofNat v.toNat)⟩

/-- A hardware address. -/
def mac (name : String) (get : α → Mac) (set : Mac → α → α) : HeaderField α :=
  ⟨name, fun h => .mac (get h), fun v => set (Mac.ofBytes v.toBytes)⟩

/-- An IPv4 address. -/
def ipv4 (name : String) (get : α → Ipv4Address) (set : Ipv4Address → α → α) : HeaderField α :=
  ⟨name, fun h => .octets (get h).bytes, fun v => set (Ipv4Address.ofBytes v.toBytes)⟩

/-- A byte string of a fixed length. -/
def octets (n : Nat) (name : String) (get : α → Octets n) (set : Octets n → α → α) :
    HeaderField α :=
  ⟨name, fun h => .octets (get h).bytes, fun v => set (Octets.ofBytes n v.toBytes)⟩

end HeaderField

/-- A header whose fields are known by name. -/
class HasFields (α : Type) where
  fields : List (HeaderField α)

open HeaderField

instance : HasFields EthernetHeader where
  fields := [
    mac "target" (·.target) fun v h => { h with target := v },
    mac "source" (·.source) fun v h => { h with source := v },
    word16 "etherType" (·.etherType) fun v h => { h with etherType := v }]

instance : HasFields ArpPacket where
  fields := [
    word16 "hardwareType" (·.hardwareType) fun v h => { h with hardwareType := v },
    word16 "protocolType" (·.protocolType) fun v h => { h with protocolType := v },
    word8 "hardwareLength" (·.hardwareLength) fun v h => { h with hardwareLength := v },
    word8 "protocolLength" (·.protocolLength) fun v h => { h with protocolLength := v },
    word16 "opcode" (·.opcode) fun v h => { h with opcode := v },
    mac "senderMac" (·.senderMac) fun v h => { h with senderMac := v },
    ipv4 "senderIp" (·.senderIp) fun v h => { h with senderIp := v },
    mac "targetMac" (·.targetMac) fun v h => { h with targetMac := v },
    ipv4 "targetIp" (·.targetIp) fun v h => { h with targetIp := v }]

instance : HasFields Ipv4Header where
  fields := [
    word8 "versionLength" (·.versionLength) fun v h => { h with versionLength := v },
    word8 "service" (·.service) fun v h => { h with service := v },
    word16 "totalLength" (·.totalLength) fun v h => { h with totalLength := v },
    word16 "identification" (·.identification) fun v h => { h with identification := v },
    word16 "fragment" (·.fragment) fun v h => { h with fragment := v },
    word8 "timeToLive" (·.timeToLive) fun v h => { h with timeToLive := v },
    word8 "protocol" (·.protocol) fun v h => { h with protocol := v },
    word16 "checksum" (·.checksum) fun v h => { h with checksum := v },
    ipv4 "source" (·.source) fun v h => { h with source := v },
    ipv4 "target" (·.target) fun v h => { h with target := v }]

instance : HasFields UdpHeader where
  fields := [
    word16 "sourcePort" (·.sourcePort) fun v h => { h with sourcePort := v },
    word16 "targetPort" (·.targetPort) fun v h => { h with targetPort := v },
    word16 "length" (·.length) fun v h => { h with length := v },
    word16 "checksum" (·.checksum) fun v h => { h with checksum := v }]

instance : HasFields PacketHeader where
  fields := [
    octets 64 "moduleName" (·.moduleName) fun v h => { h with moduleName := v },
    octets 32 "contentHash" (·.contentHash) fun v h => { h with contentHash := v },
    word32 "kind" (·.kind) fun v h => { h with kind := v }]

instance : HasFields FragmentHeader where
  fields := [
    word32 "contentSize" (·.contentSize) fun v h => { h with contentSize := v },
    word32 "offset" (·.offset) fun v h => { h with offset := v },
    word16 "payloadSize" (·.payloadSize) fun v h => { h with payloadSize := v }]

end RomCast
