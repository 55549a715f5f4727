import RomCast.Header
import RomCast.Proofs.Bytes.Words

set_option autoImplicit false

/-!
# Headers are read back as they were written

Every header takes exactly the bytes that it says it takes, and is found again at the front of any
byte string that begins with them.
-/

namespace RomCast

/-- A layout that loses nothing. -/
class LawfulHeader (α : Type) [Header α] : Prop where
  length_encode : ∀ h : α, (Header.encode h).length = Header.size α
  decode_encode_append : ∀ (h : α) (rest : Bytes), Header.decode (Header.encode h ++ rest) = h

@[simp] theorem Mac.length_bytes (m : Mac) : m.bytes.length = 6 := m.octets.length_eq

@[simp] theorem Ipv4Address.length_bytes (a : Ipv4Address) : a.bytes.length = 4 :=
  a.octets.length_eq

theorem Mac.ofBytes_append (m : Mac) (rest : Bytes) : Mac.ofBytes (m.bytes ++ rest) = m := by
  rw [Mac.ofBytes, Mac.bytes, Octets.ofBytes_append]

theorem Ipv4Address.ofBytes_append (a : Ipv4Address) (rest : Bytes) :
    Ipv4Address.ofBytes (a.bytes ++ rest) = a := by
  rw [Ipv4Address.ofBytes, Ipv4Address.bytes, Octets.ofBytes_append]

attribute [local simp] Header.decode Header.encode Header.size Mac.ofBytes_append
  Ipv4Address.ofBytes_append Octets.ofBytes_append Bytes.word16_append_right
  Bytes.word16_ofWord16_append Bytes.word32_append_right Bytes.word32_ofWord32_append
  Bytes.word16_cons_succ Bytes.byteAt_append_right Bytes.byteAt_cons_succ
  Bytes.drop_append_right

instance : LawfulHeader EthernetHeader where
  length_encode h := by simp
  decode_encode_append h rest := by simp

instance : LawfulHeader ArpPacket where
  length_encode h := by simp
  decode_encode_append h rest := by simp

instance : LawfulHeader Ipv4Header where
  length_encode h := by simp
  decode_encode_append h rest := by simp

instance : LawfulHeader UdpHeader where
  length_encode h := by simp
  decode_encode_append h rest := by simp

instance : LawfulHeader PacketHeader where
  length_encode h := by simp
  decode_encode_append h rest := by simp

instance : LawfulHeader FragmentHeader where
  length_encode h := by simp
  decode_encode_append h rest := by simp

end RomCast
