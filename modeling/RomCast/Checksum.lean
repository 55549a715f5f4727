import RomCast.Address

set_option autoImplicit false

/-!
# Checksums

The internet checksum: the one's complement of the one's complement sum of a byte string read as
16-bit words, the highest byte first, an odd last byte counting as a word with a zero low byte.
IPv4 takes it over the header; UDP over a pseudo-header, the UDP header and the payload, with zero
standing for "no checksum" and a computed zero sent as `0xffff`.
-/

namespace RomCast.Checksum

/-- The protocol number of UDP. -/
def udpProtocol : UInt8 := 17

/-- The sum of the words of a byte string, on top of `sum`. -/
def sumWords (sum : UInt32) : Bytes → UInt32
  | high :: low :: rest => sumWords (sum + (high.toUInt32 <<< 8 ||| low.toUInt32)) rest
  | [last] => sum + last.toUInt32 <<< 8
  | [] => sum

theorem toNat_high (sum : UInt32) : (sum >>> (16 : UInt32)).toNat = sum.toNat / 65536 := by
  rw [UInt32.toNat_shiftRight]
  exact Nat.shiftRight_eq_div_pow sum.toNat 16

theorem toNat_low (sum : UInt32) : (sum &&& (0xffff : UInt32)).toNat = sum.toNat % 65536 := by
  rw [UInt32.toNat_and]
  exact Nat.and_two_pow_sub_one_eq_mod sum.toNat 16

/-- Adding carries back in makes a sum smaller. -/
theorem toNat_carried_lt {sum : UInt32} (h : sum >>> (16 : UInt32) ≠ 0) :
    ((sum &&& (0xffff : UInt32)) + (sum >>> (16 : UInt32))).toNat < sum.toNat := by
  have hlt : sum.toNat < 4294967296 := sum.toNat_lt
  have hsome : sum.toNat / 65536 ≠ 0 := fun h0 =>
    h (UInt32.toNat_inj.mp (by rw [toNat_high, h0]; rfl))
  rw [UInt32.toNat_add, toNat_high, toNat_low, Nat.mod_eq_of_lt (by omega)]
  omega

/-- Add the carries above 16 bits back in, until none is left. -/
def foldCarries (sum : UInt32) : UInt16 :=
  if sum >>> (16 : UInt32) = 0 then sum.toUInt16
  else foldCarries ((sum &&& (0xffff : UInt32)) + (sum >>> (16 : UInt32)))
termination_by sum.toNat
decreasing_by exact toNat_carried_lt ‹_›

/-- The checksum of a byte string. -/
def internet (bytes : Bytes) : UInt16 := ~~~(foldCarries (sumWords 0 bytes))

/-- The sum over the pseudo-header and a UDP segment, complemented. -/
def pseudoHeader (source target : Ipv4Address) (segment : Bytes) : UInt16 :=
  let sum := sumWords (sumWords 0 source.bytes) target.bytes
  let sum := sum + udpProtocol.toUInt32 + UInt32.ofNat segment.length
  ~~~(foldCarries (sumWords sum segment))

/-- The checksum of a UDP segment; never zero. -/
def udp (source target : Ipv4Address) (segment : Bytes) : UInt16 :=
  let sum := pseudoHeader source target segment
  if sum = 0 then 0xffff else sum

/-- Whether a UDP segment carries no checksum or a correct one. -/
def udpValid (source target : Ipv4Address) (segment : Bytes) : Bool :=
  if segment.length < 8 || (segment.byteAt 6 = 0 && segment.byteAt 7 = 0) then true
  else pseudoHeader source target segment = 0

end RomCast.Checksum
