import RomCast.Proofs.Checked.Step
import RomCast.Proofs.Checksum

set_option autoImplicit false

/-!
# Checked checksums

A checksum is summed up in 32 bits.  A sum of 65535 words cannot overflow, and no segment has as
many: its length is a number of 16 bits.
-/

namespace RomCast.Checksum.Checked

open RomCast.Checked

/-- The sum of the words of a byte string, on top of `sum`. -/
def sumWords (sum : UInt32) : Bytes → Except Fault UInt32
  | high :: low :: rest => do
      sumWords (← add32 sum (high.toUInt32 <<< 8 ||| low.toUInt32)) rest
  | [last] => add32 sum (last.toUInt32 <<< 8)
  | [] => .ok sum

/-- Add the carries above 16 bits back in, until none is left. -/
def foldCarries (sum : UInt32) : Except Fault UInt16 :=
  if sum >>> (16 : UInt32) = 0 then .ok sum.toUInt16
  else do
    let _ ← add32 (sum &&& (0xffff : UInt32)) (sum >>> (16 : UInt32))
    foldCarries ((sum &&& (0xffff : UInt32)) + (sum >>> (16 : UInt32)))
termination_by sum.toNat
decreasing_by exact toNat_carried_lt ‹_›

/-- The checksum of a byte string. -/
def internet (bytes : Bytes) : Except Fault UInt16 := do
  return ~~~(← foldCarries (← sumWords 0 bytes))

/-- The sum over the pseudo-header and a UDP segment, complemented. -/
def pseudoHeader (source target : Ipv4Address) (segment : Bytes) : Except Fault UInt16 := do
  let sum ← sumWords (← sumWords 0 source.bytes) target.bytes
  let sum ← add32 sum udpProtocol.toUInt32
  let sum ← add32 sum (UInt32.ofNat segment.length)
  return ~~~(← foldCarries (← sumWords sum segment))

/-- The checksum of a UDP segment; never zero. -/
def udp (source target : Ipv4Address) (segment : Bytes) : Except Fault UInt16 := do
  let sum ← pseudoHeader source target segment
  return if sum = 0 then 0xffff else sum

/-- Whether a UDP segment carries no checksum or a correct one. -/
def udpValid (source target : Ipv4Address) (segment : Bytes) : Except Fault Bool :=
  if segment.length < 8 then .ok true
  else do
    let field ← slice segment 6 8
    if field = [0, 0] then return true
    else return (← pseudoHeader source target segment) = 0

/-! ## Nothing overflows -/

theorem sumWords_eq (b : Bytes) (sum : UInt32) (h : sum.toNat + wordSum b < 2 ^ 32) :
    sumWords sum b = .ok (Checksum.sumWords sum b) := by
  induction b using wordSum.induct generalizing sum with
  | case1 high low rest ih =>
    rw [wordSum] at h
    have hlt : sum.toNat + (high.toNat * 256 + low.toNat) < 2 ^ 32 :=
      Nat.lt_of_le_of_lt (Nat.add_le_add_left (Nat.le_add_right ..) _) h
    have hadd : add32 sum (high.toUInt32 <<< 8 ||| low.toUInt32) =
        .ok (sum + (high.toUInt32 <<< 8 ||| low.toUInt32)) :=
      add32_eq (by simpa only [toNat_or_word] using hlt)
    have hrest : (sum + (high.toUInt32 <<< 8 ||| low.toUInt32)).toNat + wordSum rest < 2 ^ 32 := by
      simpa only [UInt32.toNat_add, toNat_or_word, Nat.mod_eq_of_lt hlt, Nat.add_assoc] using h
    rw [sumWords, hadd]
    exact ih _ hrest
  | case2 last =>
    rw [wordSum] at h
    have hword := toNat_or_word last 0
    have hlast : (last.toUInt32 <<< 8).toNat = last.toNat * 256 := by simpa using hword
    exact add32_eq (by rw [hlast]; omega)
  | case3 => rfl

theorem foldCarries_eq (sum : UInt32) : foldCarries sum = .ok (Checksum.foldCarries sum) := by
  induction sum using Checksum.foldCarries.induct with
  | case1 sum h => rw [foldCarries, Checksum.foldCarries, if_pos h, if_pos h]
  | case2 sum h ih =>
    have hlt : sum.toNat < 4294967296 := sum.toNat_lt
    have hadd : add32 (sum &&& (0xffff : UInt32)) (sum >>> (16 : UInt32)) =
        .ok ((sum &&& (0xffff : UInt32)) + (sum >>> (16 : UInt32))) := by
      refine add32_eq ?_
      rw [toNat_low, toNat_high]
      omega
    rw [foldCarries, Checksum.foldCarries, if_neg h, if_neg h, hadd, ← ih]
    rfl

theorem internet_eq {b : Bytes} (h : b.length ≤ 65535) :
    internet b = .ok (Checksum.internet b) := by
  have hsum := wordSum_le b
  have hwords := sumWords_eq b 0 (by rw [UInt32.toNat_zero]; omega)
  simp only [internet, hwords, ok_bind, foldCarries_eq]
  rfl

variable (source target : Ipv4Address) {segment : Bytes}

theorem pseudoHeader_eq (h : segment.length ≤ 65535) :
    pseudoHeader source target segment = .ok (Checksum.pseudoHeader source target segment) := by
  have hsource := wordSum_address_le source
  have htarget := wordSum_address_le target
  have hsegment := wordSum_le segment
  have haddresses := toNat_addressSum_add_protocol source target
  have hpseudo := toNat_pseudoSum source target h
  have hfirst := toNat_sumWords_zero (b := source.bytes) (by omega)
  have hlength : (UInt32.ofNat segment.length).toNat = segment.length := by
    rw [UInt32.toNat_ofNat']
    omega
  have hprotocol : udpProtocol.toUInt32.toNat = 17 := rfl
  -- Every partial sum is small enough for the next number to be added.
  have hsum₁ := sumWords_eq source.bytes 0 (by rw [UInt32.toNat_zero]; omega)
  have hsum₂ : sumWords (Checksum.sumWords 0 source.bytes) target.bytes =
      .ok (addressSum source target) := sumWords_eq _ _ (by omega)
  have hsum₃ : add32 (addressSum source target) udpProtocol.toUInt32 =
      .ok (addressSum source target + udpProtocol.toUInt32) :=
    add32_eq (by rw [toNat_addressSum, hprotocol]; omega)
  have hsum₄ : add32 (addressSum source target + udpProtocol.toUInt32)
      (UInt32.ofNat segment.length) = .ok (addressSum source target + udpProtocol.toUInt32 +
        UInt32.ofNat segment.length) := add32_eq (by omega)
  have hsum₅ := sumWords_eq segment (addressSum source target + udpProtocol.toUInt32 +
    UInt32.ofNat segment.length) (by rw [hpseudo, pseudoSum]; omega)
  simp only [pseudoHeader, hsum₁, hsum₂, hsum₃, hsum₄, hsum₅, ok_bind, foldCarries_eq]
  rfl

theorem udp_eq (h : segment.length ≤ 65535) :
    udp source target segment = .ok (Checksum.udp source target segment) := by
  rw [udp, pseudoHeader_eq source target h]
  rfl

/-- The field that holds the checksum. -/
theorem slice_six (h : 8 ≤ segment.length) :
    segment.slice 6 8 = [segment.byteAt 6, segment.byteAt 7] := by
  have hsix : segment[6]? = some segment[6] := List.getElem?_eq_getElem (by omega)
  have hseven : segment[7]? = some segment[7] := List.getElem?_eq_getElem (by omega)
  rw [Bytes.slice, List.drop_eq_getElem_cons (by omega), List.drop_eq_getElem_cons (by omega),
    Bytes.byteAt, Bytes.byteAt, hsix, hseven]
  rfl

theorem udpValid_eq (h : segment.length ≤ 65535) :
    udpValid source target segment = .ok (Checksum.udpValid source target segment) := by
  rw [udpValid, Checksum.udpValid]
  by_cases hshort : segment.length < 8
  · simp [hshort]
  · have hlong : 8 ≤ segment.length := Nat.not_lt.mp hshort
    have hslice : slice segment 6 8 = .ok (segment.slice 6 8) := slice_eq (by omega) hlong
    rw [if_neg hshort, hslice, pseudoHeader_eq source target h, slice_six hlong]
    simp only [ok_bind]
    by_cases hzero : segment.byteAt 6 = 0 ∧ segment.byteAt 7 = 0
    · simp [hzero, pure, Except.pure]
    · simp [hshort, hzero, pure, Except.pure]

end RomCast.Checksum.Checked
