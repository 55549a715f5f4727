import Mathlib.Logic.Function.Iterate
import RomCast.Proofs.Bytes.Overwrite
import RomCast.Proofs.Checked.Checksum

set_option autoImplicit false

/-!
# The arithmetic of checksums

What a checksum comes to as a number, for every byte string that a 16-bit length can describe
(`checksum_arithmetic`): no addition on the way overflows 32 bits, adding the carries back in ends
after two rounds at the latest, and the outcome is the sum of the words in one's complement.  So a
checksum that is taken with zeros in its place and then put there is found right.
-/

namespace RomCast.Checksum

/-! ## Rounds of carrying -/

/-- One round of adding the carries back in. -/
def carried (sum : UInt32) : UInt32 := (sum &&& (0xffff : UInt32)) + (sum >>> (16 : UInt32))

theorem toNat_carried (sum : UInt32) :
    (carried sum).toNat = sum.toNat % 65536 + sum.toNat / 65536 := by
  have hlt : sum.toNat < 4294967296 := sum.toNat_lt
  rw [carried, UInt32.toNat_add, toNat_high, toNat_low, Nat.mod_eq_of_lt (by omega)]

theorem high_eq_zero_iff (sum : UInt32) : sum >>> (16 : UInt32) = 0 ↔ sum.toNat < 65536 := by
  rw [← UInt32.toNat_inj, toNat_high, UInt32.toNat_zero]
  omega

/-- The carries are added back in for as many rounds as there are any, and what is left is the
result. -/
structure EndsAfter (sum : UInt32) (rounds : Nat) : Prop where
  carries : ∀ i < rounds, carried^[i] sum >>> (16 : UInt32) ≠ 0
  ends : carried^[rounds] sum >>> (16 : UInt32) = 0
  result : foldCarries sum = (carried^[rounds] sum).toUInt16

theorem endsAfter_zero {sum : UInt32} (h : sum >>> (16 : UInt32) = 0) : EndsAfter sum 0 := by
  refine ⟨nofun, h, ?_⟩
  rw [foldCarries, if_pos h]
  rfl

theorem EndsAfter.succ {sum : UInt32} {rounds : Nat} (hsome : sum >>> (16 : UInt32) ≠ 0)
    (h : EndsAfter (carried sum) rounds) : EndsAfter sum (rounds + 1) := by
  refine ⟨?_, h.ends, ?_⟩
  · intro i hi
    cases i with
    | zero => exact hsome
    | succ i => exact h.carries i (Nat.lt_of_succ_lt_succ hi)
  · rw [foldCarries, if_neg hsome]
    exact h.result

/-- The second round leaves no carry: after the first one there is at most one. -/
theorem exists_endsAfter (sum : UInt32) : ∃ rounds ≤ 2, EndsAfter sum rounds := by
  have hlt : sum.toNat < 4294967296 := sum.toNat_lt
  have hfirst := toNat_carried sum
  have hsecond := toNat_carried (carried sum)
  by_cases hsum : sum >>> (16 : UInt32) = 0
  · exact ⟨0, by omega, endsAfter_zero hsum⟩
  by_cases honce : carried sum >>> (16 : UInt32) = 0
  · exact ⟨1, by omega, (endsAfter_zero honce).succ hsum⟩
  have htwice : carried (carried sum) >>> (16 : UInt32) = 0 := by
    rw [high_eq_zero_iff] at honce ⊢
    omega
  exact ⟨2, by omega, ((endsAfter_zero htwice).succ honce).succ hsum⟩

/-! ## The value of a checksum -/

/-- The checksum is the complement of the sum in one's complement; of the two zeros it takes
`0xffff` for no words or words of zeros, and zero for all other sums that the modulus divides. -/
theorem toNat_internet {b : Bytes} (h : b.length ≤ 65535) :
    (internet b).toNat =
      if wordSum b = 0 then 0xffff else 0xffff - ((wordSum b - 1) % 65535 + 1) := by
  have hsum := wordSum_le b
  rw [internet, toNat_not, toNat_foldCarries, toNat_sumWords_zero (by omega), folded]
  split <;> rfl

/-! ## Putting a checksum in its place -/

/-- The byte string with a word at a position. -/
def placed (b : Bytes) (position : Nat) (word : UInt16) : Bytes :=
  b.overwrite position (Bytes.ofWord16 word)

/-- A word lies between the bytes in front of it and the bytes behind it. -/
theorem placed_eq {b : Bytes} {position : Nat} (h : position + 2 ≤ b.length) :
    ∃ front back, front.length = position ∧ front.length + back.length + 2 = b.length ∧
      ∀ word, placed b position word = front ++ (Bytes.ofWord16 word ++ back) := by
  obtain ⟨front, rest, rfl, hfront⟩ := Bytes.exists_split (n := position) (b := b) (by omega)
  rw [List.length_append] at h
  obtain ⟨old, back, rfl, hold⟩ := Bytes.exists_split (n := 2) (b := rest) (by omega)
  refine ⟨front, back, hfront, ?_, ?_⟩
  · simp only [List.length_append, hold]
    omega
  · intro word
    rw [placed, ← hfront]
    exact Bytes.overwrite_middle front old back _ (by rw [Bytes.length_ofWord16, hold])

/-- A header's checksum makes the header right. -/
theorem internet_placed {header : Bytes} {position : Nat} (hlength : header.length ≤ 65535)
    (heven : position % 2 = 0) (hfits : position + 2 ≤ header.length) :
    internet (placed header position (internet (placed header position 0))) = 0 := by
  obtain ⟨front, back, hfront, hall, hplaced⟩ := placed_eq hfits
  rw [hplaced, hplaced]
  exact internet_of_placed front back (hfront ▸ heven) (by omega)

/-- A computed zero is replaced. -/
theorem udp_ne_zero (source target : Ipv4Address) (segment : Bytes) :
    udp source target segment ≠ 0 := by
  unfold udp
  by_cases hzero : pseudoHeader source target segment = 0
  · rw [if_pos hzero]
    decide
  · rw [if_neg hzero]
    exact hzero

/-- A segment's checksum makes the segment right. -/
theorem udpValid_placed (source target : Ipv4Address) {segment : Bytes}
    (hshort : 8 ≤ segment.length) (hlength : segment.length ≤ 65535) :
    udpValid source target (placed segment 6 (udp source target (placed segment 6 0))) = true := by
  have hfits : 6 + 2 ≤ segment.length := hshort
  obtain ⟨front, back, hfront, hall, hplaced⟩ := placed_eq hfits
  have hright : pseudoHeader source target
      (placed segment 6 (udp source target (placed segment 6 0))) = 0 := by
    rw [hplaced, hplaced]
    exact pseudoHeader_of_placed source target front back (by omega) (by omega)
  unfold udpValid
  rw [hright]
  split <;> rfl

/-- For byte strings of at most 65535 bytes.  The words are added up without overflow, also on top
of a pseudo-header; carrying ends after two rounds at the latest; and the checksum is `0xffff` when
the sum of the words is zero, and else the complement of the sum's remainder modulo 65535, a number
from 1 to 65535.  So the checksum that was computed with zeros in its place makes a header right,
and the UDP checksum, which is never zero, a segment. -/
theorem checksum_arithmetic :
    (∀ b : Bytes, b.length ≤ 65535 →
      Checked.sumWords 0 b = .ok (sumWords 0 b) ∧ (sumWords 0 b).toNat = wordSum b ∧
      (∀ source target : Ipv4Address,
        Checked.pseudoHeader source target b = .ok (pseudoHeader source target b)) ∧
      Checked.internet b = .ok (internet b) ∧
      (internet b).toNat =
        if wordSum b = 0 then 0xffff else 0xffff - ((wordSum b - 1) % 65535 + 1)) ∧
    (∀ sum, ∃ rounds ≤ 2, EndsAfter sum rounds) ∧
    (∀ (header : Bytes) (position : Nat), header.length ≤ 65535 → position % 2 = 0 →
      position + 2 ≤ header.length →
        internet (placed header position (internet (placed header position 0))) = 0) ∧
    (∀ (source target : Ipv4Address) (segment : Bytes), 8 ≤ segment.length →
      segment.length ≤ 65535 →
        udp source target (placed segment 6 0) ≠ 0 ∧
        udpValid source target
          (placed segment 6 (udp source target (placed segment 6 0))) = true) := by
  refine ⟨?_, exists_endsAfter, ?_, ?_⟩
  · intro b hb
    have hsum := wordSum_le b
    have hbound : wordSum b < 4294967296 := by omega
    have hadded := Checked.sumWords_eq b 0 (by rwa [UInt32.toNat_zero, Nat.zero_add])
    exact ⟨hadded, toNat_sumWords_zero hbound,
      fun source target => Checked.pseudoHeader_eq source target hb, Checked.internet_eq hb,
      toNat_internet hb⟩
  · intro header position hlength heven hfits
    exact internet_placed hlength heven hfits
  · intro source target segment hshort hlength
    exact ⟨udp_ne_zero source target _, udpValid_placed source target hshort hlength⟩

/-- A well-known sample header, without its checksum. -/
def sampleHeader : Bytes :=
  [0x45, 0x00, 0x00, 0x73, 0x00, 0x00, 0x40, 0x00, 0x40, 0x11, 0x00, 0x00, 0xc0, 0xa8, 0x00, 0x01,
    0xc0, 0xa8, 0x00, 0xc7]

/-- The checksum of the sample header, and the sample header with its checksum. -/
theorem sampleHeader_checksums :
    placed sampleHeader 10 0 = sampleHeader ∧ internet sampleHeader = 0xb861 ∧
      internet (placed sampleHeader 10 0xb861) = 0 := by
  have hzeroed : placed sampleHeader 10 0 = sampleHeader := by decide
  have hsum : wordSum sampleHeader = 0x2479c := by decide
  obtain ⟨hvalues, -, hheaders, -⟩ := checksum_arithmetic
  obtain ⟨-, -, -, -, hvalue⟩ := hvalues sampleHeader (by decide)
  have hplaced := hheaders sampleHeader 10 (by decide) (by decide) (by decide)
  have hchecksum : internet sampleHeader = 0xb861 := by
    rw [← UInt16.toNat_inj, hvalue, hsum]
    decide
  rw [hzeroed, hchecksum] at hplaced
  exact ⟨hzeroed, hchecksum, hplaced⟩

end RomCast.Checksum
