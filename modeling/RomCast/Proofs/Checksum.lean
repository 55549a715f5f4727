import RomCast.Checksum
import RomCast.Proofs.Bytes.Words

set_option autoImplicit false

/-!
# Checksums that are put in place are found right

Sums of words are taken in 32 bits without overflow, since no frame is long enough for one.  Adding
the carries back in is reduction modulo `0xffff` to a number from 1 to `0xffff`
(`toNat_foldCarries`), so the complement of a sum, added to the sum, gives `0xffff`, and its
complement is zero.

A sum is right when it folds to `0xffff`, that is, when the modulus `0xffff` divides it
(`folded_eq_max_iff`).  Another word in the place of one of its words leaves it right only if both
words have the same remainder, and these are `0x0000` and `0xffff` and no others
(`wordSum_mod_eq_iff`).
-/

namespace RomCast.Checksum

/-! ## Sums of words -/

/-- The sum of the words of a byte string. -/
def wordSum : Bytes → Nat
  | high :: low :: rest => high.toNat * 256 + low.toNat + wordSum rest
  | [last] => last.toNat * 256
  | [] => 0

theorem wordSum_le (b : Bytes) : 2 * wordSum b ≤ 65535 * (b.length + 1) := by
  induction b using wordSum.induct with
  | case1 high low rest ih =>
    have hhigh : high.toNat < 256 := high.toNat_lt
    have hlow : low.toNat < 256 := low.toNat_lt
    simp only [wordSum, List.length_cons]
    omega
  | case2 last =>
    have hlast : last.toNat < 256 := last.toNat_lt
    simp only [wordSum, List.length_cons, List.length_nil]
    omega
  | case3 => simp [wordSum]

theorem wordSum_append (x y : Bytes) (h : x.length % 2 = 0) :
    wordSum (x ++ y) = wordSum x + wordSum y := by
  induction x using wordSum.induct with
  | case1 high low rest ih =>
    have hrest : rest.length % 2 = 0 := by
      simp only [List.length_cons] at h
      omega
    simp only [List.cons_append, wordSum, ih hrest]
    omega
  | case2 last => simp at h
  | case3 => simp [wordSum]

theorem wordSum_ofWord16 (w : UInt16) : wordSum (Bytes.ofWord16 w) = w.toNat := by
  have hw : w.toNat < 65536 := w.toNat_lt
  simp only [Bytes.ofWord16, wordSum, UInt16.toNat_toUInt8, UInt16.toNat_shiftRight]
  show w.toNat >>> 8 % 256 * 256 + w.toNat % 256 + 0 = w.toNat
  rw [Nat.shiftRight_eq_div_pow]
  omega

theorem toNat_or_word (high low : UInt8) :
    (high.toUInt32 <<< 8 ||| low.toUInt32).toNat = high.toNat * 256 + low.toNat := by
  rw [UInt32.toNat_or, UInt32.toNat_shiftLeft, UInt8.toNat_toUInt32, UInt8.toNat_toUInt32]
  exact Bytes.shiftLeft_or high low (by decide)

/-- Within 32 bits the sum is the sum of the words. -/
theorem toNat_sumWords (b : Bytes) (sum : UInt32) (h : sum.toNat + wordSum b < 4294967296) :
    (sumWords sum b).toNat = sum.toNat + wordSum b := by
  induction b using wordSum.induct generalizing sum with
  | case1 high low rest ih =>
    have hhigh : high.toNat < 256 := high.toNat_lt
    have hlow : low.toNat < 256 := low.toNat_lt
    rw [wordSum] at h
    have hlt : sum.toNat + (high.toNat * 256 + low.toNat) < 4294967296 :=
      Nat.lt_of_le_of_lt (Nat.add_le_add_left (Nat.le_add_right ..) _) h
    have hstep : (sum + (high.toUInt32 <<< 8 ||| low.toUInt32)).toNat =
        sum.toNat + (high.toNat * 256 + low.toNat) := by
      rw [UInt32.toNat_add, toNat_or_word, Nat.mod_eq_of_lt hlt]
    rw [sumWords, ih _ (by rw [hstep]; omega), hstep, wordSum]
    omega
  | case2 last =>
    have hlast : last.toNat < 256 := last.toNat_lt
    rw [wordSum] at h
    have hstep : (last.toUInt32 <<< 8).toNat = last.toNat * 256 := by
      have hor := toNat_or_word last 0
      simpa using hor
    have hlt : sum.toNat + last.toNat * 256 < 4294967296 := h
    rw [sumWords, UInt32.toNat_add, hstep, Nat.mod_eq_of_lt hlt]
    rfl
  | case3 => simp [sumWords, wordSum]

/-! ## Carries -/

/-- A sum with its carries added back in: its remainder modulo `0xffff`, as a number from 1 to
`0xffff` unless the sum is zero. -/
def folded (sum : Nat) : Nat := if sum = 0 then 0 else (sum - 1) % 65535 + 1

theorem folded_le (sum : Nat) : folded sum ≤ 65535 := by
  unfold folded
  split
  · omega
  · have hmod : (sum - 1) % 65535 < 65535 := Nat.mod_lt _ (by omega)
    omega

theorem toNat_foldCarries (sum : UInt32) : (foldCarries sum).toNat = folded sum.toNat := by
  induction sum using foldCarries.induct with
  | case1 sum h =>
    have hsmall : sum.toNat / 65536 = 0 := by
      rw [← toNat_high, h]
      rfl
    have hlt : sum.toNat < 65536 := by omega
    rw [foldCarries, if_pos h, UInt32.toNat_toUInt16]
    unfold folded
    split
    · omega
    · omega
  | case2 sum h ih =>
    have hlt : sum.toNat < 4294967296 := sum.toNat_lt
    have hsome : sum.toNat / 65536 ≠ 0 := by
      intro h0
      exact h (UInt32.toNat_inj.mp (by rw [toNat_high, h0]; rfl))
    have hnext : ((sum &&& (0xffff : UInt32)) + (sum >>> (16 : UInt32))).toNat =
        sum.toNat % 65536 + sum.toNat / 65536 := by
      rw [UInt32.toNat_add, toNat_high, toNat_low, Nat.mod_eq_of_lt (by omega)]
    rw [foldCarries, if_neg h, ih, hnext]
    unfold folded
    rw [if_neg (by omega), if_neg (by omega)]
    omega

theorem toNat_not (w : UInt16) : (~~~w).toNat = 65535 - w.toNat := by
  have hw : w.toNat < 65536 := w.toNat_lt
  simp

/-- A sum and the complement of what it folds to. -/
theorem folded_add_complement (sum : Nat) : folded (sum + (65535 - folded sum)) = 65535 := by
  unfold folded
  by_cases hzero : sum = 0
  · simp [hzero]
  · have hmod : (sum - 1) % 65535 < 65535 := Nat.mod_lt _ (by omega)
    rw [if_neg hzero, if_neg (by omega)]
    omega

theorem folded_add_max (sum : Nat) (h : folded sum = 65535) : folded (sum + 65535) = 65535 := by
  unfold folded at h ⊢
  split at h
  · omega
  · rw [if_neg (by omega)]
    omega

/-- A complement is zero exactly for the sums that fold to `0xffff`. -/
theorem not_foldCarries_eq_zero {sum : UInt32} (h : folded sum.toNat = 65535) :
    ~~~(foldCarries sum) = 0 := by
  apply UInt16.toNat_inj.mp
  rw [toNat_not, toNat_foldCarries, h]
  rfl

/-! ## A checksum in its place -/

/-- The checksum of a byte string with zeros in the checksum's place makes the byte string right. -/
theorem internet_of_placed (front back : Bytes) (heven : front.length % 2 = 0)
    (hlength : front.length + back.length ≤ 65535) :
    internet (front ++ (Bytes.ofWord16
      (internet (front ++ (Bytes.ofWord16 0 ++ back))) ++ back)) = 0 := by
  have hwords : ∀ w : UInt16, wordSum (front ++ (Bytes.ofWord16 w ++ back)) =
      wordSum front + wordSum back + w.toNat := by
    intro w
    rw [wordSum_append _ _ heven, wordSum_append _ _ (by simp), wordSum_ofWord16]
    omega
  have hfront := wordSum_le front
  have hback := wordSum_le back
  have hsum : ∀ w : UInt16, (sumWords 0 (front ++ (Bytes.ofWord16 w ++ back))).toNat =
      wordSum front + wordSum back + w.toNat := by
    intro w
    have hw : w.toNat < 65536 := w.toNat_lt
    rw [toNat_sumWords _ _ (by rw [hwords]; simp only [UInt32.toNat_zero]; omega), hwords]
    simp
  refine not_foldCarries_eq_zero ?_
  rw [hsum, internet, toNat_not, toNat_foldCarries, hsum]
  exact folded_add_complement _

/-- What the pseudo-header adds to a segment's sum. -/
def pseudoSum (source target : Ipv4Address) (length : Nat) : Nat :=
  wordSum source.bytes + wordSum target.bytes + 17 + length

/-- What the addresses of a pseudo-header sum up to. -/
def addressSum (source target : Ipv4Address) : UInt32 :=
  sumWords (sumWords 0 source.bytes) target.bytes

theorem wordSum_address_le (a : Ipv4Address) : wordSum a.bytes ≤ 163837 := by
  have hsum := wordSum_le a.bytes
  have hlength : a.bytes.length = 4 := a.octets.length_eq
  omega

theorem toNat_sumWords_zero {b : Bytes} (h : wordSum b < 4294967296) :
    (sumWords 0 b).toNat = wordSum b := by
  rw [toNat_sumWords b 0 (by rwa [UInt32.toNat_zero, Nat.zero_add]), UInt32.toNat_zero,
    Nat.zero_add]

theorem toNat_addressSum (source target : Ipv4Address) :
    (addressSum source target).toNat = wordSum source.bytes + wordSum target.bytes := by
  have hsource := wordSum_address_le source
  have htarget := wordSum_address_le target
  have hfirst := toNat_sumWords_zero (b := source.bytes) (by omega)
  rw [addressSum, toNat_sumWords _ _ (by omega), hfirst]

theorem toNat_addressSum_add_protocol (source target : Ipv4Address) :
    (addressSum source target + udpProtocol.toUInt32).toNat =
      wordSum source.bytes + wordSum target.bytes + 17 := by
  have hsource := wordSum_address_le source
  have htarget := wordSum_address_le target
  have hprotocol : udpProtocol.toUInt32.toNat = 17 := rfl
  rw [UInt32.toNat_add, toNat_addressSum, hprotocol]
  omega

theorem toNat_pseudoSum (source target : Ipv4Address) {length : Nat} (h : length ≤ 65535) :
    (addressSum source target + udpProtocol.toUInt32 + UInt32.ofNat length).toNat =
      pseudoSum source target length := by
  have hsource := wordSum_address_le source
  have htarget := wordSum_address_le target
  rw [UInt32.toNat_add, toNat_addressSum_add_protocol, UInt32.toNat_ofNat', pseudoSum]
  omega

/-- The sum that a UDP checksum is the complement of. -/
theorem pseudoHeader_eq (source target : Ipv4Address) (segment : Bytes)
    (h : segment.length ≤ 65535) :
    ∃ sum : UInt32, pseudoHeader source target segment = ~~~(foldCarries sum) ∧
      sum.toNat = pseudoSum source target segment.length + wordSum segment := by
  have hsource := wordSum_address_le source
  have htarget := wordSum_address_le target
  have hsegment := wordSum_le segment
  have hpseudo := toNat_pseudoSum source target h
  refine ⟨sumWords (addressSum source target + udpProtocol.toUInt32 +
    UInt32.ofNat segment.length) segment, rfl, ?_⟩
  rw [toNat_sumWords _ _ (by rw [hpseudo, pseudoSum]; omega), hpseudo]

/-- The UDP checksum of a segment with zeros in the checksum's place makes the segment right. -/
theorem pseudoHeader_of_placed (source target : Ipv4Address) (front back : Bytes)
    (heven : front.length % 2 = 0) (hlength : front.length + back.length + 2 ≤ 65535) :
    pseudoHeader source target (front ++ (Bytes.ofWord16
      (udp source target (front ++ (Bytes.ofWord16 0 ++ back))) ++ back)) = 0 := by
  have hwords : ∀ w : UInt16, wordSum (front ++ (Bytes.ofWord16 w ++ back)) =
      wordSum front + wordSum back + w.toNat := by
    intro w
    rw [wordSum_append _ _ heven, wordSum_append _ _ (by simp), wordSum_ofWord16]
    omega
  have hlengths : ∀ w : UInt16, (front ++ (Bytes.ofWord16 w ++ back)).length =
      front.length + back.length + 2 := by
    intro w
    simp only [List.length_append, Bytes.length_ofWord16]
    omega
  have hpseudo : ∀ w : UInt16, ∃ sum : UInt32,
      pseudoHeader source target (front ++ (Bytes.ofWord16 w ++ back)) = ~~~(foldCarries sum) ∧
        sum.toNat = pseudoSum source target (front.length + back.length + 2) +
          (wordSum front + wordSum back) + w.toNat := by
    intro w
    obtain ⟨sum, heq, hsum⟩ := pseudoHeader_eq source target (front ++ (Bytes.ofWord16 w ++ back))
      (by rw [hlengths]; exact hlength)
    refine ⟨sum, heq, ?_⟩
    rw [hsum, hlengths, hwords]
    omega
  obtain ⟨bare, hbare, hbareSum⟩ := hpseudo 0
  obtain ⟨full, hfull, hfullSum⟩ :=
    hpseudo (udp source target (front ++ (Bytes.ofWord16 0 ++ back)))
  rw [UInt16.toNat_zero, Nat.add_zero] at hbareSum
  rw [hfull]
  refine not_foldCarries_eq_zero ?_
  rw [hfullSum, ← hbareSum, udp, hbare]
  -- A computed zero goes out as `0xffff`, which counts the same.
  by_cases hzero : ~~~(foldCarries bare) = 0
  · rw [if_pos hzero]
    have hmax : folded bare.toNat = 65535 := by
      have hnot := congrArg UInt16.toNat hzero
      rw [toNat_not, toNat_foldCarries, UInt16.toNat_zero] at hnot
      have hle := folded_le bare.toNat
      omega
    exact folded_add_max _ hmax
  · rw [if_neg hzero, toNat_not, toNat_foldCarries]
    exact folded_add_complement _

/-! ## Checksums that are right -/

/-- A complement is zero for no other sums than those that fold to `0xffff`. -/
theorem not_foldCarries_eq_zero_iff (sum : UInt32) :
    ~~~(foldCarries sum) = 0 ↔ folded sum.toNat = 65535 := by
  refine ⟨fun h => ?_, not_foldCarries_eq_zero⟩
  have hnat := congrArg UInt16.toNat h
  rw [toNat_not, toNat_foldCarries, UInt16.toNat_zero] at hnat
  have hle := folded_le sum.toNat
  omega

theorem internet_eq_zero_iff {b : Bytes} (h : b.length ≤ 65535) :
    internet b = 0 ↔ folded (wordSum b) = 65535 := by
  have hsum := wordSum_le b
  rw [internet, not_foldCarries_eq_zero_iff, toNat_sumWords_zero (by omega)]

theorem pseudoHeader_eq_zero_iff (source target : Ipv4Address) (segment : Bytes)
    (h : segment.length ≤ 65535) :
    pseudoHeader source target segment = 0 ↔
      folded (pseudoSum source target segment.length + wordSum segment) = 65535 := by
  obtain ⟨sum, heq, hsum⟩ := pseudoHeader_eq source target segment h
  rw [heq, not_foldCarries_eq_zero_iff, hsum]

/-! ## Sums that are right -/

theorem folded_eq_max_iff (sum : Nat) : folded sum = 0xffff ↔ sum ≠ 0 ∧ sum % 65535 = 0 := by
  unfold folded
  split <;> omega

/-- A sum that is right stays right for the summands of the same remainder. -/
theorem folded_exchange {rest old : Nat} (hrest : rest ≠ 0) (h : folded (rest + old) = 0xffff)
    (new : Nat) : folded (rest + new) = 0xffff ↔ old % 65535 = new % 65535 := by
  rw [folded_eq_max_iff] at h ⊢
  omega

/-! ## Words that are exchanged -/

/-- A word adds its own to a sum, and so does an odd byte at the end. -/
theorem wordSum_middle {front : Bytes} (hfront : front.length % 2 = 0) (part back : Bytes)
    (hpart : part.length % 2 = 0 ∨ back = []) :
    wordSum (front ++ (part ++ back)) = wordSum front + wordSum back + wordSum part := by
  rw [wordSum_append _ _ hfront]
  rcases hpart with heven | rfl
  · rw [wordSum_append _ _ heven]
    omega
  · rw [List.append_nil, wordSum]
    omega

/-- The two words that have the same remainder, which are both zero in one's complement. -/
def Blind (old new : Bytes) : Prop :=
  old = [0x00, 0x00] ∧ new = [0xff, 0xff] ∨ old = [0xff, 0xff] ∧ new = [0x00, 0x00]

instance (old new : Bytes) : Decidable (Blind old new) := inferInstanceAs (Decidable (_ ∨ _))

/-- Below the modulus's next multiple, the only different numbers of one remainder are both ends. -/
theorem mod_eq_iff_of_ne {old new : Nat} (hold : old ≤ 65535) (hnew : new ≤ 65535)
    (hne : old ≠ new) :
    old % 65535 = new % 65535 ↔ old = 0 ∧ new = 65535 ∨ old = 65535 ∧ new = 0 := by
  omega

/-- Of different words, or different odd bytes at the end, only the two zeros have the same
remainder. -/
theorem wordSum_mod_eq_iff {old new : Bytes} (hlength : new.length = old.length)
    (hshort : old.length ≤ 2) (hne : new ≠ old) :
    wordSum old % 65535 = wordSum new % 65535 ↔ Blind old new := by
  match old, new, hlength with
  | [], [], _ => exact absurd rfl hne
  | [a], [b], _ =>
    have ha : a.toNat < 256 := a.toNat_lt
    have hb : b.toNat < 256 := b.toNat_lt
    have hbytes : b.toNat ≠ a.toNat := fun h => hne (by rw [UInt8.toNat_inj.mp h])
    simp only [wordSum, Blind, List.cons.injEq, reduceCtorEq, and_false, or_false, iff_false]
    omega
  | [a₁, a₂], [b₁, b₂], _ =>
    have ha₁ : a₁.toNat < 256 := a₁.toNat_lt
    have ha₂ : a₂.toNat < 256 := a₂.toNat_lt
    have hb₁ : b₁.toNat < 256 := b₁.toNat_lt
    have hb₂ : b₂.toNat < 256 := b₂.toNat_lt
    have hwords : ¬ (b₁.toNat = a₁.toNat ∧ b₂.toNat = a₂.toNat) := by
      rintro ⟨h₁, h₂⟩
      exact hne (by rw [UInt8.toNat_inj.mp h₁, UInt8.toNat_inj.mp h₂])
    simp only [wordSum, Nat.add_zero]
    rw [mod_eq_iff_of_ne (by omega) (by omega) (by omega)]
    simp only [Blind, List.cons.injEq, and_true, ← UInt8.toNat_inj]
    show _ ↔ (a₁.toNat = 0 ∧ a₂.toNat = 0) ∧ b₁.toNat = 255 ∧ b₂.toNat = 255 ∨
      (a₁.toNat = 255 ∧ a₂.toNat = 255) ∧ b₁.toNat = 0 ∧ b₂.toNat = 0
    omega
  | _ :: _ :: _ :: _, _, _ => simp at hshort

/-- Both bytes of the two zeros differ, so another byte in one of them is not enough. -/
theorem not_blind_overwrite (old : Bytes) (k : Nat) (b : UInt8) :
    ¬ Blind old (old.overwrite k [b]) := by
  rintro (⟨rfl, hnew⟩ | ⟨rfl, hnew⟩)
  · rcases k with _ | _ | k <;> simp [Bytes.overwrite] at hnew
  · rcases k with _ | _ | k <;> simp [Bytes.overwrite] at hnew

end RomCast.Checksum
