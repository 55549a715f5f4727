import RomCast.Proofs.Bytes.Overwrite
import RomCast.Proofs.Checksum
import RomCast.Proofs.Endpoint.Delivery

set_option autoImplicit false

/-!
# Damaged payloads

A frame whose payload was handed out and that carries a checksum is refused when one word of the
payload has been replaced, unless the word was one of the two zeros of one's complement and has
become the other (`damage_detected`).  So a change within one byte never goes unnoticed.

The headers lie in front of the damage: that they are right, and where the datagram stands, is known
from the undamaged frame.
-/

namespace RomCast

namespace Bytes

/-- A part that begins in the front of a byte string and ends behind it. -/
theorem slice_append_across {x : Bytes} {start stop : Nat} (hstart : start ≤ x.length)
    (hstop : x.length ≤ stop) (y : Bytes) :
    (x ++ y).slice start stop = x.drop start ++ y.take (stop - x.length) := by
  rw [slice, List.drop_append_of_le_length hstart, List.take_append, List.length_drop,
    List.take_of_length_le (by rw [List.length_drop]; omega),
    show stop - start - (x.length - start) = stop - x.length by omega]

/-- The bytes in front of a part, the part, and those behind it. -/
theorem exists_slice (b : Bytes) {start stop : Nat} (h : start ≤ stop) (hstop : stop ≤ b.length) :
    ∃ front back, b = front ++ (b.slice start stop ++ back) ∧ front.length = start := by
  refine ⟨b.take start, b.drop stop, ?_, List.length_take_of_le (by omega)⟩
  have hbehind : b.drop stop = (b.drop start).drop (stop - start) := by
    rw [List.drop_drop, Nat.add_sub_cancel' h]
  rw [hbehind, slice, List.take_append_drop, List.take_append_drop]

theorem byteAt_overwrite_self {b : Bytes} {k : Nat} (h : k < b.length) (new : UInt8) :
    (b.overwrite k [new]).byteAt k = new := by
  have hfits : k + [new].length ≤ b.length := h
  rw [byteAt, getElem?_overwrite_within hfits (Nat.le_refl k) (Nat.lt_succ_self k), Nat.sub_self]
  rfl

end Bytes

namespace Endpoint

/-- Handling the frame ends with this cause. -/
def Refuses {L : Type} [Transport L] (e : Endpoint L) (frame : Bytes) (cause : FrameError) : Prop :=
  ∃ after, (handle : Action FrameError (Endpoint L × Bytes) (Option (Nat × Nat))) (e, frame) =
    .error cause after

/-- A packet for the host is refused when its datagram is not right. -/
theorem refuses_of_checkUdp {L : Type} [Transport L] (e : Endpoint L) {frame : Bytes}
    {cause : FrameError} (h : Ipv4For e.config.source frame)
    (hudp : checkUdp e.config.port frame (ipv4At frame) = .error cause) :
    Refuses e frame cause := by
  have hlong := h.sound.long
  have hcheck := (checkIpv4_eq_ok_iff frame _).mpr ⟨h.sound, rfl⟩
  have haccepts := (accepts_ipv4At_iff e.config hlong).mpr h.target
  rw [Refuses, handle_eq, dispatch_of_ipv4 _ (by omega) h.etherType]
  simp only [Action.onFirst, Action.on, receiveIpv4_eq, hcheck, haccepts, if_true, hudp]
  exact ⟨_, rfl⟩

/-! ## The headers in front of the damage -/

/-- The numbers of a datagram that its checksum is about, added up. -/
def segmentSum (frame : Bytes) : Nat :=
  Checksum.wordSum (frame.slice 26 34) + 17 + segmentLength frame +
    Checksum.wordSum (frame.slice (udpStart frame) (udpStart frame + segmentLength frame))

section Headers

variable {source : Option Ipv4Address} {port : UInt16} {body tail tail' : Bytes}

theorem headerWords_append (h : 18 ≤ body.length) (tail : Bytes) :
    headerWords (body ++ tail) = headerWords body := by
  rw [headerWords, headerWords, Bytes.byteAt_append_left (by omega)]

theorem segmentLength_append (h : udpStart body + 8 ≤ body.length) (hfront : 18 ≤ body.length)
    (tail : Bytes) : segmentLength (body ++ tail) = segmentLength body := by
  rw [segmentLength, segmentLength, udpStart_append hfront, Bytes.word16_append_left (by omega)]

/-- A packet stays one for the host, whatever stands behind its header. -/
theorem Ipv4For.of_header (h : Ipv4For source (body ++ tail)) (hfront : 34 ≤ body.length)
    (hheader : udpStart body ≤ body.length) (hlength : tail'.length = tail.length) :
    Ipv4For source (body ++ tail') := by
  have hpacket := packetLength_append (show 18 ≤ body.length by omega)
  have hplace := udpStart_append (show 18 ≤ body.length by omega)
  have hwords := headerWords_append (show 18 ≤ body.length by omega)
  obtain ⟨htype, ⟨hlong, hversion, hheader, hcovers, hfits, hsum⟩, hhost⟩ := h
  rw [List.length_append] at hlong hfits
  rw [ForHost] at hhost
  simp (disch := omega) only [Bytes.word16_append_left, Bytes.byteAt_append_left,
    Bytes.slice_append_left, hpacket, hplace, hwords]
    at htype hversion hheader hcovers hfits hsum hhost
  have hsound : Ipv4Sound (body ++ tail') := {
    long := by
      rw [List.length_append]
      omega
    version := by rwa [Bytes.byteAt_append_left (by omega)]
    header := by rwa [hwords]
    covers := by rwa [hwords, hpacket]
    fits := by rwa [hpacket, List.length_append, hlength]
    checksum := by rwa [hplace, Bytes.slice_append_left (by omega)] }
  refine ⟨?_, hsound, ?_⟩
  · rwa [Bytes.word16_append_left (by omega)]
  · rwa [ForHost, Bytes.slice_append_left (by omega)]

/-- Of a datagram with a checksum, nothing but the sum depends on what stands behind its header. -/
theorem checkUdp_of_header (h : AddressedTo source port (body ++ tail)) (hfront : 34 ≤ body.length)
    (hheader : udpStart body + 8 ≤ body.length) (hchecksum : body.word16 (udpStart body + 6) ≠ 0)
    (hlength : tail'.length = tail.length) :
    checkUdp port (body ++ tail') (ipv4At (body ++ tail')) =
      if Checksum.folded (segmentSum (body ++ tail')) = 0xffff then
        .ok (some (payloadPlace (body ++ tail')))
      else .error badUdpChecksum := by
  have hpacket := packetLength_append (show 18 ≤ body.length by omega)
  have hplace := udpStart_append (show 18 ≤ body.length by omega)
  have hwords := headerWords_append (show 18 ≤ body.length by omega)
  have hsegment := segmentLength_append hheader (by omega)
  have hstart : udpStart body = 14 + 4 * headerWords body := rfl
  have hsound := (h.ipv4.of_header hfront (by omega) hlength).sound
  obtain ⟨hprotocol, hlast, hfirst, hroom, hshort, hfits, hport, -⟩ := h.udp
  simp (disch := omega) only [Bytes.word16_append_left, Bytes.byteAt_append_left, hpacket, hplace,
    hwords, hsegment] at hprotocol hlast hfirst hroom hshort hfits hport
  have hbehind := hsound.fits
  rw [hpacket] at hbehind
  have hwhole : (ipv4At (body ++ tail')).isFragment = false := by
    rw [isFragment_ipv4At_iff hsound.long, Bytes.word16_append_left (by omega)]
    exact ⟨hlast, hfirst⟩
  have hmax : segmentLength body < 65536 := (body.word16 (udpStart body + 4)).toNat_lt
  have hvalid := udpValid_ipv4At_iff hsound.long (segmentLength body) hshort (by omega)
    (by rw [hplace]; omega)
  rw [hplace, Bytes.word16_append_left (by omega), or_iff_right hchecksum] at hvalid
  rw [checkUdp_eq hsound, segmentSum, hpacket, hplace, hwords, hsegment,
    Bytes.byteAt_append_left (by omega), Bytes.word16_append_left (by omega), hwhole, hport,
    if_neg (not_not.mpr hprotocol), if_neg Bool.false_ne_true, if_neg (by omega),
    if_neg (by omega), if_neg (not_not.mpr rfl), ite_not]
  exact if_congr hvalid rfl rfl

/-- The sum over a datagram of which one word is set apart: the others, and the word. -/
theorem exists_segmentSum (hfront : 34 ≤ body.length) (hheader : udpStart body + 8 ≤ body.length)
    (hinside : body.length < udpStart body + segmentLength body)
    (heven : (body.length - udpStart body) % 2 = 0) (back : Bytes) {n : Nat}
    (hn : n = min 2 (udpStart body + segmentLength body - body.length)) :
    ∃ rest, rest ≠ 0 ∧ ∀ word, word.length = n →
      segmentSum (body ++ (word ++ back)) = rest + Checksum.wordSum word := by
  have hbody : (body.drop (udpStart body)).length % 2 = 0 := by
    rwa [List.length_drop]
  -- What belongs to the datagram behind the word.
  let behind := back.take (udpStart body + segmentLength body - body.length - n)
  refine ⟨Checksum.wordSum (body.slice 26 34) + 17 + segmentLength body +
    (Checksum.wordSum (body.drop (udpStart body)) + Checksum.wordSum behind), by omega, ?_⟩
  intro word hword
  have hlast : word.length % 2 = 0 ∨ behind = [] := by
    by_cases hpair : word.length % 2 = 0
    · exact .inl hpair
    · exact .inr (by rw [List.take_eq_nil_iff]; omega)
  rw [segmentSum, segmentLength_append hheader (by omega), udpStart_append (by omega),
    Bytes.slice_append_left (by omega), Nat.add_assoc _ _ (Checksum.wordSum word),
    ← Checksum.wordSum_middle hbody word behind hlast,
    Bytes.slice_append_across (by omega) (by omega), List.take_append,
    List.take_of_length_le (l := word) (by omega), hword]

end Headers

/-! ## Damage -/

section Damage

variable {L : Type} [Transport L]

/-- A word behind the UDP header is exchanged for a different one. -/
theorem handle_of_damage (e : Endpoint L) {body old word back : Bytes}
    (h : AddressedTo e.config.source e.config.port (body ++ (old ++ back)))
    (hfront : 34 ≤ body.length) (hheader : udpStart body + 8 ≤ body.length)
    (hinside : body.length < udpStart body + segmentLength body)
    (heven : (body.length - udpStart body) % 2 = 0)
    (hold : old.length = min 2 (udpStart body + segmentLength body - body.length))
    (hword : word.length = old.length) (hne : word ≠ old)
    (hchecksum : body.word16 (udpStart body + 6) ≠ 0) :
    (¬ Checksum.Blind old word → Refuses e (body ++ (word ++ back)) badUdpChecksum) ∧
      (Checksum.Blind old word →
        Delivers e (body ++ (word ++ back)) (payloadPlace (body ++ (old ++ back)))) := by
  have hlength : (word ++ back).length = (old ++ back).length := by
    rw [List.length_append, List.length_append, hword]
  have hipv4 := h.ipv4.of_header hfront (by omega) hlength
  have hcheck := checkUdp_of_header h hfront hheader hchecksum hlength
  obtain ⟨rest, hrest, hsum⟩ := exists_segmentSum hfront hheader hinside heven back hold
  -- The sum was right, and is so still for a word of the same remainder.
  have hright : Checksum.folded (rest + Checksum.wordSum old) = 0xffff := by
    rw [← hsum old rfl]
    refine h.udp.checksum.resolve_left ?_
    rwa [udpStart_append (by omega), Bytes.word16_append_left (by omega)]
  have hblind : Checksum.folded (segmentSum (body ++ (word ++ back))) = 0xffff ↔
      Checksum.Blind old word := by
    rw [hsum word hword, Checksum.folded_exchange hrest hright,
      Checksum.wordSum_mod_eq_iff hword (by omega) hne]
  constructor
  · intro hseen
    rw [if_neg (mt hblind.mp hseen)] at hcheck
    exact refuses_of_checkUdp e hipv4 hcheck
  · intro hunseen
    rw [if_pos (hblind.mpr hunseen)] at hcheck
    obtain ⟨hudp, -⟩ := (checkUdp_eq_some_iff hipv4.sound _ _).mp hcheck
    refine (delivers_iff_addressed e _ _).mpr ⟨⟨hipv4, hudp⟩, ?_⟩
    rw [payloadPlace, payloadPlace, segmentLength_append hheader (by omega),
      segmentLength_append hheader (by omega), udpStart_append (by omega),
      udpStart_append (by omega)]

/-- The same of a word in its place in the frame. -/
theorem handle_of_overwrite (e : Endpoint L) {frame word : Bytes} {place : Nat}
    (h : AddressedTo e.config.source e.config.port frame)
    (hchecksum : frame.word16 (udpStart frame + 6) ≠ 0) (hheader : udpStart frame + 8 ≤ place)
    (hinside : place < udpStart frame + segmentLength frame)
    (heven : (place - udpStart frame) % 2 = 0)
    (hword : word.length = min 2 (udpStart frame + segmentLength frame - place))
    (hne : word ≠ frame.slice place (place + word.length)) :
    (¬ Checksum.Blind (frame.slice place (place + word.length)) word →
      Refuses e (frame.overwrite place word) badUdpChecksum) ∧
    (Checksum.Blind (frame.slice place (place + word.length)) word →
      Delivers e (frame.overwrite place word) (payloadPlace frame)) := by
  have hbounds := h.bounds
  have hfits := h.ipv4.sound.fits
  have hlong := h.ipv4.sound.long
  have hwords := h.ipv4.sound.header
  have hstart : udpStart frame = 14 + 4 * headerWords frame := rfl
  have hfront : 34 ≤ place := by omega
  obtain ⟨body, back, hframe, hbody⟩ := Bytes.exists_slice frame
    (Nat.le_add_right place word.length) (by omega)
  have hold : (frame.slice place (place + word.length)).length = word.length := by
    rw [Bytes.length_slice (by omega)]
    omega
  generalize frame.slice place (place + word.length) = old at hframe hold hne ⊢
  subst hframe hbody
  have hplace := udpStart_append (show 18 ≤ body.length by omega)
  rw [hplace] at hheader
  rw [hplace, segmentLength_append hheader (by omega)] at hinside hword
  rw [hplace] at heven
  rw [hplace, Bytes.word16_append_left (by omega)] at hchecksum
  rw [Bytes.overwrite_middle body old back word hold.symm]
  exact handle_of_damage e h hfront hheader hinside heven (by omega) hold.symm hne hchecksum

/-- Damage to the payload of a datagram with a checksum, as every endpoint of the same address and
port sees it, whatever it has gone through and whichever link it is on.

The words of the payload are counted from its start; the last one is a single byte when the length
is odd.  A different word in the place of one is found out, and the frame refused, unless one of the
two is `0x0000` and the other `0xffff`: then the damaged payload is handed out.  A different byte is
always found out. -/
theorem damage_detected (e : Endpoint L) (frame : Bytes) (start stop : Nat)
    (h : Delivers e frame (start, stop)) (hchecksum : frame.word16 (start - 2) ≠ 0)
    {M : Type} [Transport M] (other : Endpoint M) (hsource : other.config.source = e.config.source)
    (hport : other.config.port = e.config.port) :
    (∀ n word, start + 2 * n < stop → word.length = min 2 (stop - (start + 2 * n)) →
      let old := frame.slice (start + 2 * n) (start + 2 * n + word.length)
      word ≠ old →
        (¬ Checksum.Blind old word →
          Refuses other (frame.overwrite (start + 2 * n) word) (.badChecksum "UDP")) ∧
        (Checksum.Blind old word →
          Delivers other (frame.overwrite (start + 2 * n) word) (start, stop))) ∧
    (∀ place b, start ≤ place → place < stop → b ≠ frame.byteAt place →
      Refuses other (frame.overwrite place [b]) (.badChecksum "UDP")) := by
  obtain ⟨haddressed, hplace⟩ := (delivers_iff_addressed e frame _).mp h
  obtain ⟨rfl, rfl⟩ := Prod.mk.inj hplace
  rw [← hsource, ← hport] at haddressed
  constructor
  · intro n word hinside hword old hne
    exact handle_of_overwrite other haddressed hchecksum (by omega) hinside (by omega) hword hne
  · intro place b hheader hinside hne
    have hbounds := haddressed.bounds
    have hfits := haddressed.ipv4.sound.fits
    have hlong := haddressed.ipv4.sound.long
    -- The word that the byte belongs to, and the byte's place in it.
    obtain ⟨first, k, rfl, hk, hstart, heven⟩ : ∃ first k, place = first + k ∧ k < 2 ∧
        udpStart frame + 8 ≤ first ∧ (first - udpStart frame) % 2 = 0 :=
      ⟨place - (place - udpStart frame) % 2, (place - udpStart frame) % 2, by omega, by omega,
        by omega, by omega⟩
    obtain ⟨n, hn⟩ : ∃ n, n = min 2 (udpStart frame + segmentLength frame - first) := ⟨_, rfl⟩
    have hold : (frame.slice first (first + n)).length = n := by
      rw [Bytes.length_slice (by omega)]
      omega
    have hword : ((frame.slice first (first + n)).overwrite k [b]).length = n := by
      rw [Bytes.length_overwrite, hold]
    have hbyte : ((frame.slice first (first + n)).overwrite k [b]).byteAt k = b :=
      Bytes.byteAt_overwrite_self (by omega) b
    have hdifferent : (frame.slice first (first + n)).overwrite k [b] ≠
        frame.slice first (first + n) := by
      intro hsame
      rw [hsame, Bytes.byteAt_slice (by omega)] at hbyte
      exact hne hbyte.symm
    have hexchanged := handle_of_overwrite other haddressed hchecksum hstart (by omega) heven
      (hword.trans hn) (by rwa [hword])
    rw [hword, Bytes.overwrite_overwrite_slice (.inl (by rw [List.length_singleton]; omega))]
      at hexchanged
    exact hexchanged.1 (Checksum.not_blind_overwrite _ _ _)

/-- A datagram of three bytes, sent to everybody with a checksum, as it arrives damaged at an
endpoint without an address: with another word, another last byte, or one zero for the other. -/
theorem damaged_broadcast :
    let e : Endpoint MemoryLink := new (MemoryLink.ofQueue Mac.zero 1) {}
    let frame := datagramFrame Mac.zero {} Mac.broadcast 1 [0, 0, 3]
    Delivers e frame (42, 45) ∧ frame.word16 40 ≠ 0 ∧
      Refuses e (frame.overwrite 42 [0, 1]) (.badChecksum "UDP") ∧
      Refuses e (frame.overwrite 44 [4]) (.badChecksum "UDP") ∧
      Delivers e (frame.overwrite 42 [0xff, 0xff]) (42, 45) := by
  intro e frame
  have hshort : ([0, 0, 3] : Bytes).length ≤ maxDatagram := by decide
  have hrange := payloadRange?_frame_append e.config
    { sourceMac := Mac.zero, targetMac := Mac.broadcast, source := Ipv4Address.unspecified
      target := Ipv4Address.broadcast, identification := 1, port := defaultPort
      withChecksum := true } hshort []
  obtain ⟨e', hhandle⟩ := handle_of_payloadRange? e hrange
  rw [List.append_nil] at hhandle
  have hdelivers : Delivers e frame (42, 45) := ⟨_, hhandle⟩
  have hchecksum : frame.word16 (42 - 2) ≠ 0 := by decide +kernel
  obtain ⟨hwords, hbytes⟩ := damage_detected e frame 42 45 hdelivers hchecksum e rfl rfl
  exact ⟨hdelivers, hchecksum, (hwords 0 [0, 1] (by decide) (by decide) (by decide)).1 (by decide),
    hbytes 44 4 (by decide) (by decide) (by decide),
    (hwords 0 [0xff, 0xff] (by decide) (by decide) (by decide)).2 (by decide)⟩

end Damage

end Endpoint

end RomCast
