import RomCast.Proofs.Message
import RomCast.Proofs.Replica.Transfer
import RomCast.Proofs.Replica.Visible

set_option autoImplicit false

/-!
# Reassembly out of order

A transfer needs its first fragment first and its last fragment last.  In between, fragments of the
content may arrive in any order and any number of times, cut in any way, and mixed with fragments
that do not belong to the transfer: if the fragments leave no gap, the last one makes the content
visible (`commits_gathered`).

What carries the proof is which bytes of the background are already those of the content.  A
fragment of the content adds bytes to them, even when it starts the transfer again: the buffer keeps
its length then, and so its bytes.
-/

namespace RomCast

namespace Bytes

theorem resize_length (buffer : Bytes) : buffer.resize buffer.length = buffer := by
  simp [resize, zeros]

/-- A byte of a part that was cut out of a byte string. -/
theorem getElem?_of_prefix_drop {part whole : Bytes} {start i : Nat}
    (hpart : part <+: whole.drop start) (hle : start ≤ i) (hlt : i < start + part.length) :
    part[i - start]? = whole[i]? := by
  obtain ⟨rest, hrest⟩ := hpart
  rw [show whole[i]? = (whole.drop start)[i - start]? by rw [List.getElem?_drop]; congr 1; omega,
    ← hrest, List.getElem?_append_left (by omega)]

end Bytes

/-- Whether a position of the content is among those whose bytes a fragment carries. -/
def Fragment.Covers (f : Fragment) (i : Nat) : Prop :=
  f.offset.toNat ≤ i ∧ i < f.offset.toNat + f.payload.length

namespace Replica

variable {κ : Type}

/-- A fragment as it arrives: under the hash that its packet carries. -/
structure Arrival where
  hash : ContentHash
  fragment : Fragment

/-- Take what arrives, one after the other, and tell how each was answered. -/
def takeEach (limit : Nat) (r : Replica κ) : List Arrival → Replica κ × List (Option Outcome)
  | [] => (r, [])
  | a :: rest =>
    let (r', events) := r.accept a.hash a.fragment limit
    let (r'', answers) := takeEach limit r' rest
    (r'', outcome? events :: answers)

/-- A well-formed fragment of a content, wherever the content was cut. -/
structure Piece (content : Bytes) (a : Arrival) : Prop where
  hash : a.hash = ContentHash.of content
  contentSize : a.fragment.contentSize.toNat = content.length
  payload : a.fragment.payload <+: content.drop a.fragment.offset.toNat
  valid : a.fragment.validate = .ok ()

/-- What may arrive while a content is being transferred without the transfer noticing. -/
inductive Harmless (content : Bytes) (limit : Nat) (a : Arrival) : Prop where
  /-- Any fragment of the content but the last, the first one again included. -/
  | piece (h : Piece content a) (hmore : a.fragment.isLast = false)
  /-- A fragment from the middle of another content. -/
  | foreign (hhash : a.hash ≠ ContentHash.of content) (hoffset : a.fragment.offset ≠ 0)
  /-- A malformed fragment of another content. -/
  | malformed (hhash : a.hash ≠ ContentHash.of content) (cause : PacketError)
      (hinvalid : a.fragment.validate = .error cause)
  /-- A fragment of a content that is too large, whatever its hash. -/
  | oversized (hsize : limit < a.fragment.contentSize.toNat)

/-- Whether a position of the content is covered by a fragment of it that has arrived. -/
def Covered (content : Bytes) (arrivals : List Arrival) (i : Nat) : Prop :=
  ∃ a ∈ arrivals, Piece content a ∧ a.fragment.Covers i

theorem Covered.of_append_singleton {content : Bytes} {arrivals : List Arrival} {a : Arrival}
    {i : Nat} (h : Covered content (arrivals ++ [a]) i) :
    Covered content arrivals i ∨ Piece content a ∧ a.fragment.Covers i := by
  obtain ⟨b, hb, hpiece, hcovers⟩ := h
  rcases List.mem_append.mp hb with hold | hnew
  · exact Or.inl ⟨b, hold, hpiece, hcovers⟩
  · rw [List.mem_singleton] at hnew
    subst hnew
    exact Or.inr ⟨hpiece, hcovers⟩

/-! ## The bytes that are there -/

/-- A replica in the middle of a transfer: where a fragment of the content has arrived, the
background holds the content's bytes. -/
structure Gathering (r₀ r : Replica κ) (content : Bytes) (arrivals : List Arrival) : Prop where
  phase : r.phase = .receiving
  expected : r.expected = ContentHash.of content
  size : r.background.size = content.length
  bytes : ∀ i, Covered content arrivals i → r.background.toList[i]? = content[i]?
  space : r.space = r₀.space

theorem start_gathering (r : Replica κ) (content : Bytes) :
    Gathering r (r.start content.length (ContentHash.of content)) content [] := by
  refine ⟨rfl, rfl, ?_, ?_, rfl⟩
  · rw [start, ← Buffer.length_toList, Buffer.toList_resize, Bytes.length_resize]
  · rintro i ⟨a, ha, -⟩
    exact absurd ha List.not_mem_nil

section Gathering

variable {r₀ r : Replica κ} {content : Bytes} {arrivals : List Arrival} {a : Arrival}

theorem Gathering.isReceiving (h : Gathering r₀ r content arrivals) (hash : ContentHash) :
    r.isReceiving hash = decide (hash = ContentHash.of content) := by
  simp [Replica.isReceiving, h.phase, h.expected, eq_comm]

/-- Starting the same transfer again loses nothing. -/
theorem Gathering.restart (h : Gathering r₀ r content arrivals) :
    Gathering r₀ (r.start content.length (ContentHash.of content)) content arrivals := by
  have hlist : (r.background.resize content.length).toList = r.background.toList := by
    rw [Buffer.toList_resize, ← h.size, ← Buffer.length_toList, Bytes.resize_length]
  refine ⟨rfl, rfl, ?_, ?_, h.space⟩
  · rw [start, ← Buffer.length_toList, hlist, Buffer.length_toList, h.size]
  · intro i hi
    rw [start, hlist]
    exact h.bytes i hi

/-- What does not cover anything adds nothing. -/
theorem Gathering.append_other (h : Gathering r₀ r content arrivals) (hother : ¬ Piece content a) :
    Gathering r₀ r content (arrivals ++ [a]) := by
  refine ⟨h.phase, h.expected, h.size, ?_, h.space⟩
  intro i hi
  rcases hi.of_append_singleton with hold | ⟨hpiece, -⟩
  · exact h.bytes i hold
  · exact absurd hpiece hother

/-- A well-formed fragment ends within the size it declares. -/
theorem stop_le_of_valid {f : Fragment} (h : f.validate = .ok ()) :
    f.stop ≤ f.contentSize.toNat :=
  (f.validate_eq_ok_iff.mp h).2.2

/-- A fragment lies within its content, with all the bytes that it carries. -/
theorem Piece.fits (h : Piece content a) :
    a.fragment.offset.toNat + a.fragment.payload.length ≤ content.length := by
  have hstop := stop_le_of_valid h.valid
  have hlength := h.payload.length_le
  rw [h.contentSize, Fragment.stop] at hstop
  rw [List.length_drop] at hlength
  omega

/-- Writing a fragment of the content where it belongs. -/
theorem Gathering.write (h : Gathering r₀ r content arrivals) (hpiece : Piece content a) :
    Gathering r₀ (r.write a.fragment.offset.toNat a.fragment.payload) content
      (arrivals ++ [a]) := by
  have hfits : a.fragment.offset.toNat + a.fragment.payload.length ≤
      r.background.toList.length := by
    rw [Buffer.length_toList, h.size]
    exact hpiece.fits
  refine ⟨h.phase, h.expected, ?_, ?_, h.space⟩
  · rw [Replica.write, size_overwrite, h.size]
  · intro i hi
    rw [Replica.write, Buffer.toList_overwrite]
    by_cases hcovers : a.fragment.Covers i
    · rw [Bytes.getElem?_overwrite_within hfits hcovers.1 hcovers.2,
        Bytes.getElem?_of_prefix_drop hpiece.payload hcovers.1 hcovers.2]
    · rw [Bytes.getElem?_overwrite_outside (by unfold Fragment.Covers at hcovers; omega)]
      rcases hi.of_append_singleton with hold | ⟨-, hnew⟩
      · exact h.bytes i hold
      · exact absurd hnew hcovers

/-- A transfer without a gap holds its content. -/
theorem Gathering.toList_eq (h : Gathering r₀ r content arrivals)
    (hcovered : ∀ i < content.length, Covered content arrivals i) :
    r.background.toList = content := by
  have hlength : r.background.toList.length = content.length := by
    rw [Buffer.length_toList, h.size]
  refine List.ext_getElem? fun i => ?_
  by_cases hi : i < content.length
  · exact h.bytes i (hcovered i hi)
  · rw [List.getElem?_eq_none (by omega), List.getElem?_eq_none (by omega)]

/-! ## Arrival by arrival -/

/-- A fragment of the content goes into the transfer in flight, which it begins again when it is
the first one. -/
theorem Gathering.accept_piece (h : Gathering r₀ r content arrivals) (hpiece : Piece content a)
    {limit : Nat} (hlimit : content.length ≤ limit) :
    ∃ r' begun, Gathering r₀ r' content arrivals ∧
      (∀ events : List (Event κ), outcome? (begun ++ events) = outcome? events) ∧
      r.accept a.hash a.fragment limit =
        ((r'.place a.fragment).1, begun ++ (r'.place a.fragment).2) := by
  have hsize := hpiece.contentSize
  have hmine : r.isReceiving a.hash = true := by
    rw [h.isReceiving, hpiece.hash, decide_eq_true rfl]
  unfold accept
  rw [if_neg (by omega), hpiece.valid]
  by_cases hzero : a.fragment.offset = 0
  · refine ⟨_, [.started content.length], h.restart, fun _ => rfl, ?_⟩
    simp only [hzero, if_true, hsize, hpiece.hash]
    rfl
  · refine ⟨r, [], h, fun _ => rfl, ?_⟩
    simp only [hzero, if_false, hmine, if_true]
    rfl

/-- Any fragment but the last adds its bytes. -/
theorem Gathering.place_more (h : Gathering r₀ r content arrivals) (hpiece : Piece content a)
    (hmore : a.fragment.isLast = false) :
    ∃ r', r.place a.fragment = (r', []) ∧ Gathering r₀ r' content (arrivals ++ [a]) := by
  refine ⟨_, ?_, h.write hpiece⟩
  unfold place
  rw [if_neg (not_not_intro (h.size.trans hpiece.contentSize.symm)), hmore]
  rfl

/-- The last fragment makes the content visible, if no byte is missing then. -/
theorem Gathering.place_last (h : Gathering r₀ r content arrivals) (hpiece : Piece content a)
    (hlast : a.fragment.isLast = true)
    (hcovered : ∀ i < content.length, Covered content (arrivals ++ [a]) i) :
    outcome? (r.place a.fragment).2 = some .committed ∧
      (r.place a.fragment).1.space = r₀.space.publish content := by
  obtain ⟨r', hr'⟩ : ∃ r', r' = r.write a.fragment.offset.toNat a.fragment.payload := ⟨_, rfl⟩
  have hwritten : Gathering r₀ r' content (arrivals ++ [a]) := by
    rw [hr']
    exact h.write hpiece
  have hfinish := finish_of_hash hwritten.phase (hwritten.toList_eq hcovered) hwritten.expected.symm
  have hplace : r.place a.fragment = r'.finish := by
    unfold place
    rw [if_neg (not_not_intro (h.size.trans hpiece.contentSize.symm)), hlast, ← hr']
    rfl
  rw [hplace, hfinish]
  refine ⟨rfl, ?_⟩
  show r'.space.publish content = _
  rw [hwritten.space]

/-- What is ignored adds nothing, whatever bytes it carries. -/
theorem Gathering.ignore (h : Gathering r₀ r content arrivals) {limit : Nat}
    (haccept : r.accept a.hash a.fragment limit = (r, [])) (hother : ¬ Piece content a) :
    ∃ r' events, r.accept a.hash a.fragment limit = (r', events) ∧ outcome? events = none ∧
      Gathering r₀ r' content (arrivals ++ [a]) :=
  ⟨r, [], haccept, rfl, h.append_other hother⟩

/-- What is harmless ends nothing, and the transfer has every byte that it had. -/
theorem Gathering.accept_harmless (h : Gathering r₀ r content arrivals) {limit : Nat}
    (hlimit : content.length ≤ limit) (hharmless : Harmless content limit a) :
    ∃ r' events, r.accept a.hash a.fragment limit = (r', events) ∧ outcome? events = none ∧
      Gathering r₀ r' content (arrivals ++ [a]) := by
  have hignored (hhash : a.hash ≠ ContentHash.of content) : r.isReceiving a.hash = false := by
    rw [h.isReceiving, decide_eq_false hhash]
  cases hharmless with
  | piece hpiece hmore =>
    obtain ⟨r', begun, hr', hbegun, haccept⟩ := h.accept_piece hpiece hlimit
    obtain ⟨r'', hplace, hr''⟩ := hr'.place_more hpiece hmore
    rw [hplace] at haccept
    exact ⟨r'', begun ++ [], haccept, hbegun [], hr''⟩
  | foreign hhash hoffset =>
    refine h.ignore ?_ fun hpiece => hhash hpiece.hash
    unfold accept
    cases hvalid : a.fragment.validate with
    | error cause => simp [hignored hhash]
    | ok _ => simp [hignored hhash, hoffset]
  | malformed hhash cause hinvalid =>
    refine h.ignore ?_ fun hpiece => hhash hpiece.hash
    unfold accept
    simp [hinvalid, hignored hhash]
  | oversized hsize =>
    refine h.ignore ?_ fun hpiece => ?_
    · unfold accept
      rw [if_pos hsize]
    · have := hpiece.contentSize
      omega

end Gathering

/-! ## A whole transfer -/

theorem takeEach_append (limit : Nat) (r : Replica κ) (front back : List Arrival) :
    takeEach limit r (front ++ back) =
      ((takeEach limit (takeEach limit r front).1 back).1,
        (takeEach limit r front).2 ++ (takeEach limit (takeEach limit r front).1 back).2) := by
  induction front generalizing r with
  | nil => rfl
  | cons a rest ih =>
    rw [List.cons_append, takeEach, takeEach]
    simp only [ih, List.cons_append]

/-- Nothing that is harmless is answered, and the bytes of all the fragments are there. -/
theorem Gathering.takeEach {r₀ r : Replica κ} {content : Bytes} {limit : Nat}
    (hlimit : content.length ≤ limit) (between : List Arrival) {arrivals : List Arrival}
    (h : Gathering r₀ r content arrivals) (hbetween : ∀ a ∈ between, Harmless content limit a) :
    (Replica.takeEach limit r between).2 = List.replicate between.length none ∧
      Gathering r₀ (Replica.takeEach limit r between).1 content (arrivals ++ between) := by
  induction between generalizing r arrivals with
  | nil => exact ⟨rfl, by rwa [List.append_nil]⟩
  | cons a rest ih =>
    obtain ⟨r', events, haccept, hnone, hr'⟩ := h.accept_harmless hlimit
      (hbetween a List.mem_cons_self)
    obtain ⟨hanswers, hgathering⟩ := ih hr' fun b hb => hbetween b (List.mem_cons_of_mem _ hb)
    rw [List.append_assoc] at hgathering
    rw [Replica.takeEach, haccept]
    exact ⟨by simp only [hanswers, hnone]; rfl, hgathering⟩

/-- A transfer that begins with the first fragment of a content and ends with the last one commits
the content if the fragments leave no gap, in whatever order and however often those in between
arrive, and whatever harmless comes with them.  Until then nothing is answered. -/
theorem commits_gathered (r : Replica κ) {content : Bytes} {limit : Nat} {first last : Arrival}
    {between : List Arrival} (hlimit : content.length ≤ limit)
    (hfirst : Piece content first) (hbegin : first.fragment.offset = 0)
    (hmore : first.fragment.isLast = false)
    (hbetween : ∀ a ∈ between, Harmless content limit a)
    (hend : Piece content last) (hlast : last.fragment.isLast = true)
    (hcovered : ∀ i < content.length, Covered content (first :: between ++ [last]) i) :
    let run := takeEach limit r (first :: between ++ [last])
    run.2 = List.replicate (between.length + 1) none ++ [some .committed] ∧
      run.1.space = r.space.publish content ∧ run.1.space.content = content := by
  -- The first fragment begins the transfer, whatever the replica was doing.
  have hstart := start_gathering r content
  obtain ⟨r₁, hplace₁, hr₁⟩ := hstart.place_more hfirst hmore
  have haccept₁ : r.accept first.hash first.fragment limit = (r₁, [.started content.length]) := by
    have hsize := hfirst.contentSize
    unfold accept
    rw [if_neg (by omega), hfirst.valid]
    simp only [hbegin, if_true, hsize, hfirst.hash, hplace₁]
  obtain ⟨hanswers, hr₂⟩ := hr₁.takeEach hlimit between hbetween
  obtain ⟨r₃, begun, hr₃, hbegun, haccept₃⟩ := hr₂.accept_piece hend hlimit
  obtain ⟨houtcome, hspace⟩ := hr₃.place_last hend hlast hcovered
  intro run
  have hrun : run = ((r₃.place last.fragment).1,
      none :: (List.replicate between.length none ++ [some .committed])) := by
    show takeEach limit r (first :: (between ++ [last])) = _
    rw [takeEach, haccept₁]
    simp only [takeEach_append, hanswers, takeEach, haccept₃, hbegun, houtcome]
    rfl
  rw [hrun]
  refine ⟨rfl, hspace, ?_⟩
  show (r₃.place last.fragment).1.space.content = content
  rw [hspace]
  rfl

/-- A fragment of a content, cut out at a position. -/
def cut (content : Bytes) (offset : Nat) (length : Nat) : Arrival :=
  ⟨ContentHash.of content,
    { contentSize := UInt32.ofNat content.length
      offset := UInt32.ofNat offset
      payloadSize := UInt16.ofNat length
      payload := (content.drop offset).take length }⟩

namespace Shuffled

/-- Four bytes. -/
def content : Bytes := [1, 2, 3, 4]

/-- A replica in the middle of another transfer. -/
def busy : Replica Unit := (new ⟨"rom", ModuleName.valid_rom⟩ none).start 9 ContentHash.zero

/-- What arrives between the first and the last of the four bytes: the other two in the wrong order,
one of them twice, the first one again, and with them a fragment of another content, a torn one, and
one of a content that is too large. -/
def between : List Arrival :=
  [cut content 2 1, ⟨ContentHash.zero, ⟨9, 4, 1, [7]⟩⟩, cut content 1 1, cut content 0 1,
    ⟨ContentHash.zero, ⟨4, 0, 2, [7]⟩⟩, ⟨ContentHash.of content, ⟨17, 0, 1, [7]⟩⟩,
    cut content 2 1]

theorem harmless : ∀ a ∈ between, Harmless content 16 a := by
  have hother : ContentHash.zero ≠ ContentHash.of content := by decide +kernel
  intro a ha
  simp only [between, List.mem_cons, List.not_mem_nil, or_false] at ha
  rcases ha with rfl | rfl | rfl | rfl | rfl | rfl | rfl
  · exact .piece ⟨rfl, rfl, List.take_prefix 1 _, rfl⟩ rfl
  · exact .foreign hother (by decide)
  · exact .piece ⟨rfl, rfl, List.take_prefix 1 _, rfl⟩ rfl
  · exact .piece ⟨rfl, rfl, List.take_prefix 1 _, rfl⟩ rfl
  · exact .malformed hother _ rfl
  · exact .oversized (by decide)
  · exact .piece ⟨rfl, rfl, List.take_prefix 1 _, rfl⟩ rfl

theorem covered :
    ∀ i < content.length, Covered content (cut content 0 1 :: between ++ [cut content 3 1]) i := by
  intro i hi
  have hcases : i = 0 ∨ i = 1 ∨ i = 2 ∨ i = 3 := by
    have : i < 4 := hi
    omega
  refine ⟨cut content i 1, ?_, ?_⟩
  · rcases hcases with rfl | rfl | rfl | rfl
    all_goals simp [between]
  · rcases hcases with rfl | rfl | rfl | rfl
    all_goals exact ⟨⟨rfl, rfl, List.take_prefix 1 _, rfl⟩, by decide, by decide⟩

/-- The last byte commits the content, and nothing before it is answered. -/
theorem commits_gathered_shuffled :
    (takeEach 16 busy (cut content 0 1 :: between ++ [cut content 3 1])).2 =
        List.replicate 8 none ++ [some .committed] ∧
      (takeEach 16 busy (cut content 0 1 :: between ++ [cut content 3 1])).1.space.content =
        content := by
  have hwhole := commits_gathered busy (by decide) ⟨rfl, rfl, List.take_prefix 1 _, rfl⟩ rfl rfl
    harmless ⟨rfl, rfl, List.take_prefix 1 _, rfl⟩ rfl covered
  exact ⟨hwhole.1, hwhole.2.2⟩

end Shuffled

end Replica

end RomCast
