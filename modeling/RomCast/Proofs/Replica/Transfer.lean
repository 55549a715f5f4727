import RomCast.Proofs.Bytes.Overwrite
import RomCast.Proofs.Server.Fragments
import RomCast.Replica

set_option autoImplicit false

/-!
# A whole transfer

The fragments of a content, taken in order by a replica in any state, commit the content once
(`takeAll_fragments`).  What the replica was doing before does not matter: the first fragment begins
the transfer anew, and the bytes that an earlier transfer has left are all written over.
-/

namespace RomCast

/-- Writing behind what is there already makes it longer. -/
theorem Bytes.take_overwrite {buffer content new : Bytes} {start : Nat}
    (hbefore : buffer.take start = content.take start)
    (hnew : new = (content.drop start).take new.length)
    (hfits : start + new.length ≤ buffer.length) :
    (buffer.overwrite start new).take (start + new.length) =
      content.take (start + new.length) := by
  have hfront : (buffer.take start).length = start := by
    rw [List.length_take]
    omega
  have hwhole : new.take (buffer.length - start) = new := List.take_of_length_le (by omega)
  unfold Bytes.overwrite
  have hwritten : (buffer.take start ++ new).length = start + new.length := by
    rw [List.length_append, hfront]
  rw [hwhole, ← List.append_assoc, List.take_append_of_le_length (Nat.le_of_eq hwritten.symm),
    List.take_of_length_le (Nat.le_of_eq hwritten), hbefore, hnew]
  rw [← hnew, List.take_add]
  exact congrArg _ hnew

namespace Replica

variable {κ : Type}

/-- Take fragments one after the other; the events are all that happened. -/
def takeAll (hash : ContentHash) (limit : Nat) (r : Replica κ) (fragments : List Fragment) :
    Replica κ × List (Event κ) :=
  fragments.foldl (fun s f => ((s.1.accept hash f limit).1, s.2 ++ (s.1.accept hash f limit).2))
    (r, [])

/-- A replica that has put the first fragments of a content together. -/
structure Assembling (r₀ r : Replica κ) (content : Bytes) (i : Nat) : Prop where
  phase : r.phase = .receiving
  expected : r.expected = ContentHash.of content
  size : r.background.size = content.length
  front : r.background.toList.take (i * maxPayload) = content.take (i * maxPayload)
  space : r.space = r₀.space
  commits : r.commits = r₀.commits

/-- A replica that has just made a content visible. -/
structure Completed (r₀ r : Replica κ) (content : Bytes) : Prop where
  phase : r.phase = .committed
  space : r.space = r₀.space.publish content
  commits : r.commits = r₀.commits + 1

/-- The event of a commit, which signals each session that has a capability. -/
def completion (r₀ : Replica κ) : Event κ :=
  .finished .committed .committed (r₀.commits + 1) r₀.space.signals

theorem start_assembling (r : Replica κ) (content : Bytes) :
    Assembling r (r.start content.length (ContentHash.of content)) content 0 := by
  refine ⟨rfl, rfl, ?_, ?_, rfl, rfl⟩
  · rw [start, ← Buffer.length_toList, Buffer.toList_resize, Bytes.length_resize]
  · rw [Nat.zero_mul, List.take_zero, List.take_zero]

/-- Finishing a transfer whose content has the expected hash. -/
theorem finish_of_hash {r : Replica κ} {content : Bytes} (hphase : r.phase = .receiving)
    (hcontent : r.background.toList = content) (hhash : ContentHash.of content = r.expected) :
    r.finish =
      ({ r with
          space := r.space.publish content
          background := .empty
          phase := .committed
          commits := r.commits + 1 },
        [.finished .committed .committed (r.commits + 1) r.space.signals]) := by
  unfold finish commit
  rw [hcontent]
  simp only [hphase, hhash, ne_eq, not_true_eq_false, if_false]

section Placing

variable {r₀ r : Replica κ} {content : Bytes} {i : Nat}

theorem Assembling.size_eq (h : Assembling r₀ r content i)
    (hlength : content.length < UInt32.size) :
    r.background.size = (Server.fragment content i).contentSize.toNat := by
  rw [h.size, Server.contentSize_fragment hlength]

/-- The background after one more fragment. -/
theorem Assembling.background (h : Assembling r₀ r content i)
    (hi : i < Server.fragmentCount content) (hlength : content.length < UInt32.size) :
    let r' := r.write (Server.fragment content i).offset.toNat (Server.fragment content i).payload
    r'.background.size = content.length ∧
      r'.background.toList.take (i * maxPayload + (Server.chunk content i).length) =
        content.take (i * maxPayload + (Server.chunk content i).length) := by
  have hsize : (r.background.overwrite (i * maxPayload) (Server.chunk content i)).size =
      content.length := by
    rw [← Buffer.length_toList, Buffer.toList_overwrite, Bytes.length_overwrite,
      Buffer.length_toList, h.size]
  have hpayload : (Server.fragment content i).payload = Server.chunk content i := rfl
  have hstop := Server.start_add_length_chunk hi
  have hwithin : i * maxPayload + (Server.chunk content i).length ≤ r.background.toList.length := by
    have hstart := Server.start_lt hi
    rw [Buffer.length_toList, h.size, Server.length_chunk]
    omega
  rw [Server.offset_fragment hi hlength, hpayload]
  refine ⟨hsize, ?_⟩
  show (r.background.overwrite (i * maxPayload) (Server.chunk content i)).toList.take _ = _
  rw [Buffer.toList_overwrite]
  refine Bytes.take_overwrite h.front ?_ hwithin
  rw [Server.length_chunk, Server.chunk, List.take_eq_take_iff, List.length_drop]
  omega

/-- Any fragment but the last is put behind the earlier ones. -/
theorem place_next (h : Assembling r₀ r content i) (hi : i + 1 < Server.fragmentCount content)
    (hlength : content.length < UInt32.size) :
    ∃ r', r.place (Server.fragment content i) = (r', []) ∧ Assembling r₀ r' content (i + 1) := by
  have hi' : i < Server.fragmentCount content := Nat.lt_of_succ_lt hi
  have hne : i + 1 ≠ Server.fragmentCount content := Nat.ne_of_lt hi
  have hmore : (Server.fragment content i).isLast = false := by
    rw [Server.isLast_fragment hi' hlength]
    exact decide_eq_false hne
  obtain ⟨hsize, hfront⟩ := h.background hi' hlength
  refine ⟨r.write (Server.fragment content i).offset.toNat (Server.fragment content i).payload,
    ?_, ?_⟩
  · unfold place
    rw [if_neg (not_not_intro (h.size_eq hlength))]
    simp only [hmore, Bool.false_eq_true, if_false]
  · refine ⟨h.phase, h.expected, hsize, ?_, h.space, h.commits⟩
    rw [Server.start_add_length_chunk hi', if_neg hne] at hfront
    exact hfront

/-- The last fragment makes the content visible. -/
theorem place_last (h : Assembling r₀ r content i) (hi : i + 1 = Server.fragmentCount content)
    (hlength : content.length < UInt32.size) :
    ∃ r', r.place (Server.fragment content i) = (r', [completion r₀]) ∧
      Completed r₀ r' content := by
  have hi' : i < Server.fragmentCount content := by omega
  have hlast : (Server.fragment content i).isLast = true := by
    rw [Server.isLast_fragment hi' hlength]
    exact decide_eq_true hi
  obtain ⟨hsize, hfront⟩ := h.background hi' hlength
  obtain ⟨r', hr'⟩ : ∃ r', r' = r.write (Server.fragment content i).offset.toNat
    (Server.fragment content i).payload := ⟨_, rfl⟩
  rw [← hr'] at hsize hfront
  have hcontent : r'.background.toList = content := by
    rw [Server.start_add_length_chunk hi', if_pos hi, List.take_length,
      List.take_of_length_le (by rw [Buffer.length_toList]; exact Nat.le_of_eq hsize)] at hfront
    exact hfront
  have hphase : r'.phase = .receiving := by
    rw [hr']
    exact h.phase
  have hexpected : ContentHash.of content = r'.expected := by
    rw [hr']
    exact h.expected.symm
  have hspace : r'.space = r₀.space := by
    rw [hr']
    exact h.space
  have hcommits : r'.commits = r₀.commits := by
    rw [hr']
    exact h.commits
  have hfinish := finish_of_hash hphase hcontent hexpected
  rw [hspace, hcommits] at hfinish
  have hplace : r.place (Server.fragment content i) = r'.finish := by
    unfold place
    rw [if_neg (not_not_intro (h.size_eq hlength))]
    simp only [hlast, if_true, ← hr']
  rw [hplace, hfinish]
  exact ⟨_, rfl, rfl, rfl, rfl⟩

/-! ## Fragment by fragment -/

/-- The first fragment begins the transfer, whatever was going on. -/
theorem accept_first (r : Replica κ) (hpos : 0 < content.length)
    (hlength : content.length < UInt32.size) {limit : Nat} (hlimit : content.length ≤ limit) :
    r.accept (ContentHash.of content) (Server.fragment content 0) limit =
      (((r.start content.length (ContentHash.of content)).place (Server.fragment content 0)).1,
        .started content.length ::
          ((r.start content.length (ContentHash.of content)).place
            (Server.fragment content 0)).2) := by
  have hi := Server.fragmentCount_pos hpos
  have hsize := Server.contentSize_fragment hlength 0
  have hoffset := (Server.offset_fragment_eq_zero_iff hi hlength).mpr rfl
  unfold accept
  rw [if_neg (by rw [hsize]; omega), Server.validate_fragment hi hlength]
  simp only [hoffset, if_true, hsize]

/-- The others belong to the transfer in flight. -/
theorem accept_later (h : Assembling r₀ r content i) (hpos : 0 < i)
    (hi : i < Server.fragmentCount content) (hlength : content.length < UInt32.size) {limit : Nat}
    (hlimit : content.length ≤ limit) :
    r.accept (ContentHash.of content) (Server.fragment content i) limit =
      r.place (Server.fragment content i) := by
  have hsize := Server.contentSize_fragment hlength i
  have hoffset : ¬ (Server.fragment content i).offset = 0 := by
    rw [Server.offset_fragment_eq_zero_iff hi hlength]
    exact Nat.ne_of_gt hpos
  have hreceiving : r.isReceiving (ContentHash.of content) = true := by
    simp [isReceiving, h.phase, h.expected]
  unfold accept
  rw [if_neg (by rw [hsize]; omega), Server.validate_fragment hi hlength]
  simp only [hoffset, if_false, hreceiving, if_true]

end Placing

theorem takeAll_append (hash : ContentHash) (limit : Nat) (r : Replica κ)
    (fragments : List Fragment) (f : Fragment) :
    takeAll hash limit r (fragments ++ [f]) =
      (((takeAll hash limit r fragments).1.accept hash f limit).1,
        (takeAll hash limit r fragments).2 ++
          ((takeAll hash limit r fragments).1.accept hash f limit).2) := by
  rw [takeAll, List.foldl_append]
  rfl

/-- Some but not all of a content's fragments, in order. -/
theorem takeAll_some (r : Replica κ) {content : Bytes} (hlength : content.length < UInt32.size)
    {limit : Nat} (hlimit : content.length ≤ limit) (i : Nat)
    (hi : i + 1 < Server.fragmentCount content) :
    ∃ r', takeAll (ContentHash.of content) limit r
        ((List.range (i + 1)).map (Server.fragment content)) = (r', [.started content.length]) ∧
      Assembling r r' content (i + 1) := by
  induction i with
  | zero =>
    have hpos : 0 < content.length := by
      have hstart := Server.start_lt hi
      omega
    obtain ⟨r', hplace, hassembling⟩ :=
      place_next (start_assembling r content) hi hlength
    refine ⟨r', ?_, hassembling⟩
    show takeAll _ limit r ([] ++ [Server.fragment content 0]) = _
    rw [takeAll_append]
    show ((r.accept (ContentHash.of content) (Server.fragment content 0) limit).1,
      [] ++ (r.accept (ContentHash.of content) (Server.fragment content 0) limit).2) = _
    rw [accept_first r hpos hlength hlimit, hplace]
    rfl
  | succ i ih =>
    obtain ⟨r', htaken, hassembling⟩ := ih (by omega)
    obtain ⟨r'', hplace, hnext⟩ := place_next hassembling hi hlength
    refine ⟨r'', ?_, hnext⟩
    rw [List.range_succ, List.map_append, List.map_cons, List.map_nil, takeAll_append, htaken]
    simp only
    rw [accept_later hassembling (Nat.succ_pos i) (by omega) hlength hlimit, hplace]
    rfl

/-- All fragments of a content, in order, commit it once, whatever the replica was doing. -/
theorem takeAll_fragments (r : Replica κ) {content : Bytes} (hpos : 0 < content.length)
    (hlength : content.length < UInt32.size) {limit : Nat} (hlimit : content.length ≤ limit) :
    ∃ r', takeAll (ContentHash.of content) limit r
        ((List.range (Server.fragmentCount content)).map (Server.fragment content)) =
          (r', [.started content.length, completion r]) ∧
      Completed r r' content := by
  obtain ⟨n, hn⟩ : ∃ n, Server.fragmentCount content = n + 1 :=
    Nat.exists_eq_succ_of_ne_zero (Nat.ne_of_gt (Server.fragmentCount_pos hpos))
  rw [hn, List.range_succ, List.map_append, List.map_cons, List.map_nil, takeAll_append]
  cases n with
  | zero =>
    obtain ⟨r', hplace, hcompleted⟩ := place_last (start_assembling r content) hn.symm hlength
    refine ⟨r', ?_, hcompleted⟩
    show ((r.accept (ContentHash.of content) (Server.fragment content 0) limit).1,
      [] ++ (r.accept (ContentHash.of content) (Server.fragment content 0) limit).2) = _
    rw [accept_first r hpos hlength hlimit, hplace]
    rfl
  | succ n =>
    obtain ⟨r', htaken, hassembling⟩ := takeAll_some r hlength hlimit n (by omega)
    obtain ⟨r'', hplace, hcompleted⟩ := place_last hassembling hn.symm hlength
    refine ⟨r'', ?_, hcompleted⟩
    rw [htaken]
    simp only
    rw [accept_later hassembling (Nat.succ_pos n) (by omega) hlength hlimit, hplace]
    rfl

end Replica

end RomCast
