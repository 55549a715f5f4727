import RomCast.Proofs.Message.RoundTrip
import RomCast.Proofs.Replica.Reassembly

set_option autoImplicit false

/-!
# What can disturb a transfer

A transfer that is in flight can be replaced, given up, or go on.  It is replaced by a well-formed
fragment at offset zero, whatever hash that carries.  Otherwise it is concerned only by fragments
with its own hash: one that is malformed, or that declares another size, makes it be given up, and
any other writes its payload into the background and nothing else, and has the transfer verified if
it ends where the content ends.  Every other fragment, and every fragment of a content that is too
large, leaves the replica as it is (`only_own_fragments_disturb`).
-/

namespace RomCast

/-- A well-formed fragment carries all the bytes that it declares. -/
theorem Fragment.le_length_of_valid {f : Fragment} (h : f.validate = .ok ()) :
    f.payloadSize.toNat ≤ f.payload.length :=
  (f.validate_eq_ok_iff.mp h).2.1

/-- A fragment may begin a transfer: it is well-formed, and the first of its content. -/
def Fragment.Begins (f : Fragment) : Prop := f.validate = .ok () ∧ f.offset = 0

namespace Replica

variable {κ : Type} {r : Replica κ} {hash : ContentHash} {f : Fragment} {limit : Nat}

/-! ## What may become of a transfer -/

/-- A fragment's payload lies where it belongs in the transfer's background, and everything else is
as it was. -/
structure Written (r w : Replica κ) (f : Fragment) : Prop where
  phase : w.phase = r.phase
  expected : w.expected = r.expected
  commits : w.commits = r.commits
  space : w.space = r.space
  size : w.background.size = r.background.size
  whole : f.payload.length = f.payloadSize.toNat
  within : ∀ i < f.payloadSize.toNat,
    w.background.toList[f.offset.toNat + i]? = f.payload[i]?
  outside : ∀ i, i < f.offset.toNat ∨ f.stop ≤ i →
    w.background.toList[i]? = r.background.toList[i]?

/-- A transfer has been verified, once: a background with the announced hash becomes visible, any
other is rejected. -/
inductive Verified (w : Replica κ) : Replica κ → List (Event κ) → Prop
  | committed (hhash : ContentHash.of w.background.toList = w.expected) :
      Verified w
        { space := w.space.publish w.background.toList
          background := .empty
          expected := w.expected
          phase := .committed
          commits := w.commits + 1 }
        [.finished .committed .committed (w.commits + 1) w.space.signals]
  | rejected (hhash : ContentHash.of w.background.toList ≠ w.expected) :
      Verified w { w with phase := .rejected } [.finished .rejected .rejected w.commits []]

/-- A transfer goes on with a fragment: the payload is written, and the transfer is verified exactly
if the fragment ends where the content ends. -/
def Continues (r : Replica κ) (f : Fragment) (r' : Replica κ) (events : List (Event κ)) : Prop :=
  ∃ w, Written r w f ∧
    (f.stop = r.background.size → Verified w r' events) ∧
    (f.stop ≠ r.background.size → r' = w ∧ events = [])

/-- A transfer has been given up; what was visible stays. -/
structure GivenUp (r r' : Replica κ) (events : List (Event κ)) : Prop where
  state : r' = { r with background := .empty, phase := .idle }
  events : events = [.finished .aborted .idle r.commits []]

/-- A transfer with this hash and of this size has begun, in place of an earlier one. -/
structure Begun (r o : Replica κ) (hash : ContentHash) (size : Nat) : Prop where
  phase : o.phase = .receiving
  expected : o.expected = hash
  background : o.background.toList = r.background.toList.resize size
  size : o.background.size = size
  commits : o.commits = r.commits
  space : o.space = r.space

/-- The transfer in flight has been replaced by the one that a fragment begins, which then goes on
with that fragment. -/
def Replaced (r : Replica κ) (hash : ContentHash) (f : Fragment) (r' : Replica κ)
    (events : List (Event κ)) : Prop :=
  ∃ o rest, Begun r o hash f.contentSize.toNat ∧ Continues o f r' rest ∧
    events = .started f.contentSize.toNat :: rest

/-! ## Steps of a transfer -/

theorem start_begun (r : Replica κ) (size : Nat) (hash : ContentHash) :
    Begun r (r.start size hash) hash size := by
  refine ⟨rfl, rfl, Buffer.toList_resize _ _, ?_, rfl, rfl⟩
  rw [start, ← Buffer.length_toList, Buffer.toList_resize, Bytes.length_resize]

theorem write_written (hvalid : f.validate = .ok ())
    (hdecoded : f.payload.length ≤ f.payloadSize.toNat)
    (hsize : r.background.size = f.contentSize.toNat) :
    Written r (r.write f.offset.toNat f.payload) f := by
  have hwhole : f.payload.length = f.payloadSize.toNat :=
    Nat.le_antisymm hdecoded (Fragment.le_length_of_valid hvalid)
  have hstop : f.offset.toNat + f.payload.length = f.stop := by rw [hwhole, Fragment.stop]
  have hfits : f.offset.toNat + f.payload.length ≤ r.background.toList.length := by
    rw [hstop, Buffer.length_toList, hsize]
    exact stop_le_of_valid hvalid
  refine ⟨rfl, rfl, rfl, rfl, size_overwrite _ _ _, hwhole, ?_, ?_⟩
  · intro i hi
    rw [write, Buffer.toList_overwrite,
      Bytes.getElem?_overwrite_within hfits (Nat.le_add_right _ _) (by omega),
      Nat.add_sub_cancel_left]
  · intro i hout
    rw [write, Buffer.toList_overwrite, Bytes.getElem?_overwrite_outside (by omega)]

theorem finish_verified {w : Replica κ} (hphase : w.phase = .receiving) :
    Verified w w.finish.1 w.finish.2 := by
  by_cases hhash : ContentHash.of w.background.toList = w.expected
  · rw [finish_of_hash hphase rfl hhash]
    exact .committed hhash
  · have hfinish : w.finish =
        ({ w with phase := .rejected }, [.finished .rejected .rejected w.commits []]) := by
      simp only [finish, commit, hphase, hhash, ne_eq, not_true_eq_false, not_false_eq_true,
        if_true, if_false]
    rw [hfinish]
    exact .rejected hhash

theorem abandon_givenUp (hphase : r.phase = .receiving) :
    GivenUp r r.abandon.1 r.abandon.2 := by
  have habandon : r.abandon = ({ r with background := .empty, phase := .idle },
      [.finished .aborted .idle r.commits []]) := by
    simp only [abandon, abort, hphase, if_true]
  rw [habandon]
  exact ⟨rfl, rfl⟩

/-- A well-formed fragment of the size of the transfer. -/
theorem place_continues (hphase : r.phase = .receiving) (hvalid : f.validate = .ok ())
    (hdecoded : f.payload.length ≤ f.payloadSize.toNat)
    (hsize : r.background.size = f.contentSize.toNat) :
    Continues r f (r.place f).1 (r.place f).2 := by
  refine ⟨_, write_written hvalid hdecoded hsize, ?_, ?_⟩
  · intro hends
    have hlast : f.isLast = true := decide_eq_true (by omega)
    have hplace : r.place f = (r.write f.offset.toNat f.payload).finish := by
      simp only [place, hsize, hlast, ne_eq, not_true_eq_false, if_false, if_true]
    rw [hplace]
    exact finish_verified hphase
  · intro hends
    have hstop := stop_le_of_valid hvalid
    have hlast : f.isLast = false := decide_eq_false (by omega)
    have hplace : r.place f = (r.write f.offset.toNat f.payload, []) := by
      simp only [place, hsize, hlast, ne_eq, not_true_eq_false, if_false, Bool.false_eq_true]
    rw [hplace]
    exact ⟨rfl, rfl⟩

theorem Continues.not_givenUp {r' : Replica κ} {events : List (Event κ)}
    (h : Continues r f r' events) : ¬ GivenUp r r' events := by
  intro hgiven
  obtain ⟨w, -, hverified, hsilent⟩ := h
  by_cases hends : f.stop = r.background.size
  · cases hverified hends with
    | committed hhash => cases hgiven.events
    | rejected hhash => cases hgiven.events
  · obtain ⟨-, hnone⟩ := hsilent hends
    cases hnone.symm.trans hgiven.events

/-! ## Any fragment -/

theorem accept_begins (hlimit : f.contentSize.toNat ≤ limit) (hbegins : f.Begins)
    (hdecoded : f.payload.length ≤ f.payloadSize.toNat) :
    Replaced r hash f (r.accept hash f limit).1 (r.accept hash f limit).2 := by
  obtain ⟨hvalid, hzero⟩ := hbegins
  have haccept : r.accept hash f limit =
      (((r.start f.contentSize.toNat hash).place f).1,
        .started f.contentSize.toNat :: ((r.start f.contentSize.toNat hash).place f).2) := by
    simp only [accept, Nat.not_lt.mpr hlimit, hvalid, hzero, if_false, if_true]
  have hbegun := start_begun r f.contentSize.toNat hash
  rw [haccept]
  exact ⟨_, _, hbegun, place_continues rfl hvalid hdecoded hbegun.size, rfl⟩

/-- A fragment that begins no transfer concerns the one it belongs to, and no other. -/
theorem accept_of_not_begins (hlimit : f.contentSize.toNat ≤ limit) (hbegins : ¬ f.Begins)
    (hreceiving : r.phase = .receiving) :
    r.accept hash f limit =
      if hash ≠ r.expected then (r, [])
      else match f.validate with
        | .ok () => r.place f
        | .error _ => r.abandon := by
  have hmine : r.isReceiving hash = decide (r.expected = hash) := by
    simp only [isReceiving, hreceiving, decide_true, Bool.true_and]
  cases hvalid : f.validate with
  | error cause =>
    by_cases hhash : r.expected = hash
    · simp only [accept, Nat.not_lt.mpr hlimit, hvalid, hmine, hhash, decide_true, if_true,
        if_false, ne_eq, not_true_eq_false]
    · simp only [accept, Nat.not_lt.mpr hlimit, hvalid, hmine, hhash, Ne.symm hhash, decide_false,
        if_true, if_false, ne_eq, not_false_eq_true, Bool.false_eq_true]
  | ok _ =>
    have hoffset : f.offset ≠ 0 := fun hzero => hbegins ⟨hvalid, hzero⟩
    by_cases hhash : r.expected = hash
    · simp only [accept, Nat.not_lt.mpr hlimit, hvalid, hmine, hhash, hoffset, decide_true, if_true,
        if_false, ne_eq, not_true_eq_false]
    · simp only [accept, Nat.not_lt.mpr hlimit, hvalid, hmine, hhash, Ne.symm hhash, hoffset,
        decide_false, if_true, if_false, ne_eq, not_false_eq_true, Bool.false_eq_true]

/-- A fragment of the transfer in flight that does not begin it again. -/
theorem accept_own (hlimit : f.contentSize.toNat ≤ limit) (hbegins : ¬ f.Begins)
    (hreceiving : r.phase = .receiving) (hdecoded : f.payload.length ≤ f.payloadSize.toNat) :
    let result := r.accept r.expected f limit
    let torn := f.validate ≠ .ok () ∨ f.contentSize.toNat ≠ r.background.size
    (torn → GivenUp r result.1 result.2) ∧ (¬ torn → Continues r f result.1 result.2) := by
  intro result torn
  have haccept : result = match f.validate with
      | .ok () => r.place f
      | .error _ => r.abandon := by
    show r.accept r.expected f limit = _
    rw [accept_of_not_begins hlimit hbegins hreceiving, if_neg (not_not_intro rfl)]
  refine ⟨?_, ?_⟩
  · intro htorn
    have habandon : result = r.abandon := by
      rw [haccept]
      cases hvalid : f.validate with
      | error cause => rfl
      | ok _ =>
        have hsize := htorn.resolve_left (not_not_intro hvalid)
        exact if_pos (Ne.symm hsize)
    rw [habandon]
    exact abandon_givenUp hreceiving
  · intro hwhole
    obtain ⟨hvalid, hsize⟩ := not_or.mp hwhole
    rw [haccept, not_not.mp hvalid]
    exact place_continues hreceiving (not_not.mp hvalid) hdecoded (not_not.mp hsize).symm

/-- A transfer is in flight, and a decoded fragment arrives with a hash.  Unless the fragment's
content is within the limit, and the fragment may begin a transfer or carries the hash of the
transfer, nothing changes and nothing happens.  If it may begin a transfer, that takes the place of
the one in flight.  If it does not but carries the transfer's hash, the transfer is given up exactly
if the fragment is malformed or declares another size; otherwise the payload is written, nothing
else, and the transfer is verified exactly if the fragment ends where the content ends. -/
theorem only_own_fragments_disturb (r : Replica κ) (limit : Nat) {bytes : Bytes} {m : Message}
    {f : Fragment} (hreceiving : r.phase = .receiving) (hdecode : Message.decode bytes = .ok m)
    (hbody : m.body = .data f) :
    let result := r.accept m.contentHash f limit
    let own := m.contentHash = r.expected
    let torn := f.validate ≠ .ok () ∨ f.contentSize.toNat ≠ r.background.size
    (¬ (f.contentSize.toNat ≤ limit ∧ (f.Begins ∨ own)) → result = (r, [])) ∧
    (f.contentSize.toNat ≤ limit → f.Begins → Replaced r m.contentHash f result.1 result.2) ∧
    (f.contentSize.toNat ≤ limit → own → ¬ f.Begins →
      (GivenUp r result.1 result.2 ↔ torn) ∧ (¬ torn → Continues r f result.1 result.2)) := by
  intro result own torn
  have hdecoded := Message.length_payload_le hdecode hbody
  refine ⟨?_, ?_, ?_⟩
  · intro hstranger
    by_cases hlimit : f.contentSize.toNat ≤ limit
    · obtain ⟨hbegins, hother⟩ := not_or.mp (not_and.mp hstranger hlimit)
      show r.accept m.contentHash f limit = _
      rw [accept_of_not_begins hlimit hbegins hreceiving, if_pos hother]
    · show r.accept m.contentHash f limit = _
      rw [accept, if_pos (Nat.lt_of_not_le hlimit)]
  · intro hlimit hbegins
    exact accept_begins hlimit hbegins hdecoded
  · intro hlimit hown hbegins
    have hhash : result = r.accept r.expected f limit := by rw [← hown]
    obtain ⟨htorn, hgoes⟩ := accept_own hlimit hbegins hreceiving hdecoded
    rw [← hhash] at htorn hgoes
    refine ⟨⟨?_, htorn⟩, hgoes⟩
    intro hgiven
    by_contra hwhole
    exact (hgoes hwhole).not_givenUp hgiven

/-- A fragment that belongs to a transfer of four bytes, but speaks of five. -/
theorem resized_fragment_gives_up :
    let r : Replica Unit := (new ⟨"rom", ModuleName.valid_rom⟩ none).start 4 ContentHash.zero
    let f : Fragment := .carrying 5 2 [3, 4]
    let m : Message := ⟨⟨"rom", ModuleName.valid_rom⟩, ContentHash.zero, .data f⟩
    r.phase = .receiving ∧ Message.decode (m.bytes ++ [0]) = .ok m ∧
      GivenUp r (r.accept m.contentHash f 16).1 (r.accept m.contentHash f 16).2 := by
  intro r f m
  have hdecode : Message.decode (m.bytes ++ [0]) = .ok m :=
    Message.decode_bytes_append m ⟨rfl, by decide⟩ [0]
  have hbegins : ¬ f.Begins := fun h => absurd h.2 (by decide)
  have hsize : f.contentSize.toNat ≠ r.background.size := by decide +kernel
  obtain ⟨-, -, hown⟩ := only_own_fragments_disturb r 16 rfl hdecode rfl
  exact ⟨rfl, hdecode, (hown (by decide) rfl hbegins).1.mpr (Or.inr hsize)⟩

end Replica

end RomCast
