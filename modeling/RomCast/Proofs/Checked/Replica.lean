import RomCast.Proofs.Checked.Step
import RomCast.Proofs.Replica.Reassembly

set_option autoImplicit false

/-!
# Checked replicas

A fragment says itself how large the content is, where in it the fragment lies and how many bytes
there are.  A buffer for a content may be asked for only within the client's limit; and a payload
may be copied into the buffer only where it fits, which it does because decoding cuts the payload to
the declared length and `validate` checks that length against the declared size.
-/

namespace RomCast

open RomCast.Checked

namespace ContentHash.Checked

/-- The first sixteen digits, for log lines. -/
def short (h : ContentHash) : Except Fault String := do return Text.hex (← slice h.bytes 0 8)

theorem short_eq (h : ContentHash) : short h = .ok h.short := by
  rw [short, slice_zero_eq (by rw [h.length_eq]; decide)]
  rfl

end ContentHash.Checked

namespace Fragment.Checked

/-- Where the fragment ends within the content, by its declared length. -/
def stop (f : Fragment) : Except Fault Nat := add f.offset.toNat f.payloadSize.toNat

/-- Whether the fragment reaches the end of the content. -/
def isLast (f : Fragment) : Except Fault Bool := do return f.contentSize.toNat ≤ (← stop f)

/-- A fragment is well-formed when its payload is not too long, complete, and within the content. -/
def validate (f : Fragment) : Except (Trap PacketError) Unit :=
  let declared := f.payloadSize.toNat
  if maxPayload < declared then .error (.failure (.payloadTooLarge declared))
  else if f.payload.length < declared then
    .error (.failure (.truncatedPayload declared f.payload.length))
  else do
    let stop ← stop f
    if f.contentSize.toNat < stop then
      .error (.failure (.outOfBounds f.offset declared f.contentSize))
    else .ok ()

theorem stop_eq (f : Fragment) : stop f = .ok f.stop := by
  have hoffset := f.offset.toNat_lt
  have hdeclared := f.payloadSize.toNat_lt
  exact add_eq (by omega)

theorem isLast_eq (f : Fragment) : isLast f = .ok f.isLast := by
  rw [isLast, stop_eq]
  rfl

theorem validate_eq (f : Fragment) : validate f = f.validate.mapError Trap.failure := by
  simp only [validate, Fragment.validate, stop_eq, lift_ok, pure_bind]
  split
  · rfl
  · split
    · rfl
    · split <;> rfl

end Fragment.Checked

namespace Replica

variable {κ : Type} {r : Replica κ}

namespace Checked

/-- Begin a transfer of `length` bytes, no more than `limit` of which may be asked for. -/
def start (r : Replica κ) (length : Nat) (expected : ContentHash) (limit : Nat) :
    Except Fault (Replica κ) :=
  if length ≤ limit then .ok (r.start length expected) else .error (.overAllocated length limit)

/-- Finish the transfer in flight: content with the announced hash becomes visible. -/
def commit (r : Replica κ) : Except Fault (Outcome × List κ × Replica κ) :=
  let content := r.background.toList
  let actual := ContentHash.of content
  if r.phase ≠ .receiving then return (.idle, [], r)
  else if actual ≠ r.expected then do
    let _ ← ContentHash.Checked.short r.expected
    let _ ← ContentHash.Checked.short actual
    return (.rejected, [], { r with phase := .rejected })
  else do
    let commits ← tick r.commits
    let _ ← ContentHash.Checked.short actual
    return (.committed, r.space.signals,
      { r with
        space := r.space.publish content
        background := .empty
        phase := .committed
        commits })

/-- Finish the transfer in flight, and say so. -/
def finish (r : Replica κ) : Except Fault (Replica κ × List (Event κ)) := do
  let (outcome, signals, r) ← commit r
  return (r, [.finished outcome r.phase r.commits signals])

/-- Copy a fragment's payload into the background of a transfer of its size, and finish the transfer
when the fragment is the last; a transfer of another size is given up. -/
def place (r : Replica κ) (f : Fragment) : Except Fault (Replica κ × List (Event κ)) :=
  if r.background.size ≠ f.contentSize.toNat then return r.abandon
  else do
    let start := f.offset.toNat
    fits r.background.size start (← add start f.payload.length) f.payload
    let r := r.write start f.payload
    if ← Fragment.Checked.isLast f then finish r else return (r, [])

/-- Take a fragment of the content with this hash. -/
def accept (r : Replica κ) (hash : ContentHash) (f : Fragment) (limit : Nat) :
    Except Fault (Replica κ × List (Event κ)) :=
  if limit < f.contentSize.toNat then return (r, [])
  else match Fragment.Checked.validate f with
    | .error (.fault cause) => .error cause
    | .error (.failure _) => return if r.isReceiving hash then r.abandon else (r, [])
    | .ok () =>
        if f.offset = 0 then do
          let size := f.contentSize.toNat
          let (r, events) ← place (← start r size hash limit) f
          return (r, .started size :: events)
        else if r.isReceiving hash then place r f
        else return (r, [])

theorem commit_counts (r : Replica κ) : Counts (2 ^ 64 ≤ r.commits + 1) (commit r) r.commit := by
  simp only [commit, Replica.commit, ContentHash.Checked.short_eq]
  split
  · exact counts_ok _
  · split
    · exact counts_ok _
    · exact (counts_tick r.commits).map rfl

theorem finish_counts (r : Replica κ) : Counts (2 ^ 64 ≤ r.commits + 1) (finish r) r.finish :=
  (commit_counts r).map rfl

/-- A payload of the declared length lies within the content when the fragment is well-formed. -/
theorem place_counts {f : Fragment} (hvalid : f.validate = .ok ())
    (hpayload : f.payload.length ≤ f.payloadSize.toNat) :
    Counts (2 ^ 64 ≤ r.commits + 1) (place r f) (r.place f) := by
  by_cases hsize : r.background.size ≠ f.contentSize.toNat
  · rw [place, if_pos hsize, Replica.place, if_pos hsize]
    exact counts_ok _
  have hoffset := f.offset.toNat_lt
  have hdeclared := f.payloadSize.toNat_lt
  have hstop : f.offset.toNat + f.payloadSize.toNat ≤ f.contentSize.toNat :=
    stop_le_of_valid hvalid
  have hadd : add f.offset.toNat f.payload.length = .ok (f.offset.toNat + f.payload.length) :=
    add_eq (by omega)
  have hfits : fits r.background.size f.offset.toNat (f.offset.toNat + f.payload.length)
      f.payload = .ok () := fits_eq rfl (by omega)
  simp only [place, if_neg hsize, Replica.place, hadd, hfits, ok_bind, Fragment.Checked.isLast_eq]
  split
  · exact finish_counts (r.write f.offset.toNat f.payload)
  · exact counts_ok _

/-- A checked replica takes a decoded fragment as the replica does, as long as its commits can be
counted. -/
theorem accept_counts {hash : ContentHash} {f : Fragment} {limit : Nat}
    (hpayload : f.payload.length ≤ f.payloadSize.toNat) :
    Counts (2 ^ 64 ≤ r.commits + 1) (accept r hash f limit) (r.accept hash f limit) := by
  unfold accept Replica.accept
  by_cases hlimit : limit < f.contentSize.toNat
  · simp only [if_pos hlimit]
    exact counts_ok _
  simp only [if_neg hlimit, Fragment.Checked.validate_eq]
  cases hvalid : f.validate with
  | error cause => exact counts_ok _
  | ok _ =>
    have hstart : start r f.contentSize.toNat hash limit = .ok (r.start f.contentSize.toNat hash) :=
      if_pos (Nat.not_lt.mp hlimit)
    simp only [Action.except_mapError_ok, hstart, ok_bind]
    split
    · exact (place_counts (r := r.start f.contentSize.toNat hash) hvalid hpayload).map rfl
    · split
      · exact place_counts hvalid hpayload
      · exact counts_ok _

end Checked

/-! ## What a replica holds -/

/-- A replica whose buffer stays within the limit, with at most so many commits. -/
structure Modest (limit commits : Nat) (r : Replica κ) : Prop where
  size_le : r.background.size ≤ limit
  commits_le : r.commits ≤ commits

variable {limit commits : Nat}

theorem Modest.mono {commits' : Nat} (h : Modest limit commits r) (hle : commits ≤ commits') :
    Modest limit commits' r :=
  ⟨h.size_le, Nat.le_trans h.commits_le hle⟩

theorem Modest.start {length : Nat} (h : Modest limit commits r) (hlength : length ≤ limit)
    (expected : ContentHash) : Modest limit commits (r.start length expected) := by
  refine ⟨?_, h.commits_le⟩
  rw [Replica.start, ← Buffer.length_toList, Buffer.toList_resize, Bytes.length_resize]
  exact hlength

theorem Modest.write (h : Modest limit commits r) (offset : Nat) (bytes : Bytes) :
    Modest limit commits (r.write offset bytes) := by
  refine ⟨?_, h.commits_le⟩
  rw [Replica.write, size_overwrite]
  exact h.size_le

theorem Modest.abandon (h : Modest limit commits r) : Modest limit commits r.abandon.1 := by
  unfold Replica.abandon Replica.abort
  by_cases hphase : r.phase = .receiving
  · rw [if_pos hphase]
    exact ⟨Nat.zero_le limit, h.commits_le⟩
  · rw [if_neg hphase]
    exact h

theorem Modest.finish (h : Modest limit commits r) : Modest limit (commits + 1) r.finish.1 := by
  unfold Replica.finish Replica.commit
  by_cases hphase : r.phase ≠ .receiving
  · simp only [if_pos hphase]
    exact h.mono (Nat.le_succ commits)
  · by_cases hhash : ContentHash.of r.background.toList ≠ r.expected
    · simp only [if_neg hphase, if_pos hhash]
      exact ⟨h.size_le, Nat.le_succ_of_le h.commits_le⟩
    · simp only [if_neg hphase, if_neg hhash]
      exact ⟨Nat.zero_le limit, Nat.succ_le_succ h.commits_le⟩

theorem Modest.place (h : Modest limit commits r) (f : Fragment) :
    Modest limit (commits + 1) (r.place f).1 := by
  unfold Replica.place
  by_cases hsize : r.background.size ≠ f.contentSize.toNat
  · rw [if_pos hsize]
    exact h.abandon.mono (Nat.le_succ commits)
  · simp only [if_neg hsize]
    by_cases hlast : f.isLast = true
    · rw [if_pos hlast]
      exact (h.write f.offset.toNat f.payload).finish
    · rw [if_neg hlast]
      exact (h.write f.offset.toNat f.payload).mono (Nat.le_succ commits)

/-- A fragment makes no buffer longer than the limit, and commits at most once. -/
theorem Modest.accept (h : Modest limit commits r) (hash : ContentHash) (f : Fragment) :
    Modest limit (commits + 1) (r.accept hash f limit).1 := by
  have hsame : Modest limit (commits + 1) r := h.mono (Nat.le_succ commits)
  unfold Replica.accept
  by_cases hlimit : limit < f.contentSize.toNat
  · rw [if_pos hlimit]
    exact hsame
  rw [if_neg hlimit]
  cases f.validate with
  | error cause =>
    by_cases hmine : r.isReceiving hash = true
    · simp only [if_pos hmine]
      exact h.abandon.mono (Nat.le_succ commits)
    · simp only [if_neg hmine]
      exact hsame
  | ok _ =>
    by_cases hzero : f.offset = 0
    · simp only [if_pos hzero]
      exact (h.start (Nat.not_lt.mp hlimit) hash).place f
    · by_cases hmine : r.isReceiving hash = true
      · simp only [if_neg hzero, if_pos hmine]
        exact h.place f
      · simp only [if_neg hzero, if_neg hmine]
        exact hsame

end Replica

end RomCast
