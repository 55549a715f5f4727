import RomCast.Replica

set_option autoImplicit false

/-!
# What a fragment does to what is visible

A fragment either leaves a replica's dataspace, its commit counter and its sessions alone, whatever
it does to the background buffer, or it makes one content visible.  A content that becomes visible
has the hash of the packet that brought its last fragment, is as long as that packet says, and is
signalled once to every session that has registered a capability (`accept_leaves_or_shows`).
-/

namespace RomCast.Replica

variable {κ : Type}

/-! ## What events tell -/

/-- How the transfer ended that an event tells of, if it tells of an end. -/
def Event.outcome? : Event κ → Option Outcome
  | .started _ => none
  | .finished outcome _ _ _ => some outcome

/-- How a packet's handling ended, by the events that came of it. -/
def outcome? (events : List (Event κ)) : Option Outcome := events.findSome? Event.outcome?

/-- The capabilities that events signal, in order. -/
def submitted (events : List (Event κ)) : List κ := events.flatMap Event.signals

/-- Nothing that anyone can see has changed. -/
structure Leaves (r r' : Replica κ) (events : List (Event κ)) : Prop where
  outcome : outcome? events ≠ some .committed
  space : r'.space = r.space
  commits : r'.commits = r.commits
  signals : submitted events = []

/-- A content has become visible, brought to its end by a fragment under a hash. -/
structure Shows (r r' : Replica κ) (events : List (Event κ)) (hash : ContentHash) (f : Fragment)
    (limit : Nat) (content : Bytes) : Prop where
  outcome : outcome? events = some .committed
  hash_eq : ContentHash.of content = hash
  length_eq : content.length = f.contentSize.toNat
  within_limit : f.contentSize.toNat ≤ limit
  isLast : f.isLast = true
  space : r'.space = r.space.publish content
  commits : r'.commits = r.commits + 1
  signals : submitted events = r.space.signals

/-- A transfer's beginning before the events that follow it tells of no end and signals nobody. -/
theorem Leaves.cons_started {r r' : Replica κ} {events : List (Event κ)} (h : Leaves r r' events)
    (length : Nat) : Leaves r r' (.started length :: events) :=
  ⟨h.outcome, h.space, h.commits, h.signals⟩

theorem Shows.cons_started {r r' : Replica κ} {events : List (Event κ)} {hash : ContentHash}
    {f : Fragment} {limit : Nat} {content : Bytes} (h : Shows r r' events hash f limit content)
    (length : Nat) : Shows r r' (.started length :: events) hash f limit content :=
  ⟨h.outcome, h.hash_eq, h.length_eq, h.within_limit, h.isLast, h.space, h.commits, h.signals⟩

/-! ## The steps of a transfer -/

theorem leaves_refl (r : Replica κ) : Leaves r r [] :=
  ⟨by simp [outcome?], rfl, rfl, rfl⟩

/-- Giving a transfer up concerns the background alone. -/
theorem abandon_leaves (r : Replica κ) : Leaves r r.abandon.1 r.abandon.2 := by
  by_cases h : r.phase = .receiving
  · constructor <;> simp [abandon, abort, h, outcome?, Event.outcome?, submitted, Event.signals]
  · constructor <;> simp [abandon, abort, h, outcome?, Event.outcome?, submitted, Event.signals]

/-- The end of a transfer shows its content exactly when the content has the expected hash. -/
theorem finish_leaves_or_shows (r : Replica κ) (f : Fragment) (limit : Nat)
    (hphase : r.phase = .receiving) (hsize : r.background.size = f.contentSize.toNat)
    (hlimit : f.contentSize.toNat ≤ limit) (hlast : f.isLast = true) :
    Leaves r r.finish.1 r.finish.2 ∨
      Shows r r.finish.1 r.finish.2 r.expected f limit r.background.toList := by
  by_cases hhash : ContentHash.of r.background.toList = r.expected
  · refine Or.inr ⟨?_, hhash, ?_, hlimit, hlast, ?_, ?_, ?_⟩
    · simp [finish, commit, hphase, hhash, outcome?, Event.outcome?]
    · rw [Buffer.length_toList, hsize]
    · simp [finish, commit, hphase, hhash]
    · simp [finish, commit, hphase, hhash]
    · simp [finish, commit, hphase, hhash, submitted, Event.signals]
  · refine Or.inl ⟨?_, ?_, ?_, ?_⟩
    · simp [finish, commit, hphase, hhash, outcome?, Event.outcome?]
    · simp [finish, commit, hphase, hhash]
    · simp [finish, commit, hphase, hhash]
    · simp [finish, commit, hphase, hhash, submitted, Event.signals]

/-- A buffer keeps its length while it is written into. -/
theorem size_overwrite (b : Buffer) (start : Nat) (new : Bytes) :
    (b.overwrite start new).size = b.size := by
  rw [← Buffer.length_toList, ← Buffer.length_toList, Buffer.toList_overwrite,
    Bytes.length_overwrite]

/-- Putting a fragment into the transfer in flight shows nothing, or what the buffer then holds. -/
theorem place_leaves_or_shows (r : Replica κ) (f : Fragment) (limit : Nat)
    (hphase : r.phase = .receiving) (hlimit : f.contentSize.toNat ≤ limit) :
    Leaves r (r.place f).1 (r.place f).2 ∨
      ∃ content, Shows r (r.place f).1 (r.place f).2 r.expected f limit content := by
  by_cases hsize : r.background.size = f.contentSize.toNat
  · have hwritten : (r.write f.offset.toNat f.payload).background.size = f.contentSize.toNat := by
      rw [write, size_overwrite, hsize]
    by_cases hlast : f.isLast = true
    · have hplace : r.place f = (r.write f.offset.toNat f.payload).finish := by
        simp [place, hsize, hlast]
      rw [hplace]
      rcases finish_leaves_or_shows (r.write f.offset.toNat f.payload) f limit hphase hwritten
        hlimit hlast with hleaves | hshows
      · exact Or.inl ⟨hleaves.outcome, hleaves.space, hleaves.commits, hleaves.signals⟩
      · exact Or.inr ⟨_, hshows.outcome, hshows.hash_eq, hshows.length_eq, hshows.within_limit,
          hshows.isLast, hshows.space, hshows.commits, hshows.signals⟩
    · have hplace : r.place f = (r.write f.offset.toNat f.payload, []) := by
        simp [place, hsize, hlast]
      rw [hplace]
      exact Or.inl ⟨by simp [outcome?], rfl, rfl, rfl⟩
  · have hplace : r.place f = r.abandon := by simp [place, hsize]
    rw [hplace]
    exact Or.inl (abandon_leaves r)

/-- A fragment shows nothing new, or a content with the hash and the length that its packet
announces. -/
theorem accept_leaves_or_shows (r : Replica κ) (hash : ContentHash) (f : Fragment) (limit : Nat) :
    Leaves r (r.accept hash f limit).1 (r.accept hash f limit).2 ∨
      ∃ content, Shows r (r.accept hash f limit).1 (r.accept hash f limit).2 hash f limit
        content := by
  by_cases hlimit : limit < f.contentSize.toNat
  · have haccept : r.accept hash f limit = (r, []) := by simp [accept, hlimit]
    rw [haccept]
    exact Or.inl (leaves_refl r)
  · have hwithin : f.contentSize.toNat ≤ limit := Nat.le_of_not_lt hlimit
    cases hvalid : f.validate with
    | error cause =>
      by_cases hmine : r.isReceiving hash = true
      · have haccept : r.accept hash f limit = r.abandon := by
          simp [accept, hlimit, hvalid, hmine]
        rw [haccept]
        exact Or.inl (abandon_leaves r)
      · have haccept : r.accept hash f limit = (r, []) := by
          simp [accept, hlimit, hvalid, hmine]
        rw [haccept]
        exact Or.inl (leaves_refl r)
    | ok _ =>
      by_cases hzero : f.offset = 0
      · -- A new transfer: what was in flight is given up, without anyone noticing.
        have haccept : r.accept hash f limit =
            (((r.start f.contentSize.toNat hash).place f).1,
              .started f.contentSize.toNat :: ((r.start f.contentSize.toNat hash).place f).2) := by
          simp [accept, hlimit, hvalid, hzero]
        rw [haccept]
        rcases place_leaves_or_shows (r.start f.contentSize.toNat hash) f limit rfl hwithin with
          hleaves | ⟨content, hshows⟩
        · have hsame : Leaves r ((r.start f.contentSize.toNat hash).place f).1
              ((r.start f.contentSize.toNat hash).place f).2 :=
            ⟨hleaves.outcome, hleaves.space, hleaves.commits, hleaves.signals⟩
          exact Or.inl (hsame.cons_started _)
        · have hsame : Shows r ((r.start f.contentSize.toNat hash).place f).1
              ((r.start f.contentSize.toNat hash).place f).2 hash f limit content :=
            ⟨hshows.outcome, hshows.hash_eq, hshows.length_eq, hshows.within_limit, hshows.isLast,
              hshows.space, hshows.commits, hshows.signals⟩
          exact Or.inr ⟨content, hsame.cons_started _⟩
      · by_cases hmine : r.isReceiving hash = true
        · have haccept : r.accept hash f limit = r.place f := by
            simp [accept, hlimit, hvalid, hzero, hmine]
          obtain ⟨hphase, hexpected⟩ : r.phase = .receiving ∧ r.expected = hash := by
            simpa [isReceiving] using hmine
          rw [haccept, ← hexpected]
          exact place_leaves_or_shows r f limit hphase hwithin
        · have haccept : r.accept hash f limit = (r, []) := by
            simp [accept, hlimit, hvalid, hzero, hmine]
          rw [haccept]
          exact Or.inl (leaves_refl r)

end RomCast.Replica
