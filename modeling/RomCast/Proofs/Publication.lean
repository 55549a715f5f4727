import Mathlib.Data.List.Induction
import RomCast.Proofs.Bytes.Overwrite
import RomCast.Proofs.ModuleName
import RomCast.Publication

set_option autoImplicit false

/-!
# What the holders of a publication see

A transfer writes what there is to the front of a place and leaves the rest of it; transfers one
behind the other, up to the first short one, return the content (`Publication.transfers`).  Whatever
the holders of a publication have given it and withdrawn, in any order, each of them sees the
content given last, or the default, and its size, hash and transfers are those of that content
(`Holdings.holders_see_last_given`).
-/

namespace RomCast

/-! ## Transfers -/

/-- Pieces of `n` bytes, one behind the other. -/
theorem Bytes.flatMap_pieces (b : Bytes) (n k : Nat) :
    ((List.range k).flatMap fun i => (b.drop (i * n)).take n) = b.take (k * n) := by
  induction k with
  | zero => simp
  | succ k ih =>
    rw [List.range_succ, List.flatMap_append, ih, List.flatMap_singleton, Nat.succ_mul,
      List.take_add]

namespace Publication

/-- The bytes that a transfer returns. -/
def taken (p : Publication) (offset : Nat) (place : Bytes) : Bytes :=
  (p.transferInto offset place).2.take (p.transferInto offset place).1

/-- The transfers of a content. -/
structure Transfers (p : Publication) (content : Bytes) : Prop where
  /-- A place is filled as far as the content goes. -/
  count : ∀ offset place, (p.transferInto offset place).1 =
    min place.length (content.length - offset)
  /-- What is returned is the content's part from the offset on. -/
  taken : ∀ offset place, p.taken offset place = (content.drop offset).take place.length
  /-- Nothing else in the place is touched. -/
  rest : ∀ offset place, (p.transferInto offset place).2.length = place.length ∧
    (p.transferInto offset place).2.drop (p.transferInto offset place).1 =
      place.drop (p.transferInto offset place).1
  /-- There is nothing at the end and behind it. -/
  past : ∀ offset place, content.length ≤ offset → p.transferInto offset place = (0, place)
  /-- Transfers into places of one length, up to the first short one, return the content. -/
  whole : ∀ n, 1 ≤ n → ∀ places : Nat → Bytes, (∀ i, (places i).length = n) → ∃ k,
    (∀ i < k, (p.transferInto (i * n) (places i)).1 = n) ∧
    (p.transferInto (k * n) (places k)).1 < n ∧
    ((List.range (k + 1)).flatMap fun i => p.taken (i * n) (places i)) = content

variable (p : Publication)

theorem length_transfer (room offset : Nat) :
    (p.transfer room offset).length = min room (p.content.length - offset) := by
  rw [transfer, List.length_take, List.length_drop]

theorem snd_transferInto (offset : Nat) (place : Bytes) :
    (p.transferInto offset place).2 = p.transfer place.length offset ++
      place.drop (p.transfer place.length offset).length :=
  Bytes.overwrite_zero_of_le (by rw [length_transfer]; exact Nat.min_le_left ..)

theorem taken_eq (offset : Nat) (place : Bytes) :
    p.taken offset place = (p.content.drop offset).take place.length := by
  rw [taken, snd_transferInto]
  exact List.take_left

theorem transfers : p.Transfers p.content where
  count offset place := p.length_transfer place.length offset
  taken := p.taken_eq
  rest offset place := by
    refine ⟨Bytes.length_overwrite .., ?_⟩
    rw [snd_transferInto]
    exact List.drop_left
  past offset place hpast := by
    have hnothing : p.transfer place.length offset = [] := by
      rw [transfer, List.drop_eq_nil_of_le hpast, List.take_nil]
    refine Prod.ext (congrArg List.length hnothing) ?_
    rw [snd_transferInto, hnothing]
    rfl
  whole n hn places hplaces := by
    -- As many transfers are full as `n` goes into the content's length.
    have hcount : ∀ i, (p.transferInto (i * n) (places i)).1 =
        min n (p.content.length - i * n) := fun i => by
      rw [← hplaces i]
      exact p.length_transfer ..
    have hend := Nat.lt_div_mul_add (a := p.content.length) hn
    refine ⟨p.content.length / n, fun i hi => ?_, ?_, ?_⟩
    · have hnext : (i + 1) * n ≤ p.content.length :=
        Nat.le_trans (Nat.mul_le_mul_right n hi) (Nat.div_mul_le_self ..)
      rw [Nat.succ_mul] at hnext
      rw [hcount]
      omega
    · rw [hcount]
      omega
    · simp only [taken_eq, hplaces]
      rw [Bytes.flatMap_pieces, List.take_of_length_le]
      rw [Nat.succ_mul]
      omega

end Publication

/-! ## Feeding a publication -/

/-- The content that is live afterwards. -/
def Feed.live : Feed → Option Bytes
  | .give content => some content
  | .withdraw => none

/-- The content given last, unless it has been withdrawn. -/
def Feed.latest (feeds : List Feed) : Option Bytes := feeds.getLast?.bind Feed.live

namespace Publication

/-- A publication after it has been fed. -/
def fed (p : Publication) (feeds : List Feed) : Publication :=
  feeds.foldl (fun p what => (p.feed what).2) p

theorem map_fed_nil (p? : Option Publication) : p?.map (·.fed []) = p? := by
  cases p? <;> rfl

theorem fed_append (p : Publication) (feeds more : List Feed) :
    p.fed (feeds ++ more) = (p.fed feeds).fed more := List.foldl_append

theorem feed_withLive (p : Publication) (live : Option Bytes) (what : Feed) :
    ((p.withLive live).feed what).2 = p.withLive what.live := by
  cases what with
  | give content => rfl
  | withdraw => cases live <;> rfl

/-- Only what was given last, or withdrawn, shows. -/
theorem fed_new (name : ModuleName) (binary : Bool) (default : Option Bytes) (feeds : List Feed) :
    (new name binary default).fed feeds =
      (new name binary default).withLive (Feed.latest feeds) := by
  induction feeds using List.reverseRecOn with
  | nil => rfl
  | append_singleton feeds what ih =>
    have hlast : Feed.latest (feeds ++ [what]) = what.live := by
      rw [Feed.latest, List.getLast?_concat, Option.bind_some]
    rw [fed_append, ih, hlast]
    exact feed_withLive ..

/-- The answer to a feed is whether the hash has become another. -/
theorem fst_feed (p : Publication) (what : Feed) :
    (p.feed what).1 = true ↔ (p.feed what).2.hash ≠ p.hash := by
  cases what with
  | give content => exact decide_eq_true_iff.trans ne_comm
  | withdraw =>
    unfold feed clear
    dsimp only
    cases p.live with
    | none => exact iff_of_false Bool.false_ne_true (not_not_intro rfl)
    | some content => exact decide_eq_true_iff.trans ne_comm

/-- Of what a publication was given it serves all, or a text up to the first zero byte. -/
def Cut (binary : Bool) (given content : Bytes) : Prop :=
  match binary with
  | true => content = given
  | false => ((0 : UInt8) ∉ given ∧ content = given) ∨
      ∃ n, given.FirstNul n ∧ content = given.take n

theorem cut_effective (binary : Bool) (given : Bytes) :
    Cut binary given (effective binary given) := by
  cases binary with
  | true => rfl
  | false => exact Bytes.untilNul_cases given

/-- A publication under a name that serves what it was given. -/
structure Presents (p : Publication) (name : ModuleName) (binary : Bool) (given : Bytes) :
    Prop where
  name : p.name = name
  content : Cut binary given p.content
  size : ContentSource.size p = p.content.length
  hash : ContentSource.hash p = ContentHash.of p.content
  transfers : p.Transfers p.content

theorem fed_presents (name : ModuleName) (binary : Bool) (default : Option Bytes)
    (feeds : List Feed) :
    ((new name binary default).fed feeds).Presents name binary
      (((Feed.latest feeds).or default).getD []) := by
  rw [fed_new]
  exact ⟨rfl, cut_effective .., rfl, rfl, transfers _⟩

end Publication

namespace Holdings

/-! ## Feeding what is shared -/

/-- What happens to holdings. -/
inductive Act where
  | publish (name : ModuleName) (binary : Bool) (default : Option Bytes)
  | share (holder : Nat)
  | feed (holder : Nat) (what : Feed)

def act (s : Holdings) : Act → Holdings
  | .publish name binary default => s.publish name binary default
  | .share holder => s.share holder
  | .feed holder what => (s.feed holder what).2

def after (s : Holdings) (acts : List Act) : Holdings := acts.foldl act s

/-- What a publication is fed in one act: it must come from one of its holders. -/
def fedBy (s : Holdings) (i : Nat) : Act → List Feed
  | .feed holder what => if s.holders[holder]? = some i then [what] else []
  | .publish .. | .share _ => []

/-- What a publication is fed. -/
def fedTo (i : Nat) : Holdings → List Act → List Feed
  | _, [] => []
  | s, a :: acts => s.fedBy i a ++ fedTo i (s.act a) acts

theorem getElem?_publications_act {s : Holdings} {i : Nat} (hi : i < s.publications.length)
    (a : Act) :
    (s.act a).publications[i]? = s.publications[i]?.map (·.fed (s.fedBy i a)) := by
  cases a with
  | publish name binary default =>
    exact (List.getElem?_append_left hi).trans (Publication.map_fed_nil _).symm
  | share holder => exact (Publication.map_fed_nil _).symm
  | feed holder what =>
    show (s.fedPublications holder what)[i]? = s.publications[i]?.map
      (·.fed (if s.holders[holder]? = some i then [what] else []))
    unfold fedPublications
    cases s.holders[holder]? with
    | none => exact (Publication.map_fed_nil _).symm
    | some j =>
      dsimp only
      by_cases hj : j = i
      · rw [if_pos (congrArg some hj), hj, List.getElem?_modify_eq]
        rfl
      · rw [if_neg fun h => hj (Option.some.inj h), Publication.map_fed_nil,
          List.getElem?_modify_ne _ _ hj]

theorem length_publications_act (s : Holdings) (a : Act) :
    s.publications.length ≤ (s.act a).publications.length := by
  cases a with
  | publish name binary default =>
    show _ ≤ (s.publications ++ [_]).length
    rw [List.length_append]
    exact Nat.le_add_right ..
  | share holder => exact Nat.le_refl _
  | feed holder what => exact Nat.le_of_eq (s.length_fedPublications holder what).symm

/-- A holder keeps what it holds. -/
theorem holds_act {s : Holdings} {holder i : Nat} (h : s.holders[holder]? = some i) (a : Act) :
    (s.act a).holders[holder]? = some i := by
  have hlength : holder < s.holders.length := (List.getElem?_eq_some_iff.mp h).1
  cases a with
  | publish name binary default => exact (List.getElem?_append_left hlength).trans h
  | share other => exact (List.getElem?_append_left hlength).trans h
  | feed other what => exact h

theorem holds_after {s : Holdings} {holder i : Nat} (h : s.holders[holder]? = some i)
    (acts : List Act) : (s.after acts).holders[holder]? = some i := by
  induction acts generalizing s with
  | nil => exact h
  | cons a acts ih => exact ih (holds_act h a)

/-- A publication has been fed what came from its holders, and nothing else. -/
theorem getElem?_publications_after {s : Holdings} {i : Nat} (hi : i < s.publications.length)
    (acts : List Act) :
    (s.after acts).publications[i]? = s.publications[i]?.map (·.fed (s.fedTo i acts)) := by
  induction acts generalizing s with
  | nil => exact (Publication.map_fed_nil _).symm
  | cons a acts ih =>
    -- The first act has its step lemma, and the others start from the holdings that it leaves.
    have hact := Nat.lt_of_lt_of_le hi (s.length_publications_act a)
    show ((s.act a).after acts).publications[i]? = _
    rw [ih hact, getElem?_publications_act hi, Option.map_map]
    simp only [fedTo, Publication.fed_append]
    rfl

theorem seen?_of_holds {s : Holdings} {holder i : Nat} (h : s.holders[holder]? = some i) :
    s.seen? holder = s.publications[i]? := by
  rw [seen?, h, Option.bind_some]

/-- A feed is answered by whether the hash changes that its holder sees. -/
theorem feed_answers {s : Holdings} {holder : Nat} {p : Publication}
    (h : s.seen? holder = some p) (what : Feed) :
    ∃ changed p', (s.feed holder what).1 = some changed ∧
      (s.feed holder what).2.seen? holder = some p' ∧
      (changed = true ↔ ContentSource.hash p' ≠ ContentSource.hash p) := by
  obtain ⟨i, hholder, hi⟩ := Option.bind_eq_some_iff.mp h
  refine ⟨(p.feed what).1, (p.feed what).2, ?_, ?_, p.fst_feed what⟩
  · show (s.seen? holder).map _ = _
    rw [h, Option.map_some]
  · have hlength : i < s.publications.length := (List.getElem?_eq_some_iff.mp hi).1
    have hact := getElem?_publications_act hlength (.feed holder what)
    rw [fedBy, if_pos hholder, hi] at hact
    rw [seen?_of_holds (s := (s.feed holder what).2) hholder]
    exact hact

/-- Whatever has happened since something was published, all that hold it see the same: the content
that one of them gave it last, its default if that was withdrawn again or never given, and nothing
without a default.  A text ends at its first zero byte; the size, the hash and the transfers are
those of the content; and a feed is answered by whether the hash changes. -/
theorem holders_see_last_given (s : Holdings) (name : ModuleName) (binary : Bool)
    (default : Option Bytes) (acts : List Act) :
    let start := s.publish name binary default
    let i := s.publications.length
    (start.after acts).holders[s.holders.length]? = some i ∧
    ∀ holder, (start.after acts).holders[holder]? = some i → ∃ p,
      (start.after acts).seen? holder = some p ∧
      p.Presents name binary (((Feed.latest (start.fedTo i acts)).or default).getD []) ∧
      ∀ what, ∃ changed p', ((start.after acts).feed holder what).1 = some changed ∧
        ((start.after acts).feed holder what).2.seen? holder = some p' ∧
        (changed = true ↔ ContentSource.hash p' ≠ ContentSource.hash p) := by
  intro start i
  constructor
  · have hfirst : start.holders[s.holders.length]? = some i := List.getElem?_concat_length
    exact holds_after hfirst acts
  · intro holder hholder
    have hnew : start.publications[i]? = some (.new name binary default) :=
      List.getElem?_concat_length
    have hi : i < start.publications.length := (List.getElem?_eq_some_iff.mp hnew).1
    have hseen : (start.after acts).seen? holder =
        some ((Publication.new name binary default).fed (start.fedTo i acts)) := by
      rw [seen?_of_holds hholder, getElem?_publications_after hi, hnew, Option.map_some]
    exact ⟨_, hseen, Publication.fed_presents .., feed_answers hseen⟩

example (name : ModuleName) : (empty.publish name false none).fedTo 0
    [.share 0, .feed 1 (.give [65, 0, 66]), .publish name true none, .feed 2 .withdraw] =
      [.give [65, 0, 66]] := rfl

end Holdings

end RomCast
