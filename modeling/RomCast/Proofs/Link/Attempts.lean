import Mathlib.Data.List.Basic
import RomCast.Proofs.Link.Pooled

set_option autoImplicit false

/-!
# What a kernel sees of a link over a raw socket

The attempts to send that a link over a raw socket makes, with the kernel's answers, and what the
link makes of what arrives.  Each attempt is for the oldest frame that no earlier attempt has
brought through, so that a frame that blocked is tried again, and a frame that is through is not
(`Worked`).  A receive call takes what it skips and one arrival more (`Socket.receiveFrom_eq`).
-/

namespace RomCast

/-! ## Sending -/

/-- An attempt to send a frame, and why the kernel refused it; `none` when it was accepted. -/
structure Transmission where
  frame : Bytes
  refusal : Option SystemError
  deriving DecidableEq, Inhabited

namespace Transmission

def accepted (a : Transmission) : Bool := a.refusal = none

def blocked (a : Transmission) : Bool := a.refusal = some .wouldBlock

/-- The frames that are done with: accepted, or dropped because of a failure. -/
def through (attempts : List Transmission) : List Bytes :=
  (attempts.filter fun a => !a.blocked).map Transmission.frame

theorem through_append (first second : List Transmission) :
    through (first ++ second) = through first ++ through second := by
  rw [through, List.filter_append, List.map_append, through, through]

theorem through_of_blocked {a : Transmission} (h : a.blocked = true) : through [a] = [] := by
  simp [through, h]

theorem through_of_not_blocked {a : Transmission} (h : a.blocked = false) :
    through [a] = [a.frame] := by
  simp [through, h]

theorem length_through_le (attempts : List Transmission) :
    (through attempts).length ≤ attempts.length := by
  rw [through, List.length_map]
  exact List.length_filter_le _ attempts

/-- Accepted frames did not block. -/
theorem accepted_sublist (attempts : List Transmission) :
    ((attempts.filter Transmission.accepted).map Transmission.frame).Sublist
      (through attempts) := by
  refine List.Sublist.map Transmission.frame (List.monotone_filter_right attempts fun a ha => ?_)
  have hnone : a.refusal = none := by simpa [accepted] using ha
  simp [blocked, hnone]

end Transmission

namespace RawLink

/-- The next attempt to send what waits longest, and the link after it. -/
def attempt? (link : RawLink) : Option (Transmission × RawLink) :=
  link.pool.front?.map fun frame =>
    match Socket.send frame link.socket with
    | .ok _ socket =>
        ({ frame, refusal := none }, { link with socket, pool := link.pool.completeFront })
    | .error cause socket =>
        ({ frame, refusal := some cause },
          { link with
            socket
            pool := if cause = .wouldBlock then link.pool else link.pool.completeFront })

/-- Sending is one attempt after the other, until one blocks. -/
theorem sendWaiting_succ (n : Nat) (link : RawLink) :
    link.sendWaiting (n + 1) = match link.attempt? with
      | none => link
      | some (a, next) => if a.blocked then next else next.sendWaiting n := by
  rw [sendWaiting, attempt?]
  cases hfront : link.pool.front? with
  | none => rfl
  | some frame =>
    simp only [Option.map_some]
    cases Socket.send frame link.socket with
    | ok _ socket => rfl
    | error cause socket =>
      by_cases hblock : cause = .wouldBlock
      · simp [Transmission.blocked, hblock]
      · simp [Transmission.blocked, hblock]

/-- The attempts that sending makes. -/
def attemptsIn : Nat → RawLink → List Transmission
  | 0, _ => []
  | n + 1, link =>
      match link.attempt? with
      | none => []
      | some (a, next) => a :: if a.blocked then [] else attemptsIn n next

/-- The attempts that the next call makes that sends. -/
def attempts (link : RawLink) : List Transmission := link.attemptsIn link.pool.submitted.length

/-- What one attempt does. -/
structure Tries (link next : RawLink) (a : Transmission) : Prop where
  front : link.pool.front? = some a.frame
  pool : next.pool = if a.blocked then link.pool else link.pool.completeFront
  refusal : a.refusal = link.socket.refusals.head?.join
  refusals : next.socket.refusals = link.socket.refusals.tail
  sent : next.socket.sent = link.socket.sent ++ if a.accepted then [a.frame] else []
  arrivals : next.socket.arrivals = link.socket.arrivals
  mac : next.mac = link.mac

theorem attempt?_tries {link next : RawLink} {a : Transmission}
    (h : link.attempt? = some (a, next)) :
    Tries link next a := by
  obtain ⟨mac, interface, pool, ⟨arrivals, refusals, sent⟩⟩ := link
  obtain ⟨frame, hfront, heq⟩ := Option.map_eq_some_iff.mp h
  have hsend : Socket.send frame ⟨arrivals, refusals, sent⟩ = match refusals with
      | [] => .ok () ⟨arrivals, [], sent ++ [frame]⟩
      | none :: rest => .ok () ⟨arrivals, rest, sent ++ [frame]⟩
      | some cause :: rest => .error cause ⟨arrivals, rest, sent⟩ := by
    unfold Socket.send
    rcases refusals with - | ⟨- | cause, rest⟩ <;> rfl
  simp only [hsend] at heq
  rcases refusals with - | ⟨- | cause, rest⟩
  · obtain ⟨rfl, rfl⟩ := Prod.mk.inj heq
    exact ⟨hfront, rfl, rfl, rfl, rfl, rfl, rfl⟩
  · obtain ⟨rfl, rfl⟩ := Prod.mk.inj heq
    exact ⟨hfront, rfl, rfl, rfl, rfl, rfl, rfl⟩
  · obtain ⟨rfl, rfl⟩ := Prod.mk.inj heq
    refine ⟨hfront, ?_, rfl, rfl, (List.append_nil _).symm, rfl, rfl⟩
    simp [Transmission.blocked]

/-- A call that sends has nothing to send, or ends with an attempt that blocks, or goes on after an
attempt that does not. -/
theorem sendWaiting_cases (n : Nat) (link : RawLink) :
    (link.sendWaiting (n + 1) = link ∧ link.attemptsIn (n + 1) = []) ∨
      ∃ a next, Tries link next a ∧
        ((a.blocked = true ∧ link.sendWaiting (n + 1) = next ∧ link.attemptsIn (n + 1) = [a]) ∨
          (a.blocked = false ∧ link.sendWaiting (n + 1) = next.sendWaiting n ∧
            link.attemptsIn (n + 1) = a :: next.attemptsIn n)) := by
  rw [sendWaiting_succ, attemptsIn]
  cases hattempt : link.attempt? with
  | none => exact Or.inl ⟨rfl, rfl⟩
  | some step =>
    obtain ⟨a, next⟩ := step
    refine Or.inr ⟨a, next, attempt?_tries hattempt, ?_⟩
    cases hblocked : a.blocked with
    | true => exact Or.inl (by simp [hblocked])
    | false => exact Or.inr (by simp [hblocked])

theorem length_attemptsIn_le (n : Nat) (link : RawLink) : (link.attemptsIn n).length ≤ n := by
  induction n generalizing link with
  | zero => exact Nat.le_refl 0
  | succ n ih =>
    rcases sendWaiting_cases n link with
      ⟨-, hnone⟩ | ⟨a, next, -, ⟨-, -, hlast⟩ | ⟨-, -, hmore⟩⟩
    · rw [hnone]
      exact Nat.zero_le _
    · rw [hlast]
      exact Nat.succ_le_succ (Nat.zero_le n)
    · rw [hmore]
      exact Nat.succ_le_succ (ih next)

/-- The buffers of the frames that are through can be collected. -/
theorem pool_sendWaiting (n : Nat) (link : RawLink) :
    (link.sendWaiting n).pool =
      TransmitPool.completeFront^[(Transmission.through (link.attemptsIn n)).length] link.pool := by
  induction n generalizing link with
  | zero => rfl
  | succ n ih =>
    rcases sendWaiting_cases n link with ⟨hsame, hnone⟩ |
      ⟨a, next, htries, ⟨hblocked, hsame, hlast⟩ | ⟨hblocked, hrest, hmore⟩⟩
    · rw [hsame, hnone]
      rfl
    · rw [hsame, hlast, Transmission.through_of_blocked hblocked, htries.pool, if_pos hblocked]
      rfl
    · rw [hrest, hmore, ih, ← List.singleton_append, Transmission.through_append,
        Transmission.through_of_not_blocked hblocked, List.length_append, List.length_singleton,
        Nat.add_comm, Function.iterate_add_apply, htries.pool, hblocked]
      rfl

/-- Sending does not receive. -/
theorem arrivals_sendWaiting (n : Nat) (link : RawLink) :
    (link.sendWaiting n).socket.arrivals = link.socket.arrivals ∧
      (link.sendWaiting n).mac = link.mac := by
  induction n generalizing link with
  | zero => exact ⟨rfl, rfl⟩
  | succ n ih =>
    rcases sendWaiting_cases n link with
      ⟨hsame, -⟩ | ⟨a, next, htries, ⟨-, hsame, -⟩ | ⟨-, hrest, -⟩⟩
    · rw [hsame]
      exact ⟨rfl, rfl⟩
    · rw [hsame]
      exact ⟨htries.arrivals, htries.mac⟩
    · obtain ⟨harrivals, hmac⟩ := ih next
      rw [hrest]
      exact ⟨harrivals.trans htries.arrivals, hmac.trans htries.mac⟩

/-- What has come of a link: every attempt was for the oldest frame that was not through yet, and
the kernel has answered each in turn. -/
structure Worked (socket : Socket) (link : RawLink) (attempts : List Transmission)
    (submissions : List Bytes) : Prop where
  order : submissions = Transmission.through attempts ++ link.pool.waiting
  tried : ∀ (k : Nat) (a : Transmission), attempts[k]? = some a →
    submissions[(Transmission.through (attempts.take k)).length]? = some a.frame
  refusal : ∀ (k : Nat) (a : Transmission), attempts[k]? = some a →
    a.refusal = socket.refusals[k]?.join
  refusals : link.socket.refusals = socket.refusals.drop attempts.length
  sent : link.socket.sent =
    socket.sent ++ (attempts.filter Transmission.accepted).map Transmission.frame

variable {socket : Socket} {link next : RawLink} {attempts : List Transmission}
  {submissions : List Bytes}

theorem of_getElem?_concat {α : Type} {l : List α} {a b : α} {k : Nat}
    (h : (l ++ [a])[k]? = some b) : (l[k]? = some b ∧ k < l.length) ∨ (b = a ∧ k = l.length) := by
  rcases Nat.lt_trichotomy k l.length with hlt | heq | hgt
  · rw [List.getElem?_append_left hlt] at h
    exact Or.inl ⟨h, hlt⟩
  · subst heq
    rw [List.getElem?_concat_length] at h
    exact Or.inr ⟨(Option.some.inj h).symm, rfl⟩
  · rw [List.getElem?_eq_none (by rw [List.length_append, List.length_singleton]; omega)] at h
    cases h

theorem waiting_of_front? {p : TransmitPool} {frame : Bytes} (h : p.front? = some frame) :
    p.waiting = frame :: p.completeFront.waiting := by
  unfold TransmitPool.front? at h
  unfold TransmitPool.waiting TransmitPool.completeFront
  cases hsubmitted : p.submitted with
  | nil =>
    rw [hsubmitted] at h
    cases h
  | cons d rest =>
    rw [hsubmitted] at h
    obtain rfl := Option.some.inj h
    rfl

/-- One more attempt. -/
theorem Worked.attempt (h : Worked socket link attempts submissions) {a : Transmission}
    (htries : Tries link next a) : Worked socket next (attempts ++ [a]) submissions := by
  have hwaiting := waiting_of_front? htries.front
  refine ⟨?_, ?_, ?_, ?_, ?_⟩
  · rw [h.order, Transmission.through_append, htries.pool, List.append_assoc]
    cases hblocked : a.blocked with
    | true => rw [Transmission.through_of_blocked hblocked, if_pos rfl, List.nil_append]
    | false =>
      rw [Transmission.through_of_not_blocked hblocked, hwaiting]
      rfl
  · intro k b hb
    rcases of_getElem?_concat hb with ⟨hold, hk⟩ | ⟨rfl, rfl⟩
    · rw [List.take_append_of_le_length (Nat.le_of_lt hk)]
      exact h.tried k b hold
    · -- The frame that is tried is the first one that waits.
      rw [List.take_left, h.order, List.getElem?_append_right (Nat.le_refl _), Nat.sub_self,
        hwaiting]
      rfl
  · intro k b hb
    rcases of_getElem?_concat hb with ⟨hold, -⟩ | ⟨rfl, rfl⟩
    · exact h.refusal k b hold
    · rw [htries.refusal, h.refusals, List.head?_drop]
  · rw [htries.refusals, h.refusals, List.tail_drop, List.length_append, List.length_singleton]
  · rw [htries.sent, h.sent, List.append_assoc, List.filter_append, List.map_append]
    cases haccepted : a.accepted with
    | true => simp [haccepted]
    | false => simp [haccepted]

/-- All the attempts of one call. -/
theorem Worked.sendWaiting (h : Worked socket link attempts submissions) (n : Nat) :
    Worked socket (link.sendWaiting n) (attempts ++ link.attemptsIn n) submissions := by
  induction n generalizing link attempts with
  | zero =>
    rw [attemptsIn, List.append_nil]
    exact h
  | succ n ih =>
    rcases sendWaiting_cases n link with
      ⟨hsame, hnone⟩ | ⟨a, next, htries, ⟨-, hsame, hlast⟩ | ⟨-, hrest, hmore⟩⟩
    · rw [hsame, hnone, List.append_nil]
      exact h
    · rw [hsame, hlast]
      exact h.attempt htries
    · have hlater := ih (h.attempt htries)
      rw [List.append_assoc] at hlater
      rw [hrest, hmore]
      exact hlater

/-- New submissions wait behind the others. -/
theorem Worked.queue (h : Worked socket link attempts submissions) {frames : List Bytes}
    (hwaiting : next.pool.waiting = link.pool.waiting ++ frames)
    (hrefusals : next.socket.refusals = link.socket.refusals)
    (hsent : next.socket.sent = link.socket.sent) :
    Worked socket next attempts (submissions ++ frames) := by
  refine ⟨?_, ?_, h.refusal, hrefusals.trans h.refusals, hsent.trans h.sent⟩
  · rw [hwaiting, h.order, List.append_assoc]
  · intro k a ha
    have htried := h.tried k a ha
    obtain ⟨hlt, -⟩ := List.getElem?_eq_some_iff.mp htried
    rw [List.getElem?_append_left hlt]
    exact htried

end RawLink

/-! ## Receiving -/

/-- Whether a receive call goes on after this: the frame is one that the host itself sent, or the
call was interrupted. -/
def Arrival.isSkipped : Arrival → Bool
  | .frame _ mark => mark = outgoingMark
  | .fault cause => cause = .interrupted

/-- What a receive call makes of an arrival, with so much room for a frame. -/
def Arrival.reception (room : Nat) : Arrival → Except LinkError (Option (Nat × Bytes))
  | .frame bytes _ => .ok (some (min bytes.length room, bytes.take room))
  | .fault cause => if cause = .wouldBlock then .ok none else .error (.failed cause)

/-- What receive calls with so much room each make of what arrives: one arrival each, as long as
there is one. -/
def receptions : List Arrival → List Nat → List (Except LinkError (Option (Nat × Bytes)))
  | _, [] => []
  | [], _ :: rooms => .ok none :: receptions [] rooms
  | a :: rest, room :: rooms => a.reception room :: receptions rest rooms

theorem receptions_nil (arrivals : List Arrival) : receptions arrivals [] = [] := by
  unfold receptions
  rfl

/-- A receive call takes what is skipped, and one arrival more. -/
theorem Socket.receiveFrom_eq (buffer : Bytes) (arrivals : List Arrival) (rooms : List Nat) :
    let received := Socket.receiveFrom buffer arrivals
    receptions (arrivals.filter fun a => !a.isSkipped) (buffer.length :: rooms) =
      received.1.map (fun length? => length?.map fun n => (n, received.2.1.take n)) ::
        receptions (received.2.2.filter fun a => !a.isSkipped) rooms := by
  induction arrivals generalizing buffer with
  | nil => rfl
  | cons arrival rest ih =>
    cases arrival with
    | frame bytes mark =>
      by_cases hmark : mark = outgoingMark
      · have hskip : (Arrival.frame bytes mark).isSkipped = true := by
          simp [Arrival.isSkipped, hmark]
        have hnext := ih (buffer.overwrite 0 bytes)
        rw [Bytes.length_overwrite] at hnext
        simp only [Socket.receiveFrom, hmark, if_true]
        rw [← hmark, List.filter_cons_of_neg (by simp [hskip])]
        exact hnext
      · have hkeep : (Arrival.frame bytes mark).isSkipped = false := by
          simp [Arrival.isSkipped, hmark]
        rw [List.filter_cons_of_pos (by simp [hkeep])]
        simp only [Socket.receiveFrom, hmark, if_false, receptions, Arrival.reception,
          Except.map, Option.map_some, Bytes.take_overwrite_zero]
    | fault cause =>
      by_cases hblock : cause = .wouldBlock
      · have hkeep : (Arrival.fault cause).isSkipped = false := by
          rw [hblock]
          rfl
        rw [List.filter_cons_of_pos (by simp [hkeep])]
        simp only [Socket.receiveFrom, hblock, if_true, receptions, Arrival.reception]
        rfl
      · by_cases hinterrupted : cause = .interrupted
        · have hskip : (Arrival.fault cause).isSkipped = true := by
            simp [Arrival.isSkipped, hinterrupted]
          rw [List.filter_cons_of_neg (by simp [hskip])]
          simp only [Socket.receiveFrom, hinterrupted, if_true]
          rw [if_neg (by decide)]
          exact ih buffer
        · have hkeep : (Arrival.fault cause).isSkipped = false := by
            simp [Arrival.isSkipped, hinterrupted]
          rw [List.filter_cons_of_pos (by simp [hkeep])]
          simp only [Socket.receiveFrom, hblock, hinterrupted, if_false, receptions,
            Arrival.reception]
          rfl

end RomCast
