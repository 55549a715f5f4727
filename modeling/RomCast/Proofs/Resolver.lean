import Mathlib.Data.List.Chain
import RomCast.Header
import RomCast.Resolver

set_option autoImplicit false

/-!
# Resolving the peer's address, step by step

Everything that can happen to a resolution is one of a few steps, each of which sends at most one
question (`Resolver.Step`).  From what a step can do in each state follows what a whole run can do
(`Beat.Linked`): the questions of one attempt are bounded in number and apart in time, giving up
comes after the last of them, and what is resolved stays resolved.
-/

namespace RomCast

namespace Resolution

/-- A question has been asked and not been answered. -/
def IsAwaiting (s : Resolution) : Prop := ∃ attempts lastSent, s = .awaiting attempts lastSent

/-- The address is known. -/
def IsResolved (s : Resolution) : Prop := ∃ mac, s = .resolved mac

theorem not_isAwaiting_idle : ¬ IsAwaiting .idle := by
  rintro ⟨_, _, ⟨⟩⟩

theorem not_isAwaiting_resolved (mac : Mac) : ¬ IsAwaiting (.resolved mac) := by
  rintro ⟨_, _, ⟨⟩⟩

end Resolution

namespace Resolver

/-- Until the address is known, frames go to everyone. -/
theorem peerMac_of_not_resolved {r : Resolver} (h : ¬ r.state.IsResolved) :
    r.peerMac = Mac.broadcast := by
  unfold peerMac
  cases hstate : r.state with
  | idle => rfl
  | awaiting attempts lastSent => rfl
  | resolved mac => exact absurd ⟨mac, hstate⟩ h

/-! ## One step -/

/-- What a step at a time can make of a resolution, and how many questions it sends. -/
inductive Step (now : Nat) (r : Resolver) : Nat → Resolver → Prop where
  /-- Nothing is asked and nothing is learned. -/
  | rest : Step now r 0 r
  /-- A datagram is about to be sent, and the question for it has gone out. -/
  | asked (h : r.needsRequest = true) : Step now r 1 (r.requestSent now)
  /-- The timer has run out, and the question has gone out again. -/
  | repeated (h : (r.poll now).1 = .resend) : Step now r 1 (r.requestSent now)
  /-- The timer has run out for the last time. -/
  | gaveUp (h : (r.poll now).1 = .gaveUp) : Step now r 0 (r.poll now).2
  /-- A frame of `ip` came from `mac`. -/
  | learned (ip : Ipv4Address) (mac : Mac) : Step now r 0 (r.learn ip mac).2
  /-- An answer came. -/
  | answered (ip : Ipv4Address) (mac : Mac) : Step now r 0 (r.handleReply ip mac).2

section Step

variable {now n : Nat} {r r' : Resolver}

/-- Looking at the timer changes the resolution only by giving up. -/
theorem poll_eq_self (h : (r.poll now).1 ≠ .gaveUp) : (r.poll now).2 = r := by
  unfold poll at h ⊢
  cases hstate : r.state with
  | awaiting attempts lastSent =>
    simp only [hstate] at h ⊢
    split
    · rfl
    · split
      · rename_i hearly hlast
        simp [hearly, hlast] at h
      · rfl
  | idle => rfl
  | resolved mac => rfl

/-- What is looked at when the timer is. -/
theorem poll_of_ne_none (h : (r.poll now).1 ≠ .none) :
    ∃ attempts lastSent, r.state = .awaiting attempts lastSent ∧ r.interval ≤ now - lastSent ∧
      ((r.poll now).1 = .gaveUp ↔ r.maxAttempts ≤ attempts) := by
  unfold poll at h ⊢
  cases hstate : r.state with
  | awaiting attempts lastSent =>
    simp only [hstate] at h ⊢
    split at h
    · exact absurd rfl h
    · rename_i hlate
      refine ⟨attempts, lastSent, rfl, Nat.le_of_not_lt hlate, ?_⟩
      rw [if_neg hlate]
      split
      · rename_i hlast
        exact iff_of_true rfl hlast
      · rename_i hmore
        exact iff_of_false (fun hgave => nomatch hgave) hmore
  | idle =>
    simp only [hstate] at h
    exact absurd rfl h
  | resolved mac =>
    simp only [hstate] at h
    exact absurd rfl h

/-- Giving up is going back to the start. -/
theorem state_poll_of_gaveUp (h : (r.poll now).1 = .gaveUp) : (r.poll now).2.state = .idle := by
  unfold poll at h ⊢
  cases hstate : r.state with
  | awaiting attempts lastSent =>
    simp only [hstate] at h ⊢
    split at h
    · cases h
    · rename_i hlate
      split at h
      · rename_i hlast
        rw [if_neg hlate, if_pos hlast]
      · cases h
  | idle =>
    simp only [hstate] at h
    cases h
  | resolved mac =>
    simp only [hstate] at h
    cases h

/-- At most an address becomes known that was not; everything else stays. -/
def Learns (r : Resolver) (mac : Mac) (r' : Resolver) : Prop :=
  r' = r ∨ (¬ r.state.IsResolved ∧ r' = { r with state := .resolved mac })

theorem learns_ite {p : Prop} [Decidable p] (hopen : ¬ r.state.IsResolved) (mac : Mac) :
    r.Learns mac
      (if p then (true, { r with state := .resolved mac }) else (false, r) : Bool × Resolver).2 := by
  split
  · exact Or.inr ⟨hopen, rfl⟩
  · exact Or.inl rfl

theorem learns_learn (r : Resolver) (ip : Ipv4Address) (mac : Mac) :
    r.Learns mac (r.learn ip mac).2 := by
  unfold learn
  cases hstate : r.state with
  | resolved known => exact Or.inl rfl
  | idle => exact learns_ite (by simp [hstate, Resolution.IsResolved]) mac
  | awaiting attempts lastSent => exact learns_ite (by simp [hstate, Resolution.IsResolved]) mac

theorem learns_handleReply (r : Resolver) (ip : Ipv4Address) (mac : Mac) :
    r.Learns mac (r.handleReply ip mac).2 := by
  unfold handleReply
  cases hstate : r.state with
  | awaiting attempts lastSent => exact learns_ite (by simp [hstate, Resolution.IsResolved]) mac
  | idle => exact Or.inl rfl
  | resolved known => exact Or.inl rfl

/-- Two resolvers that differ at most in how far they have come. -/
structure SameSetup (r r' : Resolver) : Prop where
  target : r'.target = r.target
  interval : r'.interval = r.interval
  maxAttempts : r'.maxAttempts = r.maxAttempts

theorem SameSetup.refl (r : Resolver) : SameSetup r r := ⟨rfl, rfl, rfl⟩

theorem SameSetup.trans {r'' : Resolver} (h : SameSetup r r') (h' : SameSetup r' r'') :
    SameSetup r r'' :=
  ⟨h'.target.trans h.target, h'.interval.trans h.interval, h'.maxAttempts.trans h.maxAttempts⟩

theorem sameSetup_requestSent (r : Resolver) (now : Nat) : SameSetup r (r.requestSent now) := by
  unfold requestSent
  split <;> exact ⟨rfl, rfl, rfl⟩

theorem sameSetup_poll (r : Resolver) (now : Nat) : SameSetup r (r.poll now).2 := by
  unfold poll
  split
  · split
    · exact .refl r
    · split <;> exact ⟨rfl, rfl, rfl⟩
  · exact .refl r

theorem Learns.sameSetup {mac : Mac} (h : r.Learns mac r') : SameSetup r r' := by
  rcases h with rfl | ⟨-, rfl⟩
  · exact .refl r'
  · exact ⟨rfl, rfl, rfl⟩

theorem Step.sameSetup (h : Step now r n r') : SameSetup r r' := by
  cases h with
  | rest => exact .refl r
  | asked _ => exact sameSetup_requestSent r now
  | repeated _ => exact sameSetup_requestSent r now
  | gaveUp _ => exact sameSetup_poll r now
  | learned ip mac => exact (learns_learn r ip mac).sameSetup
  | answered ip mac => exact (learns_handleReply r ip mac).sameSetup

/-- What is learned is an address. -/
theorem Learns.eq_or_isResolved {mac : Mac} (h : r.Learns mac r') :
    r' = r ∨ r'.state.IsResolved := by
  refine h.imp_right ?_
  rintro ⟨-, rfl⟩
  exact ⟨mac, rfl⟩

/-- Where nothing has been asked, a question begins an attempt. -/
theorem Step.of_idle (h : Step now r n r') (hidle : r.state = .idle) :
    (n = 0 ∧ (r' = r ∨ r'.state.IsResolved)) ∨
      (n = 1 ∧ r.target.isSome = true ∧ r'.state = .awaiting 1 now) := by
  cases h with
  | rest => exact Or.inl ⟨rfl, Or.inl rfl⟩
  | asked hneeds =>
    refine Or.inr ⟨rfl, ?_, ?_⟩
    · simp only [needsRequest, Bool.and_eq_true] at hneeds
      exact hneeds.1
    · simp only [requestSent, hidle]
  | repeated hresend => simp [poll, hidle] at hresend
  | gaveUp hgave => simp [poll, hidle] at hgave
  | learned ip mac => exact Or.inl ⟨rfl, (learns_learn r ip mac).eq_or_isResolved⟩
  | answered ip mac => exact Or.inl ⟨rfl, (learns_handleReply r ip mac).eq_or_isResolved⟩

/-- Where an answer is awaited, the question goes out again when its time has come, until it has
gone out as often as it may and stayed unanswered as long. -/
theorem Step.of_awaiting {attempts lastSent : Nat} (h : Step now r n r')
    (hstate : r.state = .awaiting attempts lastSent) :
    (n = 0 ∧ r' = r) ∨
    (n = 0 ∧ ¬ r'.state.IsAwaiting ∧
      (r'.state = .idle → r.maxAttempts ≤ attempts ∧ r.interval ≤ now - lastSent)) ∨
    (n = 1 ∧ attempts < r.maxAttempts ∧ r.interval ≤ now - lastSent ∧
      r'.state = .awaiting (attempts + 1) now) := by
  -- Whoever learns an address neither awaits one any longer nor has given up.
  have hlearns : ∀ {r' mac}, r.Learns mac r' → r' = r ∨ ¬ r'.state.IsAwaiting ∧
      (r'.state = .idle → r.maxAttempts ≤ attempts ∧ r.interval ≤ now - lastSent) := by
    intro r' mac hlearns
    refine hlearns.imp_right ?_
    rintro ⟨-, rfl⟩
    exact ⟨Resolution.not_isAwaiting_resolved mac, fun hidle => nomatch hidle⟩
  cases h with
  | rest => exact Or.inl ⟨rfl, rfl⟩
  | asked hneeds => simp [needsRequest, hstate] at hneeds
  | repeated hresend =>
    obtain ⟨_, _, hawaiting, hlate, hlast⟩ :=
      poll_of_ne_none (by rw [hresend]; exact fun h => nomatch h)
    obtain ⟨rfl, rfl⟩ := Resolution.awaiting.inj (hstate.symm.trans hawaiting)
    refine Or.inr (Or.inr ⟨rfl, ?_, hlate, ?_⟩)
    · refine Nat.lt_of_not_le fun hmax => ?_
      rw [hresend] at hlast
      exact nomatch hlast.mpr hmax
    · simp only [requestSent, hstate]
  | gaveUp hgave =>
    obtain ⟨_, _, hawaiting, hlate, hlast⟩ :=
      poll_of_ne_none (by rw [hgave]; exact fun h => nomatch h)
    obtain ⟨rfl, rfl⟩ := Resolution.awaiting.inj (hstate.symm.trans hawaiting)
    refine Or.inr (Or.inl ⟨rfl, ?_, fun _ => ⟨hlast.mp hgave, hlate⟩⟩)
    rw [state_poll_of_gaveUp hgave]
    exact Resolution.not_isAwaiting_idle
  | learned ip mac =>
    rcases hlearns (learns_learn r ip mac) with hsame | hended
    · exact Or.inl ⟨rfl, hsame⟩
    · exact Or.inr (Or.inl ⟨rfl, hended⟩)
  | answered ip mac =>
    rcases hlearns (learns_handleReply r ip mac) with hsame | hended
    · exact Or.inl ⟨rfl, hsame⟩
    · exact Or.inr (Or.inl ⟨rfl, hended⟩)

theorem Learns.eq_of_isResolved {mac : Mac} (h : r.Learns mac r')
    (hresolved : r.state.IsResolved) : r' = r :=
  h.resolve_right fun hlearned => hlearned.1 hresolved

/-- What is resolved stays as it is, and nothing is asked. -/
theorem Step.of_resolved (h : Step now r n r') (hresolved : r.state.IsResolved) :
    n = 0 ∧ r' = r := by
  have ⟨known, hstate⟩ := hresolved
  cases h with
  | rest => exact ⟨rfl, rfl⟩
  | asked hneeds => simp [needsRequest, hstate] at hneeds
  | repeated hresend => simp [poll, hstate] at hresend
  | gaveUp hgave => simp [poll, hstate] at hgave
  | learned ip mac => exact ⟨rfl, (learns_learn r ip mac).eq_of_isResolved hresolved⟩
  | answered ip mac => exact ⟨rfl, (learns_handleReply r ip mac).eq_of_isResolved hresolved⟩

/-- Without a peer to be resolved nothing is asked, and no answer is awaited. -/
theorem Step.of_target_none (h : Step now r n r') (htarget : r.target = none)
    (hquiet : ¬ r.state.IsAwaiting) : n = 0 ∧ ¬ r'.state.IsAwaiting := by
  cases hstate : r.state with
  | awaiting attempts lastSent => exact absurd ⟨attempts, lastSent, hstate⟩ hquiet
  | resolved mac =>
    obtain ⟨hnone, rfl⟩ := h.of_resolved ⟨mac, hstate⟩
    exact ⟨hnone, hquiet⟩
  | idle =>
    rcases h.of_idle hstate with ⟨hnone, rfl | ⟨mac, hresolved⟩⟩ | ⟨-, hsome, -⟩
    · exact ⟨hnone, hquiet⟩
    · refine ⟨hnone, ?_⟩
      rw [hresolved]
      exact Resolution.not_isAwaiting_resolved mac
    · rw [htarget] at hsome
      cases hsome

end Step

end Resolver

/-! ## Beats -/

/-- A frame that asks for a hardware address, as far as its type and its opcode say. -/
def IsQuestion (frame : Bytes) : Prop :=
  frame.word16 12 = etherTypeArp ∧ frame.word16 20 = ArpPacket.opRequest

instance (frame : Bytes) : Decidable (IsQuestion frame) :=
  inferInstanceAs (Decidable (_ ∧ _))

/-- One moment of an endpoint: when it was, how far the resolution had come before and after, and
the frames that were submitted. -/
structure Beat where
  time : Nat
  before : Resolver
  after : Resolver
  frames : List Bytes

namespace Beat

/-- How many questions were submitted. -/
def asked (beat : Beat) : Nat := beat.frames.countP IsQuestion

/-- When questions were submitted, the oldest first. -/
def questions (beats : List Beat) : List Nat :=
  beats.flatMap fun beat => List.replicate beat.asked beat.time

/-- The beats of one attempt: it begins where nothing has been asked, and from then on an answer is
awaited. -/
def IsAttempt : List Beat → Prop
  | [] => False
  | first :: rest => first.before.state = .idle ∧ ∀ beat ∈ rest, beat.before.state.IsAwaiting

/-- Beats that follow one another from a time and a resolution on, each of them a step. -/
inductive Linked : Nat → Resolver → List Beat → Prop where
  | nil {now : Nat} {r : Resolver} : Linked now r []
  | cons {now : Nat} {r : Resolver} {beat : Beat} {rest : List Beat} (before_eq : beat.before = r)
      (time_le : now ≤ beat.time) (step : Resolver.Step beat.time r beat.asked beat.after)
      (rest_linked : Linked beat.time beat.after rest) : Linked now r (beat :: rest)

variable {now : Nat} {r : Resolver} {beat : Beat} {seg pre post : List Beat}

/-- The rest of a run, from some beat on. -/
theorem Linked.suffix (h : Linked now r (pre ++ post)) :
    ∃ now' r', now ≤ now' ∧ r.SameSetup r' ∧ Linked now' r' post := by
  induction pre generalizing now r with
  | nil => exact ⟨now, r, Nat.le_refl now, .refl r, h⟩
  | cons beat pre ih =>
    cases h with
    | cons hbefore htime hstep hrest =>
      obtain ⟨now', r', hnow, hsetup, hpost⟩ := ih hrest
      exact ⟨now', r', Nat.le_trans htime hnow, hstep.sameSetup.trans hsetup, hpost⟩

/-- Every beat of a run is a step of a resolver that is set up the same. -/
theorem Linked.step_of (h : Linked now r (pre ++ beat :: post)) :
    Resolver.Step beat.time beat.before beat.asked beat.after ∧
      r.SameSetup beat.before ∧ Linked beat.time beat.after post := by
  obtain ⟨_, _, -, hsetup, hrest⟩ := h.suffix
  cases hrest with
  | cons hbefore htime hstep hpost =>
    rw [hbefore]
    exact ⟨hstep, hsetup, hpost⟩

theorem Linked.before_eq (h : Linked now r (beat :: post)) : beat.before = r := by
  cases h with
  | cons hbefore htime hstep hrest => exact hbefore

/-- What a beat awaits, was awaited before. -/
theorem Linked.awaiting_of_next (h : Linked now r (seg ++ beat :: post))
    (hseg : ∀ beat ∈ seg, beat.before.state.IsAwaiting) (hbeat : beat.before.state.IsAwaiting) :
    r.state.IsAwaiting := by
  cases seg with
  | nil => exact h.before_eq ▸ hbeat
  | cons first rest => exact h.before_eq ▸ hseg first List.mem_cons_self

@[simp] theorem questions_cons (beat : Beat) (rest : List Beat) :
    questions (beat :: rest) = List.replicate beat.asked beat.time ++ questions rest :=
  List.flatMap_cons

theorem questions_append (beats rest : List Beat) :
    questions (beats ++ rest) = questions beats ++ questions rest :=
  List.flatMap_append

theorem Linked.isChain (h : Linked now r seg) :
    seg.IsChain fun beat next => next.before = beat.after ∧ beat.time ≤ next.time := by
  induction seg generalizing now r with
  | nil => exact List.isChain_nil
  | cons beat rest ih =>
    cases h with
    | cons hbefore htime hstep hrest =>
    cases rest with
    | nil => exact List.isChain_singleton beat
    | cons next rest =>
      refine List.isChain_cons_cons.mpr ⟨?_, ih hrest⟩
      cases hrest with
      | cons hbefore htime hstep hrest => exact ⟨hbefore, htime⟩

/-! ### Attempts -/

/-- An answer is awaited, and the questions that were asked for it are bounded in number and apart in
time. -/
structure Pending (asked : List Nat) (now : Nat) (r : Resolver) : Prop where
  state : ∃ last, asked.getLast? = some last ∧ last ≤ now ∧ r.state = .awaiting asked.length last
  length_le : asked.length ≤ r.maxAttempts
  apart : asked.IsChain fun t t' => t + r.interval ≤ t'

/-- A step asks again or does nothing while an answer is awaited; whoever gives up has asked as often
as possible, and has waited for the last answer. -/
theorem Pending.step {asked : List Nat} {now' n : Nat} {r' : Resolver} (h : Pending asked now r)
    (hnow : now ≤ now') (hstep : Resolver.Step now' r n r') :
    Pending (asked ++ List.replicate n now') now' r' ∨
      (n = 0 ∧ ¬ r'.state.IsAwaiting ∧ (r'.state = .idle → asked.length = r.maxAttempts ∧
        ∃ last, asked.getLast? = some last ∧ last + r.interval ≤ now')) := by
  obtain ⟨last, hlast, hpast, hstate⟩ := h.state
  rcases hstep.of_awaiting hstate with
    ⟨rfl, rfl⟩ | ⟨rfl, hended, hgave⟩ | ⟨rfl, hmore, hlate, hafter⟩
  · rw [List.replicate_zero, List.append_nil]
    exact Or.inl ⟨⟨last, hlast, Nat.le_trans hpast hnow, hstate⟩, h.length_le, h.apart⟩
  · refine Or.inr ⟨rfl, hended, fun hidle => ?_⟩
    obtain ⟨hmost, hlate⟩ := hgave hidle
    exact ⟨Nat.le_antisymm h.length_le hmost, last, hlast, by omega⟩
  · rw [List.replicate_one]
    refine Or.inl ⟨⟨now', List.getLast?_concat, Nat.le_refl now', ?_⟩, ?_, ?_⟩
    · rw [hafter, List.length_append, List.length_singleton]
    · rw [hstep.sameSetup.maxAttempts, List.length_append, List.length_singleton]
      exact hmore
    · rw [hstep.sameSetup.interval]
      refine List.isChain_append.mpr ⟨h.apart, List.isChain_singleton now', ?_⟩
      rintro t ht _ ⟨⟩
      obtain rfl : last = t := Option.some.inj (hlast.symm.trans ht)
      omega

/-- As long as an answer is awaited, it stays so from beat to beat. -/
theorem Pending.walk {asked : List Nat} (h : Pending asked now r)
    (hlinked : Linked now r (seg ++ beat :: post))
    (hseg : ∀ beat ∈ seg, beat.before.state.IsAwaiting) (hbeat : beat.before.state.IsAwaiting) :
    ∃ now', now' ≤ beat.time ∧ Pending (asked ++ questions seg) now' beat.before := by
  induction seg generalizing now r asked with
  | nil =>
    cases hlinked with
    | cons hbefore htime hstep hrest =>
    refine ⟨now, htime, ?_⟩
    rw [hbefore]
    exact (List.append_nil asked).symm ▸ h
  | cons first rest ih =>
    obtain ⟨-, hrestSeg⟩ := List.forall_mem_cons.mp hseg
    cases hlinked with
    | cons hbefore htime hstep hrest =>
    rcases h.step htime hstep with hpending | ⟨-, hended, -⟩
    · rw [questions_cons, ← List.append_assoc]
      exact ih hpending hrest hrestSeg
    · exact absurd (hrest.awaiting_of_next hrestSeg hbeat) hended

/-- The first question of an attempt. -/
theorem pending_first (h : Linked now r (beat :: post)) (hidle : beat.before.state = .idle)
    (hmax : 1 ≤ r.maxAttempts) (hafter : beat.after.state.IsAwaiting) :
    beat.asked = 1 ∧ Pending [beat.time] beat.time beat.after := by
  cases h with
  | cons hbefore htime hstep hrest =>
  rw [hbefore] at hidle
  rcases hstep.of_idle hidle with ⟨-, hsame | ⟨mac, hresolved⟩⟩ | ⟨hone, -, hawaiting⟩
  · rw [hsame, hidle] at hafter
    exact absurd hafter Resolution.not_isAwaiting_idle
  · rw [hresolved] at hafter
    exact absurd hafter (Resolution.not_isAwaiting_resolved mac)
  · exact ⟨hone, ⟨beat.time, rfl, Nat.le_refl _, hawaiting⟩,
      hstep.sameSetup.maxAttempts ▸ hmax, List.isChain_singleton beat.time⟩

/-- An attempt that still awaits an answer. -/
theorem Linked.pending (h : Linked now r (pre ++ (seg ++ beat :: post))) (hmax : 1 ≤ r.maxAttempts)
    (hseg : IsAttempt seg) (hbeat : beat.before.state.IsAwaiting) :
    ∃ now', now' ≤ beat.time ∧ Pending (questions seg) now' beat.before := by
  cases seg with
  | nil => exact hseg.elim
  | cons first rest =>
    obtain ⟨hidle, hrestSeg⟩ := hseg
    obtain ⟨now', r', -, hsetup, hsuffix⟩ := h.suffix
    have hbegun : Linked now' r' ([] ++ first :: (rest ++ beat :: post)) := hsuffix
    obtain ⟨-, -, hrest⟩ := hbegun.step_of
    obtain ⟨hone, hfirst⟩ :=
      pending_first hsuffix hidle (hsetup.maxAttempts ▸ hmax) (hrest.awaiting_of_next hrestSeg hbeat)
    rw [questions_cons, hone]
    exact hfirst.walk hrest hrestSeg hbeat

theorem isAttempt_concat {init : List Beat} {last : Beat} :
    IsAttempt (init ++ [last]) ↔ (init = [] ∧ last.before.state = .idle) ∨
      (IsAttempt init ∧ last.before.state.IsAwaiting) := by
  cases init with
  | nil => simp [IsAttempt]
  | cons first rest => simp [IsAttempt, or_imp, forall_and, and_assoc]

/-- The questions of an attempt are bounded in number and apart in time. -/
theorem Linked.attempt (h : Linked now r (pre ++ (seg ++ post))) (hmax : 1 ≤ r.maxAttempts)
    (hseg : IsAttempt seg) :
    (questions seg).length ≤ r.maxAttempts ∧
      (questions seg).IsChain (fun t t' => t + r.interval ≤ t') := by
  obtain ⟨init, last, rfl⟩ : ∃ init last, seg = init ++ [last] := by
    rcases List.eq_nil_or_concat' seg with rfl | hconcat
    · exact hseg.elim
    · exact hconcat
  rw [List.append_assoc] at h
  have hlast : Linked now r ((pre ++ init) ++ last :: post) := by
    rw [List.append_assoc]
    exact h
  obtain ⟨hstep, hsetup, -⟩ := hlast.step_of
  have hquestions : questions (init ++ [last]) =
      questions init ++ List.replicate last.asked last.time := by
    rw [questions_append, questions_cons]
    exact congrArg _ (List.append_nil _)
  rw [hquestions]
  rcases isAttempt_concat.mp hseg with ⟨rfl, hidle⟩ | ⟨hinit, hawaiting⟩
  · rcases hstep.of_idle hidle with ⟨hnone, -⟩ | ⟨hone, -⟩
    · rw [hnone]
      exact ⟨Nat.zero_le _, List.isChain_nil⟩
    · rw [hone]
      exact ⟨hmax, List.isChain_singleton last.time⟩
  · obtain ⟨now', hpast, hpending⟩ := h.pending hmax hinit hawaiting
    rcases hpending.step hpast hstep with hmore | ⟨hnone, -⟩
    · have hafter := hsetup.trans hstep.sameSetup
      rw [← hafter.interval, ← hafter.maxAttempts]
      exact ⟨hmore.length_le, hmore.apart⟩
    · rw [hnone, List.replicate_zero, List.append_nil, ← hsetup.interval, ← hsetup.maxAttempts]
      exact ⟨hpending.length_le, hpending.apart⟩

/-- Whoever awaits an answer has begun an attempt. -/
theorem Linked.exists_attempt (h : Linked now r (pre ++ beat :: post))
    (hquiet : ¬ r.state.IsAwaiting) (hbeat : beat.before.state.IsAwaiting) :
    ∃ earlier seg, pre = earlier ++ seg ∧ IsAttempt seg := by
  induction pre using List.reverseRecOn generalizing beat post with
  | nil => exact absurd (h.before_eq ▸ hbeat) hquiet
  | append_singleton pre last ih =>
    rw [List.append_assoc] at h
    obtain ⟨hstep, -, hrest⟩ := h.step_of
    cases hstate : last.before.state with
    | idle => exact ⟨pre, [last], rfl, hstate, fun beat hbeat => nomatch hbeat⟩
    | awaiting attempts lastSent =>
      have hawaiting : last.before.state.IsAwaiting := ⟨attempts, lastSent, hstate⟩
      obtain ⟨earlier, seg, rfl, hseg⟩ := ih h hawaiting
      exact ⟨earlier, seg ++ [last], List.append_assoc .., isAttempt_concat.mpr (Or.inr
        ⟨hseg, hawaiting⟩)⟩
    | resolved mac =>
      obtain ⟨-, hsame⟩ := hstep.of_resolved ⟨mac, hstate⟩
      rw [hrest.before_eq, hsame, hstate] at hbeat
      exact absurd hbeat (Resolution.not_isAwaiting_resolved mac)

/-- Whoever gives up has asked as often as possible in this attempt, and has waited for the last
answer. -/
theorem Linked.gaveUp (h : Linked now r (pre ++ beat :: post)) (hmax : 1 ≤ r.maxAttempts)
    (hquiet : ¬ r.state.IsAwaiting) (hbegun : beat.before.state ≠ .idle)
    (hended : beat.after.state = .idle) :
    ∃ earlier seg last, pre = earlier ++ seg ∧ IsAttempt seg ∧
      (questions seg).length = r.maxAttempts ∧ (questions seg).getLast? = some last ∧
      last + r.interval ≤ beat.time := by
  obtain ⟨hstep, hsetup, -⟩ := h.step_of
  have hbeat : beat.before.state.IsAwaiting := by
    cases hstate : beat.before.state with
    | idle => exact absurd hstate hbegun
    | awaiting attempts lastSent => exact ⟨attempts, lastSent, rfl⟩
    | resolved mac =>
      obtain ⟨-, hsame⟩ := hstep.of_resolved ⟨mac, hstate⟩
      rw [hsame, hstate] at hended
      cases hended
  obtain ⟨earlier, seg, rfl, hseg⟩ := h.exists_attempt hquiet hbeat
  rw [List.append_assoc] at h
  obtain ⟨now', hpast, hpending⟩ := h.pending hmax hseg hbeat
  rcases hpending.step hpast hstep with hmore | ⟨-, -, hgave⟩
  · obtain ⟨last, -, -, hstate⟩ := hmore.state
    rw [hstate] at hended
    cases hended
  · obtain ⟨hmost, last, hlast, hlate⟩ := hgave hended
    exact ⟨earlier, seg, last, rfl, hseg, hsetup.maxAttempts ▸ hmost, hlast,
      hsetup.interval ▸ hlate⟩

/-! ### What is never asked, and what stays -/

/-- Without a peer nothing is asked. -/
theorem Linked.unasked_of_target_none (h : Linked now r (pre ++ beat :: post))
    (htarget : r.target = none) (hquiet : ¬ r.state.IsAwaiting) : beat.asked = 0 := by
  induction pre generalizing now r with
  | nil =>
    cases h with
    | cons hbefore htime hstep hrest => exact (hstep.of_target_none htarget hquiet).1
  | cons first pre ih =>
    cases h with
    | cons hbefore htime hstep hrest =>
    exact ih hrest (hstep.sameSetup.target.trans htarget) (hstep.of_target_none htarget hquiet).2

/-- What is resolved stays as it is for the rest of a run. -/
theorem Linked.after_of_resolved (h : Linked now r post) (hresolved : r.state.IsResolved) :
    ∀ beat ∈ post, beat.before = r ∧ beat.asked = 0 ∧ beat.after = r := by
  induction post generalizing now with
  | nil => exact fun beat hbeat => nomatch hbeat
  | cons first rest ih =>
    cases h with
    | cons hbefore htime hstep hrest =>
    obtain ⟨hnone, hsame⟩ := hstep.of_resolved hresolved
    rw [hsame] at hrest
    exact List.forall_mem_cons.mpr ⟨⟨hbefore, hnone, hsame⟩, ih hrest⟩

end Beat

end RomCast
