import RomCast.Proofs.Replica.Tracking

set_option autoImplicit false

/-!
# Who is notified how often

A capability is signalled once for each session that has it registered when a transfer is committed,
and at no other time (`notifications_accounted`).  So the signals of a history are a sum over its
commits, and each session has its share in them: what is done about one session concerns neither the
transfers nor what is known of the other sessions, and does not change their share
(`othersShare_without`).
-/

namespace RomCast.Observed

/-! ## The account -/

/-- A commit signals what the sessions have registered, and nothing else signals anyone. -/
theorem submits_eq (o : Observed) (deed : Deed) :
    o.submits deed =
      if o.outcome? deed = some .committed then o.replica.space.signals else [] := by
  cases deed with
  | finish abort =>
    cases abort with
    | true =>
      have houtcome : o.replica.abort.1 ≠ .committed := by
        unfold Replica.abort
        split <;> exact nofun
      exact (if_neg fun h => houtcome (Option.some.inj h)).symm
    | false =>
      refine (commit_effects o.replica).2.trans ?_
      exact if_congr (Option.some_inj.symm) rfl rfl
  | _ => exact (if_neg nofun).symm

section Accounting

variable (module : ModuleName) (default : Option Bytes) (history : List Deed)

/-- What one more deed signals: at a commit, once for every session that has the capability. -/
theorem count_submits (deed : Deed) (c : Capability) :
    (((fresh module default).after history).submits deed).count c =
      if ((fresh module default).after history).outcome? deed = some .committed then
        (holders module c history).card
      else 0 := by
  rw [submits_eq]
  split
  · exact (tracks_after module default history).count_signals c fun _ => mem_holders
  · exact List.count_nil

theorem count_submissions (c : Capability) :
    ((fresh module default).submissions history).count c =
      ∑ i ∈ Finset.range history.length,
        if (fresh module default).CommittedAt history i then
          (holders module c (history.take i)).card
        else 0 := by
  induction history using List.reverseRecOn with
  | nil => rfl
  | append_singleton history deed ih =>
    rw [submissions_append_singleton, List.count_append, ih, count_submits]
    exact ((fresh module default).sum_commits_append history deed
      fun before => (holders module c before).card).symm

theorem counted_after (name : String) :
    ((fresh module default).after history).counted name =
      ((fresh module default).submissions history).count (.counter name) := by
  induction history using List.reverseRecOn with
  | nil => rfl
  | append_singleton history deed ih =>
    rw [after_append_singleton, counted_perform, ih, submissions_append_singleton,
      List.count_append]

end Accounting

/-! ## Other sessions -/

/-- Two replicas are in the same transfer, or have ended it alike. -/
def SameTransfer (o o' : Observed) : Prop :=
  ∃ space commits, o'.replica = { o.replica with space, commits }

section Others

variable {o o' : Observed}

theorem SameTransfer.refl (o : Observed) : SameTransfer o o :=
  ⟨o.replica.space, o.replica.commits, rfl⟩

theorem SameTransfer.trans {o'' : Observed} (h : SameTransfer o o') (h' : SameTransfer o' o'') :
    SameTransfer o o'' := by
  obtain ⟨space, commits, h⟩ := h
  obtain ⟨space', commits', h'⟩ := h'
  rw [h] at h'
  exact ⟨space', commits', h'⟩

theorem SameTransfer.symm (h : SameTransfer o o') : SameTransfer o' o := by
  obtain ⟨space, commits, h⟩ := h
  refine ⟨o.replica.space, o.replica.commits, ?_⟩
  rw [h]

theorem sameTransfer_forget (o : Observed) (name : String) : SameTransfer o (o.forget name) := by
  unfold forget
  cases o.session? name with
  | none => exact .refl o
  | some id => exact ⟨_, _, rfl⟩

theorem sameTransfer_signalAll (o : Observed) (capabilities : List Capability) :
    SameTransfer o (o.signalAll capabilities) := by
  induction capabilities generalizing o with
  | nil => exact .refl o
  | cons c rest ih =>
    refine SameTransfer.trans ?_ (ih (o.signal c))
    cases c with
    | counter name => exact .refl o
    | flag name => exact .refl o
    | opener label =>
      rw [signal]
      cases o.replica.space.attach label with
      | error refused => exact .refl o
      | ok entry => exact ⟨entry.2, _, rfl⟩

/-- What is done about a session does not concern the transfer in flight. -/
theorem sameTransfer_perform {name : String} {deed : Deed} (h : deed.concerns name = true) :
    SameTransfer o (o.perform deed) := by
  cases deed with
  | attach name' label =>
    rw [perform_attach]
    split
    · have hattached : SameTransfer o (o.mapSpace (·.attached label)) :=
        ⟨o.replica.space.attached label, o.replica.commits, rfl⟩
      exact hattached.trans (sameTransfer_forget _ name')
    · exact .refl o
  | detach name' => exact sameTransfer_forget o name'
  | register name' c =>
    have hprovide : ∀ o : Observed, SameTransfer o (o.provide c) := by
      intro o
      cases c <;> exact .refl o
    rw [perform, register]
    cases o.session? name' with
    | none => exact hprovide o
    | some id => exact SameTransfer.trans ⟨_, _, rfl⟩ (hprovide _)
  | publish content => cases h
  | start length expected => cases h
  | write offset bytes => cases h
  | finish abort => cases h

theorem SameTransfer.perform_finish (h : SameTransfer o o') (abort : Bool) :
    SameTransfer (o.perform (.finish abort)) (o'.perform (.finish abort)) ∧
      o'.outcome? (.finish abort) = o.outcome? (.finish abort) := by
  obtain ⟨space, commits, hreplica⟩ := h
  cases abort with
  | true =>
    simp only [perform, outcome?, hreplica, Replica.abort]
    split
    · exact ⟨⟨space, commits, rfl⟩, rfl⟩
    · exact ⟨⟨space, commits, rfl⟩, rfl⟩
  | false =>
    have hcommit : o'.replica.commit.1 = o.replica.commit.1 ∧
        SameTransfer { o with replica := o.replica.commit.2.2 }
          { o' with replica := o'.replica.commit.2.2 } := by
      simp only [hreplica, Replica.commit]
      split
      · exact ⟨rfl, _, _, rfl⟩
      · split
        · exact ⟨rfl, _, _, rfl⟩
        · exact ⟨rfl, _, _, rfl⟩
    refine ⟨?_, congrArg some hcommit.1⟩
    exact (sameTransfer_signalAll _ _).symm.trans (hcommit.2.trans (sameTransfer_signalAll _ _))

theorem SameTransfer.perform (h : SameTransfer o o') (deed : Deed) :
    SameTransfer (o.perform deed) (o'.perform deed) ∧ o'.outcome? deed = o.outcome? deed := by
  have hsession : ∀ name, deed.concerns name = true →
      SameTransfer (o.perform deed) (o'.perform deed) := fun name hconcerns =>
    (sameTransfer_perform hconcerns).symm.trans (h.trans (sameTransfer_perform hconcerns))
  cases deed with
  | attach name label => exact ⟨hsession name (decide_eq_true rfl), rfl⟩
  | detach name => exact ⟨hsession name (decide_eq_true rfl), rfl⟩
  | register name c => exact ⟨hsession name (decide_eq_true rfl), rfl⟩
  | finish abort => exact h.perform_finish abort
  | publish content =>
    obtain ⟨space, commits, hreplica⟩ := h
    refine ⟨⟨space.publish content, commits, ?_⟩, rfl⟩
    simp only [Observed.perform, mapSpace, hreplica]
  | start length expected =>
    obtain ⟨space, commits, hreplica⟩ := h
    refine ⟨⟨space, commits, ?_⟩, rfl⟩
    simp only [Observed.perform, hreplica, Replica.start]
  | write offset bytes =>
    obtain ⟨space, commits, hreplica⟩ := h
    refine ⟨⟨space, commits, ?_⟩, rfl⟩
    simp only [Observed.perform, hreplica, Replica.write]

section Without

variable (name : String) (history : List Deed)

/-- A history without what it does about one session. -/
def without : List Deed := history.filter fun deed => !deed.concerns name

variable {name history}

theorem without_append_of_concerns {deed : Deed} (h : deed.concerns name = true) :
    without name (history ++ [deed]) = without name history := by
  simp [without, List.filter_append, h]

theorem without_append_of_not_concerns {deed : Deed} (h : deed.concerns name = false) :
    without name (history ++ [deed]) = without name history ++ [deed] := by
  simp [without, List.filter_append, h]

theorem sameTransfer_without (o : Observed) (name : String) (history : List Deed) :
    SameTransfer (o.after history) (o.after (without name history)) := by
  induction history using List.reverseRecOn with
  | nil => exact .refl o
  | append_singleton history deed ih =>
    cases hconcerns : deed.concerns name with
    | true =>
      rw [without_append_of_concerns hconcerns, after_append_singleton]
      exact (sameTransfer_perform hconcerns).symm.trans ih
    | false =>
      rw [without_append_of_not_concerns hconcerns, after_append_singleton, after_append_singleton]
      exact (ih.perform deed).1

theorem standing_without (module : ModuleName) (history : List Deed) {other : String}
    (hother : other ≠ name) :
    standing module (without name history) other = standing module history other := by
  induction history using List.reverseRecOn with
  | nil => rfl
  | append_singleton history deed ih =>
    cases hconcerns : deed.concerns name with
    | true =>
      rw [without_append_of_concerns hconcerns, standing_append_singleton, ih,
        enter_of_not_concerns module _ (not_concerns_of_ne hconcerns hother)]
    | false =>
      rw [without_append_of_not_concerns hconcerns, standing_append_singleton,
        standing_append_singleton]
      exact enter_congr module deed ih

theorem erase_holders_without (module : ModuleName) (c : Capability) (history : List Deed) :
    (holders module c (without name history)).erase name =
      (holders module c history).erase name := by
  ext other
  rw [Finset.mem_erase, Finset.mem_erase, mem_holders, mem_holders]
  refine and_congr_right fun hother => ?_
  rw [standing_without module history hother]

end Without

/-- How often a capability is signalled on account of the other sessions. -/
def othersShare (o : Observed) (module : ModuleName) (name : String) (c : Capability)
    (history : List Deed) : Nat :=
  ∑ i ∈ Finset.range history.length,
    if o.CommittedAt history i then ((holders module c (history.take i)).erase name).card else 0

/-- Each session has its share in what is signalled. -/
theorem sum_holders_eq (o : Observed) (module : ModuleName) (name : String) (c : Capability)
    (history : List Deed) :
    (∑ i ∈ Finset.range history.length,
      if o.CommittedAt history i then (holders module c (history.take i)).card else 0) =
      o.othersShare module name c history + o.share module name c history := by
  rw [othersShare, share, ← Finset.sum_add_distrib]
  refine Finset.sum_congr rfl fun i _ => ?_
  by_cases hcommitted : o.CommittedAt history i
  · rw [if_pos hcommitted, if_pos hcommitted]
    by_cases hmine : standing module (history.take i) name = some (some c)
    · rw [if_pos ⟨hcommitted, hmine⟩, Finset.card_erase_add_one (mem_holders.mpr hmine)]
    · rw [if_neg fun h => hmine h.2, Finset.erase_eq_of_notMem fun h => hmine (mem_holders.mp h),
        Nat.add_zero]
  · rw [if_neg hcommitted, if_neg hcommitted, if_neg fun h => hcommitted h.1]

/-- What is done about one session does not change the share of the others. -/
theorem othersShare_without (o : Observed) (module : ModuleName) (name : String) (c : Capability)
    (history : List Deed) :
    o.othersShare module name c (without name history) =
      o.othersShare module name c history := by
  induction history using List.reverseRecOn with
  | nil => rfl
  | append_singleton history deed ih =>
    have hsum : ∀ before, o.othersShare module name c (before ++ [deed]) =
        o.othersShare module name c before +
          if (o.after before).outcome? deed = some .committed then
            ((holders module c before).erase name).card
          else 0 := fun before =>
      o.sum_commits_append before deed fun before => ((holders module c before).erase name).card
    cases hconcerns : deed.concerns name with
    | true =>
      have hnone : (o.after history).outcome? deed ≠ some .committed := by
        cases deed with
        | finish abort => cases hconcerns
        | _ => exact fun h => nomatch h
      rw [without_append_of_concerns hconcerns, ih, hsum, if_neg hnone, Nat.add_zero]
    | false =>
      have houtcome := ((sameTransfer_without o name history).perform deed).2
      rw [without_append_of_not_concerns hconcerns, hsum, hsum, ih, houtcome,
        erase_holders_without]

end Others

/-! ## Everyone is notified -/

/-- A replica begins with nothing received and without sessions; then sessions are attached and
detached and register capabilities, one and the same in several sessions or one in place of another,
and in between transfers begin, are written and end.  However often and in whatever order that
happens, a capability has been signalled as often as the commits so far found sessions attached that
had it registered last; and its counter, if it is one, says so.  Nothing else that is done signals
anyone.  And two histories that differ in what is done about one session differ, for each
capability, by that session's share alone. -/
theorem notifications_accounted (module : ModuleName) (default : Option Bytes)
    (history : List Deed) :
    let o := fresh module default
    (∀ c, (o.submissions history).count c =
      ∑ i ∈ Finset.range history.length,
        if o.CommittedAt history i then (holders module c (history.take i)).card else 0) ∧
    (∀ name, (o.after history).counted name = (o.submissions history).count (.counter name)) ∧
    (∀ deed, (o.after history).outcome? deed ≠ some .committed →
      o.submissions (history ++ [deed]) = o.submissions history) ∧
    (∀ name history', without name history' = without name history →
      ∀ c, (o.submissions history).count c + o.share module name c history' =
        (o.submissions history').count c + o.share module name c history) := by
  intro o
  refine ⟨count_submissions module default history, counted_after module default history, ?_, ?_⟩
  · intro deed hother
    rw [submissions_append_singleton, submits_eq, if_neg hother, List.append_nil]
  · intro name history' hsame c
    have hothers : o.othersShare module name c history' = o.othersShare module name c history := by
      rw [← othersShare_without, hsame, othersShare_without]
    have hcount : ∀ history, (o.submissions history).count c =
        o.othersShare module name c history + o.share module name c history := fun history =>
      (count_submissions module default history c).trans (sum_holders_eq o module name c history)
    rw [hcount history, hcount history', hothers]
    omega

namespace Shared

def module : ModuleName := ⟨"rom", by decide⟩

/-- Two sessions count with the same counter, and one of them has raised a flag before; a third
session is refused.  A byte is received, and then another one with the wrong hash. -/
def history : List Deed :=
  [.attach "a" "rom", .attach "b" "status -> rom", .attach "c" "ram", .register "a" (.flag "seen"),
    .register "a" (.counter "count"), .register "b" (.counter "count"),
    .register "c" (.counter "count"), .start 1 (ContentHash.of [7]), .write 0 [7], .finish false,
    .start 1 (ContentHash.of [7]), .write 0 [8], .finish false]

end Shared

/-- The counter counts two, one for each session; publishing does not count, and without the one
session the other one still has its share. -/
theorem shared_counter_counts_sessions :
    ((fresh Shared.module none).after Shared.history).counted "count" = 2 ∧
      (fresh Shared.module none).submissions (Shared.history ++ [.publish [9]]) =
        (fresh Shared.module none).submissions Shared.history ∧
      ((fresh Shared.module none).submissions (without "a" Shared.history)).count
        (.counter "count") = 1 := by
  obtain ⟨hcount, hcounted, hnothing, hothers⟩ :=
    notifications_accounted Shared.module none Shared.history
  have hsum : (∑ i ∈ Finset.range Shared.history.length,
      if (fresh Shared.module none).CommittedAt Shared.history i then
        (holders Shared.module (.counter "count") (Shared.history.take i)).card else 0) = 2 := by
    decide +kernel
  have hshare : (fresh Shared.module none).share Shared.module "a" (.counter "count")
      Shared.history = 1 := by
    decide +kernel
  have hgone : (fresh Shared.module none).share Shared.module "a" (.counter "count")
      (without "a" Shared.history) = 0 := by
    decide +kernel
  have hwithout : without "a" (without "a" Shared.history) = without "a" Shared.history := by
    rw [without, without, List.filter_filter]
    simp only [Bool.and_self]
  have hdiffer := hothers "a" (without "a" Shared.history) hwithout (.counter "count")
  rw [hcount, hsum, hshare, hgone] at hdiffer
  refine ⟨?_, hnothing (.publish [9]) nofun, ?_⟩
  · rw [hcounted, hcount, hsum]
  · omega

end RomCast.Observed
