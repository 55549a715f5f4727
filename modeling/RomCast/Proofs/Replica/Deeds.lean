import Mathlib.Algebra.BigOperators.Group.Finset.Basic
import RomCast.Observed
import RomCast.Proofs.Replica.Sessions

set_option autoImplicit false

/-!
# What is done to a replica and its sessions

Sessions come and go, register capabilities and replace them, and in between transfers begin, are
written and end.  Who has what registered is read off the history alone, session by session
(`Deed.enter`); which capabilities are signalled is what the ends of transfers answer
(`submissions`), and a counter counts them (`counted_perform`).
-/

namespace RomCast.Observed

/-! ## Histories -/

/-- What is done to a replica and its sessions. -/
inductive Deed where
  | attach (name label : String)
  | detach (name : String)
  | register (name : String) (c : Capability)
  | publish (content : Bytes)
  | start (length : Nat) (expected : ContentHash)
  | write (offset : Nat) (bytes : Bytes)
  | finish (abort : Bool)

/-- A replica that has received nothing, without sessions. -/
def fresh (module : ModuleName) (default : Option Bytes) : Observed :=
  { replica := .new module default }

/-- Do something; what is refused changes nothing. -/
def perform (o : Observed) : Deed → Observed
  | .attach name label =>
      match o.attach name label with
      | .ok o' => o'
      | .error _ => o
  | .detach name => (o.detach name).2
  | .register name c => o.register name c
  | .publish content => o.mapSpace (·.publish content)
  | .start length expected => { o with replica := o.replica.start length expected }
  | .write offset bytes => { o with replica := o.replica.write offset bytes }
  | .finish true => { o with replica := o.replica.abort.2 }
  | .finish false => o.commit.2

/-- How a transfer ends, when it is finished. -/
def outcome? (o : Observed) : Deed → Option Outcome
  | .finish true => some o.replica.abort.1
  | .finish false => some o.commit.1
  | _ => none

/-- The capabilities that are signalled. -/
def submits (o : Observed) : Deed → List Capability
  | .finish false => o.replica.commit.2.1
  | _ => []

/-- What a history makes of a replica and its sessions. -/
def after (o : Observed) (history : List Deed) : Observed := history.foldl perform o

/-- The capabilities that are signalled in the course of a history, in order. -/
def submissions (o : Observed) : List Deed → List Capability
  | [] => []
  | deed :: rest => o.submits deed ++ submissions (o.perform deed) rest

/-- The transfer in flight is committed at this place of a history. -/
def CommittedAt (o : Observed) (history : List Deed) (i : Nat) : Prop :=
  ((history[i]?).bind (o.after (history.take i)).outcome?) = some .committed

instance (o : Observed) (history : List Deed) (i : Nat) : Decidable (o.CommittedAt history i) :=
  inferInstanceAs (Decidable (_ = _))

/-! ## What a history says of the sessions -/

/-- What is known of each name: `none` without a session, and else what the session has registered
last. -/
abbrev Standing : Type := String → Option (Option Capability)

/-- Enter a deed: a session is attached if the label names the module, in place of an earlier one of
that name. -/
def Deed.enter (module : ModuleName) (standing : Standing) : Deed → Standing
  | .attach name label =>
      if requestedModule label = module.text then Function.update standing name (some none)
      else standing
  | .detach name => Function.update standing name none
  | .register name c => Function.update standing name ((standing name).map fun _ => some c)
  | _ => standing

/-- What is known of each name after a history. -/
def standing (module : ModuleName) (history : List Deed) : Standing :=
  history.foldl (Deed.enter module) fun _ => none

/-- The name that a session is attached under. -/
def Deed.attaches? : Deed → Option String
  | .attach name _ => some name
  | _ => none

/-- The names of the sessions that have a capability registered. -/
def holders (module : ModuleName) (c : Capability) (history : List Deed) : Finset String :=
  (history.filterMap Deed.attaches?).toFinset.filter fun name =>
    standing module history name = some (some c)

/-- Whether a deed is about the session of a name. -/
def Deed.concerns (name : String) : Deed → Bool
  | .attach name' _ => name' = name
  | .detach name' => name' = name
  | .register name' _ => name' = name
  | _ => false

/-- How often a capability has been signalled on account of one session. -/
def share (o : Observed) (module : ModuleName) (name : String) (c : Capability)
    (history : List Deed) : Nat :=
  ∑ i ∈ Finset.range history.length,
    if o.CommittedAt history i ∧ standing module (history.take i) name = some (some c) then 1 else 0

/-- How often the counter of a name has been signalled. -/
def counted (o : Observed) (name : String) : Nat := (o.counts.lookup name).getD 0

section Histories

variable (o : Observed) (history : List Deed) (deed : Deed)

theorem after_append_singleton :
    o.after (history ++ [deed]) = (o.after history).perform deed := by
  simp only [after, List.foldl_append, List.foldl_cons, List.foldl_nil]

theorem submissions_append_singleton :
    o.submissions (history ++ [deed]) =
      o.submissions history ++ (o.after history).submits deed := by
  induction history generalizing o with
  | nil => simp only [List.nil_append, submissions, List.append_nil, after, List.foldl_nil]
  | cons first rest ih =>
    simp only [List.cons_append, submissions, ih, List.append_assoc, after, List.foldl_cons]

theorem standing_append_singleton (module : ModuleName) :
    standing module (history ++ [deed]) = deed.enter module (standing module history) := by
  simp only [standing, List.foldl_append, List.foldl_cons, List.foldl_nil]

/-- Whether a transfer is committed at an earlier place does not depend on what comes later. -/
theorem committedAt_append_of_lt {i : Nat} (hi : i < history.length) :
    o.CommittedAt (history ++ [deed]) i ↔ o.CommittedAt history i := by
  rw [CommittedAt, CommittedAt, List.getElem?_append_left hi,
    List.take_append_of_le_length (Nat.le_of_lt hi)]

theorem committedAt_append_length :
    o.CommittedAt (history ++ [deed]) history.length ↔
      (o.after history).outcome? deed = some .committed := by
  rw [CommittedAt, List.getElem?_concat_length, List.take_left, Option.bind_some]

/-- A sum over the commits of a history, with one more deed. -/
theorem sum_commits_append (f : List Deed → Nat) :
    (∑ i ∈ Finset.range (history ++ [deed]).length,
      if o.CommittedAt (history ++ [deed]) i then f ((history ++ [deed]).take i) else 0) =
    (∑ i ∈ Finset.range history.length,
      if o.CommittedAt history i then f (history.take i) else 0) +
      if (o.after history).outcome? deed = some .committed then f history else 0 := by
  rw [List.length_append, List.length_singleton, Finset.sum_range_succ]
  congr 1
  · refine Finset.sum_congr rfl fun i hi => ?_
    have hlt : i < history.length := Finset.mem_range.mp hi
    rw [List.take_append_of_le_length (Nat.le_of_lt hlt)]
    exact if_congr (o.committedAt_append_of_lt history deed hlt) rfl rfl
  · rw [List.take_left]
    exact if_congr (o.committedAt_append_length history deed) rfl rfl

end Histories

/-! ## One name -/

/-- A deed leaves what is known of the names that it does not concern. -/
theorem enter_of_not_concerns (module : ModuleName) (known : Standing) {deed : Deed} {name : String}
    (h : deed.concerns name = false) : deed.enter module known name = known name := by
  have hother : ∀ name', decide (name' = name) = false → name ≠ name' := fun name' hne =>
    Ne.symm (of_decide_eq_false hne)
  cases deed with
  | attach name' label =>
    rw [Deed.enter]
    split
    · exact Function.update_of_ne (hother name' h) _ _
    · rfl
  | detach name' => exact Function.update_of_ne (hother name' h) _ _
  | register name' c => exact Function.update_of_ne (hother name' h) _ _
  | _ => rfl

/-- A deed concerns one name at most. -/
theorem not_concerns_of_ne {deed : Deed} {name other : String} (h : deed.concerns name = true)
    (hother : other ≠ name) : deed.concerns other = false := by
  have hdiffers : ∀ name', decide (name' = name) = true → decide (name' = other) = false := by
    intro name' hname
    obtain rfl := of_decide_eq_true hname
    exact decide_eq_false (Ne.symm hother)
  cases deed with
  | attach name' label => exact hdiffers name' h
  | detach name' => exact hdiffers name' h
  | register name' c => exact hdiffers name' h
  | _ => rfl

/-- What becomes known of a name depends on what was known of it. -/
theorem enter_congr (module : ModuleName) (deed : Deed) {known known' : Standing} {name : String}
    (h : known name = known' name) :
    deed.enter module known name = deed.enter module known' name := by
  cases deed with
  | attach name' label =>
    rw [Deed.enter, Deed.enter]
    split
    · rw [Function.update_apply, Function.update_apply, h]
    · exact h
  | detach name' => rw [Deed.enter, Deed.enter, Function.update_apply, Function.update_apply, h]
  | register name' c =>
    rw [Deed.enter, Deed.enter, Function.update_apply, Function.update_apply, h]
    refine if_ctx_congr Iff.rfl (fun hsame => ?_) fun _ => rfl
    rw [← hsame, h]
  | _ => exact h

/-- A session that is known has been attached. -/
theorem mem_attached_of_standing (module : ModuleName) {history : List Deed} {name : String}
    (h : standing module history name ≠ none) : name ∈ history.filterMap Deed.attaches? := by
  induction history using List.reverseRecOn with
  | nil => exact absurd rfl h
  | append_singleton history deed ih =>
    rw [List.filterMap_append, List.mem_append]
    by_cases hold : standing module history name = none
    · refine Or.inr ?_
      rw [standing_append_singleton] at h
      -- The deed is about the name, and only attaching makes a name known.
      cases hconcerns : deed.concerns name with
      | false =>
        rw [enter_of_not_concerns module _ hconcerns] at h
        exact absurd hold h
      | true =>
        cases deed with
        | attach name' label =>
          obtain rfl : name' = name := of_decide_eq_true hconcerns
          exact List.mem_singleton_self name'
        | detach name' =>
          obtain rfl : name' = name := of_decide_eq_true hconcerns
          exact absurd (Function.update_self _ _ _) h
        | register name' c =>
          obtain rfl : name' = name := of_decide_eq_true hconcerns
          rw [Deed.enter, Function.update_self, hold] at h
          exact absurd rfl h
        | _ => cases hconcerns
    · exact Or.inl (ih hold)

theorem mem_holders {module : ModuleName} {c : Capability} {history : List Deed} {name : String} :
    name ∈ holders module c history ↔ standing module history name = some (some c) := by
  rw [holders, Finset.mem_filter, List.mem_toFinset]
  refine and_iff_right_of_imp fun hknown => mem_attached_of_standing module ?_
  rw [hknown]
  exact Option.some_ne_none _

/-! ## Attaching -/

/-- What attaching comes to: the dataspace has one more session, and its number goes by the name, in
place of the earlier session of that name. -/
theorem perform_attach (o : Observed) (name label : String) :
    o.perform (.attach name label) =
      if requestedModule label = o.replica.space.name.text then
        let o' := (o.mapSpace (·.attached label)).forget name
        { o' with sessions := (name, o.replica.space.nextId) :: o'.sessions }
      else o := by
  by_cases hlabel : requestedModule label = o.replica.space.name.text
  · have hattach : o.replica.space.attach label =
        .ok (o.replica.space.nextId, o.replica.space.attached label) := by
      simp only [Dataspace.attached, Dataspace.attach, if_pos hlabel]
    simp only [if_pos hlabel, perform, attach, hattach, bind, Except.bind, pure, Except.pure,
      mapSpace]
  · have hattach : o.replica.space.attach label =
        .error ⟨requestedModule label, o.replica.space.name.text⟩ := by
      simp only [Dataspace.attach, if_neg hlabel]
    simp only [if_neg hlabel, perform, attach, hattach, bind, Except.bind]

/-! ## Counters -/

theorem lookup_cons_of_ne {α : Type} {first other : String} (h : other ≠ first) (value : α)
    (rest : List (String × α)) : ((first, value) :: rest).lookup other = rest.lookup other := by
  have hbeq : (other == first) = false := by simpa using h
  rw [List.lookup_cons, hbeq]

theorem lookup_update {α : Type} (name : String) (start : α) (f : α → α)
    (entries : List (String × α)) (other : String) :
    (update name start f entries).lookup other =
      if other = name then some (f ((entries.lookup name).getD start))
      else entries.lookup other := by
  induction entries with
  | nil =>
    by_cases hother : other = name
    · rw [update, hother, List.lookup_cons_self, if_pos rfl]
      rfl
    · rw [update, lookup_cons_of_ne hother, if_neg hother]
  | cons entry rest ih =>
    obtain ⟨first, value⟩ := entry
    by_cases hfirst : first = name
    · subst hfirst
      rw [update, if_pos rfl, List.lookup_cons_self]
      by_cases hother : other = first
      · rw [hother, List.lookup_cons_self, if_pos rfl, Option.getD_some]
      · rw [lookup_cons_of_ne hother, lookup_cons_of_ne hother, if_neg hother]
    · rw [update, if_neg hfirst, lookup_cons_of_ne (Ne.symm hfirst)]
      by_cases hother : other = first
      · rw [hother, List.lookup_cons_self, List.lookup_cons_self, if_neg hfirst]
      · rw [lookup_cons_of_ne hother, lookup_cons_of_ne hother, ih]

theorem counted_provide (o : Observed) (c : Capability) (name : String) :
    (o.provide c).counted name = o.counted name := by
  cases c with
  | counter name' =>
    simp only [counted, provide, lookup_update]
    split
    · next hname => rw [hname]; rfl
    · rfl
  | flag name' => rfl
  | opener label => rfl

theorem counted_signal (o : Observed) (c : Capability) (name : String) :
    (o.signal c).counted name = o.counted name + [c].count (.counter name) := by
  cases c with
  | counter name' =>
    simp only [counted, signal, lookup_update, List.count_singleton]
    by_cases hname : name = name'
    · simp [hname]
    · simp [hname, Ne.symm hname]
  | flag name' => simp [counted, signal]
  | opener label =>
    simp only [counted, signal]
    cases o.replica.space.attach label <;> simp

/-- A counter counts how often it is among the signalled capabilities. -/
theorem counted_signalAll (o : Observed) (capabilities : List Capability) (name : String) :
    (o.signalAll capabilities).counted name =
      o.counted name + capabilities.count (.counter name) := by
  induction capabilities generalizing o with
  | nil => rfl
  | cons c rest ih =>
    rw [signalAll, List.foldl_cons, ← signalAll, ih, counted_signal, Nat.add_assoc,
      ← List.count_append, List.singleton_append]

theorem counts_forget (o : Observed) (name : String) : (o.forget name).counts = o.counts := by
  unfold forget
  cases o.session? name <;> rfl

/-- A counter that has been provided counts what is signalled, and nothing else. -/
theorem counted_perform (o : Observed) (deed : Deed) (name : String) :
    (o.perform deed).counted name = o.counted name + (o.submits deed).count (.counter name) := by
  cases deed with
  | attach name' label =>
    rw [perform_attach]
    split
    · simp only [counted, counts_forget, submits, List.count_nil, Nat.add_zero, mapSpace]
    · simp only [submits, List.count_nil, Nat.add_zero]
  | detach name' => simp only [counted, perform, detach, counts_forget, submits, List.count_nil,
      Nat.add_zero]
  | register name' c =>
    rw [perform, register]
    cases o.session? name' with
    | none => exact counted_provide o c name
    | some id => exact counted_provide _ c name
  | publish content => rfl
  | start length expected => rfl
  | write offset bytes => rfl
  | finish abort =>
    cases abort with
    | true => rfl
    | false => exact counted_signalAll _ _ name

end RomCast.Observed
