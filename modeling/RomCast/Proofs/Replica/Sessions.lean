import Mathlib.Data.List.Forall2
import RomCast.Dataspace

set_option autoImplicit false

/-!
# The sessions of a dataspace

A session's number is never given again, so that the sessions of a dataspace have different numbers
whatever is attached, registered, detached or published.  A signal goes out once for each session
that has a capability (`signals_signalsEach`).
-/

namespace RomCast.Dataspace

variable {κ : Type}

/-- The sessions have different numbers, and none has the number of a session to come. -/
structure Numbered (d : Dataspace κ) : Prop where
  nodup : (d.sessions.map Prod.fst).Nodup
  used : ∀ id ∈ d.sessions.map Prod.fst, id < d.nextId

/-- Attach a session, unless the label is refused. -/
def attached (d : Dataspace κ) (label : String) : Dataspace κ :=
  match d.attach label with
  | .ok (_, d') => d'
  | .error _ => d

theorem foreground_attached (d : Dataspace κ) (label : String) :
    (d.attached label).foreground = d.foreground := by
  unfold attached attach
  by_cases hlabel : requestedModule label = d.name.text
  · simp only [hlabel, if_pos]
  · simp only [if_neg hlabel]

theorem default_attached (d : Dataspace κ) (label : String) :
    (d.attached label).default = d.default := by
  unfold attached attach
  by_cases hlabel : requestedModule label = d.name.text
  · simp only [hlabel, if_pos]
  · simp only [if_neg hlabel]

theorem new_numbered (name : ModuleName) (default : Option Bytes) :
    (Dataspace.new name default : Dataspace κ).Numbered :=
  ⟨List.nodup_nil, by simp [Dataspace.new]⟩

theorem Numbered.publish {d : Dataspace κ} (h : d.Numbered) (content : Bytes) :
    (d.publish content).Numbered :=
  ⟨h.nodup, h.used⟩

theorem Numbered.attached {d : Dataspace κ} (h : d.Numbered) (label : String) :
    (d.attached label).Numbered := by
  unfold Dataspace.attached attach
  by_cases hlabel : requestedModule label = d.name.text
  · simp only [hlabel, if_pos]
    constructor
    · simp only [List.map_append, List.map_cons, List.map_nil]
      refine List.nodup_append.mpr ⟨h.nodup, List.pairwise_singleton _ _, ?_⟩
      intro id hid other hother
      rw [List.mem_singleton] at hother
      have hlt : id < d.nextId := h.used id hid
      omega
    · intro id hid
      simp only [List.map_append, List.map_cons, List.map_nil, List.mem_append,
        List.mem_singleton] at hid
      rcases hid with hold | hnew
      · exact Nat.lt_succ_of_lt (h.used id hold)
      · rw [hnew]
        exact Nat.lt_succ_self _
  · simp only [if_neg hlabel]
    exact h

/-- Registering a capability keeps the numbers. -/
theorem map_fst_register (d : Dataspace κ) (id : Nat) (capability : κ) :
    (d.register id capability).sessions.map Prod.fst = d.sessions.map Prod.fst := by
  simp only [register, List.map_map]
  refine List.map_congr_left ?_
  intro s _
  by_cases hid : s.1 = id
  · simp [hid]
  · simp [hid]

theorem Numbered.register {d : Dataspace κ} (h : d.Numbered) (id : Nat) (capability : κ) :
    (d.register id capability).Numbered := by
  constructor
  · rw [map_fst_register]
    exact h.nodup
  · rw [map_fst_register]
    exact h.used

theorem Numbered.detach {d : Dataspace κ} (h : d.Numbered) (id : Nat) :
    (d.detach id).Numbered := by
  have hsub : ((d.detach id).sessions.map Prod.fst).Sublist (d.sessions.map Prod.fst) :=
    List.filter_sublist.map Prod.fst
  exact ⟨hsub.nodup h.nodup, fun other hother => h.used other (hsub.subset hother)⟩

/-! ## Whom a signal reaches -/

/-- Each session that has a capability is signalled once, and nobody else is. -/
structure SignalsEach (d : Dataspace κ) (signalled : List κ) : Prop where
  /-- There is one signal for each session with a capability, which submits that capability. -/
  paired : List.Forall₂ (fun session capability => session.2 = some capability)
    (d.sessions.filter fun session => session.2.isSome) signalled
  /-- So a capability is signalled as often as there are sessions that have it. -/
  count : ∀ [DecidableEq κ] (capability : κ), signalled.count capability =
    (d.sessions.filter fun session => session.2 = some capability).length

theorem signals_paired (d : Dataspace κ) :
    List.Forall₂ (fun session capability => session.2 = some capability)
      (d.sessions.filter fun session => session.2.isSome) d.signals := by
  unfold signals
  induction d.sessions with
  | nil => exact .nil
  | cons session rest ih =>
    obtain ⟨id, capability⟩ := session
    cases capability with
    | none => simpa using ih
    | some c => simpa using ih

theorem count_signals [DecidableEq κ] (d : Dataspace κ) (capability : κ) :
    d.signals.count capability =
      (d.sessions.filter fun session => session.2 = some capability).length := by
  rw [signals, List.count_filterMap, List.countP_eq_length_filter]
  exact congrArg List.length (List.filter_congr fun _ _ => beq_eq_decide ..)

theorem signals_signalsEach (d : Dataspace κ) : d.SignalsEach d.signals :=
  ⟨d.signals_paired, fun capability => d.count_signals capability⟩

end RomCast.Dataspace
