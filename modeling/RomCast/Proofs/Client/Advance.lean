import RomCast.Proofs.Client.Integrity

set_option autoImplicit false

/-!
# What a client's own steps do to its replicas

A client that is polled never loses a replica, never takes a commit back and never attaches a
session.  What is visible of a module changes only with its commits, and somebody is signalled
exactly when a module with a registered capability is committed (`poll_advances`).
-/

namespace RomCast

variable {L κ ε α : Type}

/-- A replica later on: it has the same sessions, and shows the same unless it has been
committed. -/
structure Replica.Grows (r r' : Replica κ) : Prop where
  signals : r'.space.signals = r.space.signals
  default : r'.space.default = r.space.default
  commits : r.commits ≤ r'.commits
  space : r'.commits = r.commits → r'.space = r.space

namespace Replica

theorem Grows.refl (r : Replica κ) : r.Grows r :=
  ⟨rfl, rfl, Nat.le_refl _, fun _ => rfl⟩

theorem Grows.trans {r r' r'' : Replica κ} (h : r.Grows r') (h' : r'.Grows r'') : r.Grows r'' := by
  have hle := h.commits
  have hle' := h'.commits
  refine ⟨h'.signals.trans h.signals, h'.default.trans h.default, Nat.le_trans hle hle', ?_⟩
  intro heq
  have hsame : r'.commits = r.commits := by omega
  have hsame' : r''.commits = r'.commits := by omega
  exact (h'.space hsame').trans (h.space hsame)

/-- The commit of a content. -/
theorem Grows.of_publish {r r' : Replica κ} {content : Bytes}
    (hspace : r'.space = r.space.publish content) (hcommits : r'.commits = r.commits + 1) :
    r.Grows r' := by
  refine ⟨?_, ?_, ?_, ?_⟩
  · rw [hspace]
    rfl
  · rw [hspace]
    rfl
  · omega
  · intro heq
    omega

end Replica

namespace Client

/-- What a client keeps, later on: every replica has grown, and somebody has been signalled exactly
if a module with a registered capability has been committed. -/
structure Advances (before after : Subscriptions κ) : Prop where
  journal : before.journal <+: after.journal
  absent : ∀ name, before.replicas.find? name = none → after.replicas.find? name = none
  grows : ∀ name r, before.replicas.find? name = some r →
    ∃ r', after.replicas.find? name = some r' ∧ r.Grows r'
  signalled : Replica.submitted (news before after) ≠ [] ↔
    ∃ name r r', before.replicas.find? name = some r ∧ after.replicas.find? name = some r' ∧
      r.space.signals ≠ [] ∧ r.commits < r'.commits

theorem Advances.refl (s : Subscriptions κ) : Advances s s := by
  refine ⟨List.prefix_rfl, fun _ h => h, fun name r h => ⟨r, h, Replica.Grows.refl r⟩, ?_⟩
  constructor
  · intro hsome
    simp [news, Replica.submitted] at hsome
  · rintro ⟨name, r, r', hr, hr', -, hlt⟩
    rw [hr] at hr'
    obtain rfl := Option.some.inj hr'
    exact absurd hlt (Nat.lt_irrefl _)

/-- The news of two stretches of time are the news of the one and then of the other. -/
theorem news_trans {a b c : Subscriptions κ} (hab : a.journal <+: b.journal)
    (hbc : b.journal <+: c.journal) : news a c = news a b ++ news b c := by
  obtain ⟨first, hfirst⟩ := hab
  obtain ⟨second, hsecond⟩ := hbc
  simp only [news, ← hsecond, ← hfirst]
  rw [List.drop_left, List.drop_left, List.append_assoc, List.drop_left, List.map_append]

theorem Advances.trans {a b c : Subscriptions κ} (h : Advances a b) (h' : Advances b c) :
    Advances a c := by
  refine ⟨h.journal.trans h'.journal, fun name ha => h'.absent name (h.absent name ha), ?_, ?_⟩
  · intro name r hr
    obtain ⟨r', hr', hgrows⟩ := h.grows name r hr
    obtain ⟨r'', hr'', hgrows'⟩ := h'.grows name r' hr'
    exact ⟨r'', hr'', hgrows.trans hgrows'⟩
  · have hsubmitted : Replica.submitted (news a c) =
        Replica.submitted (news a b) ++ Replica.submitted (news b c) := by
      rw [news_trans h.journal h'.journal, Replica.submitted, List.flatMap_append]
      rfl
    rw [hsubmitted, Ne, List.append_eq_nil_iff, Classical.not_and_iff_not_or_not]
    constructor
    · rintro (hfirst | hsecond)
      · obtain ⟨name, r, r', hr, hr', hsignals, hlt⟩ := h.signalled.mp hfirst
        obtain ⟨r'', hr'', hgrows⟩ := h'.grows name r' hr'
        exact ⟨name, r, r'', hr, hr'', hsignals, Nat.lt_of_lt_of_le hlt hgrows.commits⟩
      · obtain ⟨name, r', r'', hr', hr'', hsignals, hlt⟩ := h'.signalled.mp hsecond
        cases hr : a.replicas.find? name with
        | none =>
          rw [h.absent name hr] at hr'
          cases hr'
        | some r =>
          obtain ⟨r₁, hr₁, hgrows⟩ := h.grows name r hr
          rw [hr'] at hr₁
          obtain rfl := Option.some.inj hr₁
          rw [hgrows.signals] at hsignals
          exact ⟨name, r, r'', hr, hr'', hsignals, Nat.lt_of_le_of_lt hgrows.commits hlt⟩
    · rintro ⟨name, r, r'', hr, hr'', hsignals, hlt⟩
      obtain ⟨r', hr', hgrows⟩ := h.grows name r hr
      by_cases hfirst : r.commits < r'.commits
      · exact Or.inl (h.signalled.mpr ⟨name, r, r', hr, hr', hsignals, hfirst⟩)
      · have hsecond : r'.commits < r''.commits :=
          Nat.lt_of_le_of_lt (Nat.le_of_not_lt hfirst) hlt
        rw [← hgrows.signals] at hsignals
        exact Or.inr (h'.signalled.mpr ⟨name, r', r'', hr', hr'', hsignals, hsecond⟩)

/-! ## Packets -/

theorem Unseen.advances {before after : Subscriptions κ} (h : Unseen before after) :
    Advances before after := by
  have hsame : ∀ name r r', before.replicas.find? name = some r →
      after.replicas.find? name = some r' → r'.space = r.space ∧ r'.commits = r.commits := by
    intro name r r' hr hr'
    have hspace := h.space name
    have hcommits := h.commits name
    rw [hr, hr', Option.map_some, Option.map_some] at hspace hcommits
    exact ⟨Option.some.inj hspace, Option.some.inj hcommits⟩
  refine ⟨h.journal, ?_, ?_, ?_⟩
  · intro name hnone
    have hspace := h.space name
    rw [hnone, Option.map_none] at hspace
    exact Option.map_eq_none_iff.mp hspace
  · intro name r hr
    have hspace := h.space name
    rw [hr, Option.map_some] at hspace
    obtain ⟨r', hr', -⟩ := Option.map_eq_some_iff.mp hspace
    obtain ⟨hspace', hcommits'⟩ := hsame name r r' hr hr'
    refine ⟨r', hr', ?_, ?_, Nat.le_of_eq hcommits'.symm, fun _ => hspace'⟩
    · rw [hspace']
    · rw [hspace']
  · constructor
    · intro hsome
      exact absurd h.signals hsome
    · rintro ⟨name, r, r', hr, hr', -, hlt⟩
      have hcommits := (hsame name r r' hr hr').2
      omega

theorem Seen.advances {before after : Subscriptions κ} {message : Message} {c : Commit}
    (h : Seen before after message c) : Advances before after := by
  obtain ⟨r, r', hr, hr', hspace, hcommits, hsubmitted⟩ := h.replica
  refine ⟨h.journal, ?_, ?_, ?_⟩
  · intro name hnone
    have hname : name ≠ c.module := by
      rintro rfl
      rw [hr] at hnone
      cases hnone
    rw [h.others name hname, hnone]
  · intro name r₁ hr₁
    by_cases hname : name = c.module
    · subst hname
      rw [hr] at hr₁
      obtain rfl := Option.some.inj hr₁
      exact ⟨r', hr', Replica.Grows.of_publish hspace hcommits⟩
    · exact ⟨r₁, (h.others name hname).trans hr₁, Replica.Grows.refl r₁⟩
  · rw [hsubmitted]
    constructor
    · intro hsignals
      exact ⟨c.module, r, r', hr, hr', hsignals, by omega⟩
    · rintro ⟨name, r₁, r₂, hr₁, hr₂, hsignals, hlt⟩
      by_cases hname : name = c.module
      · subst hname
        rw [hr] at hr₁
        obtain rfl := Option.some.inj hr₁
        exact hsignals
      · rw [h.others name hname, hr₁] at hr₂
        obtain rfl := Option.some.inj hr₂
        exact absurd hlt (Nat.lt_irrefl _)

/-! ## Steps of the client -/

variable [Transport L]

theorem turn_advances (now : Nat) (c : Client L κ) :
    Advances c.role ((Station.turn (handler now)).state c).role := by
  rcases turn_unseen_or_seen now c with hunseen | ⟨message, commit, -, hseen⟩
  · exact hunseen.advances
  · exact hseen.advances

theorem afterTurns_advances (now turns : Nat) (c : Client L κ) :
    Advances c.role (Station.afterTurns (handler now) turns c).role := by
  induction turns generalizing c with
  | zero => exact Advances.refl c.role
  | succ n ih =>
    rw [Station.afterTurns]
    exact (turn_advances now c).trans (ih _)

omit [Transport L] in
/-- A step of the endpoint does not concern the replicas. -/
theorem onEndpoint_advances (x : Action ε (Endpoint L) α) (c : Client L κ) :
    Advances c.role ((Station.onEndpoint x).state c).role := by
  rw [Station.onEndpoint, Action.state_on]
  exact Advances.refl c.role

/-- Asking for a module concerns the endpoint alone. -/
theorem role_requestUpdate (now : Nat) (name : ModuleName) (c : Client L κ) :
    ((requestUpdate now name).state c).role = c.role := by
  unfold requestUpdate
  rw [Action.state_bind_of_ok (Action.get_apply c)]
  split
  · rw [Station.onEndpoint, Action.state_on]
  · rfl

/-- What a client has read when it has been polled. -/
theorem poll_advances (now : Nat) (c : Client L κ) :
    Advances c.role ((poll now).state c).role := by
  obtain ⟨turns, hturns | hflushed⟩ := Station.state_poll (handler now) c
  · rw [poll, hturns]
    exact afterTurns_advances now turns c
  · rw [poll, hflushed]
    exact (afterTurns_advances now turns c).trans (onEndpoint_advances Endpoint.flush _)

end Client

end RomCast
