import RomCast.Client
import RomCast.Proofs.Replica.Sessions
import RomCast.Proofs.Replica.Visible
import RomCast.Proofs.Station.Turn

set_option autoImplicit false

/-!
# What a packet does to a client's replicas

A packet concerns one replica at most, and what is visible of it changes only when the packet brings
a transfer to its end with the announced hash.  `Commit` says what there is to say about such a
packet, and `deliver_leaves_or_commits` is the case split that everything else rests on.
-/

namespace RomCast.Client

variable {L κ ε : Type} [Transport L]

/-- What a packet does to what a client keeps. -/
def deliver (message : Message) (s : Subscriptions κ) : Subscriptions κ :=
  match message.body with
  | .signal => s
  | .update => s
  | .data f => acceptFragment message.module message.contentHash f s

/-- A client's handler changes what the client keeps by the packet alone. -/
theorem handler_deliver (now : Nat) (message : Message) (e : Endpoint L) (s : Subscriptions κ) :
    ((handler now message).state (e, s)).2 = deliver message s := by
  unfold handler deliver
  rw [Action.state_bind_of_ok (Action.get_apply (e, s))]
  by_cases hmodule : s.replicas.contains message.module = true
  · rw [if_pos hmodule]
    cases message.body with
    | signal => rw [Action.state_onFirst]
    | update => rfl
    | data f => rw [Action.state_onSecond]; rfl
  · rw [if_neg hmodule]
    have hnone : s.replicas.find? message.module = none := by
      simpa [Registry.contains] using hmodule
    cases message.body with
    | signal => rfl
    | update => rfl
    | data f => simp only [acceptFragment, hnone]; rfl

/-! ## What can be seen -/

/-- What has been written to the journal since it was as long as before. -/
def news (before after : Subscriptions κ) : List (Replica.Event κ) :=
  (after.journal.drop before.journal.length).map Prod.snd

/-- Nobody can see a difference: every module shows what it showed, has been committed as often, and
has the same sessions, and nobody is signalled. -/
structure Unseen (before after : Subscriptions κ) : Prop where
  journal : before.journal <+: after.journal
  outcome : Replica.outcome? (news before after) ≠ some .committed
  signals : Replica.submitted (news before after) = []
  space : ∀ name, (after.replicas.find? name).map Replica.space =
    (before.replicas.find? name).map Replica.space
  commits : ∀ name, (after.replicas.find? name).map Replica.commits =
    (before.replicas.find? name).map Replica.commits

/-- A packet that made a content visible, and that content. -/
structure Commit where
  module : ModuleName
  hash : ContentHash
  fragment : Fragment
  content : Bytes

/-- The content is the one that the packet announces, and not too long. -/
structure Commit.Sound (c : Commit) (limit : Nat) : Prop where
  hash_eq : ContentHash.of c.content = c.hash
  length_eq : c.content.length = c.fragment.contentSize.toNat
  within_limit : c.fragment.contentSize.toNat ≤ limit
  isLast : c.fragment.isLast = true

/-- One module shows a new content: it has been committed once more, the capability of each of its
sessions is signalled once, and the other modules are as they were. -/
structure Seen (before after : Subscriptions κ) (message : Message) (c : Commit) : Prop where
  module : message.module = c.module
  hash : message.contentHash = c.hash
  body : message.body = .data c.fragment
  sound : c.Sound before.limit
  journal : before.journal <+: after.journal
  outcome : Replica.outcome? (news before after) = some .committed
  replica : ∃ r r', before.replicas.find? c.module = some r ∧
    after.replicas.find? c.module = some r' ∧ r'.space = r.space.publish c.content ∧
    r'.commits = r.commits + 1 ∧ Replica.submitted (news before after) = r.space.signals
  signalled : ∀ r, before.replicas.find? c.module = some r →
    r.space.SignalsEach (Replica.submitted (news before after))
  others : ∀ name, name ≠ c.module → after.replicas.find? name = before.replicas.find? name

theorem unseen_refl (s : Subscriptions κ) : Unseen s s := by
  have hnews : news s s = [] := by simp [news]
  constructor
  · exact List.prefix_rfl
  · simp [hnews, Replica.outcome?]
  · simp [hnews, Replica.submitted]
  · intro name
    rfl
  · intro name
    rfl

/-- A packet changes nothing that can be seen, or commits one content. -/
theorem deliver_unseen_or_seen (message : Message) (s : Subscriptions κ) :
    Unseen s (deliver message s) ∨ ∃ c, Seen s (deliver message s) message c := by
  cases hbody : message.body with
  | signal =>
    have hsame : deliver message s = s := by simp [deliver, hbody]
    rw [hsame]
    exact Or.inl (unseen_refl s)
  | update =>
    have hsame : deliver message s = s := by simp [deliver, hbody]
    rw [hsame]
    exact Or.inl (unseen_refl s)
  | data f =>
    have hdeliver : deliver message s = acceptFragment message.module message.contentHash f s := by
      simp [deliver, hbody]
    cases hfind : s.replicas.find? message.module with
    | none =>
      have hsame : deliver message s = s := by rw [hdeliver, acceptFragment, hfind]
      rw [hsame]
      exact Or.inl (unseen_refl s)
    | some r =>
      -- The replica takes the fragment, and everything else about the client stays.
      have hafter : deliver message s =
          { s with
            replicas := s.replicas.insert message.module
              (r.accept message.contentHash f s.limit).1
            journal := s.journal ++
              (r.accept message.contentHash f s.limit).2.map (message.module, ·) } := by
        rw [hdeliver, acceptFragment, hfind]
      have hnews : news s (deliver message s) = (r.accept message.contentHash f s.limit).2 := by
        rw [hafter, news, List.drop_left, List.map_map]
        exact List.map_id _
      have hjournal : s.journal <+: (deliver message s).journal := by
        rw [hafter]
        exact List.prefix_append ..
      have hself : (deliver message s).replicas.find? message.module =
          some (r.accept message.contentHash f s.limit).1 := by
        rw [hafter, Registry.find?_insert_self]
      have hothers : ∀ name, name ≠ message.module →
          (deliver message s).replicas.find? name = s.replicas.find? name := by
        intro name hname
        rw [hafter, Registry.find?_insert_of_ne _ hname]
      rcases Replica.accept_leaves_or_shows r message.contentHash f s.limit with
        hleaves | ⟨content, hshows⟩
      · refine Or.inl ⟨hjournal, ?_, ?_, ?_, ?_⟩
        · rw [hnews]
          exact hleaves.outcome
        · rw [hnews]
          exact hleaves.signals
        · intro name
          by_cases hname : name = message.module
          · rw [hname, hself, hfind, Option.map_some, hleaves.space, Option.map_some]
          · rw [hothers name hname]
        · intro name
          by_cases hname : name = message.module
          · rw [hname, hself, hfind, Option.map_some, hleaves.commits, Option.map_some]
          · rw [hothers name hname]
      · refine Or.inr ⟨⟨message.module, message.contentHash, f, content⟩, rfl, rfl, hbody, ?_, hjournal,
          ?_, ?_, ?_, hothers⟩
        · exact ⟨hshows.hash_eq, hshows.length_eq, hshows.within_limit, hshows.isLast⟩
        · rw [hnews]
          exact hshows.outcome
        · refine ⟨r, _, hfind, hself, hshows.space, hshows.commits, ?_⟩
          rw [hnews]
          exact hshows.signals
        · intro r' hr'
          obtain rfl : r = r' := Option.some.inj (hfind.symm.trans hr')
          rw [hnews, hshows.signals]
          exact r.space.signals_signalsEach

theorem limit_deliver (message : Message) (s : Subscriptions κ) :
    (deliver message s).limit = s.limit := by
  unfold deliver acceptFragment
  cases message.body with
  | signal => rfl
  | update => rfl
  | data f =>
    cases s.replicas.find? message.module with
    | none => rfl
    | some r => rfl

end RomCast.Client
