import RomCast.Proofs.Client.Deliver
import RomCast.Proofs.Replica.Transfer

set_option autoImplicit false

/-!
# A whole transfer to a client

The packets of a content, handled in order, commit the content to the module's replica and leave the
client's other replicas alone (`deliverAll_replicates`).
-/

namespace RomCast.Client

variable {κ : Type}

/-- What a client keeps after these packets. -/
def deliverAll (messages : List Message) (s : Subscriptions κ) : Subscriptions κ :=
  messages.foldl (fun s message => deliver message s) s

/-- The packets that carry a content, as they are read. -/
def contentMessages (name : ModuleName) (content : Bytes) : List Message :=
  (List.range (Server.fragmentCount content)).map fun i =>
    ⟨name, ContentHash.of content, .data (Server.fragment content i)⟩

/-- One replica has become another, and these events are written down. -/
structure Advanced (s s' : Subscriptions κ) (name : ModuleName) (r : Replica κ)
    (events : List (Replica.Event κ)) : Prop where
  limit : s'.limit = s.limit
  replica : s'.replicas.find? name = some r
  others : ∀ other, other ≠ name → s'.replicas.find? other = s.replicas.find? other
  journal : s'.journal = s.journal ++ events.map (name, ·)

theorem advanced_refl {s : Subscriptions κ} {name : ModuleName} {r : Replica κ}
    (h : s.replicas.find? name = some r) : Advanced s s name r [] :=
  ⟨rfl, h, fun _ _ => rfl, (List.append_nil _).symm⟩

/-- One more fragment. -/
theorem Advanced.deliver {s s' : Subscriptions κ} {name : ModuleName} {r : Replica κ}
    {events : List (Replica.Event κ)} (h : Advanced s s' name r events) (hash : ContentHash)
    (f : Fragment) :
    Advanced s (deliver ⟨name, hash, .data f⟩ s') name (r.accept hash f s.limit).1
      (events ++ (r.accept hash f s.limit).2) := by
  have hafter : Client.deliver ⟨name, hash, .data f⟩ s' =
      { s' with
        replicas := s'.replicas.insert name (r.accept hash f s.limit).1
        journal := s'.journal ++ (r.accept hash f s.limit).2.map (name, ·) } := by
    show acceptFragment name hash f s' = _
    rw [acceptFragment, h.replica, ← h.limit]
  rw [hafter]
  constructor
  · exact h.limit
  · exact Registry.find?_insert_self ..
  · intro other hother
    rw [Registry.find?_insert_of_ne _ hother]
    exact h.others other hother
  · rw [h.journal, List.map_append, List.append_assoc]

/-- Any number of fragments, in order. -/
theorem deliverAll_advanced {s : Subscriptions κ} {name : ModuleName} {r : Replica κ}
    (h : s.replicas.find? name = some r) (hash : ContentHash) (fragments : List Fragment) :
    let taken := Replica.takeAll hash s.limit r fragments
    Advanced s (deliverAll (fragments.map fun f => ⟨name, hash, .data f⟩) s) name taken.1
      taken.2 := by
  intro taken
  have hfold : ∀ (s' : Subscriptions κ) (r' : Replica κ) (events : List (Replica.Event κ)),
      Advanced s s' name r' events →
      let after := fragments.foldl (fun (p : Replica κ × List (Replica.Event κ)) f =>
        ((p.1.accept hash f s.limit).1, p.2 ++ (p.1.accept hash f s.limit).2)) (r', events)
      Advanced s (deliverAll (fragments.map fun f => ⟨name, hash, .data f⟩) s') name after.1
        after.2 := by
    clear taken
    induction fragments with
    | nil => exact fun _ _ _ hadvanced => hadvanced
    | cons f rest ih =>
      intro s' r' events hadvanced
      exact ih _ _ _ (hadvanced.deliver hash f)
  exact hfold s r [] (advanced_refl h)

/-- What events are written down is what is new in the journal. -/
theorem Advanced.news {s s' : Subscriptions κ} {name : ModuleName} {r : Replica κ}
    {events : List (Replica.Event κ)} (h : Advanced s s' name r events) :
    news s s' = events := by
  rw [Client.news, h.journal, List.drop_left, List.map_map]
  exact List.map_id _

/-- A content has been committed to a module once: it is visible bit for bit, the commit is counted
and signalled once to each session that has a capability, and everything else is as it was. -/
structure Replicated (s s' : Subscriptions κ) (name : ModuleName) (content : Bytes)
    (r r' : Replica κ) : Prop where
  advanced : Advanced s s' name r' [.started content.length, r.completion]
  completed : Replica.Completed r r' content
  signalled : r.space.SignalsEach (Replica.submitted (news s s'))

theorem deliverAll_replicates {s : Subscriptions κ} {name : ModuleName} {r : Replica κ}
    (h : s.replicas.find? name = some r) {content : Bytes} (hpos : 0 < content.length)
    (hlength : content.length < UInt32.size) (hlimit : content.length ≤ s.limit) :
    ∃ r', Replicated s (deliverAll (contentMessages name content) s) name content r r' := by
  obtain ⟨r', htaken, hcompleted⟩ := Replica.takeAll_fragments r hpos hlength hlimit
  have hadvanced := deliverAll_advanced h (ContentHash.of content)
    ((List.range (Server.fragmentCount content)).map (Server.fragment content))
  rw [htaken, List.map_map] at hadvanced
  refine ⟨r', hadvanced, hcompleted, ?_⟩
  have hsubmitted : Replica.submitted (news s (deliverAll (contentMessages name content) s)) =
      r.space.signals :=
    (congrArg Replica.submitted hadvanced.news).trans (List.append_nil _)
  rw [hsubmitted]
  exact r.space.signals_signalsEach

end RomCast.Client
