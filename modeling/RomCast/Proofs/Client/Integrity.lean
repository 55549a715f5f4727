import RomCast.Proofs.Client.Deliver
import RomCast.Proofs.Replica.Sessions

set_option autoImplicit false

/-!
# The integrity of what a client shows

A client is left to an arbitrary network and to arbitrary sessions.  Whatever frames arrive, in
whatever order and however often, a module shows its default until a first commit and the content of
its latest commit from then on (`shows_default_or_latest_commit`).
-/

namespace RomCast.Client

variable {L κ : Type} [Transport L]

/-- Something that happens to a client. -/
inductive Move (L κ : Type) where
  /-- Anything that concerns the endpoint alone: frames arrive, frames are sent, timers run. -/
  | endpoint (change : Endpoint L → Endpoint L)
  /-- The next frame is read. -/
  | turn (now : Nat)
  | takeJournal
  | attach (name : ModuleName) (label : String)
  | sigh (name : ModuleName) (session : Nat) (capability : κ)
  | detach (name : ModuleName) (session : Nat)

/-- Change the sessions of one module. -/
def mapSpace (c : Client L κ) (name : ModuleName) (f : Dataspace κ → Dataspace κ) : Client L κ :=
  { c with role := { c.role with
      replicas := c.role.replicas.modify name fun r => { r with space := f r.space } } }

/-- A client, and the commits so far. -/
structure Watched (L κ : Type) where
  client : Client L κ
  commits : List Commit := []

/-- The commit that came of a packet, if one did. -/
def commitOf (before after : Subscriptions κ) (message : Message) : Option Commit :=
  match message.body, Replica.outcome? (news before after), after.replicas.find? message.module with
  | .data f, some .committed, some r =>
      some ⟨message.module, message.contentHash, f, r.space.content⟩
  | _, _, _ => none

/-- A client that has received nothing, with modules and their defaults. -/
def starting (endpoint : Endpoint L) (limit : Nat) (modules : List (ModuleName × Option Bytes)) :
    Client L κ :=
  modules.foldl (fun c m => c.register (Replica.new m.1 m.2)) (Client.new endpoint limit)

namespace Watched

/-- One move, with the commit that comes of it. -/
def perform (w : Watched L κ) : Move L κ → Watched L κ
  | .endpoint change => { w with client := { w.client with endpoint := change w.client.endpoint } }
  | .turn now =>
      let after := (Station.turn (handler now)).state w.client
      let commit := (Station.packet? w.client).bind (commitOf w.client.role after.role)
      { client := after, commits := w.commits ++ commit.toList }
  | .takeJournal => { w with client := w.client.takeJournal.2 }
  | .attach name label => { w with client := w.client.mapSpace name (·.attached label) }
  | .sigh name session capability =>
      { w with client := w.client.mapSpace name (·.register session capability) }
  | .detach name session => { w with client := w.client.mapSpace name (·.detach session) }

/-- A number of moves, one after the other. -/
def run (w : Watched L κ) (moves : List (Move L κ)) : Watched L κ := moves.foldl perform w

/-- The commits of one module. -/
def commitsOf (w : Watched L κ) (name : ModuleName) : List Commit :=
  w.commits.filter fun c => c.module = name

end Watched

/-! ## A turn -/

/-- A turn changes nothing that can be seen, or commits the content of its packet. -/
theorem turn_unseen_or_seen (now : Nat) (c : Client L κ) :
    Unseen c.role ((Station.turn (handler now)).state c).role ∨
      ∃ message commit, Station.packet? c = some message ∧
        Seen c.role ((Station.turn (handler now)).state c).role message commit := by
  rw [Station.role_turn (handler now) deliver (handler_deliver now) c]
  cases hpacket : Station.packet? c with
  | none => exact Or.inl (unseen_refl c.role)
  | some message =>
    rcases deliver_unseen_or_seen message c.role with hunseen | ⟨commit, hseen⟩
    · exact Or.inl hunseen
    · exact Or.inr ⟨message, commit, rfl, hseen⟩

theorem limit_turn (now : Nat) (c : Client L κ) :
    ((Station.turn (handler now)).state c).role.limit = c.role.limit := by
  rw [Station.role_turn (handler now) deliver (handler_deliver now) c]
  cases Station.packet? c with
  | none => rfl
  | some message => exact limit_deliver message c.role

theorem commitOf_of_unseen {before after : Subscriptions κ} (h : Unseen before after)
    (message : Message) : commitOf before after message = none := by
  unfold commitOf
  cases hbody : message.body with
  | signal => rfl
  | update => rfl
  | data f =>
    cases houtcome : Replica.outcome? (news before after) with
    | none => rfl
    | some outcome =>
      cases outcome with
      | committed => exact absurd houtcome h.outcome
      | rejected => rfl
      | aborted => rfl
      | idle => rfl

theorem commitOf_of_seen {before after : Subscriptions κ} {message : Message} {c : Commit}
    (h : Seen before after message c) : commitOf before after message = some c := by
  obtain ⟨r, r', hbefore, hafter, hspace, hcommits, hsignals⟩ := h.replica
  have hcontent : r'.space.content = c.content := by
    rw [hspace]
    rfl
  unfold commitOf
  rw [h.body, h.outcome, h.module, hafter, h.hash]
  simp only [hcontent]

/-! ## What a move preserves -/

/-- How a replica came about: it showed its default, and then the contents of its commits. -/
structure Traced (limit : Nat) (r₀ : Replica κ) (commits : List Commit) (r : Replica κ) :
    Prop where
  default : r.space.default = r₀.space.default
  foreground : r.space.foreground = commits.getLast?.map Commit.content
  sound : ∀ c ∈ commits, c.Sound limit
  count : r.commits = commits.length
  numbered : r.space.Numbered

/-- The invariant: every replica came about from its commits. -/
structure Faithful (limit : Nat) (start : Client L κ) (w : Watched L κ) : Prop where
  limit_eq : w.client.role.limit = limit
  traced : ∀ name r, w.client.replica? name = some r →
    ∃ r₀, start.replica? name = some r₀ ∧ Traced limit r₀ (w.commitsOf name) r

theorem Traced.congr {limit : Nat} {r₀ r r' : Replica κ} {commits : List Commit}
    (h : Traced limit r₀ commits r) (hspace : r'.space = r.space)
    (hcommits : r'.commits = r.commits) : Traced limit r₀ commits r' := by
  constructor
  · rw [hspace, h.default]
  · rw [hspace, h.foreground]
  · exact h.sound
  · rw [hcommits, h.count]
  · rw [hspace]
    exact h.numbered

/-- A commit becomes the latest one. -/
theorem Traced.commit {limit : Nat} {r₀ r r' : Replica κ} {commits : List Commit} {c : Commit}
    (h : Traced limit r₀ commits r) (hsound : c.Sound limit)
    (hspace : r'.space = r.space.publish c.content) (hcommits : r'.commits = r.commits + 1) :
    Traced limit r₀ (commits ++ [c]) r' := by
  constructor
  · rw [hspace]
    exact h.default
  · rw [hspace, List.getLast?_concat]
    rfl
  · intro c' hc'
    rcases List.mem_append.mp hc' with hold | hnew
    · exact h.sound c' hold
    · rw [List.mem_singleton.mp hnew]
      exact hsound
  · rw [hcommits, h.count, List.length_append, List.length_singleton]
  · rw [hspace]
    exact h.numbered.publish c.content

omit [Transport L] in
/-- Sessions come and go without anything else changing. -/
theorem Faithful.mapSpace {limit : Nat} {start : Client L κ} {w : Watched L κ}
    (h : Faithful limit start w) (name : ModuleName) {f : Dataspace κ → Dataspace κ}
    (hforeground : ∀ d, (f d).foreground = d.foreground)
    (hdefault : ∀ d, (f d).default = d.default)
    (hnumbered : ∀ d : Dataspace κ, d.Numbered → (f d).Numbered) :
    Faithful limit start { w with client := w.client.mapSpace name f } := by
  refine ⟨h.limit_eq, ?_⟩
  intro other r hr
  have hfind : (w.client.role.replicas.modify name fun r => { r with space := f r.space }).find?
      other = some r := hr
  rw [Registry.find?_modify] at hfind
  by_cases hother : other = name
  · rw [if_pos hother] at hfind
    obtain ⟨r', hr', hmapped⟩ := Option.map_eq_some_iff.mp hfind
    obtain ⟨r₀, hstart, htraced⟩ := h.traced other r' hr'
    subst hmapped
    exact ⟨r₀, hstart, (hdefault _).trans htraced.default,
      (hforeground _).trans htraced.foreground, htraced.sound, htraced.count,
      hnumbered _ htraced.numbered⟩
  · rw [if_neg hother] at hfind
    exact h.traced other r hfind

theorem commitsOf_append_self (commits : List Commit) (c : Commit) :
    (commits ++ [c]).filter (fun d => d.module = c.module) =
      commits.filter (fun d => d.module = c.module) ++ [c] := by
  simp

theorem commitsOf_append_of_ne (commits : List Commit) {c : Commit} {name : ModuleName}
    (h : name ≠ c.module) :
    (commits ++ [c]).filter (fun d => d.module = name) =
      commits.filter (fun d => d.module = name) := by
  simp [Ne.symm h]

/-- A turn adds at most its own commit. -/
theorem Faithful.turn {limit : Nat} {start : Client L κ} {w : Watched L κ}
    (h : Faithful limit start w) (now : Nat) :
    Faithful limit start (w.perform (.turn now)) := by
  refine ⟨(limit_turn now w.client).trans h.limit_eq, ?_⟩
  intro name r hr
  rcases turn_unseen_or_seen now w.client with hunseen | ⟨message, c, hpacket, hseen⟩
  · have hcommits : (w.perform (.turn now)).commits = w.commits := by
      cases hp : Station.packet? w.client with
      | none => simp [Watched.perform, hp]
      | some message => simp [Watched.perform, hp, commitOf_of_unseen hunseen message]
    have hspace := hunseen.space name
    have hcount := hunseen.commits name
    have hafter : ((Station.turn (handler now)).state w.client).role.replicas.find? name = some r :=
      hr
    rw [hafter, Option.map_some] at hspace hcount
    obtain ⟨r', hr', hspace'⟩ := Option.map_eq_some_iff.mp hspace.symm
    rw [hr', Option.map_some, Option.some.injEq] at hcount
    obtain ⟨r₀, hstart, htraced⟩ := h.traced name r' hr'
    refine ⟨r₀, hstart, ?_⟩
    rw [Watched.commitsOf, hcommits]
    exact htraced.congr hspace'.symm hcount
  · have hcommits : (w.perform (.turn now)).commits = w.commits ++ [c] := by
      simp [Watched.perform, hpacket, commitOf_of_seen hseen]
    obtain ⟨old, new, hold, hnew, hspace, hcount, hsignals⟩ := hseen.replica
    by_cases hname : name = c.module
    · subst hname
      have hsame : r = new := Option.some.inj (hr.symm.trans hnew)
      obtain ⟨r₀, hstart, htraced⟩ := h.traced c.module old hold
      refine ⟨r₀, hstart, ?_⟩
      rw [Watched.commitsOf, hcommits, commitsOf_append_self, hsame]
      have hsound : c.Sound limit := by
        rw [← h.limit_eq]
        exact hseen.sound
      exact htraced.commit hsound hspace hcount
    · have hr' : w.client.replica? name = some r := (hseen.others name hname).symm.trans hr
      obtain ⟨r₀, hstart, htraced⟩ := h.traced name r hr'
      refine ⟨r₀, hstart, ?_⟩
      rw [Watched.commitsOf, hcommits, commitsOf_append_of_ne w.commits hname]
      exact htraced

theorem Faithful.perform {limit : Nat} {start : Client L κ} {w : Watched L κ}
    (h : Faithful limit start w) (move : Move L κ) : Faithful limit start (w.perform move) := by
  cases move with
  | endpoint change => exact ⟨h.limit_eq, h.traced⟩
  | turn now => exact h.turn now
  | takeJournal => exact ⟨h.limit_eq, h.traced⟩
  | attach name label =>
    exact h.mapSpace name (fun d => d.foreground_attached label)
      (fun d => d.default_attached label) (fun d hd => hd.attached label)
  | sigh name session capability =>
    exact h.mapSpace name (fun _ => rfl) (fun _ => rfl) (fun d hd => hd.register session capability)
  | detach name session =>
    exact h.mapSpace name (fun _ => rfl) (fun _ => rfl) (fun d hd => hd.detach session)

/-- The invariant along a run. -/
theorem Faithful.run {limit : Nat} {start : Client L κ} {w : Watched L κ}
    (h : Faithful limit start w) (moves : List (Move L κ)) :
    Faithful limit start (w.run moves) := by
  induction moves generalizing w with
  | nil => exact h
  | cons move rest ih => exact ih (h.perform move)

/-! ## The start -/

omit [Transport L] in
/-- At the start a module has the default that it was registered with last. -/
theorem replica?_starting (endpoint : Endpoint L) (limit : Nat)
    (modules : List (ModuleName × Option Bytes)) (name : ModuleName) :
    (starting endpoint limit modules : Client L κ).replica? name =
      (modules.reverse.lookup name).map fun default => Replica.new name default := by
  have hfold : ∀ c : Client L κ,
      (modules.foldl (fun c m => c.register (Replica.new m.1 m.2)) c).replica? name =
        ((modules.reverse.lookup name).map fun default => Replica.new name default).or
          (c.replica? name) := by
    induction modules with
    | nil =>
      intro c
      rfl
    | cons m rest ih =>
      intro c
      obtain ⟨first, default⟩ := m
      rw [List.foldl_cons, ih, List.reverse_cons, List.lookup_append]
      cases rest.reverse.lookup name with
      | some default => rfl
      | none =>
        simp only [Option.map_none, Option.none_or, List.lookup_cons, List.lookup_nil]
        by_cases hname : name = first
        · subst hname
          have hself : (c.register (Replica.new name default)).replica? name =
              some (Replica.new name default) := Registry.find?_insert_self ..
          simp [hself]
        · have hne : (name == first) = false := by simpa using hname
          have hother : (c.register (Replica.new first default)).replica? name = c.replica? name :=
            Registry.find?_insert_of_ne _ hname _
          simp [hother, hne]
  have hnone : (Client.new endpoint limit : Client L κ).replica? name = none := rfl
  rw [starting, hfold, hnone, Option.or_none]

omit [Transport L] in
theorem limit_starting (endpoint : Endpoint L) (limit : Nat)
    (modules : List (ModuleName × Option Bytes)) :
    (starting endpoint limit modules : Client L κ).role.limit = limit := by
  have hfold : ∀ c : Client L κ,
      (modules.foldl (fun c m => c.register (Replica.new m.1 m.2)) c).role.limit =
        c.role.limit := by
    induction modules with
    | nil =>
      intro c
      rfl
    | cons m rest ih =>
      intro c
      rw [List.foldl_cons, ih]
      rfl
  exact hfold _

omit [Transport L] in
theorem faithful_starting (endpoint : Endpoint L) (limit : Nat)
    (modules : List (ModuleName × Option Bytes)) :
    Faithful limit (starting endpoint limit modules : Client L κ)
      { client := starting endpoint limit modules } := by
  refine ⟨limit_starting endpoint limit modules, ?_⟩
  intro name r hr
  refine ⟨r, hr, ?_⟩
  rw [replica?_starting] at hr
  obtain ⟨default, hlookup, hnew⟩ := Option.map_eq_some_iff.mp hr
  subst hnew
  exact ⟨rfl, rfl, by simp [Watched.commitsOf], rfl, Dataspace.new_numbered name default⟩

/-! ## Integrity -/

/-- What a module shows, given its default and its commits. -/
structure Shown (limit : Nat) (default : Bytes) (commits : List Commit) (r : Replica κ) :
    Prop where
  /-- The latest commit's content, or the default before the first commit. -/
  content : r.space.content = (commits.getLast?.map Commit.content).getD default
  hasContent : r.space.hasContent = !commits.isEmpty
  /-- Every commit's content is the one that its packet announced. -/
  sound : ∀ c ∈ commits, c.Sound limit
  count : r.commits = commits.length
  /-- No session is there twice. -/
  sessions : (r.space.sessions.map Prod.fst).Nodup

theorem Traced.shown {limit : Nat} {r₀ r : Replica κ} {commits : List Commit}
    (h : Traced limit r₀ commits r) : Shown limit r₀.space.default commits r := by
  refine ⟨?_, ?_, h.sound, h.count, h.numbered.nodup⟩
  · rw [Dataspace.content, h.foreground, h.default]
  · rw [Dataspace.hasContent, h.foreground]
    rcases List.eq_nil_or_concat commits with hnil | ⟨rest, c, hconcat⟩
    · rw [hnil]
      rfl
    · simp [hconcat]

/-- Whatever a network and its sessions do to a client, every module shows its default or the
content of its latest commit; a packet that commits nothing changes nothing that can be seen, and
one that commits counts once and signals each session that has a capability once. -/
theorem shows_default_or_latest_commit (endpoint : Endpoint L) (limit : Nat)
    (modules : List (ModuleName × Option Bytes)) (moves : List (Move L κ)) :
    let w := Watched.run { client := starting endpoint limit modules } moves
    (∀ name r, w.client.replica? name = some r →
      ∃ default, modules.reverse.lookup name = some default ∧
        Shown limit (default.getD []) (w.commitsOf name) r) ∧
    (∀ now,
      let after := ((Station.turn (handler now)).state w.client).role
      (Replica.outcome? (news w.client.role after) ≠ some .committed →
        Unseen w.client.role after) ∧
      (Replica.outcome? (news w.client.role after) = some .committed →
        ∃ message c, Station.packet? w.client = some message ∧
          Seen w.client.role after message c)) ∧
    (∀ now, ∃ turns,
      (poll now).state w.client = Station.afterTurns (handler now) turns w.client ∨
      (poll now).state w.client = (Station.onEndpoint Endpoint.flush).state
        (Station.afterTurns (handler now) turns w.client)) := by
  intro w
  have hfaithful := (faithful_starting (κ := κ) endpoint limit modules).run moves
  refine ⟨?_, ?_, ?_⟩
  · intro name r hr
    obtain ⟨r₀, hstart, htraced⟩ := hfaithful.traced name r hr
    rw [replica?_starting] at hstart
    obtain ⟨default, hlookup, hnew⟩ := Option.map_eq_some_iff.mp hstart
    subst hnew
    exact ⟨default, hlookup, htraced.shown⟩
  · intro now after
    rcases turn_unseen_or_seen now w.client with hunseen | ⟨message, c, hpacket, hseen⟩
    · exact ⟨fun _ => hunseen, fun hcommitted => absurd hcommitted hunseen.outcome⟩
    · exact ⟨fun hnot => absurd hseen.outcome hnot, fun _ => ⟨message, c, hpacket, hseen⟩⟩
  · intro now
    exact Station.state_poll (handler now) w.client

end RomCast.Client
