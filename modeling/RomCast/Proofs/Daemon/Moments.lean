import RomCast.Daemon.Run
import RomCast.Proofs.Client.Advance
import RomCast.Proofs.Files.Frame

set_option autoImplicit false

/-!
# What happens to a client's loop

The loop waits for several events at once and takes them in whatever order they come; frames arrive
meanwhile, time passes, and others change the files.  A daemon is a run of such moments: to every
event it reacts with the event and a look at the flag (`handle_client`), and so it starts
(`start_client`) and goes on (`elapse_client`).

The flag is raised exactly by the commits of modules that somebody looks at (`stored_run`).
-/

namespace RomCast.Daemon

/-- Something that happens to a client's loop. -/
inductive Moment (L : Type) where
  /-- The loop takes an event. -/
  | event (now : Nat) (event : Event)
  /-- Anything that happens to the link alone: frames arrive, frames are lost. -/
  | link (change : L → L)
  /-- Time passes that the files go by. -/
  | clock (time : Nat)
  /-- Others change the files, in whatever way. -/
  | files (change : FileTree → FileTree)

/-- If others change files at a moment, they leave alone what is at a location. -/
def Moment.Spares {L : Type} (place : Location) : Moment L → Prop
  | .files change => ∀ base node files, FileTree.Standing base place node files →
      FileTree.Standing base place node (change files)
  | _ => True

namespace ClientLoop

variable {L ε α : Type}

/-! ## Steps of the client -/

/-- How often a module has been committed. -/
def commits (s : ClientLoop L) (name : ModuleName) : Nat :=
  match s.client.replica? name with
  | some r => r.commits
  | none => 0

theorem commits_of_replica? {s : ClientLoop L} {name : ModuleName} {r : Replica Unit}
    (h : s.client.replica? name = some r) : s.commits name = r.commits := by
  rw [commits, h]

theorem any_signals (journal : List (ModuleName × Replica.Event Unit)) :
    (journal.any fun (_, event) => !event.signals.isEmpty) = true ↔
      Replica.submitted (journal.map Prod.snd) ≠ [] := by
  induction journal with
  | nil => simp [Replica.submitted]
  | cons entry rest ih =>
    obtain ⟨name, event⟩ := entry
    rw [List.any_cons, Bool.or_eq_true, ih, List.map_cons]
    simp only [Replica.submitted, List.flatMap_cons, Ne, List.append_eq_nil_iff,
      Classical.not_and_iff_not_or_not]
    simp

/-- A step of the client leaves the flag raised if it was raised or if the step has signalled
somebody. -/
theorem stored_run (x : Action ε (Client L Unit) α) {s : ClientLoop L}
    (hjournal : s.client.role.journal = []) :
    (s.run x).permit.stored = true ↔ s.permit.stored = true ∨
      Replica.submitted (Client.news s.client.role (x.state s.client).role) ≠ [] := by
  have hnews : Client.news s.client.role (x.state s.client).role =
      (x.state s.client).role.journal.map Prod.snd := by
    rw [Client.news, hjournal]
    rfl
  rw [hnews, ← any_signals]
  have hpermit : (s.run x).permit =
      if ((x.state s.client).role.journal.any fun (_, event) => !event.signals.isEmpty) = true
      then s.permit.signal else s.permit := rfl
  rw [hpermit]
  split
  · next hsignalled => simp [Permit.signal, hsignalled]
  · next hsilent => simp [hsilent]

/-- No commit is ever taken back. -/
theorem commits_le_run {x : Action ε (Client L Unit) α} {s : ClientLoop L}
    (h : Client.Advances s.client.role (x.state s.client).role) (name : ModuleName) :
    s.commits name ≤ (s.run x).commits name := by
  cases hr : s.client.replica? name with
  | none =>
    have hnone : s.commits name = 0 := by rw [commits, hr]
    rw [hnone]
    exact Nat.zero_le _
  | some r =>
    obtain ⟨r', hr', hgrows⟩ := h.grows name r hr
    have hafter : (s.run x).client.replica? name = some r' := hr'
    rw [commits_of_replica? hr, commits_of_replica? hafter]
    exact hgrows.commits

/-! ## Runs -/

variable [Transport L]

/-- One moment of a loop and the files that it works on. -/
def perform (state : ClientLoop L × FileTree) : Moment L → ClientLoop L × FileTree
  | .event now event => state.1.step now state.2 event
  | .link change =>
      ({ state.1 with client := { state.1.client with
          endpoint := { state.1.client.endpoint with
            link := change state.1.client.endpoint.link } } }, state.2)
  | .clock time => (state.1, { state.2 with now := time })
  | .files change => (state.1, change state.2)

/-- Moments, one after the other. -/
def performAll (state : ClientLoop L × FileTree) (moments : List (Moment L)) :
    ClientLoop L × FileTree :=
  moments.foldl perform state

/-! ## A daemon's moments -/

/-- A client's daemon reacts to an event with two moments. -/
theorem handle_client (now : Nat) {d : Daemon L} {s : ClientLoop L} (hloop : d.loop = .client s)
    (event : Event) :
    let after := performAll (s, d.files) [.event now event, .event now .notified]
    d.handle now event = { d with loop := .client after.1, files := after.2 } := by
  rw [handle, hloop]
  rfl

theorem performAll_append (state : ClientLoop L × FileTree) (first second : List (Moment L)) :
    performAll state (first ++ second) = performAll (performAll state first) second :=
  List.foldl_append ..

/-- Letting time pass is a run of moments. -/
theorem elapse_client (now milliseconds : Nat) {d : Daemon L} {s : ClientLoop L}
    (hloop : d.loop = .client s) :
    ∃ moments, let after := performAll (s, d.files) moments
      (d.elapse now milliseconds).loop = .client after.1 ∧
        (d.elapse now milliseconds).files = after.2 := by
  have hfold : ∀ (events : List Event) (d : Daemon L) (s : ClientLoop L), d.loop = .client s →
      ∃ moments, let after := performAll (s, d.files) moments
        (events.foldl (handle now) d).loop = .client after.1 ∧
          (events.foldl (handle now) d).files = after.2 := by
    intro events
    induction events with
    | nil =>
      intro d s hd
      exact ⟨[], hd, rfl⟩
    | cons event rest ih =>
      intro d s hd
      have hhandled := handle_client now hd event
      obtain ⟨moments, hloop', hfiles'⟩ := ih (d.handle now event)
        (performAll (s, d.files) [.event now event, .event now .notified]).1 (by rw [hhandled])
      rw [hhandled] at hloop' hfiles'
      refine ⟨[.event now event, .event now .notified] ++ moments, ?_, ?_⟩
      · rw [performAll_append, List.foldl_cons, hhandled]
        exact hloop'
      · rw [performAll_append, List.foldl_cons, hhandled]
        exact hfiles'
  exact hfold (d.schedule.due (d.clock + milliseconds)) d s hloop

/-- A client's daemon that has started is a loop that has begun, after some moments. -/
theorem start_client {now : Nat} {config : Config} {link : L} {files files' : FileTree}
    {d : Daemon L} (h : Daemon.start now .client config link files = .ok d files') :
    ∃ endpoint s files₁ moments, ClientLoop.start now config endpoint files = .ok s files₁ ∧
      let after := performAll (s, files₁) moments
      d.loop = .client after.1 ∧ d.files = after.2 := by
  unfold Daemon.start at h
  simp only [Action.ofExcept_bind_apply] at h
  cases hsettings : config.endpoint with
  | error problem => simp [hsettings] at h
  | ok settings =>
    simp only [hsettings, Action.except_mapError_ok] at h
    cases hbegun : ClientLoop.start now config (Endpoint.new link settings) files with
    | error cause files₁ => simp [hbegun, Functor.map, EStateM.map] at h
    | ok s files₁ =>
      simp only [Functor.map, bind_pure_comp, Action.bind_apply, EStateM.map, hbegun,
        Action.get_apply, Action.set_apply, EStateM.Result.ok.injEq] at h
      obtain ⟨hd, -⟩ := h
      obtain ⟨moments, hloop, hfiles⟩ := elapse_client now 0
        (d := { loop := .client s, files := files₁, schedule := timers .client config }) rfl
      rw [hd] at hloop hfiles
      exact ⟨Endpoint.new link settings, s, files₁, moments, hbegun, hloop, hfiles⟩

end ClientLoop

end RomCast.Daemon
