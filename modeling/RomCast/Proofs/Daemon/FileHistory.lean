import RomCast.Proofs.Daemon.Moments
import RomCast.Proofs.Daemon.Startup

set_option autoImplicit false

/-!
# The file of a silent module along a run

`Setting` fixes a module that has a file among all the modules that have files.  While the module
has no commit, its file is what it was before the start or has been emptied (`Holds.file`); which of
them it is, the module's export tells.  The invariant holds along every run in which others leave
the file alone (`Holds.performAll`).
-/

namespace RomCast.Daemon

namespace ClientLoop

/-- The hash of what the loop has written last for a module, if it has written anything. -/
def written? {L : Type} (s : ClientLoop L) (name : ModuleName) : Option ContentHash :=
  (s.exports.lookup name).bind Export.written

end ClientLoop

/-- A module with a file, among all the modules that have files.  Their names differ, and whatever
is written for the others is elsewhere. -/
structure Setting where
  /-- The modules that have files. -/
  exported : List (ModuleName × FilePath)
  /-- Where relative paths begin. -/
  base : Location
  name : ModuleName
  path : FilePath
  member : (name, path) ∈ exported
  nodup : (exported.map Prod.fst).Nodup
  apart : ∀ entry ∈ exported, Export.Apart base (path.destination base) entry.2
  others : ∀ entry ∈ exported, entry.1 ≠ name →
    entry.2.destination base ≠ path.destination base

namespace Setting

variable {L ε α : Type} {node : Option FileNode}

/-- The location of the module's file. -/
def place (w : Setting) : Location := w.path.destination w.base

/-- At the location of the module's file there is this. -/
abbrev Standing (w : Setting) (node : Option FileNode) (files : FileTree) : Prop :=
  FileTree.Standing w.base w.place node files

/-- What holds of a loop at all times; `node` is what stood at the module's location before the
start. -/
structure Holds (w : Setting) (node : Option FileNode) (s : ClientLoop L) (files : FileTree) :
    Prop where
  exports : s.exports.map (fun entry => (entry.1, entry.2.path)) = w.exported
  journal : s.client.role.journal = []
  /-- Somebody looks at every module that has a file. -/
  known : ∀ entry ∈ w.exported, ∃ r, s.client.replica? entry.1 = some r ∧ r.space.signals ≠ []
  /-- Nobody looks at the others. -/
  signals : ∀ name r, s.client.replica? name = some r → r.space.signals ≠ [] →
    ∃ path, (name, path) ∈ w.exported
  /-- The module has no default. -/
  silent : ∃ r, s.client.replica? w.name = some r ∧ r.space.default = [] ∧
    (r.commits = 0 → r.space.foreground = none)
  /-- Before the first commit of a module that has a file, nothing has been tried. -/
  quiet : (∀ entry ∈ w.exported, s.commits entry.1 = 0) →
    s.permit.stored = false ∧ s.written? w.name = none
  /-- Before the module's own first commit, its file is what it was, or zero bytes have been
  written. -/
  file : s.commits w.name = 0 →
    ∃ e, s.exports.lookup w.name = some e ∧ e.path = w.path ∧
      ((e.written = none ∧ w.Standing node files) ∨
        (e.written = some (ContentHash.of []) ∧
          ∃ modified, w.Standing (some (.file [] modified)) files))

variable {w : Setting} {s : ClientLoop L} {files : FileTree}

/-- A module without a commit shows nothing. -/
theorem Holds.visible (h : w.Holds node s files) (hcommits : s.commits w.name = 0) :
    s.visible w.name = [] := by
  obtain ⟨r, hr, hdefault, hforeground⟩ := h.silent
  rw [ClientLoop.commits_of_replica? hr] at hcommits
  rw [ClientLoop.visible, hr]
  simp [Dataspace.content, hforeground hcommits, hdefault]

/-- The invariant does not depend on the client's endpoint. -/
theorem Holds.withClient (h : w.Holds node s files) {c : Client L Unit}
    (hrole : c.role = s.client.role) : w.Holds node { s with client := c } files := by
  obtain ⟨endpoint, role, buffer⟩ := c
  obtain rfl : role = s.client.role := hrole
  exact ⟨h.exports, h.journal, h.known, h.signals, h.silent, h.quiet, h.file⟩

/-! ## A step of the client -/

/-- Somebody is signalled exactly when a module that has a file is committed. -/
theorem Holds.submitted (h : w.Holds node s files) {x : Action ε (Client L Unit) α}
    (hadvances : Client.Advances s.client.role (x.state s.client).role) :
    Replica.submitted (Client.news s.client.role (x.state s.client).role) ≠ [] ↔
      ∃ entry ∈ w.exported, s.commits entry.1 < (s.run x).commits entry.1 := by
  rw [hadvances.signalled]
  constructor
  · rintro ⟨name, r, r', hr, hr', hsignals, hlt⟩
    obtain ⟨path, hentry⟩ := h.signals name r hr hsignals
    refine ⟨(name, path), hentry, ?_⟩
    have hafter : (s.run x).client.replica? name = some r' := hr'
    rw [ClientLoop.commits_of_replica? hr, ClientLoop.commits_of_replica? hafter]
    exact hlt
  · rintro ⟨entry, hentry, hlt⟩
    obtain ⟨r, hr, hsignals⟩ := h.known entry hentry
    obtain ⟨r', hr', -⟩ := hadvances.grows entry.1 r hr
    have hafter : (s.run x).client.replica? entry.1 = some r' := hr'
    rw [ClientLoop.commits_of_replica? hr, ClientLoop.commits_of_replica? hafter] at hlt
    exact ⟨entry.1, r, r', hr, hr', hsignals, hlt⟩

/-- The flag is raised by the commits of modules that have files, and by nothing else. -/
theorem Holds.stored_run (h : w.Holds node s files) {x : Action ε (Client L Unit) α}
    (hadvances : Client.Advances s.client.role (x.state s.client).role) :
    (s.run x).permit.stored = true ↔ s.permit.stored = true ∨
      ∃ entry ∈ w.exported, s.commits entry.1 < (s.run x).commits entry.1 := by
  rw [ClientLoop.stored_run x h.journal, h.submitted hadvances]

theorem Holds.run (h : w.Holds node s files) {x : Action ε (Client L Unit) α}
    (hadvances : Client.Advances s.client.role (x.state s.client).role) :
    w.Holds node (s.run x) files := by
  have hle := ClientLoop.commits_le_run hadvances
  refine ⟨h.exports, rfl, ?_, ?_, ?_, ?_, ?_⟩
  · intro entry hentry
    obtain ⟨r, hr, hsignals⟩ := h.known entry hentry
    obtain ⟨r', hr', hgrows⟩ := hadvances.grows entry.1 r hr
    rw [← hgrows.signals] at hsignals
    exact ⟨r', hr', hsignals⟩
  · intro name r' hr' hsignals
    have hafter : (x.state s.client).role.replicas.find? name = some r' := hr'
    cases hr : s.client.role.replicas.find? name with
    | none =>
      rw [hadvances.absent name hr] at hafter
      cases hafter
    | some r =>
      obtain ⟨r₁, hr₁, hgrows⟩ := hadvances.grows name r hr
      rw [hafter] at hr₁
      obtain rfl := Option.some.inj hr₁
      rw [hgrows.signals] at hsignals
      exact h.signals name r hr hsignals
  · obtain ⟨r, hr, hdefault, hforeground⟩ := h.silent
    obtain ⟨r', hr', hgrows⟩ := hadvances.grows w.name r hr
    refine ⟨r', hr', hgrows.default.trans hdefault, ?_⟩
    intro hzero
    have hsame : r'.commits = r.commits := by
      have hgrown := hgrows.commits
      omega
    rw [hgrows.space hsame]
    exact hforeground (hsame.symm.trans hzero)
  · intro hzero
    have hbefore : ∀ entry ∈ w.exported, s.commits entry.1 = 0 := by
      intro entry hentry
      exact Nat.le_zero.mp (Nat.le_trans (hle entry.1) (Nat.le_of_eq (hzero entry hentry)))
    obtain ⟨hstored, hwritten⟩ := h.quiet hbefore
    refine ⟨?_, hwritten⟩
    rw [← Bool.not_eq_true, h.stored_run hadvances]
    rintro (hraised | ⟨entry, hentry, hlt⟩)
    · rw [hstored] at hraised
      cases hraised
    · rw [hzero entry hentry] at hlt
      exact absurd hlt (Nat.not_lt_zero _)
  · intro hzero
    exact h.file (Nat.le_zero.mp (Nat.le_trans (hle w.name) (Nat.le_of_eq hzero)))

/-! ## A look at the exports -/

theorem Holds.nodup (h : w.Holds node s files) : (s.exports.map Prod.fst).Nodup := by
  have hnames := congrArg (List.map Prod.fst) h.exports
  rw [List.map_map] at hnames
  exact hnames ▸ w.nodup

theorem Holds.mem_exported (h : w.Holds node s files) {entry : ModuleName × Export}
    (hentry : entry ∈ s.exports) : (entry.1, entry.2.path) ∈ w.exported := by
  rw [← h.exports]
  exact List.mem_map_of_mem hentry

/-- What a look does to the file of a module without a commit. -/
theorem Holds.silenced (h : w.Holds node s files) (hcommits : s.commits w.name = 0)
    {there : Option FileNode} (hthere : w.Standing there files) {e : Export}
    (hlookup : s.exports.lookup w.name = some e) (hpath : e.path = w.path) :
    ∃ e', (s.looked files).1.exports.lookup w.name = some e' ∧
      ClientLoop.Silenced w.base w.place there
        (ClientLoop.atTurn s.visible w.name s.exports files) e e' (s.looked files).2 := by
  apply ClientLoop.syncExports_silent h.nodup hlookup (h.visible hcommits)
  · rw [hpath]
    rfl
  · intro entry hentry
    exact w.apart _ (h.mem_exported hentry)
  · intro entry hentry hne
    exact w.others (entry.1, entry.2.path) (h.mem_exported hentry) hne
  · exact hthere

theorem Holds.look (h : w.Holds node s files) (hraised : s.permit.stored = true) :
    w.Holds node (s.looked files).1 (s.looked files).2 := by
  have hbusy : ¬ ∀ entry ∈ w.exported, s.commits entry.1 = 0 := by
    intro hzero
    have hstored := (h.quiet hzero).1
    rw [hraised] at hstored
    cases hstored
  refine ⟨?_, h.journal, h.known, h.signals, h.silent, fun hzero => absurd hzero hbusy, ?_⟩
  · rw [← h.exports]
    exact ClientLoop.map_syncExports s.visible s.exports files
  · intro hzero
    obtain ⟨e, hlookup, hpath, ⟨hwritten, hfile⟩ | ⟨hwritten, modified, hfile⟩⟩ := h.file hzero
    · obtain ⟨e', hlookup', hsilenced⟩ := h.silenced hzero hfile hlookup hpath
      refine ⟨e', hlookup', ?_⟩
      cases hsilenced with
      | stays hbefore standing => exact ⟨hpath, Or.inl ⟨hwritten, standing⟩⟩
      | emptied hbefore write standing => exact ⟨hpath, Or.inr ⟨rfl, _, standing⟩⟩
      | refused hbefore write standing => exact ⟨hpath, Or.inl ⟨hwritten, standing⟩⟩
    · obtain ⟨e', hlookup', hsilenced⟩ := h.silenced hzero hfile hlookup hpath
      refine ⟨e', hlookup', ?_⟩
      cases hsilenced with
      | stays hbefore standing => exact ⟨hpath, Or.inr ⟨hwritten, _, standing⟩⟩
      | emptied hbefore write standing => exact absurd hwritten hbefore
      | refused hbefore write standing => exact absurd hwritten hbefore

/-! ## Moments -/

variable [Transport L]

theorem Holds.perform (h : w.Holds node s files) {moment : Moment L}
    (hspares : moment.Spares w.place) :
    w.Holds node (ClientLoop.perform (s, files) moment).1
      (ClientLoop.perform (s, files) moment).2 := by
  cases moment with
  | event now event =>
    cases event with
    | readable => exact h.run (Client.poll_advances now s.client)
    | notified =>
      show w.Holds node (s.step now files .notified).1 (s.step now files .notified).2
      rw [ClientLoop.step_notified]
      split
      · next hraised => exact h.look hraised
      · exact h
    | arpTick =>
      have htimers := h.run (Client.onEndpoint_advances (Endpoint.pollTimers now) s.client)
      exact htimers.run (Client.onEndpoint_advances Endpoint.flush _)
    | sourceTick => exact h
    | announceTick => exact h
  | link change => exact h.withClient rfl
  | clock time =>
    refine ⟨h.exports, h.journal, h.known, h.signals, h.silent, h.quiet, ?_⟩
    intro hzero
    obtain ⟨e, hlookup, hpath, ⟨hwritten, hfile⟩ | ⟨hwritten, modified, hfile⟩⟩ := h.file hzero
    · exact ⟨e, hlookup, hpath, Or.inl ⟨hwritten, hfile.base, hfile.node⟩⟩
    · exact ⟨e, hlookup, hpath, Or.inr ⟨hwritten, modified, hfile.base, hfile.node⟩⟩
  | files change =>
    refine ⟨h.exports, h.journal, h.known, h.signals, h.silent, h.quiet, ?_⟩
    intro hzero
    obtain ⟨e, hlookup, hpath, ⟨hwritten, hfile⟩ | ⟨hwritten, modified, hfile⟩⟩ := h.file hzero
    · exact ⟨e, hlookup, hpath, Or.inl ⟨hwritten, hspares _ _ _ hfile⟩⟩
    · exact ⟨e, hlookup, hpath, Or.inr ⟨hwritten, modified, hspares _ _ _ hfile⟩⟩

theorem Holds.performAll (h : w.Holds node s files) {moments : List (Moment L)}
    (hspares : ∀ moment ∈ moments, moment.Spares w.place) :
    w.Holds node (ClientLoop.performAll (s, files) moments).1
      (ClientLoop.performAll (s, files) moments).2 := by
  induction moments generalizing s files with
  | nil => exact h
  | cons moment rest ih =>
    obtain ⟨hfirst, hrest⟩ := List.forall_mem_cons.mp hspares
    exact ih (h.perform hfirst) hrest

end Setting

end RomCast.Daemon
