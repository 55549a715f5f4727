import RomCast.Link.Memory
import RomCast.Proofs.Client.Integrity
import RomCast.Proofs.Daemon.Exports
import RomCast.Proofs.Files.Replace

set_option autoImplicit false

/-!
# Exports and each other's files

Several modules are mirrored into files of one tree.  Each write goes through a temporary file whose
name is made from the file's own, and that may be the file of another export.  As long as no other
export that reaches a file has tried to write since, the file holds what its export wrote last; and
when one has written since whose temporary file it is, the file is gone, although every write has
succeeded (`mirrored_unless_taken`).
-/

namespace RomCast

/-- An attempt to write an export's file. -/
structure Attempt where
  path : FilePath
  succeeded : Bool
  deriving DecidableEq

namespace Attempt

/-- Writing to one path reaches the file of another one: it is the temporary file, or one file has
both paths. -/
def Reaches (base : Location) (path other : FilePath) : Prop :=
  path ≠ other ∧ ((Export.temporary path).destination base = other.destination base ∨
    path.destination base = other.destination base)

/-- Since a file was last written to by its path, a write was attempted that reaches it. -/
def Spoiled (base : Location) (log : List Attempt) (path : FilePath) : Prop :=
  ∃ before a later, log = before ++ a :: later ∧ Reaches base a.path path ∧
    ⟨path, true⟩ ∉ later

/-- A write to another file succeeded whose temporary file this one was, and since then every write
has succeeded, and none of them was to this file. -/
def Taken (base : Location) (log : List Attempt) (path : FilePath) : Prop :=
  ∃ before other later, log = before ++ ⟨other, true⟩ :: later ∧
    (Export.temporary other).destination base = path.destination base ∧
    other.destination base ≠ path.destination base ∧
    ∀ a ∈ later, a.succeeded = true ∧ a.path.destination base ≠ path.destination base

variable {base : Location} {log : List Attempt} {a : Attempt} {path : FilePath}

theorem spoiled_of_reaches (log : List Attempt) (h : Reaches base a.path path) :
    Spoiled base (log ++ [a]) path :=
  ⟨log, a, [], rfl, h, List.not_mem_nil⟩

theorem Spoiled.append (h : Spoiled base log path) (ha : a ≠ ⟨path, true⟩) :
    Spoiled base (log ++ [a]) path := by
  obtain ⟨before, b, later, rfl, hreaches, hlater⟩ := h
  refine ⟨before, b, later ++ [a], by simp, hreaches, ?_⟩
  simp only [List.mem_append, List.mem_singleton, not_or]
  exact ⟨hlater, Ne.symm ha⟩

/-- The last attempt was a write to another file; it has taken the file, or that was taken before. -/
theorem Taken.of_append (h : Taken base (log ++ [a]) path) :
    a.succeeded = true ∧ a.path.destination base ≠ path.destination base ∧
      ((Export.temporary a.path).destination base = path.destination base ∨
        Taken base log path) := by
  obtain ⟨before, other, later, hlog, htemporary, hne, hlater⟩ := h
  rcases List.eq_nil_or_concat later with rfl | ⟨front, last, rfl⟩
  · obtain ⟨-, hlast⟩ := List.append_inj' hlog rfl
    obtain rfl := List.singleton_inj.mp hlast
    exact ⟨rfl, hne, Or.inl htemporary⟩
  · rw [List.concat_eq_append] at hlog hlater
    have hsplit : log ++ [a] = (before ++ ⟨other, true⟩ :: front) ++ [last] := by
      rw [hlog, List.append_assoc, List.cons_append]
    obtain ⟨hfront, hlast⟩ := List.append_inj' hsplit rfl
    obtain rfl := List.singleton_inj.mp hlast
    obtain ⟨hsucceeded, hother⟩ := hlater a (by simp)
    refine ⟨hsucceeded, hother, Or.inr ⟨before, other, front, hfront, htemporary, hne, ?_⟩⟩
    intro b hb
    exact hlater b (List.mem_append_left _ hb)

end Attempt

open Attempt (Reaches Spoiled Taken)

/-- The attempt that a look at an export makes, if it makes one. -/
def Export.attempts (content : Bytes) (e : Export) (files : FileTree) : List Attempt :=
  if e.written = some (ContentHash.of content) then []
  else match Export.writeWhole e.path content files with
    | .ok _ _ => [⟨e.path, true⟩]
    | .error _ _ => [⟨e.path, false⟩]

namespace Daemon

variable {L : Type}

/-- The attempts that a look at exports makes, in their order. -/
def ClientLoop.attempts (visible : ModuleName → Bytes) :
    List (ModuleName × Export) → FileTree → List Attempt
  | [], _ => []
  | (name, e) :: rest, files =>
      e.attempts (visible name) files ++ attempts visible rest (e.sync (visible name) files).2

/-- A client's loop and its files, with the attempts so far and what was visible at every look. -/
structure Mirror (L : Type) where
  loop : ClientLoop L
  files : FileTree
  log : List Attempt := []
  shown : List (ModuleName → Bytes) := []

namespace Mirror

/-- Something that happens to exports. -/
inductive Event where
  /-- A content becomes visible. -/
  | publish (name : ModuleName) (content : Bytes)
  /-- The loop looks at all exports, in their order. -/
  | look
  /-- Time passes that the files go by. -/
  | clock (time : Nat)

/-- The attempts that a look makes now. -/
def attempts (m : Mirror L) : List Attempt :=
  ClientLoop.attempts m.loop.visible m.loop.exports m.files

/-- One event. -/
def perform (m : Mirror L) : Event → Mirror L
  | .publish name content =>
      { m with loop := { m.loop with
          client := m.loop.client.mapSpace name fun space => space.publish content } }
  | .look =>
      let (loop, files) := m.loop.syncAll m.files
      { loop, files, log := m.log ++ m.attempts, shown := m.shown ++ [m.loop.visible] }
  | .clock time => { m with files := { m.files with now := time } }

/-! ## What is true between two attempts -/

/-- Exports with different paths in a closed tree: every file holds what its export wrote last unless
it is spoiled, and there is none where it was taken. -/
structure Kept (base : Location) (exports : List (ModuleName × Export)) (files : FileTree)
    (log : List Attempt) (shown : List (ModuleName → Bytes)) : Prop where
  closed : files.Closed
  base_eq : files.workingDirectory = base
  distinct : (exports.map fun entry => entry.2.path).Nodup
  logged : ∀ a ∈ log, ∃ entry ∈ exports, entry.2.path = a.path
  ready : ∀ entry ∈ exports, entry.2.written ≠ none → Export.Ready files entry.2.path
  holds : ∀ entry ∈ exports, ∀ hash, entry.2.written = some hash →
    ¬ Spoiled base log entry.2.path → ∃ v ∈ shown, ContentHash.of (v entry.1) = hash ∧
      ∃ modified, files.node? (entry.2.path.destination base) = some (.file (v entry.1) modified)
  gone : ∀ entry ∈ exports, Taken base log entry.2.path → ∀ content modified,
    files.node? (entry.2.path.destination base) ≠ some (.file content modified)

variable {base : Location} {done rest exports : List (ModuleName × Export)} {files after : FileTree}
  {log : List Attempt} {shown : List (ModuleName → Bytes)} {name : ModuleName} {e : Export}

/-- What is in a list is one certain member or lies around it. -/
theorem mem_around {α : Type} {front back : List α} {y z : α} :
    z ∈ front ++ y :: back ↔ z = y ∨ (z ∈ front ∨ z ∈ back) := by
  rw [List.mem_append, List.mem_cons, or_left_comm]

/-- The other exports have other paths. -/
theorem Kept.path_ne (h : Kept base (done ++ (name, e) :: rest) files log shown)
    {other : ModuleName × Export} (hother : other ∈ done ∨ other ∈ rest) :
    e.path ≠ other.2.path := by
  have hnodup := h.distinct
  rw [List.map_append, List.map_cons] at hnodup
  have hfresh := (List.nodup_cons.mp (List.perm_middle.nodup_iff.mp hnodup)).1
  intro heq
  apply hfresh
  rw [List.mem_append, heq]
  rcases hother with hdone | hrest
  · exact Or.inl (List.mem_map_of_mem hdone)
  · exact Or.inr (List.mem_map_of_mem hrest)

/-- One export's attempt, when it is told what becomes of the export's own file. -/
theorem Kept.exchange (h : Kept base (done ++ (name, e) :: rest) files log shown) {e' : Export}
    (hpath : e'.path = e.path) {touched : Location → Prop}
    (hevolves : FileTree.Evolves touched files after)
    (htouched : ∀ place, touched place → place = (Export.temporary e.path).destination base ∨
      place = e.path.destination base)
    {a : Attempt} (ha : a.path = e.path)
    (hvacant : a.succeeded = true →
      (Export.temporary e.path).destination base ≠ e.path.destination base →
      after.node? ((Export.temporary e.path).destination base) = none)
    (hready : e'.written ≠ none → Export.Ready after e.path)
    (hholds : ∀ hash, e'.written = some hash → ¬ Spoiled base (log ++ [a]) e.path →
      ∃ v ∈ shown, ContentHash.of (v name) = hash ∧
        ∃ modified, after.node? (e.path.destination base) = some (.file (v name) modified)) :
    Kept base (done ++ (name, e') :: rest) after (log ++ [a]) shown := by
  have hmem : ∀ other, other ∈ done ∨ other ∈ rest → other ∈ done ++ (name, e) :: rest :=
    fun other hother => mem_around.mpr (Or.inr hother)
  -- What the write does not reach stays as it is.
  have hsame : ∀ path : FilePath,
      (Export.temporary e.path).destination base ≠ path.destination base →
      e.path.destination base ≠ path.destination base → ∀ content modified,
        after.node? (path.destination base) = some (.file content modified) ↔
          files.node? (path.destination base) = some (.file content modified) := by
    intro path htemporary hpath'
    refine hevolves.file ?_
    intro hplace
    rcases htouched _ hplace with htemp | hfile
    · exact htemporary htemp.symm
    · exact hpath' hfile.symm
  refine ⟨hevolves.closed, hevolves.workingDirectory.trans h.base_eq, ?_, ?_, ?_, ?_, ?_⟩
  · have hdistinct := h.distinct
    simpa [hpath] using hdistinct
  · intro b hb
    rcases List.mem_append.mp hb with hbefore | hnow
    · obtain ⟨other, hother, heq⟩ := h.logged b hbefore
      rcases mem_around.mp hother with rfl | hother'
      · exact ⟨(name, e'), by simp, hpath.trans heq⟩
      · exact ⟨other, mem_around.mpr (Or.inr hother'), heq⟩
    · rw [List.mem_singleton.mp hnow, ha]
      exact ⟨(name, e'), by simp, hpath⟩
  · intro other hother hwritten
    rcases mem_around.mp hother with rfl | hother'
    · rw [hpath]
      exact hready hwritten
    · exact (h.ready other (hmem other hother') hwritten).evolves hevolves
  · intro other hother hash hwritten hspoiled
    rcases mem_around.mp hother with rfl | hother'
    · simp only [hpath] at hspoiled ⊢
      exact hholds hash hwritten hspoiled
    · have hne : e.path ≠ other.2.path := h.path_ne hother'
      have hreaches : ¬ Reaches base e.path other.2.path := by
        rw [← ha]
        exact fun hreaches => hspoiled (Attempt.spoiled_of_reaches log hreaches)
      have hbefore : ¬ Spoiled base log other.2.path := by
        intro hspoiled'
        refine hspoiled (hspoiled'.append ?_)
        rintro rfl
        exact hne ha.symm
      obtain ⟨v, hv, hhash, modified, hfile⟩ :=
        h.holds other (hmem other hother') hash hwritten hbefore
      refine ⟨v, hv, hhash, modified, (hsame _ ?_ ?_ _ _).mpr hfile⟩
      · exact fun htemporary => hreaches ⟨hne, Or.inl htemporary⟩
      · exact fun hplace => hreaches ⟨hne, Or.inr hplace⟩
  · intro other hother htaken content modified hfile
    rcases mem_around.mp hother with rfl | hother'
    · rw [hpath] at htaken
      exact htaken.of_append.2.1 (by rw [ha])
    · obtain ⟨hsucceeded, hplace, hcause⟩ := htaken.of_append
      rw [ha] at hplace hcause
      by_cases htemporary : (Export.temporary e.path).destination base =
          other.2.path.destination base
      · have hvacated := hvacant hsucceeded (by rw [htemporary]; exact hplace.symm)
        rw [htemporary, hfile] at hvacated
        cases hvacated
      · have hbefore := hcause.resolve_left htemporary
        exact h.gone other (hmem other hother') hbefore content modified
          ((hsame _ htemporary hplace _ _).mp hfile)

/-- A look at one export. -/
theorem Kept.sync (h : Kept base (done ++ (name, e) :: rest) files log shown)
    {visible : ModuleName → Bytes} (hvisible : visible ∈ shown) :
    Kept base (done ++ (name, (e.sync (visible name) files).1) :: rest)
      (e.sync (visible name) files).2 (log ++ e.attempts (visible name) files) shown := by
  have hmem : (name, e) ∈ done ++ (name, e) :: rest := by simp
  have hbase := h.base_eq
  rcases Export.sync_cases (visible name) e files with
    ⟨hwritten, hs⟩ | ⟨hwritten, ⟨after, hok, hs⟩ | ⟨cause, after, herror, hs⟩⟩
  · have hattempts : e.attempts (visible name) files = [] := if_pos hwritten
    rw [hs, hattempts, List.append_nil]
    exact h
  · have hattempts : e.attempts (visible name) files = [⟨e.path, true⟩] := by
      rw [Export.attempts, if_neg hwritten, hok]
    obtain ⟨hevolves, hfile, hvacant, hready⟩ := Export.writeWhole_replaces h.closed hok
    rw [hbase] at hevolves hfile hvacant
    rw [hs, hattempts]
    have hpath : ({ e with written := some (ContentHash.of (visible name)) } : Export).path =
        e.path := rfl
    refine h.exchange (a := ⟨e.path, true⟩) hpath hevolves (fun _ hplace => hplace) rfl
      (fun _ => hvacant) (fun _ => hready) ?_
    intro hash hhash _
    exact ⟨visible, hvisible, Option.some.inj hhash, hfile⟩
  · have hattempts : e.attempts (visible name) files = [⟨e.path, false⟩] := by
      rw [Export.attempts, if_neg hwritten, herror]
    have hevolves := Export.writeWhole_refused h.closed herror
    rw [hbase] at hevolves
    rw [hs, hattempts]
    refine h.exchange (a := ⟨e.path, false⟩) rfl hevolves (fun _ hplace => Or.inl hplace.1) rfl
      nofun ?_ ?_
    · intro hsome
      exact (h.ready (name, e) hmem hsome).evolves hevolves
    · intro hash hhash hspoiled
      have hbefore : ¬ Spoiled base log e.path := by
        intro hspoiled'
        exact hspoiled (hspoiled'.append (by simp))
      obtain ⟨v, hv, hhash', modified, hfile⟩ := h.holds (name, e) hmem hash hhash hbefore
      refine ⟨v, hv, hhash', modified, (hevolves.file ?_ _ _).mpr hfile⟩
      rintro ⟨-, hnot⟩
      refine hnot ⟨rfl, h.ready (name, e) hmem ?_⟩
      rw [hhash]
      simp

/-- A look at all exports from one on. -/
theorem Kept.syncExports {visible : ModuleName → Bytes} (hvisible : visible ∈ shown)
    (h : Kept base (done ++ rest) files log shown) :
    Kept base (done ++ (ClientLoop.syncExports visible rest files).1)
      (ClientLoop.syncExports visible rest files).2
      (log ++ ClientLoop.attempts visible rest files) shown := by
  induction rest generalizing done files log with
  | nil =>
    rw [ClientLoop.attempts, List.append_nil]
    exact h
  | cons entry rest ih =>
    obtain ⟨name, e⟩ := entry
    have hfirst := h.sync hvisible
    rw [List.append_cons] at hfirst
    have hrest := ih hfirst
    rw [ClientLoop.attempts, ← List.append_assoc]
    simpa [ClientLoop.syncExports] using hrest

/-! ## Runs -/

theorem perform_look (m : Mirror L) :
    m.perform .look =
      { loop := { m.loop with
          exports := (ClientLoop.syncExports m.loop.visible m.loop.exports m.files).1 }
        files := (ClientLoop.syncExports m.loop.visible m.loop.exports m.files).2
        log := m.log ++ m.attempts
        shown := m.shown ++ [m.loop.visible] } := by
  rw [perform, ClientLoop.syncAll_eq]

theorem exports_perform (m : Mirror L) (event : Event) :
    (m.perform event).loop.exports.map (fun entry => (entry.1, entry.2.path)) =
      m.loop.exports.map fun entry => (entry.1, entry.2.path) := by
  cases event with
  | publish name content => rfl
  | look =>
    rw [perform_look]
    exact ClientLoop.map_syncExports _ _ _
  | clock time => rfl

theorem exports_run (m : Mirror L) (events : List Event) :
    (events.foldl perform m).loop.exports.map (fun entry => (entry.1, entry.2.path)) =
      m.loop.exports.map fun entry => (entry.1, entry.2.path) := by
  induction events generalizing m with
  | nil => rfl
  | cons event rest ih => exact (ih (m.perform event)).trans (exports_perform m event)

/-- Exports that have written nothing, in any closed tree. -/
theorem kept_start {s : ClientLoop L} (hclosed : files.Closed)
    (hfresh : ∀ entry ∈ s.exports, entry.2.written = none)
    (hdistinct : (s.exports.map fun entry => entry.2.path).Nodup) :
    Kept files.workingDirectory s.exports files [] [] := by
  refine ⟨hclosed, rfl, hdistinct, nofun, ?_, ?_, ?_⟩
  · intro entry hentry hwritten
    exact absurd (hfresh entry hentry) hwritten
  · intro entry hentry hash hwritten
    rw [hfresh entry hentry] at hwritten
    cases hwritten
  · rintro entry - ⟨before, other, later, hlog, -⟩
    simp at hlog

/-- What a mirror keeps. -/
def Invariant (base : Location) (m : Mirror L) : Prop :=
  Kept base m.loop.exports m.files m.log m.shown

theorem Invariant.perform {m : Mirror L} (h : Invariant base m) (event : Event) :
    Invariant base (m.perform event) := by
  cases event with
  | publish name content => exact h
  | look =>
    have hshown : Kept base ([] ++ m.loop.exports) m.files m.log (m.shown ++ [m.loop.visible]) := by
      refine ⟨h.closed, h.base_eq, h.distinct, h.logged, h.ready, ?_, h.gone⟩
      intro entry hentry hash hwritten hspoiled
      obtain ⟨v, hv, hfile⟩ := h.holds entry hentry hash hwritten hspoiled
      exact ⟨v, List.mem_append_left _ hv, hfile⟩
    have hlooked := hshown.syncExports (List.mem_append_right m.shown (List.mem_singleton.mpr rfl))
    rw [perform_look]
    exact hlooked
  | clock time =>
    have hevolves : FileTree.Evolves (fun _ => False) m.files { m.files with now := time } :=
      ⟨⟨h.closed.parent, h.closed.base⟩, rfl, fun hplace => hplace, fun _ _ _ => Iff.rfl⟩
    exact ⟨hevolves.closed, h.base_eq, h.distinct, h.logged,
      fun entry hentry hwritten => (h.ready entry hentry hwritten).evolves hevolves,
      h.holds, h.gone⟩

theorem Invariant.run {m : Mirror L} (h : Invariant base m) (events : List Event) :
    Invariant base (events.foldl Mirror.perform m) := by
  induction events generalizing m with
  | nil => exact h
  | cons event rest ih => exact ih (h.perform event)

/-- After a look at which every attempt succeeded, every export has written what is visible. -/
theorem written_of_succeeded {visible : ModuleName → Bytes}
    (h : ∀ a ∈ ClientLoop.attempts visible exports files, a.succeeded = true) :
    ∀ entry ∈ (ClientLoop.syncExports visible exports files).1,
      entry.2.written = some (ContentHash.of (visible entry.1)) := by
  induction exports generalizing files with
  | nil => exact nofun
  | cons first rest ih =>
    obtain ⟨name, e⟩ := first
    rw [ClientLoop.attempts] at h
    intro entry hentry
    have hentry' : entry = (name, (e.sync (visible name) files).1) ∨
        entry ∈ (ClientLoop.syncExports visible rest (e.sync (visible name) files).2).1 := by
      simpa [ClientLoop.syncExports] using hentry
    rcases hentry' with rfl | hrest
    · rcases Export.sync_cases (visible name) e files with
        ⟨hwritten, hs⟩ | ⟨hwritten, ⟨after, -, hs⟩ | ⟨cause, after, herror, -⟩⟩
      · rw [hs]
        exact hwritten
      · rw [hs]
      · have hattempt : (⟨e.path, false⟩ : Attempt) ∈ e.attempts (visible name) files := by
          simp [Export.attempts, hwritten, herror]
        cases h _ (List.mem_append_left _ hattempt)
    · exact ih (fun a ha => h a (List.mem_append_right _ ha)) entry hrest

/-! ## The files after a look -/

/-- What there is to say about the file of one of some exports after a look. -/
structure MirroredFile (base : Location) (exports : List (ModuleName × Export)) (m : Mirror L)
    (name : ModuleName) (path : FilePath) : Prop where
  /-- Only an export whose writes reach it can spoil it. -/
  unspoiled : (∀ other ∈ exports, ¬ Reaches base other.2.path path) → ¬ Spoiled base m.log path
  /-- Unless it is spoiled it is there, and holds something shown that has the hash of what is
  visible. -/
  mirrored : ¬ Spoiled base m.log path → ∃ v ∈ m.shown,
    ContentHash.of (v name) = ContentHash.of (m.loop.visible name) ∧
      ∃ modified, m.files.node? (path.destination base) = some (.file (v name) modified)
  /-- It holds what is visible then, if no two contents shown have one hash. -/
  current : ¬ Spoiled base m.log path →
    (∀ v ∈ m.shown, ContentHash.of (v name) = ContentHash.of (m.loop.visible name) →
      v name = m.loop.visible name) →
    ∃ modified, m.files.node? (path.destination base) =
      some (.file (m.loop.visible name) modified)
  /-- Where another export has taken it as its temporary file, there is no file. -/
  missing : Taken base m.log path → ∀ content modified,
    m.files.node? (path.destination base) ≠ some (.file content modified)

theorem mirroredFile_of_kept {m : Mirror L} (h : Invariant base m)
    (hpaths : m.loop.exports.map (fun entry => (entry.1, entry.2.path)) =
      exports.map fun entry => (entry.1, entry.2.path))
    (hwritten : ∀ entry ∈ m.loop.exports,
      entry.2.written = some (ContentHash.of (m.loop.visible entry.1)))
    {entry : ModuleName × Export} (hentry : entry ∈ exports) :
    MirroredFile base exports m entry.1 entry.2.path := by
  have hmem : (entry.1, entry.2.path) ∈
      m.loop.exports.map fun entry => (entry.1, entry.2.path) := by
    rw [hpaths]
    exact List.mem_map_of_mem hentry
  obtain ⟨now, hnow, hsame⟩ := List.mem_map.mp hmem
  obtain ⟨hname, hpath⟩ := Prod.mk.inj hsame
  have hmirrored : ¬ Spoiled base m.log entry.2.path → ∃ v ∈ m.shown,
      ContentHash.of (v entry.1) = ContentHash.of (m.loop.visible entry.1) ∧
        ∃ modified, m.files.node? (entry.2.path.destination base) =
          some (.file (v entry.1) modified) := by
    rw [← hname, ← hpath]
    exact h.holds now hnow _ (hwritten now hnow)
  refine ⟨?_, hmirrored, ?_, ?_⟩
  · rintro hnone ⟨before, a, later, hlog, hreaches, -⟩
    obtain ⟨cause, hcause, hpathcause⟩ := h.logged a (by simp [hlog])
    have hcausemem : (cause.1, cause.2.path) ∈
        exports.map fun entry => (entry.1, entry.2.path) := by
      rw [← hpaths]
      exact List.mem_map_of_mem hcause
    obtain ⟨other, hother, heq⟩ := List.mem_map.mp hcausemem
    refine hnone other hother ?_
    rw [(Prod.mk.inj heq).2, hpathcause]
    exact hreaches
  · intro hspoiled hunique
    obtain ⟨v, hv, hhash, modified, hfile⟩ := hmirrored hspoiled
    rw [hunique v hv hhash] at hfile
    exact ⟨modified, hfile⟩
  · rw [← hpath]
    exact h.gone now hnow

/-- Modules are mirrored under different paths into a closed tree.  After a look at which every write
succeeded, the file of each holds what is visible unless a write of another one has reached it since;
and when that was a write whose temporary file it is, and all writes since have succeeded and were
to other files, then the file is missing. -/
theorem mirrored_unless_taken (s : ClientLoop L) (files : FileTree) (events : List Event)
    (hclosed : files.Closed) (hfresh : ∀ entry ∈ s.exports, entry.2.written = none)
    (hdistinct : (s.exports.map fun entry => entry.2.path).Nodup) :
    let before := events.foldl perform { loop := s, files }
    (∀ a ∈ before.attempts, a.succeeded = true) → ∀ entry ∈ s.exports,
      MirroredFile files.workingDirectory s.exports (before.perform .look) entry.1
        entry.2.path := by
  intro before hsucceeded entry hentry
  have hstart : Invariant files.workingDirectory ({ loop := s, files } : Mirror L) :=
    kept_start hclosed hfresh hdistinct
  refine mirroredFile_of_kept ((hstart.run events).perform .look) ?_ ?_ hentry
  · rw [exports_perform]
    exact exports_run _ events
  · rw [perform_look]
    exact written_of_succeeded hsucceeded

namespace TakenFile

def first : ModuleName := ⟨"first", by decide⟩

def second : ModuleName := ⟨"second", by decide⟩

/-- Two modules with a default; the second one's temporary file is the first one's file. -/
def loop : ClientLoop MemoryLink where
  client := ((Client.new (Endpoint.new (MemoryLink.ofQueue Mac.zero 1) {})
    Client.defaultLimit).register (Replica.new first (some [1]))).register
      (Replica.new second (some [2]))
  exports := [(first, { path := ⟨"a.tmp"⟩ }), (second, { path := ⟨"a.rom"⟩ })]

/-- The loop in an empty tree. -/
def mirror : Mirror MemoryLink := { loop, files := {} }

theorem closed : ({} : FileTree).Closed := by
  refine ⟨?_, rfl⟩
  intro place name node hnode
  have hne : place ++ [name] ≠ [] := by simp
  simp [FileTree.node?, hne] at hnode

end TakenFile

/-- Both writes of the first look succeed, and the first module has no file then. -/
theorem taken_file_missing :
    (∀ a ∈ TakenFile.mirror.attempts, a.succeeded = true) ∧
      (∀ content modified, (TakenFile.mirror.perform .look).files.node? ["a.tmp"] ≠
        some (.file content modified)) ∧
      ∃ modified, (TakenFile.mirror.perform .look).files.node? ["a.rom"] =
        some (.file [2] modified) := by
  have hattempts : TakenFile.mirror.attempts = [⟨⟨"a.tmp"⟩, true⟩, ⟨⟨"a.rom"⟩, true⟩] := by
    decide +kernel
  have hsucceeded : ∀ a ∈ TakenFile.mirror.attempts, a.succeeded = true := by
    rw [hattempts]
    decide
  have htmp : (⟨"a.tmp"⟩ : FilePath).destination [] = ["a.tmp"] := by decide +kernel
  have hrom : (⟨"a.rom"⟩ : FilePath).destination [] = ["a.rom"] := by decide +kernel
  have htemporary : (Export.temporary ⟨"a.rom"⟩).destination [] = ["a.tmp"] := by decide +kernel
  have hfiles := mirrored_unless_taken TakenFile.loop {} [] TakenFile.closed (by decide +kernel)
    (by decide +kernel) hsucceeded
  have hfirst := hfiles _ (List.mem_cons_self)
  have hsecond := hfiles _ (List.mem_cons_of_mem _ List.mem_cons_self)
  refine ⟨hsucceeded, ?_, ?_⟩
  · rw [← htmp]
    refine hfirst.missing ⟨[⟨⟨"a.tmp"⟩, true⟩], ⟨"a.rom"⟩, [], hattempts,
      htemporary.trans htmp.symm, ?_, nofun⟩
    decide +kernel
  · rw [← hrom]
    refine hsecond.current (hsecond.unspoiled ?_) ?_
    · unfold Reaches
      decide +kernel
    · intro v hv _
      rw [List.mem_singleton.mp hv]
      rfl

end Mirror

end Daemon

end RomCast
