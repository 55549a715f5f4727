import RomCast.Daemon.Client
import RomCast.Proofs.Files.Whole

set_option autoImplicit false

/-!
# A look at the exports

When the flag is raised, a client goes through its exports in their order and writes what has not
been written.  What this does to the file of a module that shows nothing is settled at its own turn
(`syncExports_silent`): unless zero bytes have been written there before, it is tried to empty the
file.
-/

namespace RomCast

namespace Export

variable {base place : Location} {node : Option FileNode}

/-- A look at an export finds its content written, or writes it, or is refused. -/
theorem sync_cases (content : Bytes) (e : Export) (files : FileTree) :
    (e.written = some (ContentHash.of content) ∧ e.sync content files = (e, files)) ∨
      (e.written ≠ some (ContentHash.of content) ∧
        ((∃ after, writeWhole e.path content files = .ok () after ∧
            e.sync content files = ({ e with written := some (ContentHash.of content) }, after)) ∨
          ∃ cause after, writeWhole e.path content files = .error cause after ∧
            e.sync content files = (e, after))) := by
  by_cases hwritten : e.written = some (ContentHash.of content)
  · exact Or.inl ⟨hwritten, by simp [sync, hwritten]⟩
  · refine Or.inr ⟨hwritten, ?_⟩
    cases hwrite : writeWhole e.path content files with
    | ok _ after => exact Or.inl ⟨after, rfl, by simp [sync, hwritten, hwrite]⟩
    | error cause after => exact Or.inr ⟨cause, after, rfl, by simp [sync, hwritten, hwrite]⟩

@[simp] theorem path_sync (content : Bytes) (e : Export) (files : FileTree) :
    (e.sync content files).1.path = e.path := by
  rcases sync_cases content e files with ⟨-, h⟩ | ⟨-, ⟨after, -, h⟩ | ⟨cause, after, -, h⟩⟩
  · rw [h]
  · rw [h]
  · rw [h]

/-- A look at an export whose file is elsewhere. -/
theorem sync_keeps {e : Export} (h : Apart base place e.path)
    (hpath : e.path.destination base ≠ place) (content : Bytes) {files : FileTree}
    (hfiles : FileTree.Standing base place node files) :
    FileTree.Standing base place node (e.sync content files).2 := by
  have hkept : FileTree.Standing base place node ((writeWhole e.path content).state files) :=
    writeWhole_keeps h hpath content files hfiles
  rcases sync_cases content e files with ⟨-, hs⟩ | ⟨-, ⟨after, hok, hs⟩ | ⟨cause, after, herror, hs⟩⟩
  · rw [hs]
    exact hfiles
  · rw [Action.state_of_ok hok] at hkept
    rw [hs]
    exact hkept
  · rw [Action.state_of_error herror] at hkept
    rw [hs]
    exact hkept

end Export

namespace Daemon.ClientLoop

variable {L : Type} {base place : Location} {node : Option FileNode}

/-- Look at exports, one after the other. -/
def syncExports (visible : ModuleName → Bytes) :
    List (ModuleName × Export) → FileTree → List (ModuleName × Export) × FileTree
  | [], files => ([], files)
  | (name, e) :: rest, files =>
      let (e, files) := e.sync (visible name) files
      let (rest, files) := syncExports visible rest files
      ((name, e) :: rest, files)

theorem foldl_sync (visible : ModuleName → Bytes) (exports done : List (ModuleName × Export))
    (files : FileTree) :
    exports.foldl
        (fun (done, files) (name, e) =>
          let (e, files) := e.sync (visible name) files
          (done ++ [(name, e)], files))
        (done, files) =
      (done ++ (syncExports visible exports files).1, (syncExports visible exports files).2) := by
  induction exports generalizing done files with
  | nil => simp [syncExports]
  | cons entry rest ih =>
    obtain ⟨name, e⟩ := entry
    rw [List.foldl_cons, ih]
    simp [syncExports]

/-- A look at all exports is a look at one after the other. -/
theorem syncAll_eq (s : ClientLoop L) (files : FileTree) :
    s.syncAll files =
      ({ s with exports := (syncExports s.visible s.exports files).1 },
        (syncExports s.visible s.exports files).2) := by
  unfold syncAll
  rw [foldl_sync]
  rfl

/-- A loop that has looked at its exports and lowered the flag. -/
def looked (s : ClientLoop L) (files : FileTree) : ClientLoop L × FileTree :=
  ({ s with
      permit := ⟨false⟩
      exports := (syncExports s.visible s.exports files).1 },
    (syncExports s.visible s.exports files).2)

/-- A loop that takes the flag raised looks at its exports, and one that takes it lowered does
nothing. -/
theorem step_notified [Transport L] (now : Nat) (s : ClientLoop L) (files : FileTree) :
    s.step now files .notified = if s.permit.stored = true then s.looked files else (s, files) := by
  cases hstored : s.permit.stored with
  | true =>
    have hstep : s.step now files .notified =
        syncAll { s with permit := ⟨false⟩ } files := by
      simp [step, Permit.take, hstored]
    rw [hstep, syncAll_eq]
    rfl
  | false => simp [step, Permit.take, hstored]

/-- A look changes neither the modules that have files nor their paths. -/
theorem map_syncExports (visible : ModuleName → Bytes) (exports : List (ModuleName × Export))
    (files : FileTree) :
    (syncExports visible exports files).1.map (fun entry => (entry.1, entry.2.path)) =
      exports.map fun entry => (entry.1, entry.2.path) := by
  induction exports generalizing files with
  | nil => rfl
  | cons entry rest ih =>
    obtain ⟨name, e⟩ := entry
    simp [syncExports, ih]

theorem syncExports_keeps (visible : ModuleName → Bytes) {exports : List (ModuleName × Export)}
    (h : ∀ entry ∈ exports, Export.Apart base place entry.2.path ∧
      entry.2.path.destination base ≠ place)
    {files : FileTree} (hfiles : FileTree.Standing base place node files) :
    FileTree.Standing base place node (syncExports visible exports files).2 := by
  induction exports generalizing files with
  | nil => exact hfiles
  | cons entry rest ih =>
    obtain ⟨name, e⟩ := entry
    obtain ⟨⟨hapart, hpath⟩, hrest⟩ := List.forall_mem_cons.mp h
    have hfirst := Export.sync_keeps hapart hpath (visible name) hfiles
    have hbehind := ih hrest hfirst
    simpa only [syncExports] using hbehind

/-- The files when it is a module's turn. -/
def atTurn (visible : ModuleName → Bytes) (name : ModuleName)
    (exports : List (ModuleName × Export)) (files : FileTree) : FileTree :=
  (syncExports visible (exports.takeWhile fun entry => entry.1 ≠ name) files).2

/-- What a look does to the file of a module that shows nothing: zero bytes have been written there
before and the file stays; or they are written now; or that is refused, and the file stays. -/
inductive Silenced (base place : Location) (node : Option FileNode) (turn : FileTree) (e : Export) :
    Export → FileTree → Prop where
  | stays {files : FileTree} (written : e.written = some (ContentHash.of []))
      (standing : FileTree.Standing base place node files) : Silenced base place node turn e e files
  | emptied {files after : FileTree} {modified : Nat}
      (written : e.written ≠ some (ContentHash.of []))
      (write : Export.writeWhole e.path [] turn = .ok () after)
      (standing : FileTree.Standing base place (some (.file [] modified)) files) :
      Silenced base place node turn e { e with written := some (ContentHash.of []) } files
  | refused {files after : FileTree} {cause : SystemError}
      (written : e.written ≠ some (ContentHash.of []))
      (write : Export.writeWhole e.path [] turn = .error cause after)
      (standing : FileTree.Standing base place node files) : Silenced base place node turn e e files

/-- The turn of the module itself. -/
theorem sync_silent {e : Export} (hapart : Export.Apart base place e.path)
    (hpath : e.path.destination base = place) {files : FileTree}
    (hfiles : FileTree.Standing base place node files) :
    Silenced base place node files e (e.sync [] files).1 (e.sync [] files).2 := by
  rcases Export.sync_cases [] e files with
    ⟨hwritten, hs⟩ | ⟨hwritten, ⟨after, hok, hs⟩ | ⟨cause, after, herror, hs⟩⟩
  · rw [hs]
    exact .stays hwritten hfiles
  · obtain ⟨modified, hafter⟩ := Export.writeWhole_ok hapart hpath hok hfiles
    rw [hs]
    exact .emptied hwritten hok hafter
  · rw [hs]
    exact .refused hwritten herror (Export.writeWhole_error hapart herror hfiles)

/-- The exports behind the module's own change nothing about its file. -/
theorem Silenced.syncExports {turn files : FileTree} {e e' : Export}
    (h : Silenced base place node turn e e' files) (visible : ModuleName → Bytes)
    {rest : List (ModuleName × Export)}
    (hrest : ∀ entry ∈ rest, Export.Apart base place entry.2.path ∧
      entry.2.path.destination base ≠ place) :
    Silenced base place node turn e e' (syncExports visible rest files).2 := by
  cases h with
  | stays written standing => exact .stays written (syncExports_keeps visible hrest standing)
  | emptied written write standing =>
    exact .emptied written write (syncExports_keeps visible hrest standing)
  | refused written write standing =>
    exact .refused written write (syncExports_keeps visible hrest standing)

/-- A look at all exports, for a module among them that shows nothing and whose file is no other
module's. -/
theorem syncExports_silent {visible : ModuleName → Bytes} {name : ModuleName}
    {exports : List (ModuleName × Export)} {e : Export} {files : FileTree}
    (hnodup : (exports.map Prod.fst).Nodup) (hlookup : exports.lookup name = some e)
    (hvisible : visible name = []) (hpath : e.path.destination base = place)
    (hapart : ∀ entry ∈ exports, Export.Apart base place entry.2.path)
    (hothers : ∀ entry ∈ exports, entry.1 ≠ name → entry.2.path.destination base ≠ place)
    (hfiles : FileTree.Standing base place node files) :
    ∃ e', (syncExports visible exports files).1.lookup name = some e' ∧
      Silenced base place node (atTurn visible name exports files) e e'
        (syncExports visible exports files).2 := by
  induction exports generalizing files with
  | nil => cases hlookup
  | cons entry rest ih =>
    obtain ⟨key, first⟩ := entry
    obtain ⟨hkey, hnodup'⟩ := List.nodup_cons.mp hnodup
    obtain ⟨hapart₁, hapart'⟩ := List.forall_mem_cons.mp hapart
    obtain ⟨hothers₁, hothers'⟩ := List.forall_mem_cons.mp hothers
    by_cases hname : key = name
    · subst hname
      rw [List.lookup_cons_self] at hlookup
      obtain rfl := Option.some.inj hlookup
      have hturn : atTurn visible key ((key, first) :: rest) files = files := by
        simp [atTurn, ClientLoop.syncExports]
      have hrest : ∀ entry ∈ rest, Export.Apart base place entry.2.path ∧
          entry.2.path.destination base ≠ place := by
        intro entry hentry
        refine ⟨hapart' entry hentry, hothers' entry hentry ?_⟩
        rintro rfl
        have hmem : entry.1 ∈ rest.map Prod.fst := List.mem_map_of_mem hentry
        exact hkey hmem
      refine ⟨(first.sync [] files).1, ?_, ?_⟩
      · simp [ClientLoop.syncExports, hvisible]
      · have hsilent := (sync_silent hapart₁ hpath hfiles).syncExports visible hrest
        rw [hturn]
        simpa [ClientLoop.syncExports, hvisible] using hsilent
    · have hne : (name == key) = false := by simpa using Ne.symm hname
      rw [List.lookup_cons, hne] at hlookup
      have hfirst := Export.sync_keeps hapart₁ (hothers₁ hname) (visible key) hfiles
      obtain ⟨e', hlookup', hsilent⟩ := ih hnodup' hlookup hapart' hothers' hfirst
      have hturn : atTurn visible name ((key, first) :: rest) files =
          atTurn visible name rest (first.sync (visible key) files).2 := by
        simp [atTurn, ClientLoop.syncExports, hname]
      refine ⟨e', ?_, ?_⟩
      · simpa [ClientLoop.syncExports, List.lookup_cons, hne] using hlookup'
      · rw [hturn]
        simpa [ClientLoop.syncExports] using hsilent

end Daemon.ClientLoop

end RomCast
