import Mathlib.Data.List.Nodup
import RomCast.Proofs.Daemon.FileHistory
import RomCast.Proofs.Server.Stream

set_option autoImplicit false

/-!
# The file of a module that has nothing to show

A module that has a file, but neither a default nor a commit, has nothing to show.  Its file is left
alone at the start, and as long as no module that has a file is committed.  All modules share one
flag, though: a commit of any of them makes the loop look at every export, and a look does not ask
whether there is anything to write.  The file of the silent module is emptied then, or made, unless
the write is refused (`silent_file_until_signalled`).
-/

namespace RomCast

/-- The modules that have files, and their paths. -/
def Config.exported (c : Config) : List (ModuleName × FilePath) :=
  c.modules.filterMap ModuleConfig.exported?

/-- What is written for the modules of a configuration stays away from the file of one of them, as
far as it is not that file. -/
structure Config.Separates (c : Config) (base : Location) (name : ModuleName) (path : FilePath) :
    Prop where
  apart : ∀ entry ∈ c.exported, Export.Apart base (path.destination base) entry.2
  others : ∀ entry ∈ c.exported, entry.1 ≠ name →
    entry.2.destination base ≠ path.destination base

namespace Daemon.ClientLoop

variable {L : Type}

/-! ## The start -/

theorem nodup_exported {modules : List ModuleConfig}
    (hnodup : (modules.map ModuleConfig.moduleName).Nodup) :
    ((modules.filterMap ModuleConfig.exported?).map Prod.fst).Nodup := by
  induction modules with
  | nil => exact List.nodup_nil
  | cons m rest ih =>
    obtain ⟨hnew, hnodup'⟩ := List.nodup_cons.mp hnodup
    cases hexported : m.exported? with
    | none =>
      rw [List.filterMap_cons_none hexported]
      exact ih hnodup'
    | some entry =>
      rw [List.filterMap_cons_some hexported, List.map_cons, List.nodup_cons]
      refine ⟨?_, ih hnodup'⟩
      intro hrepeated
      obtain ⟨entry', hentry', hsame⟩ := List.mem_map.mp hrepeated
      obtain ⟨m', hm', hexported'⟩ := List.mem_filterMap.mp hentry'
      have hname := (ModuleConfig.exported?_eq_some.mp hexported).1
      have hname' := (ModuleConfig.exported?_eq_some.mp hexported').1
      apply hnew
      rw [hname, ← hsame, ← hname']
      exact List.mem_map_of_mem hm'

theorem lookup_of_mem {α : Type} {entries : List (ModuleName × α)} {name : ModuleName} {a : α}
    (hnodup : (entries.map Prod.fst).Nodup) (h : (name, a) ∈ entries) :
    entries.lookup name = some a := by
  induction entries with
  | nil => cases h
  | cons entry rest ih =>
    obtain ⟨hnew, hnodup'⟩ := List.nodup_cons.mp hnodup
    rcases List.mem_cons.mp h with hfirst | hrest
    · rw [← hfirst, List.lookup_cons_self]
    · have hne : name ≠ entry.1 := by
        rintro rfl
        exact hnew (List.mem_map.mpr ⟨_, hrest, rfl⟩)
      have hbeq : (name == entry.1) = false := by simpa using hne
      rw [List.lookup_cons, hbeq]
      exact ih hnodup' hrest

/-- The setting of a module in a configuration that has passed its check. -/
def settingOf (c : Config) (hvalid : c.validate = .ok ()) (base : Location) (name : ModuleName)
    (path : FilePath) (hmember : (name, path) ∈ c.exported) (h : c.Separates base name path) :
    Setting where
  exported := c.exported
  base := base
  name := name
  path := path
  member := hmember
  nodup := nodup_exported
    (Config.names_of_checkNames (Config.checkNames_of_validate hvalid)).2
  apart := h.apart
  others := h.others

/-- A loop with nothing added yet. -/
def blank (config : Config) (endpoint : Endpoint L) : ClientLoop L :=
  { client := Client.new endpoint config.client.maxContentSize }

/-- Whatever is replicated belongs to a module of the configuration. -/
theorem Added.owner {config : Config} {endpoint : Endpoint L} {s : ClientLoop L}
    (hadded : Added config.modules (blank config endpoint) s) {name : ModuleName}
    {r : Replica Unit} (hr : s.client.replica? name = some r) :
    ∃ m ∈ config.modules, m.moduleName = .ok name ∧ Fresh m r := by
  by_cases hthere : ∃ m ∈ config.modules, m.moduleName = .ok name
  · obtain ⟨m, hm, hname⟩ := hthere
    obtain ⟨r', hr', hfresh⟩ := hadded.fresh m hm name hname
    rw [hr] at hr'
    obtain rfl := Option.some.inj hr'
    exact ⟨m, hm, hname, hfresh⟩
  · have hnone := hadded.others name fun m hm hname => hthere ⟨m, hm, hname⟩
    rw [hr] at hnone
    cases hnone

/-- When all modules have been added, the invariant holds. -/
theorem Added.holds {config : Config} {endpoint : Endpoint L} {s : ClientLoop L}
    (hadded : Added config.modules (blank config endpoint) s) (w : Setting)
    (hexported : w.exported = config.exported) {m : ModuleConfig} (hm : m ∈ config.modules)
    (hmodule : m.exported? = some (w.name, w.path)) (hempty : m.initialContent = [])
    {node : Option FileNode} {files : FileTree} (hfiles : w.Standing node files) :
    w.Holds node s files := by
  obtain ⟨hname, hpath⟩ := ModuleConfig.exported?_eq_some.mp hmodule
  obtain ⟨opened, hopened, hmap, hsilent⟩ := hadded.exports
  have hexports : s.exports = opened := hopened
  have hkeys : s.exports.map (fun entry => (entry.1, entry.2.path)) = w.exported := by
    rw [hexports, hmap, hexported]
    rfl
  have hnodup : (s.exports.map Prod.fst).Nodup := by
    have hnames := congrArg (List.map Prod.fst) hkeys
    rw [List.map_map] at hnames
    exact hnames ▸ w.nodup
  have hlookup : s.exports.lookup w.name = some { path := w.path } := by
    apply lookup_of_mem hnodup
    rw [hexports]
    exact hsilent m hm w.name w.path hmodule hempty
  refine ⟨hkeys, hadded.journal, ?_, ?_, ?_, ?_, ?_⟩
  · intro entry hentry
    rw [hexported] at hentry
    obtain ⟨m', hm', hmodule'⟩ := List.mem_filterMap.mp hentry
    obtain ⟨hname', hpath'⟩ := ModuleConfig.exported?_eq_some.mp hmodule'
    obtain ⟨r, hr, hfresh⟩ := hadded.fresh m' hm' entry.1 hname'
    refine ⟨r, hr, hfresh.signals.mpr ?_⟩
    rw [hpath']
    exact Option.some_ne_none _
  · intro name r hr hsignals
    obtain ⟨m', hm', hname', hfresh⟩ := hadded.owner hr
    obtain ⟨path, hpath'⟩ := Option.ne_none_iff_exists'.mp (hfresh.signals.mp hsignals)
    refine ⟨path, ?_⟩
    rw [hexported]
    exact List.mem_filterMap.mpr
      ⟨m', hm', ModuleConfig.exported?_eq_some.mpr ⟨hname', hpath'⟩⟩
  · obtain ⟨r, hr, hfresh⟩ := hadded.fresh m hm w.name hname
    exact ⟨r, hr, hfresh.default.trans hempty, fun _ => hfresh.foreground⟩
  · intro _
    refine ⟨?_, ?_⟩
    · rw [hadded.permit]
      rfl
    · rw [written?, hlookup]
      rfl
  · intro _
    exact ⟨_, hlookup, rfl, Or.inl ⟨rfl, hfiles⟩⟩

variable [Transport L]

/-- Asking for modules concerns the endpoint alone. -/
theorem role_requestAll (now : Nat) (names : List ModuleName) (s : ClientLoop L) :
    (s.requestAll now names).client.role = s.client.role := by
  have hfold : ∀ c : Client L Unit,
      (names.foldl (fun client name =>
        Action.state (Client.requestUpdate now name) client) c).role = c.role := by
    induction names with
    | nil =>
      intro c
      rfl
    | cons name rest ih =>
      intro c
      rw [List.foldl_cons, ih]
      exact Client.role_requestUpdate now name c
  exact hfold s.client

/-- A module that is added leaves the file of a silent one alone. -/
theorem spares_of_separates {config : Config} {base : Location} {name : ModuleName}
    {path : FilePath} (hvalid : config.validate = .ok ()) (h : config.Separates base name path)
    {m : ModuleConfig} (hm : m ∈ config.modules) (hname : m.moduleName = .ok name)
    (hempty : m.initialContent = []) :
    ∀ m' ∈ config.modules, Spares base (path.destination base) m' := by
  obtain ⟨hnames, hnodup⟩ := Config.names_of_checkNames (Config.checkNames_of_validate hvalid)
  intro m' hm'
  by_cases hsame : m' = m
  · rw [hsame]
    exact Or.inl hempty
  · refine Or.inr ?_
    intro path' hpath'
    obtain ⟨name', hname', -⟩ := hnames m' hm'
    have hentry : (name', path') ∈ config.exported :=
      List.mem_filterMap.mpr ⟨m', hm', ModuleConfig.exported?_eq_some.mpr ⟨hname', hpath'⟩⟩
    refine ⟨h.apart (name', path') hentry, h.others (name', path') hentry ?_⟩
    rintro rfl
    exact hsame (List.inj_on_of_nodup_map hnodup hm' hm (hname'.trans hname.symm))

/-! ## The file -/

/-- A moment at which the loop writes zero bytes to the file of a module: it takes the flag raised,
and the write is not refused when it is the module's turn. -/
def Overwrites (s : ClientLoop L) (files : FileTree) (name : ModuleName) (path : FilePath) :
    Moment L → Prop
  | .event _ .notified => s.permit.stored = true ∧
      ∃ after, Export.writeWhole path [] (atTurn s.visible name s.exports files) = .ok () after
  | _ => False

/-- What there is to say about the file of a module that has nothing to show: `place` is where it
is, and `before` what stood there before the start. -/
structure SilentFile (config : Config) (name : ModuleName) (path : FilePath) (place : Location)
    (before : Option FileNode) (s : ClientLoop L) (files : FileTree) : Prop where
  /-- As long as the module's export has written nothing, the file is what it was. -/
  untouched : s.written? name = none → files.node? place = before
  /-- From then on it is empty. -/
  emptied : s.written? name ≠ none → ∃ modified, files.node? place = some (.file [] modified)
  /-- While no module that has a file has been committed, nothing is written. -/
  unsignalled : (∀ entry ∈ config.exported, s.commits entry.1 = 0) →
    s.permit.stored = false ∧ s.written? name = none
  /-- The commit of any module that has a file raises the flag. -/
  raised : ∀ now, let after := (s.step now files .readable).1
    after.permit.stored = true ↔ s.permit.stored = true ∨
      ∃ entry ∈ config.exported, s.commits entry.1 < after.commits entry.1
  /-- The export has written nothing until the loop takes the raised flag. -/
  overwritten : ∀ moment, ((perform (s, files) moment).1.written? name = none ↔
    s.written? name = none ∧ ¬ Overwrites s files name path moment)

omit [Transport L] in
theorem written?_of_lookup {s : ClientLoop L} {name : ModuleName} {e : Export}
    (h : s.exports.lookup name = some e) : s.written? name = e.written := by
  rw [written?, h]
  rfl

theorem Silenced.written_eq_none_iff {base place : Location} {node : Option FileNode}
    {turn files : FileTree} {e e' : Export} (h : Silenced base place node turn e e' files) :
    e'.written = none ↔
      e.written = none ∧ ¬ ∃ after, Export.writeWhole e.path [] turn = .ok () after := by
  cases h with
  | stays written standing => simp [written]
  | emptied written write standing => simp [write]
  | refused written write standing => simp [write]

theorem written?_perform {w : Setting} {node : Option FileNode} {s : ClientLoop L}
    {files : FileTree} (h : w.Holds node s files) (hzero : s.commits w.name = 0)
    (moment : Moment L) :
    (perform (s, files) moment).1.written? w.name = none ↔
      s.written? w.name = none ∧ ¬ Overwrites s files w.name w.path moment := by
  cases moment with
  | event now event =>
    cases event with
    | readable => exact (and_iff_left not_false).symm
    | notified =>
      show (s.step now files .notified).1.written? w.name = none ↔ _
      rw [step_notified]
      cases hstored : s.permit.stored with
      | true =>
        obtain ⟨e, hlookup, hpath, hfile⟩ := h.file hzero
        have hstanding : ∃ there, w.Standing there files := by
          rcases hfile with ⟨-, hfile⟩ | ⟨-, modified, hfile⟩
          · exact ⟨_, hfile⟩
          · exact ⟨_, hfile⟩
        obtain ⟨there, hthere⟩ := hstanding
        obtain ⟨e', hlookup', hsilenced⟩ := h.silenced hzero hthere hlookup hpath
        rw [if_pos rfl, written?_of_lookup hlookup', written?_of_lookup hlookup,
          hsilenced.written_eq_none_iff, hpath]
        simp [Overwrites, hstored]
      | false => simp [Overwrites, hstored]
    | arpTick => exact (and_iff_left not_false).symm
    | sourceTick => exact (and_iff_left not_false).symm
    | announceTick => exact (and_iff_left not_false).symm
  | link change => exact (and_iff_left not_false).symm
  | clock time => exact (and_iff_left not_false).symm
  | files change => exact (and_iff_left not_false).symm

theorem silentFile_of_holds {config : Config} {w : Setting} {node : Option FileNode}
    {s : ClientLoop L} {files : FileTree} (h : w.Holds node s files)
    (hexported : w.exported = config.exported) (hzero : s.commits w.name = 0) :
    SilentFile config w.name w.path w.place node s files := by
  obtain ⟨e, hlookup, -, hfile⟩ := h.file hzero
  have hwritten := written?_of_lookup hlookup
  refine ⟨?_, ?_, ?_, ?_, written?_perform h hzero⟩
  · intro hnone
    rcases hfile with ⟨-, hsame⟩ | ⟨hsome, -⟩
    · exact hsame.node
    · rw [hwritten, hsome] at hnone
      cases hnone
  · intro hsome
    rcases hfile with ⟨hnone, -⟩ | ⟨-, modified, hempty⟩
    · exact absurd (hwritten.trans hnone) hsome
    · exact ⟨modified, hempty.node⟩
  · rw [← hexported]
    exact h.quiet
  · intro now
    rw [← hexported]
    exact h.stored_run (Client.poll_advances now s.client)

/-- A start adds the modules one after the other, and then asks for them if it is told to. -/
theorem start_eq (now : Nat) (config : Config) (endpoint : Endpoint L) (files : FileTree) :
    start now config endpoint files =
      match config.modules.forM addModule (blank config endpoint, files) with
      | .error e (_, files) => .error e files
      | .ok _ (s, files) =>
          .ok (if config.client.requestOnStartup
            then s.requestAll now s.client.role.replicas.names else s) files := rfl

/-- The file of a module that has a file but nothing to show: a start leaves it alone, also one that
fails, and during a run in which nobody else touches it, it is untouched until the loop takes the
flag that the commit of another module has raised, and empty from then on. -/
theorem silent_file_until_signalled (now : Nat) (config : Config) (endpoint : Endpoint L)
    (files₀ : FileTree) (m : ModuleConfig) (name : ModuleName) (path : FilePath)
    (hvalid : config.validate = .ok ()) (hm : m ∈ config.modules)
    (hmodule : m.exported? = some (name, path)) (hempty : m.initialContent = [])
    (hseparates : config.Separates files₀.workingDirectory name path) :
    let place := path.destination files₀.workingDirectory
    match start now config endpoint files₀ with
    | .error _ files => files.node? place = files₀.node? place
    | .ok s₀ files₁ => ∀ moments : List (Moment L),
        let after := performAll (s₀, files₁) moments
        (∀ moment ∈ moments, moment.Spares place) → after.1.commits name = 0 →
          SilentFile config name path place (files₀.node? place) after.1 after.2 := by
  intro place
  obtain ⟨hname, hpath⟩ := ModuleConfig.exported?_eq_some.mp hmodule
  obtain ⟨hnames, hnodup⟩ := Config.names_of_checkNames (Config.checkNames_of_validate hvalid)
  have hstanding : FileTree.Standing files₀.workingDirectory place (files₀.node? place) files₀ :=
    ⟨rfl, rfl⟩
  have hkept : FileTree.Standing files₀.workingDirectory place (files₀.node? place)
      ((config.modules.forM addModule).state (blank config endpoint, files₀)).2 :=
    forM_addModule_keeps (fun m hm => (hnames m hm).imp fun _ h => h.1)
      (spares_of_separates hvalid hseparates hm hname hempty)
      (blank config endpoint, files₀) hstanding
  rw [start_eq]
  cases hadd : config.modules.forM addModule (blank config endpoint, files₀) with
  | error cause state =>
    rw [Action.state_of_error hadd] at hkept
    exact hkept.node
  | ok _ state =>
    obtain ⟨s, files⟩ := state
    rw [Action.state_of_ok hadd] at hkept
    have hadded := added_forM (fun m hm => (hnames m hm).imp fun _ h => h.1) hnodup hadd
    have hmember : (name, path) ∈ config.exported := List.mem_filterMap.mpr ⟨m, hm, hmodule⟩
    let w := settingOf config hvalid files₀.workingDirectory name path hmember hseparates
    have hholds : w.Holds (files₀.node? place) s files :=
      hadded.holds w rfl hm hmodule hempty hkept
    intro moments
    have hbegun : w.Holds (files₀.node? place)
        (if config.client.requestOnStartup
          then s.requestAll now s.client.role.replicas.names else s) files := by
      split
      · exact hholds.withClient (role_requestAll now s.client.role.replicas.names s)
      · exact hholds
    intro after hspares hzero
    exact silentFile_of_holds (hbegun.performAll hspares) rfl hzero

namespace KeptFile

def rom : ModuleName := ⟨"config", by decide⟩

def silent : ModuleName := ⟨"b", by decide⟩

def path : FilePath := ⟨"out/b.rom"⟩

def silentModule : ModuleConfig := { name := "b", path := some path, binary := true }

/-- Two modules that have files, neither of them with a default. -/
def config : Config where
  modules := [{ name := "config", path := some ⟨"out/config.rom"⟩, binary := true }, silentModule]

/-- The second one's file is there before the start. -/
def files : FileTree where
  nodes := [(["out"], .directory), (["out", "b.rom"], .file (Text.utf8 "kept") 0)]

def endpoint : Endpoint MemoryLink := Endpoint.new (MemoryLink.ofQueue Mac.zero 1) {}

/-- The only fragment of a content of the first module. -/
def frame : Bytes :=
  let sender : Endpoint.Addressing :=
    { sourceMac := Mac.zero, targetMac := Mac.broadcast, source := Ipv4Address.unspecified,
      target := Ipv4Address.broadcast, identification := 1, port := Endpoint.defaultPort,
      withChecksum := true }
  sender.frame (dataPacket rom (ContentHash.of [7]) 1 0 [7])

/-- The fragment arrives and is read, and a while later the loop takes the flag. -/
def moments : List (Moment MemoryLink) :=
  [.link (·.deliver frame), .event 0 .readable, .clock 1, .event 0 .notified]

theorem separates : config.Separates [] silent path := by
  have hexported : config.exported = [(rom, ⟨"out/config.rom"⟩), (silent, path)] := rfl
  have hancestors : (⟨"out"⟩ : FilePath).ancestors = [⟨"out"⟩, ⟨""⟩] := by decide +kernel
  have hplaces : ∀ d ∈ (⟨"out"⟩ : FilePath).ancestors,
      d.destination [] ≠ path.destination [] := by
    rw [hancestors]
    decide +kernel
  constructor
  · rw [hexported]
    intro entry hentry
    have hparent : entry.2.parent? = some ⟨"out"⟩ := by
      revert entry
      decide +kernel
    refine ⟨?_, ?_⟩
    · revert entry
      decide +kernel
    · intro directory hdirectory
      rw [hparent] at hdirectory
      obtain rfl := Option.some.inj hdirectory
      exact hplaces
  · rw [hexported]
    decide +kernel

end KeptFile

theorem kept_file_emptied :
    KeptFile.config.validate = .ok () ∧
      KeptFile.silentModule ∈ KeptFile.config.modules ∧
      KeptFile.silentModule.exported? = some (KeptFile.silent, KeptFile.path) ∧
      KeptFile.silentModule.initialContent = [] ∧
      KeptFile.config.Separates [] KeptFile.silent KeptFile.path ∧
      KeptFile.files.node? ["out", "b.rom"] = some (.file (Text.utf8 "kept") 0) ∧
      ∃ s₀ files₁, start 0 KeptFile.config KeptFile.endpoint KeptFile.files = .ok s₀ files₁ ∧
        let after := performAll (s₀, files₁) KeptFile.moments
        after.1.commits KeptFile.silent = 0 ∧
          SilentFile KeptFile.config KeptFile.silent KeptFile.path ["out", "b.rom"]
            (KeptFile.files.node? ["out", "b.rom"]) after.1 after.2 ∧
          after.2.node? ["out", "b.rom"] = some (.file [] 1) := by
  have hvalid : KeptFile.config.validate = .ok () := rfl
  have hm : KeptFile.silentModule ∈ KeptFile.config.modules := by decide +kernel
  have hplace : KeptFile.path.destination KeptFile.files.workingDirectory = ["out", "b.rom"] := by
    decide +kernel
  have hfate := silent_file_until_signalled 0 KeptFile.config KeptFile.endpoint KeptFile.files
    KeptFile.silentModule KeptFile.silent KeptFile.path hvalid hm rfl rfl KeptFile.separates
  have hrun : (match start 0 KeptFile.config KeptFile.endpoint KeptFile.files with
      | .error _ _ => none
      | .ok s₀ files₁ =>
          let after := performAll (s₀, files₁) KeptFile.moments
          some (after.1.commits KeptFile.silent, after.2.node? ["out", "b.rom"])) =
      some (0, some (.file [] 1)) := by
    decide +kernel
  have hspares : ∀ moment ∈ KeptFile.moments, moment.Spares ["out", "b.rom"] := by
    simp [KeptFile.moments, Moment.Spares]
  refine ⟨hvalid, hm, rfl, rfl, KeptFile.separates, rfl, ?_⟩
  cases hstart : start 0 KeptFile.config KeptFile.endpoint KeptFile.files with
  | error cause files =>
    rw [hstart] at hrun
    cases hrun
  | ok s₀ files₁ =>
    rw [hstart] at hrun hfate
    obtain ⟨hzero, hemptied⟩ := Prod.mk.inj (Option.some.inj hrun)
    simp only [hplace] at hfate
    exact ⟨s₀, files₁, rfl, hzero, hfate KeptFile.moments hspares hzero, hemptied⟩

end Daemon.ClientLoop

end RomCast
