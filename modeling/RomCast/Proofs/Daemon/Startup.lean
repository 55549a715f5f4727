import RomCast.Proofs.Client.Advance
import RomCast.Proofs.Daemon.Exports

set_option autoImplicit false

/-!
# How a client's loop begins

With a configuration that has passed its check, every module has a name of its own.  A loop that
begins has a replica for every module, with a session exactly where the module has a file, and an
export for every file; a file has been written at most for a module with a default.
-/

namespace RomCast

/-! ## What the check of a configuration is worth -/

namespace Config

/-- What is checked, one thing after the other. -/
theorem validate_eq_ok_iff {c : Config} :
    c.validate = .ok () ↔
      c.network.port ≠ 0 ∧ c.network.queueSize ≠ 0 ∧ c.arp.maxRetries ≠ 0 ∧
        (c.arp.retryInterval ≠ 0 ∧ c.server.pollInterval ≠ 0) ∧ c.client.maxContentSize ≠ 0 ∧
        (∃ mac?, c.network.peerMac = .ok mac?) ∧ checkNames [] c.modules = .ok () := by
  unfold validate
  simp only [bind, Except.bind, throw, throwThe, MonadExceptOf.throw, Action.except_check_eq_ok,
    not_or]
  cases c.network.peerMac with
  | error problem => simp
  | ok mac? => simp

theorem checkNames_of_validate {c : Config} (h : c.validate = .ok ()) :
    checkNames [] c.modules = .ok () := by
  obtain ⟨-, -, -, -, -, -, hmodules⟩ := validate_eq_ok_iff.mp h
  exact hmodules

/-- Names that have been checked are there, and every one is its module's alone. -/
theorem names_of_checkNames {seen : List ModuleName} {modules : List ModuleConfig}
    (h : checkNames seen modules = .ok ()) :
    (∀ m ∈ modules, ∃ name, m.moduleName = .ok name ∧ name ∉ seen) ∧
      (modules.map ModuleConfig.moduleName).Nodup := by
  induction modules generalizing seen with
  | nil =>
    refine ⟨?_, List.nodup_nil⟩
    intro m hm
    cases hm
  | cons m rest ih =>
    unfold checkNames at h
    cases hname : m.moduleName with
    | error problem => simp [hname, bind, Except.bind] at h
    | ok name =>
      simp only [hname, bind, Except.bind, throw, throwThe, MonadExceptOf.throw] at h
      split at h
      · cases h
      · next hseen =>
        obtain ⟨hnames, hnodup⟩ := ih h
        refine ⟨?_, ?_⟩
        · intro m' hm'
          rcases List.mem_cons.mp hm' with rfl | hrest
          · exact ⟨name, hname, hseen⟩
          · obtain ⟨name', hname', hnew⟩ := hnames m' hrest
            exact ⟨name', hname', fun hold => hnew (List.mem_cons_of_mem _ hold)⟩
        · rw [List.map_cons, List.nodup_cons]
          refine ⟨?_, hnodup⟩
          intro hrepeated
          obtain ⟨m', hm', hsame⟩ := List.mem_map.mp hrepeated
          obtain ⟨name', hname', hnew⟩ := hnames m' hm'
          rw [hname', hname] at hsame
          obtain rfl := Except.ok.inj hsame
          exact hnew List.mem_cons_self

end Config

namespace ModuleConfig

/-- The name and the path of a module that has a file. -/
def exported? (m : ModuleConfig) : Option (ModuleName × FilePath) :=
  match m.moduleName, m.path with
  | .ok name, some path => some (name, path)
  | _, _ => none

theorem exported?_eq_some {m : ModuleConfig} {name : ModuleName} {path : FilePath} :
    m.exported? = some (name, path) ↔ m.moduleName = .ok name ∧ m.path = some path := by
  unfold exported?
  cases m.moduleName with
  | error problem => simp
  | ok n =>
    cases m.path with
    | none => simp
    | some p => simp

/-- What a module shows before its first commit. -/
def initialContent (m : ModuleConfig) : Bytes := m.defaultContent.getD []

end ModuleConfig

namespace Daemon.ClientLoop

variable {L : Type} {base place : Location} {node : Option FileNode}

/-! ## One module -/

/-- A replica at the start: it shows its default, and is looked at if its module has a file. -/
structure Fresh (m : ModuleConfig) (r : Replica Unit) : Prop where
  commits : r.commits = 0
  foreground : r.space.foreground = none
  default : r.space.default = m.initialContent
  signals : r.space.signals ≠ [] ↔ m.path ≠ none

/-- The export of a module that has a file, and the files once its default has been written. -/
def openFile (m : ModuleConfig) (name : ModuleName) (files : FileTree) :
    List (ModuleName × Export) × FileTree :=
  match m.path with
  | none => ([], files)
  | some path =>
      let (e, files) :=
        if m.initialContent.isEmpty then ({ path }, files)
        else Export.sync m.initialContent { path } files
      ([(name, e)], files)

theorem attach_new {name : ModuleName} {default : Option Bytes} {label : String} {id : Nat}
    {space : Dataspace Unit} (h : (Dataspace.new name default).attach label = .ok (id, space)) :
    space.register id () =
      { (Dataspace.new name default : Dataspace Unit) with
        sessions := [(0, some ())], nextId := 1 } := by
  unfold Dataspace.attach at h
  simp only at h
  split at h
  · obtain ⟨rfl, rfl⟩ := Prod.mk.inj (Except.ok.inj h)
    rfl
  · cases h

/-- Adding a module is refused and changes nothing, or registers a fresh replica and opens its
file. -/
theorem addModule_cases {m : ModuleConfig} {name : ModuleName} (hname : m.moduleName = .ok name)
    (s : ClientLoop L) (files : FileTree) :
    (∃ cause, addModule m (s, files) = .error cause (s, files)) ∨
      ∃ r, r.space.name = name ∧ Fresh m r ∧
        addModule m (s, files) =
          .ok () ({ s with
              client := s.client.register r
              exports := s.exports ++ (openFile m name files).1 },
            (openFile m name files).2) := by
  have hreplica : (m.replica : Except ConfigProblem (Replica Unit)) =
      .ok (Replica.new name m.defaultContent) := by
    rw [ModuleConfig.replica, hname]
    rfl
  unfold addModule
  rw [hreplica]
  simp only [Action.except_mapError_ok, Action.ofExcept_bind_apply]
  cases hpath : m.path with
  | none =>
    refine Or.inr ⟨Replica.new name m.defaultContent, rfl, ⟨rfl, rfl, rfl, ?_⟩, ?_⟩
    · simp [Replica.new, Dataspace.new, Dataspace.signals, hpath]
    · simp [openFile, hpath]
  | some path =>
    simp only
    cases hattach : (Replica.new name m.defaultContent : Replica Unit).space.attach m.name with
    | error cause => exact Or.inl ⟨_, rfl⟩
    | ok answer =>
      obtain ⟨id, space⟩ := answer
      refine Or.inr ⟨{ (Replica.new name m.defaultContent : Replica Unit) with
        space := space.register id () }, ?_, ?_, ?_⟩
      · rw [attach_new hattach]
        rfl
      · refine ⟨rfl, ?_, ?_, ?_⟩
        · rw [attach_new hattach]
          rfl
        · rw [attach_new hattach]
          rfl
        · rw [attach_new hattach]
          simp [Dataspace.signals, hpath]
      · simp only [openFile, hpath]
        rfl

theorem map_openFile {m : ModuleConfig} {name : ModuleName} (hname : m.moduleName = .ok name)
    (files : FileTree) :
    (openFile m name files).1.map (fun entry => (entry.1, entry.2.path)) =
      m.exported?.toList := by
  unfold openFile ModuleConfig.exported?
  rw [hname]
  cases m.path with
  | none => rfl
  | some path =>
    simp only
    split
    · rfl
    · simp

/-- Nothing is written for a module without a default. -/
theorem openFile_of_empty {m : ModuleConfig} {path : FilePath} (hpath : m.path = some path)
    (hempty : m.initialContent = []) (name : ModuleName) (files : FileTree) :
    openFile m name files = ([(name, { path })], files) := by
  simp [openFile, hpath, hempty]

/-- Adding a module does not reach a location: it has nothing to show, or its file and what lies on
the way there are elsewhere. -/
def Spares (base place : Location) (m : ModuleConfig) : Prop :=
  m.initialContent = [] ∨
    ∀ path, m.path = some path → Export.Apart base place path ∧ path.destination base ≠ place

theorem openFile_keeps {m : ModuleConfig} (h : Spares base place m) (name : ModuleName)
    {files : FileTree} (hfiles : FileTree.Standing base place node files) :
    FileTree.Standing base place node (openFile m name files).2 := by
  cases hpath : m.path with
  | none =>
    have hsame : openFile m name files = ([], files) := by simp [openFile, hpath]
    rw [hsame]
    exact hfiles
  | some path =>
    rcases h with hempty | helsewhere
    · rw [openFile_of_empty hpath hempty]
      exact hfiles
    · obtain ⟨hapart, hne⟩ := helsewhere path hpath
      unfold openFile
      rw [hpath]
      simp only
      split
      · exact hfiles
      · exact Export.sync_keeps (e := { path }) hapart hne m.initialContent hfiles

theorem addModule_keeps {m : ModuleConfig} {name : ModuleName} (hname : m.moduleName = .ok name)
    (h : Spares base place m) :
    Action.Keeps (fun state => FileTree.Standing base place node state.2)
      (addModule m : Action StartError (ClientLoop L × FileTree) Unit) := by
  intro state hfiles
  obtain ⟨s, files⟩ := state
  rcases addModule_cases hname s files with ⟨cause, hrefused⟩ | ⟨r, -, -, hadded⟩
  · rw [Action.state_of_error hrefused]
    exact hfiles
  · rw [Action.state_of_ok hadded]
    exact openFile_keeps h name hfiles

/-! ## All modules -/

/-- What comes of adding modules. -/
structure Added (modules : List ModuleConfig) (before after : ClientLoop L) : Prop where
  exports : ∃ opened, after.exports = before.exports ++ opened ∧
    opened.map (fun entry => (entry.1, entry.2.path)) = modules.filterMap ModuleConfig.exported? ∧
    ∀ m ∈ modules, ∀ name path, m.exported? = some (name, path) → m.initialContent = [] →
      (name, { path }) ∈ opened
  others : ∀ name, (∀ m ∈ modules, m.moduleName ≠ .ok name) →
    after.client.replica? name = before.client.replica? name
  fresh : ∀ m ∈ modules, ∀ name, m.moduleName = .ok name →
    ∃ r, after.client.replica? name = some r ∧ Fresh m r
  permit : after.permit = before.permit
  journal : after.client.role.journal = before.client.role.journal

theorem Added.cons {m : ModuleConfig} {name : ModuleName} {rest : List ModuleConfig}
    {s after : ClientLoop L} {r : Replica Unit} {files : FileTree}
    (hname : m.moduleName = .ok name) (hnew : ∀ m' ∈ rest, m'.moduleName ≠ .ok name)
    (hr : r.space.name = name) (hfresh : Fresh m r)
    (h : Added rest
      { s with client := s.client.register r, exports := s.exports ++ (openFile m name files).1 }
      after) : Added (m :: rest) s after := by
  have hself : (s.client.register r).replica? name = some r := by
    rw [← hr]
    exact Registry.find?_insert_self ..
  have hothers : ∀ other, other ≠ name →
      (s.client.register r).replica? other = s.client.replica? other := by
    intro other hne
    rw [← hr] at hne
    exact Registry.find?_insert_of_ne _ hne _
  obtain ⟨opened, hexports, hmap, hsilent⟩ := h.exports
  refine ⟨⟨(openFile m name files).1 ++ opened, ?_, ?_, ?_⟩, ?_, ?_, h.permit, h.journal⟩
  · rw [hexports, List.append_assoc]
  · rw [List.map_append, hmap, map_openFile hname]
    cases hexported : m.exported? with
    | none => rw [List.filterMap_cons_none hexported]; rfl
    | some entry => rw [List.filterMap_cons_some hexported]; rfl
  · intro m' hm' name' path hexported hempty
    rcases List.mem_cons.mp hm' with rfl | hrest
    · obtain ⟨hname', hpath⟩ := ModuleConfig.exported?_eq_some.mp hexported
      rw [hname] at hname'
      obtain rfl := Except.ok.inj hname'
      rw [openFile_of_empty hpath hempty]
      exact List.mem_append_left _ List.mem_cons_self
    · exact List.mem_append_right _ (hsilent m' hrest name' path hexported hempty)
  · intro other hmodules
    obtain ⟨hfirst, hrest⟩ := List.forall_mem_cons.mp hmodules
    rw [h.others other hrest]
    apply hothers
    rintro rfl
    exact hfirst hname
  · intro m' hm' name' hname'
    rcases List.mem_cons.mp hm' with rfl | hrest
    · rw [hname] at hname'
      obtain rfl := Except.ok.inj hname'
      refine ⟨r, ?_, hfresh⟩
      rw [h.others name hnew]
      exact hself
    · exact h.fresh m' hrest name' hname'

theorem forM_addModule_cons (m : ModuleConfig) (rest : List ModuleConfig) :
    ((m :: rest).forM addModule : Action StartError (ClientLoop L × FileTree) Unit) =
      (addModule m >>= fun _ => rest.forM addModule) := rfl

theorem added_forM {modules : List ModuleConfig}
    (hnames : ∀ m ∈ modules, ∃ name, m.moduleName = .ok name)
    (hnodup : (modules.map ModuleConfig.moduleName).Nodup) {s s' : ClientLoop L}
    {files files' : FileTree} (h : modules.forM addModule (s, files) = .ok () (s', files')) :
    Added modules s s' := by
  induction modules generalizing s files with
  | nil =>
    obtain ⟨-, hsame⟩ := EStateM.Result.ok.inj h
    obtain ⟨rfl, -⟩ := Prod.mk.inj hsame
    refine ⟨⟨[], by simp, rfl, ?_⟩, fun _ _ => rfl, ?_, rfl, rfl⟩
    · intro m hm
      cases hm
    · intro m hm
      cases hm
  | cons m rest ih =>
    obtain ⟨⟨name, hname⟩, hnames'⟩ := List.forall_mem_cons.mp hnames
    obtain ⟨hnew, hnodup'⟩ := List.nodup_cons.mp hnodup
    rw [forM_addModule_cons, Action.bind_apply] at h
    rcases addModule_cases hname s files with ⟨cause, hrefused⟩ | ⟨r, hr, hfresh, hadded⟩
    · simp [hrefused] at h
    · simp only [hadded] at h
      have hothers : ∀ m' ∈ rest, m'.moduleName ≠ .ok name := by
        intro m' hm' hsame
        apply hnew
        rw [hname, ← hsame]
        exact List.mem_map_of_mem hm'
      exact Added.cons hname hothers hr hfresh (ih hnames' hnodup' h)

theorem forM_addModule_keeps {modules : List ModuleConfig}
    (hnames : ∀ m ∈ modules, ∃ name, m.moduleName = .ok name)
    (h : ∀ m ∈ modules, Spares base place m) :
    Action.Keeps (fun state => FileTree.Standing base place node state.2)
      (modules.forM addModule : Action StartError (ClientLoop L × FileTree) Unit) := by
  induction modules with
  | nil => exact Action.keeps_pure _ ()
  | cons m rest ih =>
    obtain ⟨⟨name, hname⟩, hnames'⟩ := List.forall_mem_cons.mp hnames
    obtain ⟨hspares, hrest⟩ := List.forall_mem_cons.mp h
    rw [forM_addModule_cons]
    exact (addModule_keeps hname hspares).bind fun _ => ih hnames' hrest

end Daemon.ClientLoop

end RomCast
