import RomCast.Daemon.Run
import RomCast.Proofs.Daemon.SilentFile
import RomCast.Proofs.Text.Label

set_option autoImplicit false

/-!
# Which accepted configurations a client runs with

The check of a configuration looks at the names of the modules, but not at what they mean as the
labels of sessions.  A client attaches a session under the configured name to every module that has
a file.  With a configuration that has passed the check its loop begins exactly when all of these
names are plain; otherwise the daemon stops at the first one that is not (`client_start_outcome`).
-/

namespace RomCast

namespace Config

/-- With a configuration that has passed its check an endpoint can be set up. -/
theorem endpoint_of_validate {c : Config} (h : c.validate = .ok ()) :
    ∃ settings, c.endpoint = .ok settings := by
  obtain ⟨-, -, -, -, -, ⟨mac?, hmac⟩, -⟩ := validate_eq_ok_iff.mp h
  exact ⟨_, by rw [endpoint, hmac]; rfl⟩

end Config

namespace ModuleConfig

theorem text_of_moduleName {m : ModuleConfig} {name : ModuleName} (h : m.moduleName = .ok name) :
    name.text = m.name := by
  unfold moduleName ModuleName.ofText at h
  split at h
  · obtain rfl := Except.ok.inj h
    rfl
  · cases h

/-- If the module has a file, its name is the label of itself. -/
def IsAttachable (m : ModuleConfig) : Prop := m.path ≠ none → Text.IsPlain m.name.toList

end ModuleConfig

namespace Daemon

/-- Why a client does not begin with these modules: the name of the first one that cannot be
attached means another module, or none. -/
def FirstRefused (modules : List ModuleConfig) (cause : StartError) : Prop :=
  ∃ pre m post, modules = pre ++ m :: post ∧ (∀ m' ∈ pre, m'.IsAttachable) ∧ ¬ m.IsAttachable ∧
    cause = .session ⟨requestedModule m.name, m.name⟩

namespace ClientLoop

variable {L : Type}

/-- A module that can be attached is added; any other one is refused for what its name means. -/
theorem addModule_outcome {m : ModuleConfig} {name : ModuleName} (hname : m.moduleName = .ok name)
    (s : ClientLoop L × FileTree) :
    (m.IsAttachable ∧ ∃ s', addModule m s = .ok () s') ∨
      (¬ m.IsAttachable ∧
        addModule m s = .error (.session ⟨requestedModule m.name, m.name⟩) s) := by
  have hreplica : (m.replica : Except ConfigProblem (Replica Unit)) =
      .ok (Replica.new name m.defaultContent) := by
    rw [ModuleConfig.replica, hname]
    rfl
  have htext : (Replica.new name m.defaultContent : Replica Unit).space.name.text = m.name :=
    ModuleConfig.text_of_moduleName hname
  unfold addModule
  rw [hreplica]
  simp only [Action.except_mapError_ok, Action.ofExcept_bind_apply]
  cases hpath : m.path with
  | none => exact Or.inl ⟨fun hfile => absurd hpath hfile, _, rfl⟩
  | some path =>
    have hattachable : m.IsAttachable ↔ requestedModule m.name = m.name := by
      simp [ModuleConfig.IsAttachable, hpath, requestedModule_eq_self]
    rw [hattachable]
    simp only [Dataspace.attach, htext]
    by_cases hown : requestedModule m.name = m.name
    · rw [if_pos hown]
      exact Or.inl ⟨hown, _, rfl⟩
    · rw [if_neg hown]
      exact Or.inr ⟨hown, rfl⟩

/-- Adding modules comes to the end when all of them can be attached, and otherwise to the first one
that cannot. -/
theorem forM_addModule_outcome {modules : List ModuleConfig}
    (hnames : ∀ m ∈ modules, ∃ name, m.moduleName = .ok name) (s : ClientLoop L × FileTree) :
    match modules.forM addModule s with
    | .ok _ _ => ∀ m ∈ modules, m.IsAttachable
    | .error cause _ => FirstRefused modules cause := by
  induction modules generalizing s with
  | nil => exact fun m hm => nomatch hm
  | cons m rest ih =>
    obtain ⟨⟨name, hname⟩, hnames'⟩ := List.forall_mem_cons.mp hnames
    rw [forM_addModule_cons, Action.bind_apply]
    rcases addModule_outcome hname s with ⟨hattachable, s', hadded⟩ | ⟨hrefused, hcause⟩
    · simp only [hadded]
      have hrest := ih hnames' s'
      cases hend : rest.forM addModule s' with
      | ok _ _ =>
        rw [hend] at hrest
        exact List.forall_mem_cons.mpr ⟨hattachable, hrest⟩
      | error cause _ =>
        rw [hend] at hrest
        obtain ⟨pre, m', post, rfl, hpre, hm', hcause⟩ := hrest
        exact ⟨m :: pre, m', post, rfl, List.forall_mem_cons.mpr ⟨hattachable, hpre⟩, hm', hcause⟩
    · simp only [hcause]
      exact ⟨[], m, rest, rfl, (fun m' hm' => nomatch hm'), hrefused, rfl⟩

end ClientLoop

variable {L : Type} [Transport L]

/-- A module that cannot be attached is among the modules of which one is refused. -/
theorem FirstRefused.exists_unattachable {modules : List ModuleConfig} {cause : StartError}
    (h : FirstRefused modules cause) : ∃ m ∈ modules, ¬ m.IsAttachable := by
  obtain ⟨pre, m, post, rfl, -, hm, -⟩ := h
  exact ⟨m, List.mem_append_right _ List.mem_cons_self, hm⟩

/-- A daemon starts as a client as its loop does. -/
theorem start_client_eq {config : Config} {settings : Endpoint.Config}
    (h : config.endpoint = .ok settings) (now : Nat) (link : L) (files : FileTree) :
    Daemon.start now .client config link files =
      match ClientLoop.start now config (Endpoint.new link settings) files with
      | .error cause after => .error cause after
      | .ok s after =>
          let d := elapse now 0
            { loop := .client s, files := after, schedule := timers .client config }
          .ok d d.files := by
  unfold Daemon.start
  rw [h]
  simp only [Action.except_mapError_ok, Action.ofExcept_bind_apply]
  cases hstart : ClientLoop.start now config (Endpoint.new link settings) files <;>
    simp [hstart, Functor.map, EStateM.map, EStateM.bind, Bind.bind]

/-- With a configuration that has passed its check there is a replica for every module.  The loop of
the client begins exactly when every module that has a file also has a plain name, and otherwise the
first one that has not is what the daemon complains of. -/
theorem client_start_outcome (now : Nat) (config : Config) (link : L) (files : FileTree)
    (hvalid : config.validate = .ok ()) :
    (∀ m ∈ config.modules, ∃ r : Replica Unit, m.replica = .ok r ∧ r.space.name.text = m.name) ∧
      ((∃ d after, Daemon.start now .client config link files = .ok d after) ↔
        ∀ m ∈ config.modules, m.IsAttachable) ∧
      ∀ cause after, Daemon.start now .client config link files = .error cause after →
        FirstRefused config.modules cause := by
  obtain ⟨settings, hsettings⟩ := Config.endpoint_of_validate hvalid
  have hnames : ∀ m ∈ config.modules, ∃ name, m.moduleName = .ok name := fun m hm =>
    ((Config.names_of_checkNames (Config.checkNames_of_validate hvalid)).1 m hm).imp
      fun _ hname => hname.1
  refine ⟨?_, ?_⟩
  · intro m hm
    obtain ⟨name, hname⟩ := hnames m hm
    exact ⟨Replica.new name m.defaultContent, by rw [ModuleConfig.replica, hname]; rfl,
      ModuleConfig.text_of_moduleName hname⟩
  · -- The start fails only where the modules are added.
    have houtcome := ClientLoop.forM_addModule_outcome hnames
      (ClientLoop.blank config (Endpoint.new link settings), files)
    rw [start_client_eq hsettings, ClientLoop.start_eq]
    cases hadd : config.modules.forM ClientLoop.addModule
        (ClientLoop.blank config (Endpoint.new link settings), files) with
    | ok _ s =>
      rw [hadd] at houtcome
      refine ⟨iff_of_true ⟨_, _, rfl⟩ houtcome, ?_⟩
      rintro _ _ ⟨⟩
    | error cause s =>
      rw [hadd] at houtcome
      obtain ⟨m, hm, hrefused⟩ := houtcome.exists_unattachable
      refine ⟨iff_of_false ?_ fun hall => hrefused (hall m hm), ?_⟩
      · rintro ⟨_, _, ⟨⟩⟩
      · rintro _ _ ⟨⟩
        exact houtcome

namespace ArrowName

/-- A module that has a file, and a name with an arrow in it. -/
def arrowModule : ModuleConfig := { name := "a->b", path := some ⟨"out/b.rom"⟩ }

def config : Config := { modules := [arrowModule] }

def link : MemoryLink := MemoryLink.ofQueue Mac.zero 1

/-- The configuration is accepted, and the client asks the module for another one, whose name is
what stands behind the arrow. -/
theorem client_start_refused :
    config.validate = .ok () ∧
      ∃ after, Daemon.start 0 .client config link {} = .error (.session ⟨"b", "a->b"⟩) after := by
  have hvalid : config.validate = .ok () := by decide +kernel
  obtain ⟨-, hstarts, hcause⟩ := client_start_outcome 0 config link {} hvalid
  refine ⟨hvalid, ?_⟩
  have harrow : ¬ arrowModule.IsAttachable := fun h => (h (by decide)).arrow (by decide)
  cases hstart : Daemon.start 0 .client config link {} with
  | ok d after => exact absurd (hstarts.mp ⟨d, after, hstart⟩ arrowModule List.mem_cons_self) harrow
  | error cause after =>
    obtain ⟨pre, m, post, hmodules, -, -, hnamed⟩ := hcause cause after hstart
    have hm : m = arrowModule := by
      have hmember : m ∈ config.modules := hmodules ▸ List.mem_append_right _ List.mem_cons_self
      exact List.mem_singleton.mp hmember
    subst hm
    have hrequested : requestedModule arrowModule.name = "b" := by decide +kernel
    rw [hnamed, hrequested]
    exact ⟨after, rfl⟩

end ArrowName

end Daemon

end RomCast
