import RomCast.Config.Load
import RomCast.Proofs.Daemon.Accepted
import RomCast.Proofs.Daemon.Refreshing

set_option autoImplicit false

/-!
# Which configurations are loaded

A configuration is usable when nothing that is made of it fails, and its modules stand beside each
other on a server and on a client (`Config.Usable`).  The check passes exactly these, so that just
they are loaded, and any other is refused as invalid (`Config.load_usable`).
-/

namespace RomCast

namespace Registry

/-! ## Registering under different names -/

variable {α : Type}

/-- Values under names of their own are all there afterwards, in order. -/
theorem entries_foldl_insert (key : α → ModuleName) {values : List α} {r : Registry α}
    (hnew : ∀ value ∈ values, key value ∉ r.names) (hnodup : (values.map key).Nodup) :
    (values.foldl (fun r value => r.insert (key value) value) r).entries =
      r.entries ++ values.map fun value => (key value, value) := by
  induction values generalizing r with
  | nil => exact (List.append_nil _).symm
  | cons value rest ih =>
    obtain ⟨hfirst, hrest⟩ := List.forall_mem_cons.mp hnew
    obtain ⟨hother, hnodup'⟩ := List.nodup_cons.mp hnodup
    have hinsert : (r.insert (key value) value).entries = r.entries ++ [(key value, value)] := by
      rw [insert, if_neg fun hc => hfirst (mem_names_iff.mpr hc)]
    -- The names behind it are new to the registry that it has joined, too.
    have hnew' : ∀ v ∈ rest, key v ∉ (r.insert (key value) value).names := by
      intro v hv hmem
      rw [names, hinsert, List.map_append, List.mem_append] at hmem
      rcases hmem with hold | hlast
      · exact hrest v hv hold
      · refine hother (List.mem_map.mpr ⟨v, hv, ?_⟩)
        exact List.mem_singleton.mp hlast
    rw [List.foldl_cons, ih hnew' hnodup', hinsert, List.append_assoc]
    rfl

end Registry

/-- A server of these publications, registered one after the other. -/
def Server.registering {L : Type} [Transport L] (endpoint : Endpoint L)
    (publications : List Publication) : Server L Publication :=
  publications.foldl (fun s p => s.register p.name p) (Server.new endpoint)

/-- A client with these replicas, registered one after the other. -/
def Client.registering {L κ : Type} [Transport L] (endpoint : Endpoint L) (limit : Nat)
    (replicas : List (Replica κ)) : Client L κ :=
  replicas.foldl Client.register (Client.new endpoint limit)

section Registering

variable {L κ : Type} [Transport L] (endpoint : Endpoint L)

theorem Server.entries_registering {publications : List Publication}
    (h : (publications.map Publication.name).Nodup) :
    (registering endpoint publications).role.entries =
      publications.map fun p => (p.name, p) := by
  have hrole : (registering endpoint publications).role =
      publications.foldl (fun r p => r.insert p.name p) {} :=
    (List.foldl_hom Station.role fun _ _ => rfl).symm
  rw [hrole]
  exact Registry.entries_foldl_insert Publication.name (fun _ _ => List.not_mem_nil) h

theorem Client.entries_registering (limit : Nat) {replicas : List (Replica κ)}
    (h : (replicas.map fun r : Replica κ => r.space.name).Nodup) :
    (registering endpoint limit replicas).role.replicas.entries =
      replicas.map fun r => (r.space.name, r) := by
  have hrole : (registering endpoint limit replicas).role.replicas =
      replicas.foldl (fun entries r => entries.insert r.space.name r) {} :=
    (List.foldl_hom (fun c : Client L κ => c.role.replicas) fun _ _ => rfl).symm
  rw [hrole]
  exact Registry.entries_foldl_insert (fun r : Replica κ => r.space.name)
    (fun _ _ => List.not_mem_nil) h

end Registering

namespace ModuleConfig

/-- What is made of modules, one by one. -/
abbrev Made {α : Type} (make : ModuleConfig → Except ConfigProblem α) : List ModuleConfig →
    List α → Prop :=
  List.Forall₂ fun m a => make m = .ok a

/-- Modules of different names make things of different names. -/
theorem Made.nodup_names {α : Type} {make : ModuleConfig → Except ConfigProblem α}
    {key : α → ModuleName} {modules : List ModuleConfig} {values : List α}
    (h : Made make modules values) (hkey : ∀ m a, make m = .ok a → (key a).text = m.name)
    (hnodup : (modules.map name).Nodup) : (values.map key).Nodup := by
  have htexts : (values.map key).map ModuleName.text = modules.map name := by
    rw [List.map_map]
    induction h with
    | nil => rfl
    | cons hmake _ ih =>
      rw [List.map_cons, List.map_cons, ih (List.nodup_cons.mp hnodup).2]
      exact congrArg (· :: _) (hkey _ _ hmake)
  exact List.Nodup.of_map ModuleName.text (htexts ▸ hnodup)

variable {m : ModuleConfig}

/-- What is made from a module's name is made just when it has one. -/
theorem bind_moduleName_eq_ok_iff {α : Type} {make : ModuleName → α} {a : α} :
    (m.moduleName >>= fun name => pure (make name)) = .ok a ↔
      ∃ name, m.moduleName = .ok name ∧ make name = a := by
  cases m.moduleName with
  | error problem => exact iff_of_false nofun nofun
  | ok name =>
    constructor
    · exact fun h => ⟨name, rfl, Except.ok.inj h⟩
    · rintro ⟨_, ⟨⟩, rfl⟩
      rfl

theorem publication_eq_ok_iff {p : Publication} :
    m.publication = .ok p ↔
      ∃ name, m.moduleName = .ok name ∧ Publication.new name m.binary m.defaultContent = p :=
  bind_moduleName_eq_ok_iff

theorem replica_eq_ok_iff {κ : Type} {r : Replica κ} :
    m.replica = .ok r ↔
      ∃ name, m.moduleName = .ok name ∧ Replica.new name m.defaultContent = r :=
  bind_moduleName_eq_ok_iff

theorem text_of_publication {p : Publication} (h : m.publication = .ok p) :
    p.name.text = m.name := by
  obtain ⟨name, hname, rfl⟩ := publication_eq_ok_iff.mp h
  exact text_of_moduleName hname

theorem text_of_replica {κ : Type} {r : Replica κ} (h : m.replica = .ok r) :
    r.space.name.text = m.name := by
  obtain ⟨name, hname, rfl⟩ := replica_eq_ok_iff.mp h
  exact text_of_moduleName hname

end ModuleConfig

namespace Config

/-! ## What the check is worth -/

/-- Everything that a daemon makes of the configuration can be made. -/
structure Usable (c : Config) : Prop where
  port : c.network.port ≠ 0
  queueSize : c.network.queueSize ≠ 0
  maxRetries : c.arp.maxRetries ≠ 0
  retryInterval : c.arp.retryInterval ≠ 0
  pollInterval : c.server.pollInterval ≠ 0
  maxContentSize : c.client.maxContentSize ≠ 0
  peerMac : ∃ mac?, c.network.peerMac = .ok mac?
  endpoint : ∃ settings, c.endpoint = .ok settings
  publications : ∀ m ∈ c.modules, ∃ p, m.publication = .ok p
  replicas : ∀ {κ : Type}, ∀ m ∈ c.modules, ∃ r : Replica κ, m.replica = .ok r
  names : (c.modules.map ModuleConfig.name).Nodup
  /-- On a server no module takes another one's place. -/
  served : ∀ {L : Type} [Transport L] (e : Endpoint L) (ps : List Publication),
    ModuleConfig.Made ModuleConfig.publication c.modules ps →
      (Server.registering e ps).role.entries = (ps.map fun p => (p.name, p)) ∧
        (Server.registering e ps).role.size = c.modules.length
  /-- Nor does one on a client. -/
  replicated : ∀ {L κ : Type} [Transport L] (e : Endpoint L) (limit : Nat)
    (rs : List (Replica κ)), ModuleConfig.Made ModuleConfig.replica c.modules rs →
      (Client.registering e limit rs).role.replicas.entries =
          (rs.map fun r => (r.space.name, r)) ∧
        (Client.registering e limit rs).role.replicas.size = c.modules.length

/-- Modules are passed that have names, each its own and none of those seen before. -/
theorem checkNames_eq_ok_iff {seen : List ModuleName} {modules : List ModuleConfig} :
    checkNames seen modules = .ok () ↔
      (∀ m ∈ modules, ∃ name, m.moduleName = .ok name ∧ name ∉ seen) ∧
        (modules.map ModuleConfig.name).Nodup := by
  constructor
  · intro h
    obtain ⟨hnames, hnodup⟩ := names_of_checkNames h
    -- A name depends on the text alone, so different names have different texts.
    have hsame : modules.map ModuleConfig.moduleName = (modules.map ModuleConfig.name).map
        fun text => (ModuleName.ofText text).mapError fun _ => .badModuleName text := by
      rw [List.map_map]
      rfl
    exact ⟨hnames, List.Nodup.of_map _ (hsame ▸ hnodup)⟩
  · rintro ⟨hnames, hnodup⟩
    induction modules generalizing seen with
    | nil => rfl
    | cons m rest ih =>
      obtain ⟨⟨name, hname, hnew⟩, hrest⟩ := List.forall_mem_cons.mp hnames
      obtain ⟨hother, hnodup'⟩ := List.nodup_cons.mp hnodup
      unfold checkNames
      simp only [hname, bind, Except.bind, throw, throwThe, MonadExceptOf.throw,
        Action.except_check_eq_ok]
      refine ⟨hnew, ih (fun m' hm' => ?_) hnodup'⟩
      obtain ⟨name', hname', hnew'⟩ := hrest m' hm'
      refine ⟨name', hname', fun hmem => ?_⟩
      rcases List.mem_cons.mp hmem with rfl | hseen
      · refine hother (List.mem_map.mpr ⟨m', hm', ?_⟩)
        rw [← ModuleConfig.text_of_moduleName hname, ← ModuleConfig.text_of_moduleName hname']
      · exact hnew' hseen

/-- The check passes just the configurations that are usable. -/
theorem validate_eq_ok_iff_usable {c : Config} : c.validate = .ok () ↔ c.Usable := by
  constructor
  · intro h
    obtain ⟨hport, hqueue, hretries, ⟨hretry, hpoll⟩, hlimit, hmac, hmodules⟩ :=
      validate_eq_ok_iff.mp h
    obtain ⟨hnames, hnodup⟩ := checkNames_eq_ok_iff.mp hmodules
    have hname : ∀ m ∈ c.modules, ∃ name, m.moduleName = .ok name := fun m hm =>
      (hnames m hm).imp fun _ hname => hname.1
    exact {
      port := hport
      queueSize := hqueue
      maxRetries := hretries
      retryInterval := hretry
      pollInterval := hpoll
      maxContentSize := hlimit
      peerMac := hmac
      endpoint := endpoint_of_validate h
      publications := fun m hm => by
        obtain ⟨name, hname⟩ := hname m hm
        exact ⟨_, ModuleConfig.publication_eq_ok_iff.mpr ⟨name, hname, rfl⟩⟩
      replicas := fun m hm => by
        obtain ⟨name, hname⟩ := hname m hm
        exact ⟨_, ModuleConfig.replica_eq_ok_iff.mpr ⟨name, hname, rfl⟩⟩
      names := hnodup
      served := fun e ps hps => by
        have hentries := Server.entries_registering e
          (hps.nodup_names (fun _ _ => ModuleConfig.text_of_publication) hnodup)
        refine ⟨hentries, ?_⟩
        rw [Registry.size, hentries, List.length_map, hps.length_eq]
      replicated := fun e limit rs hrs => by
        have hentries := Client.entries_registering e limit
          (hrs.nodup_names (fun _ _ => ModuleConfig.text_of_replica) hnodup)
        refine ⟨hentries, ?_⟩
        rw [Registry.size, hentries, List.length_map, hrs.length_eq] }
  · intro h
    refine validate_eq_ok_iff.mpr ⟨h.port, h.queueSize, h.maxRetries,
      ⟨h.retryInterval, h.pollInterval⟩, h.maxContentSize, h.peerMac, ?_⟩
    refine checkNames_eq_ok_iff.mpr ⟨fun m hm => ?_, h.names⟩
    obtain ⟨p, hp⟩ := h.publications m hm
    obtain ⟨name, hname, -⟩ := ModuleConfig.publication_eq_ok_iff.mp hp
    exact ⟨name, hname, List.not_mem_nil⟩

/-! ## What is loaded -/

/-- What a configuration file says; without a file everything has its default. -/
inductive Written (files : FileTree) (path : FilePath) : Config → Prop where
  | absent (h : files.contains path = false) : Written files path {}
  | parsed {text : String} {c : Config} (hfile : files.contains path = true)
      (htext : files.readText path = .ok text) (hparsed : parse? text = some c) :
      Written files path c

/-- Reading a configuration file ends with what it says, or fails, but never as invalid. -/
theorem loadFrom_outcome (files : FileTree) (path : FilePath) :
    match loadFrom files path with
    | .ok c => ∀ c', Written files path c' ↔ c' = c
    | .error cause => (∀ c, ¬ Written files path c) ∧ ∀ problem, cause ≠ .invalid problem := by
  unfold loadFrom
  cases hfile : files.contains path with
  | false =>
    intro c'
    constructor
    · rintro (_ | ⟨hfile', -, -⟩)
      · rfl
      · exact absurd (hfile.symm.trans hfile') Bool.false_ne_true
    · rintro rfl
      exact .absent hfile
  | true =>
    have hthere : ∀ c, Written files path c →
        ∃ text, files.readText path = .ok text ∧ parse? text = some c := by
      rintro c (hfile' | ⟨-, htext, hparsed⟩)
      · exact absurd (hfile'.symm.trans hfile) Bool.false_ne_true
      · exact ⟨_, htext, hparsed⟩
    simp only [Bool.not_true, Bool.false_eq_true, if_false, bind, Except.bind]
    cases htext : files.readText path with
    | error cause =>
      refine ⟨fun c hc => ?_, fun problem => nofun⟩
      obtain ⟨text, htext', -⟩ := hthere c hc
      rw [htext] at htext'
      cases htext'
    | ok text =>
      simp only [Action.except_mapError_ok]
      have hholds : ∀ c, Written files path c → parse? text = some c := by
        intro c hc
        obtain ⟨text', htext', hparsed⟩ := hthere c hc
        obtain rfl := Except.ok.inj (htext.symm.trans htext')
        exact hparsed
      cases hparsed : parse? text with
      | none =>
        refine ⟨fun c hc => ?_, fun problem => nofun⟩
        exact Option.some_ne_none c ((hholds c hc).symm.trans hparsed)
      | some c =>
        intro c'
        constructor
        · exact fun hc => Option.some.inj ((hholds c' hc).symm.trans hparsed)
        · rintro rfl
          exact .parsed hfile htext hparsed

/-- What is written is loaded when it is usable with what the environment sets, and refused as
invalid otherwise. -/
theorem load_of_loadFrom {env : Environment} {files : FileTree} {written : Config}
    (h : loadFrom files (filePath env) = .ok written) :
    (written.withOverrides env).Usable ∧ load env files = .ok (written.withOverrides env) ∨
      ¬ (written.withOverrides env).Usable ∧
        ∃ problem, load env files = .error (.invalid problem) := by
  unfold load
  simp only [h, bind, Except.bind]
  rw [← validate_eq_ok_iff_usable]
  cases (written.withOverrides env).validate with
  | ok => exact Or.inl ⟨rfl, rfl⟩
  | error problem => exact Or.inr ⟨nofun, problem, rfl⟩

/-- The configurations that are loaded are the usable ones among what a file says, or the defaults
where there is none, with what the environment sets; any other one is refused as invalid. -/
theorem load_usable (env : Environment) (files : FileTree) :
    (∀ c, load env files = .ok c ↔
      ∃ written, Written files (filePath env) written ∧ c = written.withOverrides env ∧
        c.Usable) ∧
    ((∃ problem, load env files = .error (.invalid problem)) ↔
      ∃ written, Written files (filePath env) written ∧
        ¬ (written.withOverrides env).Usable) := by
  have houtcome := loadFrom_outcome files (filePath env)
  cases hwritten : loadFrom files (filePath env) with
  | error cause =>
    rw [hwritten] at houtcome
    obtain ⟨hnothing, hcause⟩ := houtcome
    have hfailed : load env files = .error cause := by
      unfold load
      rw [hwritten]
      rfl
    rw [hfailed]
    constructor
    · exact fun c => iff_of_false nofun fun ⟨written, hthere, _⟩ => hnothing written hthere
    · refine iff_of_false ?_ fun ⟨written, hthere, _⟩ => hnothing written hthere
      rintro ⟨problem, h⟩
      exact hcause problem (Except.error.inj h)
  | ok written =>
    rw [hwritten] at houtcome
    simp only [houtcome, exists_eq_left]
    rcases load_of_loadFrom hwritten with ⟨husable, hloaded⟩ | ⟨hunusable, problem, hrefused⟩
    · rw [hloaded]
      refine ⟨fun c => ⟨fun h => ?_, fun ⟨hc, _⟩ => congrArg Except.ok hc.symm⟩,
        iff_of_false nofun (not_not_intro husable)⟩
      obtain rfl := Except.ok.inj h
      exact ⟨rfl, husable⟩
    · rw [hrefused]
      exact ⟨fun c => iff_of_false nofun fun ⟨hc, husable⟩ => hunusable (hc ▸ husable),
        iff_of_true ⟨problem, rfl⟩ hunusable⟩

example : load [("REMROM_NETWORK__UDP_PORT", "0")] {} = .error (.invalid .zeroPort) := by
  decide +kernel

end Config

end RomCast
