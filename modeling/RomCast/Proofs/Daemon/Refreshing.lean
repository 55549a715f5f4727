import RomCast.Daemon.Run
import RomCast.Proofs.Daemon.SilentFile
import RomCast.Proofs.Server.Stream

set_option autoImplicit false

/-!
# What a look at the source files finds

A look at a source says that the content has changed exactly when the hash of what is served has
(`Source.refresh_changed`).  When a server's loop looks at all its source files, the publication of
each module becomes what the look at the module's own source makes of it, and the others stay as
they are (`ServerLoop.find?_refreshAll`).  So a loop is loaded at the start, over whatever link
(`ServerLoop.start_eq`, `ServerLoop.find?_loaded`).
-/

namespace RomCast

namespace Registry

variable {α : Type} {r : Registry α} {name : ModuleName}

/-! ## Names -/

theorem mem_names_iff : name ∈ r.names ↔ r.contains name = true := by
  obtain ⟨entries⟩ := r
  simp only [names, contains, find?]
  induction entries with
  | nil => simp
  | cons entry rest ih =>
    rw [List.map_cons, List.mem_cons, List.lookup_cons]
    by_cases hfirst : name = entry.1
    · simp [hfirst]
    · have hbeq : (name == entry.1) = false := by simpa using hfirst
      rw [hbeq, ih]
      exact or_iff_right hfirst

theorem names_modify (r : Registry α) (name : ModuleName) (f : α → α) :
    (r.modify name f).names = r.names := by
  simp only [names, modify, List.map_map]
  refine List.map_congr_left fun entry _ => ?_
  simp only [Function.comp_apply]
  split <;> rfl

theorem names_insert_of_contains (h : r.contains name = true) (value : α) :
    (r.insert name value).names = r.names := by
  rw [insert, if_pos h, names_modify]

/-- Registering keeps the names apart. -/
theorem nodup_names_insert (h : r.names.Nodup) (name : ModuleName) (value : α) :
    (r.insert name value).names.Nodup := by
  by_cases hc : r.contains name = true
  · rw [names_insert_of_contains hc]
    exact h
  · have hnames : (r.insert name value).names = r.names ++ [name] := by
      rw [insert, if_neg hc, names, List.map_append]
      rfl
    rw [hnames, List.nodup_append_comm]
    exact List.nodup_cons.mpr ⟨fun hold => hc (mem_names_iff.mp hold), h⟩

end Registry

namespace Source

variable {files : FileTree} {s : Source} {p : Publication}

/-! ## One source -/

/-- What a look at a source comes to: nothing, or the publication is given other content, and the
look says whether its hash is another one. -/
theorem refresh_cases (files : FileTree) (s : Source) (p : Publication) :
    s.refresh files p = (false, s, p) ∨
      (∃ content stamp, s.refresh files p =
        ((p.update content).1, { s with stamp }, (p.update content).2)) ∨
      s.refresh files p = (p.clear.1, { s with stamp := none }, p.clear.2) := by
  unfold refresh
  cases files.stat s.path with
  | error cause =>
    simp only
    split
    · unfold lose
      cases s.stamp with
      | none => exact Or.inl rfl
      | some stamp => exact Or.inr (Or.inr rfl)
    · exact Or.inl rfl
  | ok node =>
    cases node with
    | directory => exact Or.inl rfl
    | file content modified =>
      simp only
      split
      · exact Or.inl rfl
      · exact Or.inr (Or.inl ⟨content, _, rfl⟩)

/-- A look says that the content has changed exactly when its hash has. -/
theorem refresh_changed (files : FileTree) (s : Source) (p : Publication) :
    (s.refresh files p).1 = decide (p.hash ≠ (s.refresh files p).2.2.hash) := by
  rcases refresh_cases files s p with h | ⟨content, stamp, h⟩ | h
  · simp [h]
  · rw [h]
    rfl
  · rw [h]
    unfold Publication.clear
    cases p.live with
    | none => simp
    | some live => rfl

theorem path_refresh (files : FileTree) (s : Source) (p : Publication) :
    (s.refresh files p).2.1.path = s.path := by
  rcases refresh_cases files s p with h | ⟨content, stamp, h⟩ | h <;> rw [h]

theorem refresh_honest (h : p.Honest) : (s.refresh files p).2.2.Honest := by
  rcases refresh_cases files s p with hsame | ⟨content, stamp, hsame⟩ | hsame
  · rw [hsame]
    exact h
  · rw [hsame]
    exact p.update_honest content
  · rw [hsame]
    exact Publication.clear_honest h

end Source

namespace Daemon.ServerLoop

variable {L : Type} {files : FileTree} {contents : Registry Publication}
  {sources : List (ModuleName × Source)} {name : ModuleName}

/-! ## All sources -/

/-- What is served after a look at one module's source. -/
def lookAt (files : FileTree) (contents : Registry Publication) (entry : ModuleName × Source) :
    Registry Publication :=
  match contents.find? entry.1 with
  | none => contents
  | some p => contents.insert entry.1 (entry.2.refresh files p).2.2

/-- A module's publication after a look at the sources: what its own source makes of it, if it has
one. -/
def refreshed (files : FileTree) (contents : Registry Publication)
    (sources : List (ModuleName × Source)) (name : ModuleName) : Option Publication :=
  (contents.find? name).map fun p =>
    match sources.lookup name with
    | none => p
    | some source => (source.refresh files p).2.2

theorem find?_lookAt (entry : ModuleName × Source) :
    (lookAt files contents entry).find? name = refreshed files contents [entry] name := by
  unfold lookAt refreshed
  by_cases hname : name = entry.1
  · subst hname
    rw [List.lookup_cons_self]
    cases hfind : contents.find? entry.1 with
    | none => exact hfind
    | some p => exact Registry.find?_insert_self ..
  · have hbeq : (name == entry.1) = false := by simpa using hname
    rw [List.lookup_cons, hbeq, List.lookup_nil, Option.map_id']
    cases contents.find? entry.1 with
    | none => rfl
    | some p => exact Registry.find?_insert_of_ne _ hname _

theorem names_lookAt (entry : ModuleName × Source) :
    (lookAt files contents entry).names = contents.names := by
  unfold lookAt
  cases hfind : contents.find? entry.1 with
  | none => rfl
  | some p =>
    exact Registry.names_insert_of_contains
      ((Registry.contains_iff_exists contents entry.1).mpr ⟨p, hfind⟩) _

theorem lookAt_honest (h : Server.AllHonest contents) (entry : ModuleName × Source) :
    Server.AllHonest (lookAt files contents entry) := by
  unfold lookAt
  cases hfind : contents.find? entry.1 with
  | none => exact h
  | some p => exact h.insert entry.1 (Source.refresh_honest (h entry.1 p hfind))

/-- A module without a source stays as it is. -/
theorem refreshed_of_notMem (h : name ∉ sources.map Prod.fst) :
    refreshed files contents sources name = contents.find? name := by
  have hnone : sources.lookup name = none := by
    rw [List.lookup_eq_none_iff]
    rintro ⟨other, source⟩ hentry
    simp only [bne_iff_ne, ne_eq]
    rintro rfl
    exact h (List.mem_map_of_mem hentry)
  rw [refreshed, hnone, Option.map_id']

/-- Every source changes its own module's publication alone. -/
theorem find?_foldl_lookAt (hnodup : (sources.map Prod.fst).Nodup) (name : ModuleName) :
    (sources.foldl (lookAt files) contents).find? name =
      refreshed files contents sources name := by
  induction sources generalizing contents with
  | nil => rw [refreshed_of_notMem List.not_mem_nil, List.foldl_nil]
  | cons entry rest ih =>
    obtain ⟨hnew, hnodup'⟩ := List.nodup_cons.mp hnodup
    rw [List.foldl_cons, ih hnodup']
    by_cases hname : name = entry.1
    · subst hname
      rw [refreshed_of_notMem hnew, find?_lookAt]
      unfold refreshed
      rw [List.lookup_cons_self, List.lookup_cons_self]
    · have hbeq : (name == entry.1) = false := by simpa using hname
      have hsame : (lookAt files contents entry).find? name = contents.find? name := by
        rw [find?_lookAt, refreshed_of_notMem]
        rw [List.map_singleton, List.mem_singleton]
        exact hname
      unfold refreshed
      rw [hsame, List.lookup_cons, hbeq]

theorem names_foldl_lookAt :
    (sources.foldl (lookAt files) contents).names = contents.names := by
  induction sources generalizing contents with
  | nil => rfl
  | cons entry rest ih => exact ih.trans (names_lookAt entry)

theorem foldl_lookAt_honest (h : Server.AllHonest contents) :
    Server.AllHonest (sources.foldl (lookAt files) contents) := by
  induction sources generalizing contents with
  | nil => exact h
  | cons entry rest ih => exact ih (lookAt_honest h entry)

/-! ## The loop's look -/

/-- The names and the paths of the sources. -/
def watched (sources : List (ModuleName × Source)) : List (ModuleName × FilePath) :=
  sources.map fun entry => (entry.1, entry.2.path)

theorem map_watched (sources : List (ModuleName × Source)) :
    (watched sources).map Prod.fst = sources.map Prod.fst := by
  rw [watched, List.map_map]
  rfl

/-- One step of the look at all sources. -/
def turnTo (files : FileTree) (announce : ModuleName → Server L Publication → Server L Publication)
    (state : Server L Publication × List (ModuleName × Source)) (entry : ModuleName × Source) :
    Server L Publication × List (ModuleName × Source) :=
  let found := refresh files state.1 entry.1 entry.2
  (if found.1 then announce entry.1 found.2.1 else found.2.1, state.2 ++ [(entry.1, found.2.2)])

theorem refreshAll_eq (files : FileTree)
    (announce : ModuleName → Server L Publication → Server L Publication) (s : ServerLoop L) :
    s.refreshAll files announce =
      { server := (s.sources.foldl (turnTo files announce) (s.server, [])).1
        sources := (s.sources.foldl (turnTo files announce) (s.server, [])).2 } := rfl

theorem role_refresh (files : FileTree) (server : Server L Publication)
    (entry : ModuleName × Source) :
    (refresh files server entry.1 entry.2).2.1.role = lookAt files server.role entry := by
  unfold refresh lookAt
  cases server.role.find? entry.1 <;> rfl

theorem path_refresh (files : FileTree) (server : Server L Publication)
    (entry : ModuleName × Source) :
    (refresh files server entry.1 entry.2).2.2.path = entry.2.path := by
  unfold refresh
  cases server.role.find? entry.1 with
  | none => rfl
  | some p => exact Source.path_refresh files entry.2 p

theorem role_turnTo {announce : ModuleName → Server L Publication → Server L Publication}
    (hannounce : ∀ name server, (announce name server).role = server.role)
    (state : Server L Publication × List (ModuleName × Source)) (entry : ModuleName × Source) :
    (turnTo files announce state entry).1.role = lookAt files state.1.role entry := by
  rw [← role_refresh files state.1 entry, turnTo]
  simp only
  split
  · exact hannounce entry.1 _
  · rfl

theorem role_foldl_turnTo {announce : ModuleName → Server L Publication → Server L Publication}
    (hannounce : ∀ name server, (announce name server).role = server.role)
    (sources : List (ModuleName × Source))
    (state : Server L Publication × List (ModuleName × Source)) :
    (sources.foldl (turnTo files announce) state).1.role =
      sources.foldl (lookAt files) state.1.role := by
  induction sources generalizing state with
  | nil => rfl
  | cons entry rest ih =>
    rw [List.foldl_cons, List.foldl_cons, ih, role_turnTo hannounce]

theorem watched_foldl_turnTo
    (announce : ModuleName → Server L Publication → Server L Publication)
    (sources : List (ModuleName × Source))
    (state : Server L Publication × List (ModuleName × Source)) :
    watched (sources.foldl (turnTo files announce) state).2 =
      watched state.2 ++ watched sources := by
  induction sources generalizing state with
  | nil => exact (List.append_nil _).symm
  | cons entry rest ih =>
    have hstep : watched (turnTo files announce state entry).2 =
        watched state.2 ++ [(entry.1, entry.2.path)] := by
      rw [← path_refresh files state.1 entry]
      exact List.map_append
    rw [List.foldl_cons, ih, hstep, List.append_assoc]
    rfl

variable {announce : ModuleName → Server L Publication → Server L Publication}

theorem role_refreshAll (hannounce : ∀ name server, (announce name server).role = server.role)
    (s : ServerLoop L) :
    (s.refreshAll files announce).server.role =
      s.sources.foldl (lookAt files) s.server.role := by
  rw [refreshAll_eq]
  exact role_foldl_turnTo hannounce s.sources (s.server, [])

/-- A look at all sources makes of every publication what the module's own source makes of it. -/
theorem find?_refreshAll (hannounce : ∀ name server, (announce name server).role = server.role)
    (s : ServerLoop L) (hnodup : (s.sources.map Prod.fst).Nodup) (name : ModuleName) :
    (s.refreshAll files announce).server.role.find? name =
      refreshed files s.server.role s.sources name := by
  rw [role_refreshAll hannounce, find?_foldl_lookAt hnodup]

/-- Every source goes on being watched where it was. -/
theorem watched_refreshAll (s : ServerLoop L) :
    watched (s.refreshAll files announce).sources = watched s.sources := by
  rw [refreshAll_eq]
  exact watched_foldl_turnTo announce s.sources (s.server, [])

/-! ## The start -/

/-- What is served when a module has been registered. -/
def registered (contents : Registry Publication) (m : ModuleConfig) : Registry Publication :=
  match m.moduleName with
  | .error _ => contents
  | .ok name => contents.insert name (Publication.new name m.binary m.defaultContent)

/-- A module that serves its default, and what the first look at its source makes of it. -/
def firstPublication (files : FileTree) (m : ModuleConfig) (name : ModuleName) : Publication :=
  let p := Publication.new name m.binary m.defaultContent
  match m.path with
  | none => p
  | some path => (Source.refresh files { path } p).2.2

section Modules

variable {modules : List ModuleConfig} {m : ModuleConfig}

theorem find?_foldl_registered_of_ne (h : ∀ m ∈ modules, m.moduleName ≠ .ok name)
    (contents : Registry Publication) :
    (modules.foldl registered contents).find? name = contents.find? name := by
  induction modules generalizing contents with
  | nil => rfl
  | cons m rest ih =>
    obtain ⟨hfirst, hrest⟩ := List.forall_mem_cons.mp h
    rw [List.foldl_cons, ih hrest, registered]
    cases hname : m.moduleName with
    | error problem => rfl
    | ok other =>
      refine Registry.find?_insert_of_ne _ ?_ _
      rintro rfl
      exact hfirst hname

/-- Every module serves its default at first. -/
theorem find?_foldl_registered (hnodup : (modules.map ModuleConfig.moduleName).Nodup)
    (hm : m ∈ modules) (hname : m.moduleName = .ok name) (contents : Registry Publication) :
    (modules.foldl registered contents).find? name =
      some (Publication.new name m.binary m.defaultContent) := by
  induction modules generalizing contents with
  | nil => cases hm
  | cons first rest ih =>
    obtain ⟨hnew, hnodup'⟩ := List.nodup_cons.mp hnodup
    rw [List.foldl_cons]
    rcases List.mem_cons.mp hm with rfl | hrest
    · have hothers : ∀ m' ∈ rest, m'.moduleName ≠ .ok name := by
        rintro m' hm' hsame
        exact hnew (hname ▸ hsame ▸ List.mem_map_of_mem hm')
      rw [find?_foldl_registered_of_ne hothers, registered, hname]
      exact Registry.find?_insert_self ..
    · exact ih hnodup' hrest _

/-- What holds of a registry whichever module is given its default holds when all are registered. -/
theorem foldl_registered_keeps {P : Registry Publication → Prop}
    (hinsert : ∀ contents (m : ModuleConfig) name, P contents →
      P (contents.insert name (Publication.new name m.binary m.defaultContent)))
    (h : P contents) : P (modules.foldl registered contents) := by
  induction modules generalizing contents with
  | nil => exact h
  | cons m rest ih =>
    refine ih ?_
    unfold registered
    cases m.moduleName with
    | error problem => exact h
    | ok name => exact hinsert contents m name h

theorem nodup_names_foldl_registered (h : contents.names.Nodup) :
    (modules.foldl registered contents).names.Nodup :=
  foldl_registered_keeps (P := fun contents => contents.names.Nodup)
    (fun _ _ name hkept => Registry.nodup_names_insert hkept name _) h

theorem foldl_registered_honest (h : Server.AllHonest contents) :
    Server.AllHonest (modules.foldl registered contents) :=
  foldl_registered_keeps (P := Server.AllHonest)
    (fun _ _ name hkept => hkept.insert name (Publication.new_honest ..)) h

end Modules

/-- A source that has not been looked at. -/
def unread (entry : ModuleName × FilePath) : ModuleName × Source := (entry.1, { path := entry.2 })

variable {config : Config} {m : ModuleConfig}

/-- The loop before the first look. -/
def unloaded (config : Config) (endpoint : Endpoint L) : ServerLoop L where
  server := { endpoint, role := config.modules.foldl registered {} }
  sources := config.exported.map unread

/-- The loop after the first look, before anything has been announced. -/
def loaded (config : Config) (endpoint : Endpoint L) (files : FileTree) : ServerLoop L :=
  (unloaded config endpoint).refreshAll files fun _ server => server

theorem addModule_ok (hname : m.moduleName = .ok name) (s : ServerLoop L) :
    addModule m s = .ok
      { server := { s.server with role := registered s.server.role m }
        sources := s.sources ++ m.exported?.toList.map unread } := by
  unfold addModule registered ModuleConfig.exported?
  rw [ModuleConfig.publication, hname]
  cases m.path with
  | none =>
    simp only [Option.toList_none, List.map_nil, List.append_nil]
    rfl
  | some path => rfl

theorem foldlM_addModule {modules : List ModuleConfig}
    (hnames : ∀ m ∈ modules, ∃ name, m.moduleName = .ok name) (s : ServerLoop L) :
    modules.foldlM (fun s m => addModule m s) s = .ok
      { server := { s.server with role := modules.foldl registered s.server.role }
        sources := s.sources ++ (modules.filterMap ModuleConfig.exported?).map unread } := by
  induction modules generalizing s with
  | nil =>
    rw [List.filterMap_nil, List.map_nil, List.append_nil]
    rfl
  | cons m rest ih =>
    obtain ⟨⟨name, hname⟩, hnames'⟩ := List.forall_mem_cons.mp hnames
    have hexported : m.exported?.toList.map unread ++
        (rest.filterMap ModuleConfig.exported?).map unread =
          ((m :: rest).filterMap ModuleConfig.exported?).map unread := by
      rw [List.filterMap_cons]
      cases m.exported? <;> rfl
    rw [List.foldlM_cons, addModule_ok hname]
    refine (ih hnames' _).trans ?_
    rw [List.append_assoc, hexported]
    rfl

/-- With a configuration that has passed its check a server's loop begins, over any link: it loads
every module and announces what it serves. -/
theorem start_eq [Transport L] (hvalid : config.validate = .ok ()) (now : Nat)
    (endpoint : Endpoint L) (files : FileTree) :
    start now config.modules endpoint files =
      .ok ((loaded config endpoint files).announceAll now) := by
  obtain ⟨hnames, -⟩ := Config.names_of_checkNames (Config.checkNames_of_validate hvalid)
  unfold start
  rw [foldlM_addModule fun m hm => (hnames m hm).imp fun _ hname => hname.1]
  rfl

theorem nodup_unread (hvalid : config.validate = .ok ()) :
    ((config.exported.map unread).map Prod.fst).Nodup := by
  obtain ⟨-, hnodup⟩ := Config.names_of_checkNames (Config.checkNames_of_validate hvalid)
  rw [List.map_map]
  exact ClientLoop.nodup_exported hnodup

/-- Every module serves what the first look has found for it. -/
theorem find?_loaded (hvalid : config.validate = .ok ()) (endpoint : Endpoint L)
    (hm : m ∈ config.modules) (hname : m.moduleName = .ok name) :
    (loaded config endpoint files).server.role.find? name =
      some (firstPublication files m name) := by
  obtain ⟨-, hnodup⟩ := Config.names_of_checkNames (Config.checkNames_of_validate hvalid)
  have hsources := nodup_unread hvalid
  rw [loaded, find?_refreshAll (fun _ _ => rfl) _ hsources, refreshed, firstPublication]
  have hfirst : (unloaded config endpoint).server.role.find? name =
      some (Publication.new name m.binary m.defaultContent) :=
    find?_foldl_registered hnodup hm hname {}
  rw [hfirst, Option.map_some]
  cases hpath : m.path with
  | some path =>
    have hexported : (name, path) ∈ config.exported :=
      List.mem_filterMap.mpr ⟨m, hm, ModuleConfig.exported?_eq_some.mpr ⟨hname, hpath⟩⟩
    have hlookup : (unloaded config endpoint).sources.lookup name = some { path } :=
      ClientLoop.lookup_of_mem hsources (List.mem_map_of_mem (f := unread) hexported)
    rw [hlookup]
  | none =>
    have hlookup : (unloaded config endpoint).sources.lookup name = none := by
      rw [List.lookup_eq_none_iff]
      intro entry hentry
      obtain ⟨⟨other, path⟩, hexported, rfl⟩ := List.mem_map.mp hentry
      obtain ⟨m', hm', hexported⟩ := List.mem_filterMap.mp hexported
      obtain ⟨hname', hpath'⟩ := ModuleConfig.exported?_eq_some.mp hexported
      simp only [unread, bne_iff_ne, ne_eq]
      rintro rfl
      obtain rfl : m' = m := List.inj_on_of_nodup_map hnodup hm' hm (hname'.trans hname.symm)
      rw [hpath] at hpath'
      cases hpath'
    rw [hlookup]

/-- Nothing else is served. -/
theorem find?_loaded_of_ne (hvalid : config.validate = .ok ()) (endpoint : Endpoint L)
    (h : ∀ m ∈ config.modules, m.moduleName ≠ .ok name) :
    (loaded config endpoint files).server.role.find? name = none := by
  have hfirst : (unloaded config endpoint).server.role.find? name = none :=
    find?_foldl_registered_of_ne h {}
  rw [loaded, find?_refreshAll (fun _ _ => rfl) _ (nodup_unread hvalid), refreshed, hfirst]
  rfl

/-- Looking at the sources is nothing to the endpoint when nothing is announced. -/
theorem endpoint_foldl_turnTo (sources : List (ModuleName × Source))
    (state : Server L Publication × List (ModuleName × Source)) :
    (sources.foldl (turnTo files fun _ server => server) state).1.endpoint = state.1.endpoint := by
  induction sources generalizing state with
  | nil => rfl
  | cons entry rest ih =>
    rw [List.foldl_cons, ih, turnTo]
    simp only [ite_self]
    unfold refresh
    cases state.1.role.find? entry.1 <;> rfl

theorem endpoint_loaded (endpoint : Endpoint L) :
    (loaded config endpoint files).server.endpoint = endpoint := by
  rw [loaded, refreshAll_eq]
  exact endpoint_foldl_turnTo (unloaded config endpoint).sources
    ((unloaded config endpoint).server, [])

theorem watched_loaded (endpoint : Endpoint L) :
    watched (loaded config endpoint files).sources = config.exported := by
  rw [loaded, watched_refreshAll, unloaded, watched, List.map_map]
  exact List.map_id _

theorem nodup_names_loaded (endpoint : Endpoint L) :
    (loaded config endpoint files).server.role.names.Nodup := by
  rw [loaded, role_refreshAll fun _ _ => rfl, names_foldl_lookAt]
  exact nodup_names_foldl_registered List.nodup_nil

theorem loaded_honest (endpoint : Endpoint L) :
    Server.AllHonest (loaded config endpoint files).server.role := by
  rw [loaded, role_refreshAll fun _ _ => rfl]
  exact foldl_lookAt_honest (foldl_registered_honest fun _ _ hp => nomatch hp)

end Daemon.ServerLoop

end RomCast
