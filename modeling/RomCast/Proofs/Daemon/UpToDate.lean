import RomCast.Proofs.Daemon.Mirror
import RomCast.Proofs.Daemon.SilentFile

set_option autoImplicit false

/-!
# What a waiting client has left to write

All modules share one flag, and any number of commits may have raised it before the loop takes it.
Nothing is lost that way: whenever the loop waits with the flag lowered, every export has written
what is visible of its module, or has tried that last and failed, or its module never had anything
to show (`attended_while_lowered`).

The commits that a look has to catch up with are those that the raised flag stands for.  While it is
lowered, no module that has a file has been committed since the last look, and none has changed
(`Attentive.run`); a look attends to every export, whatever the state it finds them in
(`Attentive.look`).
-/

namespace RomCast

/-- An attempt to write a content to a module's file, and whether it succeeded. -/
structure Trial where
  name : ModuleName
  content : Bytes
  succeeded : Bool
  deriving DecidableEq

namespace Trial

/-- The attempts for one module. -/
def forModule (log : List Trial) (name : ModuleName) : List Trial :=
  log.filter fun t => t.name = name

/-- The latest attempt for a module. -/
def latest (log : List Trial) (name : ModuleName) : Option Trial := (forModule log name).getLast?

/-- The hash of what has been written last for a module. -/
def written (log : List Trial) (name : ModuleName) : Option ContentHash :=
  ((forModule log name).filter Trial.succeeded).getLast?.map fun t => ContentHash.of t.content

theorem forModule_append_of_ne {later : List Trial} {name : ModuleName}
    (h : ∀ t ∈ later, t.name ≠ name) (log : List Trial) :
    forModule (log ++ later) name = forModule log name := by
  have hnone : later.filter (fun t => t.name = name) = [] :=
    List.filter_eq_nil_iff.mpr fun t ht => by simpa using h t ht
  rw [forModule, List.filter_append, hnone, List.append_nil, forModule]

theorem forModule_concat (log : List Trial) (t : Trial) :
    forModule (log ++ [t]) t.name = forModule log t.name ++ [t] := by
  simp [forModule, List.filter_append]

theorem latest_append_of_ne {later : List Trial} {name : ModuleName}
    (h : ∀ t ∈ later, t.name ≠ name) (log : List Trial) :
    latest (log ++ later) name = latest log name := by
  rw [latest, forModule_append_of_ne h, latest]

theorem written_append_of_ne {later : List Trial} {name : ModuleName}
    (h : ∀ t ∈ later, t.name ≠ name) (log : List Trial) :
    written (log ++ later) name = written log name := by
  rw [written, forModule_append_of_ne h, written]

theorem latest_concat (log : List Trial) (t : Trial) : latest (log ++ [t]) t.name = some t := by
  rw [latest, forModule_concat, List.getLast?_concat]

theorem written_concat (log : List Trial) (t : Trial) :
    written (log ++ [t]) t.name =
      if t.succeeded then some (ContentHash.of t.content) else written log t.name := by
  rw [written, forModule_concat, List.filter_append]
  cases hsucceeded : t.succeeded with
  | true => simp [hsucceeded]
  | false => simp [hsucceeded, written]

end Trial

namespace Export

/-- The attempt that a look at a module's export makes, if it makes one. -/
def trials (name : ModuleName) (content : Bytes) (e : Export) (files : FileTree) : List Trial :=
  (e.attempts content files).map fun a => ⟨name, content, a.succeeded⟩

theorem name_of_mem_trials {name : ModuleName} {content : Bytes} {e : Export} {files : FileTree}
    {t : Trial} (h : t ∈ e.trials name content files) : t.name = name := by
  obtain ⟨a, -, rfl⟩ := List.mem_map.mp h
  rfl

/-- After a look at an export its content has been written, or that was tried last and failed.  What
the export remembers is what has been written. -/
theorem sync_trials {name : ModuleName} {e : Export} {log : List Trial}
    (h : e.written = Trial.written log name) (content : Bytes) (files : FileTree) :
    (e.sync content files).1.written =
        Trial.written (log ++ e.trials name content files) name ∧
      ((e.sync content files).1.written = some (ContentHash.of content) ∨
        Trial.latest (log ++ e.trials name content files) name = some ⟨name, content, false⟩) := by
  rcases sync_cases content e files with
    ⟨hwritten, hs⟩ | ⟨hwritten, ⟨after, hok, hs⟩ | ⟨cause, after, herror, hs⟩⟩
  · have htrials : e.trials name content files = [] := by simp [trials, attempts, hwritten]
    rw [hs, htrials, List.append_nil]
    exact ⟨h, Or.inl hwritten⟩
  · have htrials : e.trials name content files = [⟨name, content, true⟩] := by
      simp [trials, attempts, hwritten, hok]
    rw [hs, htrials]
    exact ⟨(Trial.written_concat log ⟨name, content, true⟩).symm, Or.inl rfl⟩
  · have htrials : e.trials name content files = [⟨name, content, false⟩] := by
      simp [trials, attempts, hwritten, herror]
    rw [hs, htrials]
    exact ⟨h.trans (Trial.written_concat log ⟨name, content, false⟩).symm,
      Or.inr (Trial.latest_concat log ⟨name, content, false⟩)⟩

end Export

namespace Daemon.ClientLoop

variable {L ε α : Type}

/-! ## Attempts -/

/-- The attempts that a look at exports makes, in their order. -/
def trials (visible : ModuleName → Bytes) : List (ModuleName × Export) → FileTree → List Trial
  | [], _ => []
  | (name, e) :: rest, files =>
      e.trials name (visible name) files ++ trials visible rest (e.sync (visible name) files).2

theorem name_of_mem_trials {visible : ModuleName → Bytes} {exports : List (ModuleName × Export)}
    {files : FileTree} {t : Trial} (h : t ∈ trials visible exports files) :
    t.name ∈ exports.map Prod.fst := by
  induction exports generalizing files with
  | nil => cases h
  | cons entry rest ih =>
    obtain ⟨name, e⟩ := entry
    rcases List.mem_append.mp h with hfirst | hrest
    · rw [Export.name_of_mem_trials hfirst]
      exact List.mem_cons_self
    · exact List.mem_cons_of_mem _ (ih hrest)

/-- The attempts that opening a module's file makes. -/
def openingTrials (m : ModuleConfig) (name : ModuleName) (files : FileTree) : List Trial :=
  match m.path with
  | none => []
  | some path =>
      if m.initialContent.isEmpty then []
      else Export.trials name m.initialContent { path } files

/-- The attempts that a start makes. -/
def startTrials : List ModuleConfig → FileTree → List Trial
  | [], _ => []
  | m :: rest, files =>
      match m.moduleName with
      | .error _ => []
      | .ok name => openingTrials m name files ++ startTrials rest (openFile m name files).2

/-- The attempts that one moment makes: the loop looks at its exports when it takes the flag
raised. -/
def trialsAt (state : ClientLoop L × FileTree) : Moment L → List Trial
  | .event _ .notified =>
      if state.1.permit.stored then trials state.1.visible state.1.exports state.2 else []
  | _ => []

/-- The attempts of a run. -/
def trialsAll [Transport L] : ClientLoop L × FileTree → List (Moment L) → List Trial
  | _, [] => []
  | state, moment :: rest => trialsAt state moment ++ trialsAll (perform state moment) rest

/-! ## What is true while the loop waits -/

/-- Why there is nothing to do for an export. -/
inductive Attended (s : ClientLoop L) (log : List Trial) (name : ModuleName) (e : Export) : Prop where
  /-- What is visible of the module has been written. -/
  | written (h : e.written = some (ContentHash.of (s.visible name)))
  /-- The latest attempt was for what is visible, and it failed. -/
  | refused (h : Trial.latest log name = some ⟨name, s.visible name, false⟩)
  /-- There is no commit and nothing to see. -/
  | silent (never : s.commits name = 0) (nothing : s.visible name = [])

/-- What holds of a loop at all times, with the attempts so far: an export remembers what it wrote
last, somebody looks at every module that has a file, and while the flag is lowered every export has
been attended to. -/
structure Attentive (s : ClientLoop L) (log : List Trial) : Prop where
  nodup : (s.exports.map Prod.fst).Nodup
  journal : s.client.role.journal = []
  logged : ∀ t ∈ log, t.name ∈ s.exports.map Prod.fst
  wrote : ∀ entry ∈ s.exports, entry.2.written = Trial.written log entry.1
  known : ∀ entry ∈ s.exports, ∃ r, s.client.replica? entry.1 = some r ∧ r.space.signals ≠ []
  attended : s.permit.stored = false → ∀ entry ∈ s.exports, Attended s log entry.1 entry.2

variable {s s' : ClientLoop L} {log : List Trial} {name : ModuleName} {e : Export}

theorem visible_of_replica? {r : Replica Unit} (h : s.client.replica? name = some r) :
    s.visible name = r.space.content := by
  rw [visible, h]

/-- What has been attended to stays so while the module shows the same and has no commit. -/
theorem Attended.of_same (h : Attended s log name e) (hvisible : s'.visible name = s.visible name)
    (hcommits : s'.commits name = s.commits name) : Attended s' log name e := by
  cases h with
  | written hwritten => exact .written (hvisible ▸ hwritten)
  | refused hlatest => exact .refused (hvisible ▸ hlatest)
  | silent never nothing => exact .silent (hcommits.trans never) (hvisible.trans nothing)

/-- What is tried for other modules makes no difference. -/
theorem Attended.append (h : Attended s log name e) {later : List Trial}
    (hlater : ∀ t ∈ later, t.name ≠ name) : Attended s (log ++ later) name e := by
  cases h with
  | written hwritten => exact .written hwritten
  | refused hlatest => exact .refused ((Trial.latest_append_of_ne hlater log).trans hlatest)
  | silent never nothing => exact .silent never nothing

/-- The invariant does not depend on the client's endpoint. -/
theorem Attentive.withClient (h : Attentive s log) {c : Client L Unit}
    (hrole : c.role = s.client.role) : Attentive { s with client := c } log := by
  obtain ⟨endpoint, role, buffer⟩ := c
  obtain rfl : role = s.client.role := hrole
  exact ⟨h.nodup, h.journal, h.logged, h.wrote, h.known,
    fun hlowered entry hentry => (h.attended hlowered entry hentry).of_same rfl rfl⟩

/-! ## A step of the client -/

/-- When a step of the client leaves the flag lowered, no module that has a file has changed. -/
theorem Attentive.replica?_run (h : Attentive s log) {x : Action ε (Client L Unit) α}
    (hadvances : Client.Advances s.client.role (x.state s.client).role)
    (hlowered : (s.run x).permit.stored = false) {entry : ModuleName × Export}
    (hentry : entry ∈ s.exports) :
    s.permit.stored = false ∧ ∃ r r', s.client.replica? entry.1 = some r ∧
      (s.run x).client.replica? entry.1 = some r' ∧ r'.commits = r.commits ∧ r'.space = r.space := by
  have hquiet := (not_congr (stored_run x h.journal)).mp (Bool.eq_false_iff.mp hlowered)
  rw [not_or, hadvances.signalled] at hquiet
  obtain ⟨hstored, hsilent⟩ := hquiet
  obtain ⟨r, hr, hsignals⟩ := h.known entry hentry
  obtain ⟨r', hr', hgrows⟩ := hadvances.grows entry.1 r hr
  have hcommits : r'.commits = r.commits := by
    refine Nat.le_antisymm (Nat.le_of_not_lt fun hlt => ?_) hgrows.commits
    exact hsilent ⟨entry.1, r, r', hr, hr', hsignals, hlt⟩
  exact ⟨Bool.eq_false_iff.mpr hstored, r, r', hr, hr', hcommits, hgrows.space hcommits⟩

theorem Attentive.run (h : Attentive s log) {x : Action ε (Client L Unit) α}
    (hadvances : Client.Advances s.client.role (x.state s.client).role) :
    Attentive (s.run x) log := by
  refine ⟨h.nodup, rfl, h.logged, h.wrote, ?_, ?_⟩
  · intro entry hentry
    obtain ⟨r, hr, hsignals⟩ := h.known entry hentry
    obtain ⟨r', hr', hgrows⟩ := hadvances.grows entry.1 r hr
    rw [← hgrows.signals] at hsignals
    exact ⟨r', hr', hsignals⟩
  · intro hlowered entry hentry
    obtain ⟨hbefore, r, r', hr, hr', hcommits, hspace⟩ :=
      h.replica?_run hadvances hlowered hentry
    apply (h.attended hbefore entry hentry).of_same
    · rw [visible_of_replica? hr, visible_of_replica? hr', hspace]
    · rw [commits_of_replica? hr, commits_of_replica? hr', hcommits]

/-! ## A look at the exports -/

/-- A look writes what is visible of every module, or tries to. -/
theorem syncExports_trials (visible : ModuleName → Bytes) {exports : List (ModuleName × Export)}
    (hnodup : (exports.map Prod.fst).Nodup) {log : List Trial}
    (hwrote : ∀ entry ∈ exports, entry.2.written = Trial.written log entry.1) (files : FileTree) :
    let after := log ++ trials visible exports files
    ∀ entry ∈ (syncExports visible exports files).1,
      entry.2.written = Trial.written after entry.1 ∧
        (entry.2.written = some (ContentHash.of (visible entry.1)) ∨
          Trial.latest after entry.1 = some ⟨entry.1, visible entry.1, false⟩) := by
  induction exports generalizing log files with
  | nil => exact nofun
  | cons first rest ih =>
    obtain ⟨name, e⟩ := first
    obtain ⟨hnew, hnodup'⟩ := List.nodup_cons.mp hnodup
    obtain ⟨hfirst, hrest⟩ := List.forall_mem_cons.mp hwrote
    intro after entry hentry
    have hafter : after = log ++ e.trials name (visible name) files ++
        trials visible rest (e.sync (visible name) files).2 := (List.append_assoc ..).symm
    have hentry' : entry = (name, (e.sync (visible name) files).1) ∨
        entry ∈ (syncExports visible rest (e.sync (visible name) files).2).1 := by
      simpa [syncExports] using hentry
    rw [hafter]
    rcases hentry' with rfl | hbehind
    · -- The attempts behind this one are for other modules.
      have hothers : ∀ t ∈ trials visible rest (e.sync (visible name) files).2, t.name ≠ name := by
        rintro t ht rfl
        exact hnew (name_of_mem_trials ht)
      rw [Trial.written_append_of_ne hothers, Trial.latest_append_of_ne hothers]
      exact Export.sync_trials hfirst (visible name) files
    · refine ih hnodup' (fun other hother => ?_) _ entry hbehind
      rw [Trial.written_append_of_ne, hrest other hother]
      intro t ht heq
      rw [Export.name_of_mem_trials ht] at heq
      have hrepeated : other.1 ∈ rest.map Prod.fst := List.mem_map_of_mem hother
      exact hnew (heq ▸ hrepeated)

theorem Attentive.look (h : Attentive s log) (files : FileTree) :
    Attentive (s.looked files).1 (log ++ trials s.visible s.exports files) := by
  have hnames : (s.looked files).1.exports.map Prod.fst = s.exports.map Prod.fst := by
    have hfirst := congrArg (List.map Prod.fst) (map_syncExports s.visible s.exports files)
    rwa [List.map_map, List.map_map] at hfirst
  have hlooked := syncExports_trials s.visible h.nodup h.wrote files
  refine ⟨hnames ▸ h.nodup, h.journal, ?_, fun entry hentry => (hlooked entry hentry).1, ?_, ?_⟩
  · intro t ht
    rw [hnames]
    rcases List.mem_append.mp ht with hbefore | hnow
    · exact h.logged t hbefore
    · exact name_of_mem_trials hnow
  · intro entry hentry
    have hmem : entry.1 ∈ s.exports.map Prod.fst := hnames ▸ List.mem_map_of_mem hentry
    obtain ⟨before, hbefore, hsame⟩ := List.mem_map.mp hmem
    rw [← hsame]
    exact h.known before hbefore
  · intro _ entry hentry
    rcases (hlooked entry hentry).2 with hwritten | hrefused
    · exact .written hwritten
    · exact .refused hrefused

/-! ## The start -/

/-- A module has no file, or opening it makes an export that has written the module's default, or
has tried to, unless there is no default. -/
theorem openFile_trials (m : ModuleConfig) (name : ModuleName) (files : FileTree)
    (hnone : Trial.written log name = none) :
    ((openFile m name files).1 = [] ∧ openingTrials m name files = []) ∨
      ∃ e, (openFile m name files).1 = [(name, e)] ∧ m.path ≠ none ∧
        e.written = Trial.written (log ++ openingTrials m name files) name ∧
        (e.written = some (ContentHash.of m.initialContent) ∨
          Trial.latest (log ++ openingTrials m name files) name =
            some ⟨name, m.initialContent, false⟩ ∨
          m.initialContent = []) := by
  cases hpath : m.path with
  | none => exact Or.inl (by simp [openFile, openingTrials, hpath])
  | some path =>
    right
    by_cases hempty : m.initialContent = []
    · have htrials : openingTrials m name files = [] := by simp [openingTrials, hpath, hempty]
      rw [openFile_of_empty hpath hempty, htrials, List.append_nil]
      exact ⟨{ path }, rfl, Option.some_ne_none path, hnone.symm, Or.inr (Or.inr hempty)⟩
    · have htrials : openingTrials m name files =
          Export.trials name m.initialContent { path } files := by
        simp [openingTrials, hpath, hempty]
      obtain ⟨hwrote, hcases⟩ :=
        Export.sync_trials (e := { path }) hnone.symm m.initialContent files
      refine ⟨(Export.sync m.initialContent { path } files).1, ?_, Option.some_ne_none path, ?_, ?_⟩
      · simp [openFile, hpath, hempty]
      · rw [htrials]
        exact hwrote
      · rw [htrials]
        exact hcases.imp_right Or.inl

theorem name_of_mem_openingTrials {m : ModuleConfig} {files : FileTree} {t : Trial}
    (h : t ∈ openingTrials m name files) : t.name = name := by
  unfold openingTrials at h
  split at h
  · cases h
  · split at h
    · cases h
    · exact Export.name_of_mem_trials h

/-- Nothing has been tried for a module without an export. -/
theorem Attentive.written_eq_none (h : Attentive s log) (hnew : name ∉ s.exports.map Prod.fst) :
    Trial.written log name = none := by
  have hothers : ∀ t ∈ log, t.name ≠ name := fun t ht heq => hnew (heq ▸ h.logged t ht)
  exact Trial.written_append_of_ne hothers []

/-- A module without an export is added. -/
theorem Attentive.register (h : Attentive s log) {r : Replica Unit}
    (hnew : r.space.name ∉ s.exports.map Prod.fst) :
    Attentive { s with client := s.client.register r } log := by
  have hsame : ∀ entry ∈ s.exports,
      (s.client.register r).replica? entry.1 = s.client.replica? entry.1 := by
    intro entry hentry
    refine Registry.find?_insert_of_ne _ (fun heq => hnew ?_) _
    exact heq ▸ List.mem_map_of_mem hentry
  refine ⟨h.nodup, h.journal, h.logged, h.wrote, ?_, ?_⟩
  · intro entry hentry
    obtain ⟨r', hr', hsignals⟩ := h.known entry hentry
    exact ⟨r', (hsame entry hentry).trans hr', hsignals⟩
  · intro hlowered entry hentry
    apply (h.attended hlowered entry hentry).of_same
    · simp only [visible, hsame entry hentry]
    · simp only [commits, hsame entry hentry]

/-- An export is added that has been attended to. -/
theorem Attentive.extend (h : Attentive s log) (hnew : name ∉ s.exports.map Prod.fst)
    (hknown : ∃ r, s.client.replica? name = some r ∧ r.space.signals ≠ []) {later : List Trial}
    (hlater : ∀ t ∈ later, t.name = name) (hwrote : e.written = Trial.written (log ++ later) name)
    (hattended : Attended s (log ++ later) name e) :
    Attentive { s with exports := s.exports ++ [(name, e)] } (log ++ later) := by
  have hothers : ∀ entry ∈ s.exports, ∀ t ∈ later, t.name ≠ entry.1 := by
    rintro entry hentry t ht heq
    exact hnew (hlater t ht ▸ heq ▸ List.mem_map_of_mem hentry)
  refine ⟨?_, h.journal, ?_, ?_, ?_, ?_⟩
  · rw [List.map_append, List.nodup_append_comm]
    exact List.nodup_cons.mpr ⟨hnew, h.nodup⟩
  · intro t ht
    rw [List.map_append]
    rcases List.mem_append.mp ht with hbefore | hnow
    · exact List.mem_append_left _ (h.logged t hbefore)
    · rw [hlater t hnow]
      exact List.mem_append_right _ List.mem_cons_self
  · intro entry hentry
    rcases List.mem_append.mp hentry with hold | hnow
    · rw [Trial.written_append_of_ne (hothers entry hold)]
      exact h.wrote entry hold
    · rw [List.mem_singleton.mp hnow]
      exact hwrote
  · intro entry hentry
    rcases List.mem_append.mp hentry with hold | hnow
    · exact h.known entry hold
    · rw [List.mem_singleton.mp hnow]
      exact hknown
  · intro hlowered entry hentry
    rcases List.mem_append.mp hentry with hold | hnow
    · have hkept := (h.attended hlowered entry hold).append (hothers entry hold)
      exact hkept.of_same rfl rfl
    · rw [List.mem_singleton.mp hnow]
      exact hattended.of_same rfl rfl

/-- A fresh replica is added, and its module's file is opened. -/
theorem Attentive.added (h : Attentive s log) {m : ModuleConfig} {r : Replica Unit}
    (hnew : r.space.name ∉ s.exports.map Prod.fst) (hfresh : Fresh m r) (files : FileTree) :
    Attentive
      { s with
        client := s.client.register r
        exports := s.exports ++ (openFile m r.space.name files).1 }
      (log ++ openingTrials m r.space.name files) := by
  have hregistered := h.register hnew
  rcases openFile_trials m r.space.name files (h.written_eq_none hnew) with
    ⟨hnone, htrials⟩ | ⟨e, hsome, hpath, hwrote, hcases⟩
  · rw [hnone, htrials, List.append_nil, List.append_nil]
    exact hregistered
  · have hself : (s.client.register r).replica? r.space.name = some r :=
      Registry.find?_insert_self ..
    have hvisible : ({ s with client := s.client.register r } : ClientLoop L).visible
        r.space.name = m.initialContent := by
      rw [visible_of_replica? hself, Dataspace.content, hfresh.foreground, hfresh.default]
      rfl
    rw [hsome]
    refine hregistered.extend hnew ⟨r, hself, hfresh.signals.mpr hpath⟩
      (fun t ht => name_of_mem_openingTrials ht) hwrote ?_
    rcases hcases with hwritten | hrefused | hempty
    · exact .written (hvisible ▸ hwritten)
    · exact .refused (hvisible ▸ hrefused)
    · refine .silent ?_ (hvisible.trans hempty)
      rw [commits_of_replica? hself, hfresh.commits]

theorem Attentive.forM_addModule {modules : List ModuleConfig}
    (hnames : ∀ m ∈ modules, ∃ name, m.moduleName = .ok name ∧ name ∉ s.exports.map Prod.fst)
    (hnodup : (modules.map ModuleConfig.moduleName).Nodup) (h : Attentive s log)
    {files files' : FileTree} (hadd : modules.forM addModule (s, files) = .ok () (s', files')) :
    Attentive s' (log ++ startTrials modules files) := by
  induction modules generalizing s log files with
  | nil =>
    obtain ⟨-, hsame⟩ := EStateM.Result.ok.inj hadd
    obtain ⟨rfl, -⟩ := Prod.mk.inj hsame
    rw [startTrials, List.append_nil]
    exact h
  | cons m rest ih =>
    obtain ⟨⟨name, hname, hnew⟩, hnames'⟩ := List.forall_mem_cons.mp hnames
    obtain ⟨hfirst, hnodup'⟩ := List.nodup_cons.mp hnodup
    rw [forM_addModule_cons, Action.bind_apply] at hadd
    rcases addModule_cases hname s files with ⟨cause, hrefused⟩ | ⟨r, rfl, hfresh, hadded⟩
    · simp [hrefused] at hadd
    · simp only [hadded] at hadd
      have hopened := h.added hnew hfresh files
      rw [startTrials, hname, ← List.append_assoc]
      refine ih (fun m' hm' => ?_) hnodup' hopened hadd
      obtain ⟨name', hname', hnew'⟩ := hnames' m' hm'
      refine ⟨name', hname', ?_⟩
      rw [List.map_append, List.mem_append, not_or]
      refine ⟨hnew', fun hrepeated => hfirst ?_⟩
      obtain ⟨entry, hentry, rfl⟩ := List.mem_map.mp hrepeated
      rcases openFile_trials m r.space.name files (h.written_eq_none hnew) with
        ⟨hnone, -⟩ | ⟨e, hsome, -⟩
      · rw [hnone] at hentry
        cases hentry
      · rw [hsome] at hentry
        rw [List.mem_singleton.mp hentry] at hname'
        rw [hname, ← hname']
        exact List.mem_map_of_mem hm'

variable [Transport L]

/-! ## Runs -/

theorem Attentive.perform (h : Attentive s log) (files : FileTree) (moment : Moment L) :
    Attentive (ClientLoop.perform (s, files) moment).1 (log ++ trialsAt (s, files) moment) := by
  -- Only the flag makes the loop try anything.
  have hidle : ∀ {after : ClientLoop L}, Attentive after log → Attentive after (log ++ []) :=
    fun hafter => (List.append_nil log).symm ▸ hafter
  cases moment with
  | event now event =>
    cases event with
    | readable => exact hidle (h.run (Client.poll_advances now s.client))
    | notified =>
      show Attentive (s.step now files .notified).1 _
      rw [step_notified, trialsAt]
      split
      · exact h.look files
      · exact hidle h
    | arpTick =>
      have htimers := h.run (Client.onEndpoint_advances (Endpoint.pollTimers now) s.client)
      exact hidle (htimers.run (Client.onEndpoint_advances Endpoint.flush _))
    | sourceTick => exact hidle h
    | announceTick => exact hidle h
  | link change => exact hidle (h.withClient rfl)
  | clock time => exact hidle h
  | files change => exact hidle h

theorem Attentive.performAll (h : Attentive s log) (files : FileTree) (moments : List (Moment L)) :
    Attentive (ClientLoop.performAll (s, files) moments).1
      (log ++ trialsAll (s, files) moments) := by
  induction moments generalizing s log files with
  | nil =>
    rw [trialsAll, List.append_nil]
    exact h
  | cons moment rest ih =>
    rw [trialsAll, ← List.append_assoc]
    exact ih (h.perform files moment) _

/-- No moment changes which modules have files, nor where. -/
theorem map_exports_performAll (state : ClientLoop L × FileTree) (moments : List (Moment L)) :
    (performAll state moments).1.exports.map (fun entry => (entry.1, entry.2.path)) =
      state.1.exports.map fun entry => (entry.1, entry.2.path) := by
  induction moments generalizing state with
  | nil => rfl
  | cons moment rest ih =>
    refine (ih (perform state moment)).trans ?_
    cases moment with
    | event now event =>
      cases event with
      | notified =>
        show (state.1.step now state.2 .notified).1.exports.map _ = _
        rw [step_notified]
        split
        · exact map_syncExports state.1.visible state.1.exports state.2
        · rfl
      | _ => rfl
    | _ => rfl

/-- Whatever happens to a client's loop after its start, in whatever order, and whatever others do to
the files meanwhile: each module that has a file keeps its export, and the export remembers what it
wrote last.  Whenever the loop waits with
the flag lowered, every export has written what is visible of its module, or its latest attempt was
to write just that and failed, or its module has no commit and nothing to show. -/
theorem attended_while_lowered (now : Nat) (config : Config) (endpoint : Endpoint L)
    (files₀ : FileTree) (hvalid : config.validate = .ok ()) {s₀ : ClientLoop L} {files₁ : FileTree}
    (hstart : start now config endpoint files₀ = .ok s₀ files₁) (moments : List (Moment L)) :
    let after := (performAll (s₀, files₁) moments).1
    let log := startTrials config.modules files₀ ++ trialsAll (s₀, files₁) moments
    after.exports.map (fun entry => (entry.1, entry.2.path)) = config.exported ∧
      (∀ entry ∈ after.exports, entry.2.written = Trial.written log entry.1) ∧
      (after.permit.stored = false → ∀ entry ∈ after.exports,
        Attended after log entry.1 entry.2) := by
  obtain ⟨hnames, hnodup⟩ := Config.names_of_checkNames (Config.checkNames_of_validate hvalid)
  rw [start_eq] at hstart
  cases hadd : config.modules.forM addModule (blank config endpoint, files₀) with
  | error cause state =>
    rw [hadd] at hstart
    cases hstart
  | ok _ state =>
    obtain ⟨s, files⟩ := state
    rw [hadd] at hstart
    obtain ⟨hs, rfl⟩ := EStateM.Result.ok.inj hstart
    have hblank : Attentive (blank config endpoint) [] :=
      ⟨List.nodup_nil, rfl, nofun, List.forall_mem_nil _, List.forall_mem_nil _,
        fun _ => List.forall_mem_nil _⟩
    have hadded : Attentive s (startTrials config.modules files₀) :=
      hblank.forM_addModule (fun m hm => (hnames m hm).imp fun _ h => ⟨h.1, List.not_mem_nil⟩)
        hnodup hadd
    have hrequested := hadded.withClient
      (role_requestAll now s.client.role.replicas.names s)
    obtain ⟨opened, hopened, hmap, -⟩ :=
      (added_forM (fun m hm => (hnames m hm).imp fun _ h => h.1) hnodup hadd).exports
    have hbegun : Attentive s₀ (startTrials config.modules files₀) ∧
        s₀.exports.map (fun entry => (entry.1, entry.2.path)) = config.exported := by
      have hexported : s.exports.map (fun entry => (entry.1, entry.2.path)) = config.exported := by
        rw [hopened]
        exact hmap
      rw [← hs]
      split
      · exact ⟨hrequested, hexported⟩
      · exact ⟨hadded, hexported⟩
    have hafter := hbegun.1.performAll files moments
    exact ⟨(map_exports_performAll _ moments).trans hbegun.2, hafter.wrote, hafter.attended⟩

namespace BlockedFile

/-- The directory of both modules' files. -/
def files : FileTree where
  nodes := [(["out"], .directory)]

/-- The only fragment of a content of one byte. -/
def fragment (name : ModuleName) (byte : UInt8) : Bytes :=
  let sender : Endpoint.Addressing :=
    { sourceMac := Mac.zero, targetMac := Mac.broadcast, source := Ipv4Address.unspecified,
      target := Ipv4Address.broadcast, identification := 1, port := Endpoint.defaultPort,
      withChecksum := true }
  sender.frame (dataPacket name (ContentHash.of [byte]) 1 0 [byte])

/-- Contents of both modules arrive and are read at once; before the loop takes the flag, somebody
makes a directory where the first module's file is to be. -/
def moments : List (Moment MemoryLink) :=
  [.link (·.deliver (fragment KeptFile.rom 7)), .link (·.deliver (fragment KeptFile.silent 8)),
    .event 0 .readable, .files (·.put ["out", "config.rom"] .directory), .event 0 .notified]

end BlockedFile

/-- One look answers the commits of both modules, and the first one's write fails. -/
theorem blocked_file_attended :
    KeptFile.config.validate = .ok () ∧
      ∃ s₀ files₁, start 0 KeptFile.config KeptFile.endpoint BlockedFile.files = .ok s₀ files₁ ∧
        let after := (performAll (s₀, files₁) BlockedFile.moments).1
        let log := startTrials KeptFile.config.modules BlockedFile.files ++
          trialsAll (s₀, files₁) BlockedFile.moments
        log = [⟨KeptFile.rom, [7], false⟩, ⟨KeptFile.silent, [8], true⟩] ∧
          after.permit.stored = false ∧
          after.exports.map (fun entry => (entry.1, entry.2.path)) = KeptFile.config.exported ∧
          ∀ entry ∈ after.exports, Attended after log entry.1 entry.2 := by
  have hvalid : KeptFile.config.validate = .ok () := rfl
  have hrun : (match start 0 KeptFile.config KeptFile.endpoint BlockedFile.files with
      | .error _ _ => none
      | .ok s₀ files₁ =>
          some (startTrials KeptFile.config.modules BlockedFile.files ++
              trialsAll (s₀, files₁) BlockedFile.moments,
            (performAll (s₀, files₁) BlockedFile.moments).1.permit.stored)) =
      some ([⟨KeptFile.rom, [7], false⟩, ⟨KeptFile.silent, [8], true⟩], false) := by
    decide +kernel
  refine ⟨hvalid, ?_⟩
  cases hstart : start 0 KeptFile.config KeptFile.endpoint BlockedFile.files with
  | error cause files =>
    rw [hstart] at hrun
    cases hrun
  | ok s₀ files₁ =>
    rw [hstart] at hrun
    obtain ⟨hlog, hlowered⟩ := Prod.mk.inj (Option.some.inj hrun)
    obtain ⟨hexports, -, hattended⟩ := attended_while_lowered 0 KeptFile.config KeptFile.endpoint
      BlockedFile.files hvalid hstart BlockedFile.moments
    exact ⟨s₀, files₁, rfl, hlog, hlowered, hexports, hattended hlowered⟩

end Daemon.ClientLoop

end RomCast
