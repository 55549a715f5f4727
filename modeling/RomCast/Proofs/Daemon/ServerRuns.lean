import RomCast.Proofs.Daemon.Refreshing
import RomCast.Proofs.Server.Packets
import RomCast.Proofs.Station.Conservation

set_option autoImplicit false

/-!
# What happens to a server's loop

The loop takes events in whatever order they come, while frames come and go on its link and files
change.  Whatever this is, the same happens over a link that keeps a record (`Incident.apply_twin`),
and the record shows which packets were submitted at it (`Incident.submits`).  Only a look at the
source files changes what is served (`Incident.find?_apply`).
-/

namespace RomCast

open RomCast.Action (Keeps)
open Endpoint (SubmitsPackets submitsPackets_refl)

variable {L : Type} [Transport L]

namespace Server

variable {ε : Type}

/-! ## Announcing leaves what is served alone -/

theorem sendUpdate_keeps_role (now : Nat) (name : ModuleName) (contents : Registry Publication) :
    Keeps (fun s : Server L Publication => s.role = contents)
      (sendUpdate now name : Action ε (Server L Publication) Unit) := by
  refine Keeps.bind (Action.keeps_get _) fun s => ?_
  cases s.role.find? name with
  | none => exact Action.keeps_pure _ ()
  | some p =>
    exact Keeps.ite (Keeps.bind (Keeps.on fun _ h => h) fun _ => Action.keeps_pure _ ())
      (Action.keeps_pure _ ())

theorem role_sendUpdates (now : Nat) (s : Server L Publication) :
    ((sendUpdates now : Action ε (Server L Publication) Unit).state s).role = s.role :=
  Keeps.bind (P := fun s' : Server L Publication => s'.role = s.role) (Action.keeps_get _)
    (fun _ => Keeps.forM (fun name => sendUpdate_keeps_role now name s.role) _) s rfl

theorem role_poll (now : Nat) (s : Server L Publication) :
    ((poll now).state s).role = s.role := by
  let unchanged : Message → Registry Publication → Registry Publication :=
    fun _ contents => contents
  have hunchanged : ∀ message (e : Endpoint L) contents,
      ((handler now message).state (e, contents)).2 = unchanged message contents := handler_role now
  obtain ⟨hrole, -⟩ := Station.role_poll (handler_keepsConfig now) hunchanged s
  refine hrole.trans ?_
  -- Whatever is read, it is heeded by leaving the role alone.
  induction Station.framesPolled (handler now) s with
  | nil => rfl
  | cons frame rest ih =>
    rw [List.foldl_cons]
    have hsame : Station.heed unchanged s.endpoint.config s.role frame = s.role := by
      unfold Station.heed
      cases Station.packetIn? s.endpoint.config frame <;> rfl
    rw [hsame]
    exact ih

end Server

namespace Daemon.ServerLoop

/-- The same loop over another link. -/
def withLink {L M : Type} (s : ServerLoop L) (link : M) : ServerLoop M where
  server := s.server.withLink link
  sources := s.sources

/-- The same loop over a link that keeps a record from now on. -/
def recorded (s : ServerLoop L) : ServerLoop (Recorded L) :=
  s.withLink { link := s.server.endpoint.link }

/-- Something that happens to a server's loop and the files that it works on. -/
inductive Incident (L : Type) [Transport L] where
  /-- The loop takes an event. -/
  | event (now : Nat) (event : Event)
  /-- Frames come in, or something else happens to the link. -/
  | outside (o : Outside L)
  /-- The files change, in whatever way. -/
  | files (change : FileTree → FileTree)

namespace Incident

/-- The loop and the files after an incident. -/
def apply : Incident L → ServerLoop L × FileTree → ServerLoop L × FileTree
  | event now e, s => (s.1.step now s.2 e, s.2)
  | outside o, s =>
      ({ s.1 with server := { s.1.server with endpoint := { s.1.server.endpoint with
          link := o.change s.1.server.endpoint.link } } }, s.2)
  | files change, s => (s.1, change s.2)

/-- The same incident over a link that keeps a record. -/
def recorded : Incident L → Incident (Recorded L)
  | event now e => event now e
  | outside o => outside o.recorded
  | files change => files change

/-- Whether the loop looks at its source files. -/
def Looks : Incident L → Prop
  | event _ .sourceTick => True
  | _ => False

end Incident

/-- The loop and the files after incidents, one after the other. -/
def after (s : ServerLoop L × FileTree) (incidents : List (Incident L)) :
    ServerLoop L × FileTree :=
  incidents.foldl (fun s incident => incident.apply s) s

/-! ## What is served -/

section Served

variable (incident : Incident L) {s : ServerLoop L × FileTree}

theorem role_announce (now : Nat) (name : ModuleName) (server : Server L Publication) :
    (announce now name server).role = server.role :=
  Server.sendUpdate_keeps_role now name server.role server rfl

theorem role_announceAll (now : Nat) (s : ServerLoop L) :
    (s.announceAll now).server.role = s.server.role :=
  Server.role_sendUpdates now s.server

/-- Looking at the resolution of the peer is the endpoint's matter. -/
theorem server_arpTick (now : Nat) (files : FileTree) (s : ServerLoop L) :
    (s.step now files .arpTick).server =
      ⟨Endpoint.flush.state ((Endpoint.pollTimers now).state s.server.endpoint), s.server.role,
        s.server.buffer⟩ := by
  simp only [step, run, Station.onEndpoint, Action.state_on]

/-- Only a look at the source files changes what is served. -/
theorem Incident.role_apply (h : ¬ incident.Looks) :
    (incident.apply s).1.server.role = s.1.server.role := by
  cases incident with
  | event now event =>
    cases event with
    | readable => exact Server.role_poll now s.1.server
    | notified => rfl
    | sourceTick => exact absurd True.intro h
    | arpTick =>
      show (s.1.step now s.2 .arpTick).server.role = s.1.server.role
      rw [server_arpTick]
    | announceTick => exact role_announceAll now s.1
  | outside o => rfl
  | files change => rfl

theorem Incident.role_apply_of_looks (h : incident.Looks) :
    (incident.apply s).1.server.role =
      s.1.sources.foldl (lookAt s.2) s.1.server.role := by
  cases incident with
  | event now event =>
    cases event with
    | sourceTick => exact role_refreshAll (role_announce now) s.1
    | _ => exact absurd h id
  | outside o => exact absurd h id
  | files change => exact absurd h id

theorem Incident.watched_apply :
    watched (incident.apply s).1.sources = watched s.1.sources := by
  cases incident with
  | event now event =>
    cases event with
    | sourceTick => exact watched_refreshAll s.1
    | _ => rfl
  | outside o => rfl
  | files change => rfl

/-- As long as the loop does not look at its source files, it serves the same. -/
theorem role_after {incidents : List (Incident L)} (h : ∀ incident ∈ incidents, ¬ incident.Looks)
    (s : ServerLoop L × FileTree) : (after s incidents).1.server.role = s.1.server.role := by
  induction incidents generalizing s with
  | nil => rfl
  | cons incident rest ih =>
    obtain ⟨hfirst, hrest⟩ := List.forall_mem_cons.mp h
    exact (ih hrest (incident.apply s)).trans (incident.role_apply hfirst)

end Served

/-! ## A daemon's incidents -/

/-- A server's daemon reacts to an event with one incident. -/
theorem handle_server (now : Nat) {d : Daemon L} {s : ServerLoop L} (hloop : d.loop = .server s)
    (event : Event) :
    d.handle now event =
      { d with loop := .server ((Incident.event now event).apply (s, d.files)).1 } := by
  rw [handle, hloop]
  rfl

theorem foldl_handle_server (now : Nat) (events : List Event) {d : Daemon L} {s : ServerLoop L}
    (hloop : d.loop = .server s) :
    (events.foldl (handle now) d).loop =
        .server (after (s, d.files) (events.map (Incident.event now))).1 ∧
      (events.foldl (handle now) d).files = d.files := by
  induction events generalizing d s with
  | nil => exact ⟨hloop, rfl⟩
  | cons event rest ih =>
    rw [List.foldl_cons, handle_server now hloop]
    exact ih rfl

/-- Letting time pass is a run of the events whose timers go off. -/
theorem elapse_server (now milliseconds : Nat) {d : Daemon L} {s : ServerLoop L}
    (hloop : d.loop = .server s) :
    let ticks := (d.schedule.due (d.clock + milliseconds)).map (Incident.event now)
    (d.elapse now milliseconds).loop = .server (after (s, d.files) ticks).1 ∧
      (d.elapse now milliseconds).files = d.files :=
  foldl_handle_server now (d.schedule.due (d.clock + milliseconds)) hloop

/-- Only events that have a timer become due. -/
theorem mem_due {α : Type} {schedule : Schedule α} {time : Nat} {a : α}
    (h : a ∈ schedule.due time) : a ∈ schedule.map Prod.fst := by
  unfold Schedule.due at h
  obtain ⟨dated, hdated, rfl⟩ := List.mem_map.mp h
  rw [List.mem_mergeSort, List.mem_flatMap] at hdated
  obtain ⟨entry, hentry, htime⟩ := hdated
  obtain ⟨t, -, rfl⟩ := List.mem_map.mp htime
  exact List.mem_map_of_mem hentry

/-- A server announces everything again only if it is configured to. -/
theorem announceTick_mem_timers (config : Config) :
    Event.announceTick ∈ (timers .server config).map Prod.fst ↔
      config.server.resignalInterval ≠ 0 := by
  unfold timers ServerConfig.resignalPeriod
  by_cases hnever : config.server.resignalInterval = 0
  · simp [hnever]
  · simp [hnever]

/-- A server's daemon starts as its loop does, and goes on with the timers that go off at once. -/
theorem start_server_eq {config : Config} {settings : Endpoint.Config} {now : Nat} {link : L}
    {files : FileTree} {s : ServerLoop L} (hsettings : config.endpoint = .ok settings)
    (hstart : start now config.modules (Endpoint.new link settings) files = .ok s) :
    ∃ (d : Daemon L) (ticks : List Event),
      Daemon.start now .server config link files = .ok d files ∧
      d.loop = .server (after (s, files) (ticks.map (Incident.event now))).1 ∧
      ∀ tick ∈ ticks, tick ∈ (timers .server config).map Prod.fst := by
  let begun : Daemon L := { loop := .server s, files, schedule := timers .server config }
  obtain ⟨hloop, hfiles⟩ := elapse_server now 0 (d := begun) rfl
  refine ⟨elapse now 0 begun, begun.schedule.due (begun.clock + 0), ?_, hloop,
    fun _ htick => mem_due htick⟩
  unfold Daemon.start
  rw [hsettings]
  simp only [Action.except_mapError_ok, Action.bind_apply]
  simp [hstart, Functor.map, EStateM.map, Action.ofExcept, begun, hfiles]

/-! ## Over related links -/

section Related

variable {M : Type} [Transport M] {R : LinkRelation L M} {s : ServerLoop L} {t : ServerLoop M}

omit [Transport L] [Transport M] in
theorem eq_withLink {m : M} (hserver : t.server = s.server.withLink m)
    (hsources : t.sources = s.sources) : t = s.withLink m := by
  obtain ⟨server, sources⟩ := t
  obtain rfl := hserver
  obtain rfl := hsources
  rfl

/-- A loop, and the same one over a related link. -/
def Paired (R : LinkRelation L M) (s : ServerLoop L) (t : ServerLoop M) : Prop :=
  Station.Paired R s.server t.server ∧ t.sources = s.sources

theorem turnTo_paired (files : FileTree)
    {announce : ModuleName → Server L Publication → Server L Publication}
    {announce' : ModuleName → Server M Publication → Server M Publication}
    (hannounce : ∀ name server server', Station.Paired R server server' →
      Station.Paired R (announce name server) (announce' name server'))
    {state : Server L Publication × List (ModuleName × Source)}
    {state' : Server M Publication × List (ModuleName × Source)}
    (h : Station.Paired R state.1 state'.1) (hsources : state'.2 = state.2)
    (entry : ModuleName × Source) :
    Station.Paired R (turnTo files announce state entry).1
        (turnTo files announce' state' entry).1 ∧
      (turnTo files announce' state' entry).2 = (turnTo files announce state entry).2 := by
  obtain ⟨server, sources⟩ := state
  obtain ⟨_, _⟩ := state'
  obtain ⟨m, hserver, hm⟩ := h
  simp only at hserver hsources
  subst hserver hsources
  have hrole : (server.withLink m).role = server.role := rfl
  unfold turnTo refresh
  simp only [hrole]
  cases server.role.find? entry.1 with
  | none => exact ⟨⟨m, rfl, hm⟩, rfl⟩
  | some p =>
    refine ⟨?_, rfl⟩
    have hregistered : Station.Paired R
        (Server.register server entry.1 (entry.2.refresh files p).2.2)
        (Server.register (server.withLink m) entry.1 (entry.2.refresh files p).2.2) :=
      ⟨m, rfl, hm⟩
    simp only
    split
    · exact hannounce entry.1 _ _ hregistered
    · exact hregistered

theorem foldl_turnTo_paired (files : FileTree)
    {announce : ModuleName → Server L Publication → Server L Publication}
    {announce' : ModuleName → Server M Publication → Server M Publication}
    (hannounce : ∀ name server server', Station.Paired R server server' →
      Station.Paired R (announce name server) (announce' name server'))
    {state : Server L Publication × List (ModuleName × Source)}
    {state' : Server M Publication × List (ModuleName × Source)}
    (h : Station.Paired R state.1 state'.1) (hsources : state'.2 = state.2)
    (sources : List (ModuleName × Source)) :
    Station.Paired R (sources.foldl (turnTo files announce) state).1
        (sources.foldl (turnTo files announce') state').1 ∧
      (sources.foldl (turnTo files announce') state').2 =
        (sources.foldl (turnTo files announce) state).2 := by
  induction sources generalizing state state' with
  | nil => exact ⟨h, hsources⟩
  | cons entry rest ih =>
    obtain ⟨hstep, hsources'⟩ := turnTo_paired files hannounce h hsources entry
    exact ih hstep hsources'

theorem refreshAll_paired (files : FileTree)
    (announce : ModuleName → Server L Publication → Server L Publication)
    (announce' : ModuleName → Server M Publication → Server M Publication)
    (hannounce : ∀ name server server', Station.Paired R server server' →
      Station.Paired R (announce name server) (announce' name server'))
    (h : Paired R s t) :
    Paired R (s.refreshAll files announce) (t.refreshAll files announce') := by
  obtain ⟨hserver, hsources⟩ := h
  rw [refreshAll_eq, refreshAll_eq, hsources]
  have hbegin : Station.Paired R (s.server, ([] : List (ModuleName × Source))).1
      (t.server, ([] : List (ModuleName × Source))).1 := hserver
  exact foldl_turnTo_paired files hannounce hbegin rfl s.sources

theorem step_paired (now : Nat) (files : FileTree) (h : Paired R s t) (event : Event) :
    Paired R (s.step now files event) (t.step now files event) := by
  cases event with
  | readable => exact ⟨(Station.poll_parallel (Server.handler_alike now)).state h.1, h.2⟩
  | notified => exact h
  | sourceTick =>
    exact refreshAll_paired files _ _
      (fun name _ _ hserver => (Server.sendUpdate_parallel now name).state hserver) h
  | arpTick =>
    have htimers := (Station.onEndpoint_parallel (Endpoint.pollTimers_parallel now)).state h.1
    exact ⟨(Station.onEndpoint_parallel Endpoint.flush_parallel).state htimers, h.2⟩
  | announceTick => exact ⟨(Server.sendUpdates_parallel now).state h.1, h.2⟩

end Related

/-! ## Over a link that keeps a record -/

section Recorded

variable [PooledTransport L] {total : Nat} {s : ServerLoop L × FileTree} (incident : Incident L)

theorem Incident.apply_paired (files : FileTree) {s : ServerLoop L} {t : ServerLoop (Recorded L)}
    (h : Paired (Recorded.custody (Tally.trivial L) total) s t) :
    Paired (Recorded.custody (Tally.trivial L) total) (incident.apply (s, files)).1
        (incident.recorded.apply (t, files)).1 ∧
      (incident.recorded.apply (t, files)).2 = (incident.apply (s, files)).2 := by
  cases incident with
  | event now event => exact ⟨step_paired now files h event, rfl⟩
  | files change => exact ⟨h, rfl⟩
  | outside o =>
    obtain ⟨server, sources⟩ := t
    obtain ⟨⟨r, hserver, hr⟩, hsources⟩ := h
    obtain rfl : server = s.server.withLink r := hserver
    have hlink : r.link = s.server.endpoint.link := hr.link_eq
    refine ⟨⟨⟨{ r with link := o.change r.link }, rfl, ?_⟩, hsources⟩, rfl⟩
    rw [hlink]
    exact hr.outside (o.pool_eq s.server.endpoint.link) True.intro

theorem recorded_paired (s : ServerLoop L)
    (h : (Transport.pool s.server.endpoint.link).Accounts []) :
    Paired (Recorded.custody (Tally.trivial L)
      (Transport.pool s.server.endpoint.link).buffers.length) s s.recorded :=
  ⟨⟨_, rfl, rfl, h, rfl, (fun _ hcall => absurd hcall List.not_mem_nil), True.intro⟩, rfl⟩

/-- What happens to a loop happens to it over a link that keeps a record as well, and the link below
the record is the same. -/
theorem Incident.apply_twin (h : (Transport.pool s.1.server.endpoint.link).Accounts []) :
    ∃ r : Recorded L, incident.recorded.apply (s.1.recorded, s.2) =
        ((incident.apply s).1.withLink r, (incident.apply s).2) ∧
      r.link = (incident.apply s).1.server.endpoint.link ∧
      (Transport.pool (incident.apply s).1.server.endpoint.link).Accounts [] := by
  obtain ⟨⟨⟨r, hserver, hr⟩, hsources⟩, hfiles⟩ :=
    incident.apply_paired s.2 (recorded_paired s.1 h)
  exact ⟨r, Prod.ext (eq_withLink hserver hsources) hfiles, hr.link_eq, hr.accounts⟩

/-- A loop that is loaded over a link that keeps a record. -/
theorem loaded_recorded (config : Config) (settings : Endpoint.Config) {link : L}
    (hpool : (Transport.pool link).Accounts []) (files : FileTree) :
    loaded config (Endpoint.new ({ link } : Recorded L) settings) files =
      (loaded config (Endpoint.new link settings) files).recorded := by
  have hunloaded : Paired (Recorded.custody (Tally.trivial L) (Transport.pool link).buffers.length)
      (unloaded config (Endpoint.new link settings))
      (unloaded config (Endpoint.new ({ link } : Recorded L) settings)) :=
    recorded_paired (unloaded config (Endpoint.new link settings)) hpool
  obtain ⟨⟨r, hserver, -⟩, hsources⟩ :=
    refreshAll_paired files (fun _ server => server) (fun _ server => server)
      (fun _ _ _ hserver => hserver) hunloaded
  -- The record is the one of the endpoint that the loading began with.
  have hrecord : r = ({ link } : Recorded L) := by
    have hlink := congrArg (fun server => server.endpoint.link) hserver
    rw [← loaded, endpoint_loaded] at hlink
    exact hlink.symm
  have hlink : (loaded config (Endpoint.new link settings) files).server.endpoint.link = link := by
    rw [endpoint_loaded]
    rfl
  rw [recorded, hlink, ← hrecord]
  subst hrecord
  exact eq_withLink hserver hsources

/-- The frames that are submitted at an incident. -/
def Incident.submitted (s : ServerLoop L × FileTree) : List Bytes :=
  (incident.recorded.apply (s.1.recorded, s.2)).1.server.endpoint.link.frames

end Recorded

/-! ## Which packets are submitted -/

/-- The signal that a look at a module's source submits. -/
def news (files : FileTree) (contents : Registry Publication) (entry : ModuleName × Source) :
    List Bytes :=
  match contents.find? entry.1 with
  | none => []
  | some p =>
      let p' := (entry.2.refresh files p).2.2
      if p.hash ≠ p'.hash then
        if p'.content.length ≠ 0 then [controlPacket .signal entry.1 p'.hash] else []
      else []

/-- The packets that are submitted at an incident. -/
def Incident.packets : Incident L → ServerLoop L × FileTree → List Bytes
  | .event now .readable, s =>
      (Station.framesPolled (Server.handler now) s.1.server).flatMap
        (Station.answered s.1.server.endpoint.config (Server.answer s.1.server.role))
  | .event _ .sourceTick, s => s.1.sources.flatMap (news s.2 s.1.server.role)
  | .event _ .announceTick, s => s.1.server.role.names.flatMap (Server.signal s.1.server.role)
  | _, _ => []

section Packets

variable [PooledTransport L] {files : FileTree}

/-- A look at one source submits the signal for what it has found. -/
theorem turnTo_submits (files : FileTree) (now : Nat)
    (state : Server (Recorded L) Publication × List (ModuleName × Source))
    (entry : ModuleName × Source) (h : state.1.endpoint.link.InCustody) :
    SubmitsPackets state.1.endpoint (turnTo files (announce now) state entry).1.endpoint
      (news files state.1.role entry) := by
  unfold turnTo refresh news
  cases hfind : state.1.role.find? entry.1 with
  | none => exact submitsPackets_refl h
  | some p =>
    simp only [Source.refresh_changed, decide_eq_true_eq]
    let server := Server.register state.1 entry.1 (entry.2.refresh files p).2.2
    by_cases hchanged : p.hash ≠ (entry.2.refresh files p).2.2.hash
    · obtain ⟨-, hsubmits⟩ := Server.sendUpdate_submitsPackets (ε := Empty) now entry.1 server h
      have hregistered : server.role.find? entry.1 = some (entry.2.refresh files p).2.2 :=
        Registry.find?_insert_self ..
      rw [Server.signal, hregistered] at hsubmits
      rw [if_pos hchanged, if_pos hchanged]
      exact hsubmits
    · rw [if_neg hchanged, if_neg hchanged]
      exact submitsPackets_refl h

/-- A look at one source makes no difference to what a look at another one finds. -/
theorem news_lookAt {entry other : ModuleName × Source} {contents : Registry Publication}
    (h : other.1 ≠ entry.1) :
    news files (lookAt files contents entry) other = news files contents other := by
  have hfind : (lookAt files contents entry).find? other.1 = contents.find? other.1 := by
    rw [find?_lookAt, refreshed_of_notMem]
    rw [List.map_singleton, List.mem_singleton]
    exact h
  unfold news
  rw [hfind]

theorem foldl_turnTo_submits (now : Nat) {sources : List (ModuleName × Source)}
    (hnodup : (sources.map Prod.fst).Nodup)
    (state : Server (Recorded L) Publication × List (ModuleName × Source))
    (h : state.1.endpoint.link.InCustody) :
    SubmitsPackets state.1.endpoint
      (sources.foldl (turnTo files (announce now)) state).1.endpoint
      (sources.flatMap (news files state.1.role)) := by
  induction sources generalizing state with
  | nil => exact submitsPackets_refl h
  | cons entry rest ih =>
    obtain ⟨hnew, hnodup'⟩ := List.nodup_cons.mp hnodup
    have hfirst := turnTo_submits files now state entry h
    have hrest := ih hnodup' (turnTo files (announce now) state entry) hfirst.custody
    rw [role_turnTo (role_announce now)] at hrest
    have hsame : rest.flatMap (news files (lookAt files state.1.role entry)) =
        rest.flatMap (news files state.1.role) := by
      refine List.flatMap_congr fun other hother => news_lookAt ?_
      rintro hrepeated
      exact hnew (hrepeated ▸ List.mem_map_of_mem hother)
    rw [hsame] at hrest
    rw [List.flatMap_cons]
    exact hfirst.trans hrest

/-- The packets of an incident are submitted at it, and nothing else is but ARP packets. -/
theorem Incident.submits (incident : Incident L) {s : ServerLoop L × FileTree}
    (h : (Transport.pool s.1.server.endpoint.link).Accounts [])
    (hnodup : (s.1.sources.map Prod.fst).Nodup) :
    SubmitsPackets s.1.recorded.server.endpoint
      (incident.recorded.apply (s.1.recorded, s.2)).1.server.endpoint (incident.packets s) := by
  have hcustody : s.1.recorded.server.endpoint.link.InCustody := Recorded.inCustody_of_accounts h
  have hpaired := recorded_paired s.1 h
  cases incident with
  | event now event =>
    cases event with
    | readable =>
      have hpolled := Station.poll_submitsPackets (Server.handler_responds now) hcustody
      rw [Station.framesPolled_paired (Server.handler_alike now) hpaired.1,
        Server.reply_publication] at hpolled
      exact hpolled
    | notified => exact submitsPackets_refl hcustody
    | sourceTick => exact foldl_turnTo_submits now hnodup (s.1.recorded.server, []) hcustody
    | arpTick =>
      have htimers := Endpoint.pollTimers_submitsPackets now hcustody
      have hflushed := htimers.quiet (Endpoint.flush_submitsPackets htimers.custody)
      show SubmitsPackets _ (s.1.recorded.step now s.2 .arpTick).server.endpoint []
      rw [server_arpTick]
      exact hflushed
    | announceTick =>
      exact (Server.sendUpdates_submitsPackets (ε := Empty) now s.1.recorded.server hcustody).2
  | outside o =>
    exact Endpoint.submitsPackets_nil
      (Recorded.inCustody_of_accounts (o.pool_eq s.1.server.endpoint.link ▸ h)) rfl rfl rfl
  | files change => exact submitsPackets_refl hcustody

end Packets

end Daemon.ServerLoop

end RomCast
