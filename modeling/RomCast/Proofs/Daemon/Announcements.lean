import RomCast.Proofs.Daemon.Accepted
import RomCast.Proofs.Daemon.ServerRuns
import RomCast.Proofs.Station.Working

set_option autoImplicit false

/-!
# What a server's loop announces

A server's loop announces what it has loaded at the start, a change of content when it finds it, and
everything again when it is time for that; it announces nothing at any other time, and never an
empty content (`announces_changes`).  What is announced is the hash of what is served, and that is
served until the loop looks at its source files again.
-/

namespace RomCast

open Endpoint (SubmitsPackets)

/-! ## Signals in frames -/

/-- The hash that a packet announces for a module. -/
def Message.announced? (name : ModuleName) (message : Message) : Option ContentHash :=
  match message.body with
  | .signal => if message.module = name then some message.contentHash else none
  | _ => none

/-- The hash that the bytes of a packet announce for a module. -/
def announcedIn? (name : ModuleName) (packet : Bytes) : Option ContentHash :=
  (Message.decode packet).toOption.bind (Message.announced? name)

/-- The hashes that are announced for a module in frames, as whoever listens at the port hears
them. -/
def heardFor (port : UInt16) (name : ModuleName) (frames : List Bytes) : List ContentHash :=
  (frames.filterMap (Station.packetIn? { port })).filterMap (Message.announced? name)

/-- Frames that are ARP packets and datagrams under this configuration, and the packets in them. -/
def CarriedIn (config : Endpoint.Config) (packets frames : List Bytes) : Prop :=
  ∃ out : List Outgoing, frames = out.map Outgoing.frame ∧ (∀ o ∈ out, o.From config) ∧
    Outgoing.payloads out = packets

/-- Every packet is heard. -/
theorem CarriedIn.heardFor_eq {config : Endpoint.Config} {packets frames : List Bytes}
    (h : CarriedIn config packets frames) (name : ModuleName) :
    heardFor config.port name frames = packets.filterMap (announcedIn? name) := by
  obtain ⟨out, rfl, hfrom, rfl⟩ := h
  have hhears : ({ port := config.port } : Endpoint.Config).Hears config := ⟨rfl, rfl⟩
  unfold heardFor Outgoing.payloads
  rw [List.filterMap_map, List.filterMap_filterMap, List.filterMap_filterMap]
  refine List.filterMap_congr fun o ho => ?_
  have hframe := o.packetIn?_frame (hfrom o ho) hhears
  rw [o.take_frame] at hframe
  rw [Function.comp_apply, hframe, Option.bind_assoc]
  rfl

theorem announcedIn?_signal (name other : ModuleName) (hash : ContentHash) :
    announcedIn? name (controlPacket .signal other hash) =
      if other = name then some hash else none := by
  rw [announcedIn?, Message.decode_signal]
  rfl

/-- An answer announces nothing. -/
theorem filterMap_answer (name : ModuleName) (contents : Registry Publication)
    (message : Message) :
    (Server.answer contents message).filterMap (announcedIn? name) = [] := by
  rw [List.filterMap_eq_nil_iff]
  intro packet hpacket
  rw [← Server.reply_publication] at hpacket
  obtain ⟨-, other, hash, f, hdecode⟩ := Server.mem_reply hpacket
  rw [announcedIn?, hdecode]
  rfl

/-! ## Among many modules -/

section Keyed

variable {α β γ κ : Type} {key : α → κ} {f : α → List β} {g : β → Option γ} {k : κ}
  {list : List α}

theorem filterMap_flatMap_of_notMem (hother : ∀ a ∈ list, key a ≠ k → (f a).filterMap g = [])
    (h : k ∉ list.map key) : (list.flatMap f).filterMap g = [] := by
  rw [List.filterMap_flatMap, List.flatMap_eq_nil_iff]
  intro a ha
  refine hother a ha ?_
  rintro rfl
  exact h (List.mem_map_of_mem ha)

/-- What one member of a list contributes is all there is, when the members have different keys. -/
theorem filterMap_flatMap_of_mem (hother : ∀ a ∈ list, key a ≠ k → (f a).filterMap g = [])
    (hnodup : (list.map key).Nodup) {a : α} (ha : a ∈ list) (hkey : key a = k) :
    (list.flatMap f).filterMap g = (f a).filterMap g := by
  induction list with
  | nil => cases ha
  | cons first rest ih =>
    obtain ⟨hnew, hnodup'⟩ := List.nodup_cons.mp hnodup
    obtain ⟨hfirst, hrest⟩ := List.forall_mem_cons.mp hother
    rw [List.flatMap_cons, List.filterMap_append]
    rcases List.mem_cons.mp ha with rfl | hbehind
    · rw [filterMap_flatMap_of_notMem hrest (hkey ▸ hnew), List.append_nil]
    · have hne : key first ≠ k := by
        rintro hsame
        exact hnew (hsame.trans hkey.symm ▸ List.mem_map_of_mem hbehind)
      rw [hfirst hne, List.nil_append]
      exact ih hrest hnodup' hbehind

end Keyed

namespace Daemon.ServerLoop

/-- The hash under which a module is announced, unless there is nothing to announce. -/
def heralded : Option Publication → List ContentHash
  | some p => if p.content = [] then [] else [p.hash]
  | none => []

section Announcing

variable {files : FileTree} {contents : Registry Publication} {name : ModuleName}

theorem filterMap_signal (contents : Registry Publication) (name : ModuleName) :
    (Server.signal contents name).filterMap (announcedIn? name) =
      heralded (contents.find? name) := by
  unfold Server.signal heralded
  cases contents.find? name with
  | none => rfl
  | some p =>
    simp only [ne_eq, List.length_eq_zero_iff, ite_not]
    split
    · rfl
    · simp [announcedIn?_signal]

theorem filterMap_signal_of_ne {other : ModuleName} (h : other ≠ name) :
    (Server.signal contents other).filterMap (announcedIn? name) = [] := by
  unfold Server.signal
  cases contents.find? other with
  | none => rfl
  | some p =>
    simp only
    split
    · simp [announcedIn?_signal, h]
    · rfl

/-- Announcing everything announces each module once. -/
theorem filterMap_signals (hnodup : contents.names.Nodup) (name : ModuleName) :
    (contents.names.flatMap (Server.signal contents)).filterMap (announcedIn? name) =
      heralded (contents.find? name) := by
  have hother : ∀ other ∈ contents.names, id other ≠ name →
      (Server.signal contents other).filterMap (announcedIn? name) = [] :=
    fun _ _ hne => filterMap_signal_of_ne hne
  by_cases hmem : name ∈ contents.names
  · rw [filterMap_flatMap_of_mem hother (by rwa [List.map_id]) hmem rfl, filterMap_signal]
  · have hnone : contents.find? name = none := by
      rw [Registry.mem_names_iff] at hmem
      simpa [Registry.contains] using hmem
    rw [filterMap_flatMap_of_notMem hother (by rwa [List.map_id]), hnone]
    rfl

theorem filterMap_news_of_ne {entry : ModuleName × Source} (h : entry.1 ≠ name) :
    (news files contents entry).filterMap (announcedIn? name) = [] := by
  unfold news
  cases contents.find? entry.1 with
  | none => rfl
  | some p =>
    simp only
    split
    · split
      · simp [announcedIn?_signal, h]
      · rfl
    · rfl

/-- A look at the sources announces a module once if what it serves has changed, and not at all
otherwise. -/
theorem filterMap_flatMap_news {sources : List (ModuleName × Source)}
    (hnodup : (sources.map Prod.fst).Nodup) (name : ModuleName) :
    (sources.flatMap (news files contents)).filterMap (announcedIn? name) =
      if (contents.find? name).map Publication.hash =
          (refreshed files contents sources name).map Publication.hash then []
      else heralded (refreshed files contents sources name) := by
  have hother : ∀ entry ∈ sources, entry.1 ≠ name →
      (news files contents entry).filterMap (announcedIn? name) = [] :=
    fun _ _ hne => filterMap_news_of_ne hne
  by_cases hmem : name ∈ sources.map Prod.fst
  · obtain ⟨⟨_, source⟩, hentry, rfl⟩ := List.mem_map.mp hmem
    rw [filterMap_flatMap_of_mem hother hnodup hentry rfl, refreshed,
      ClientLoop.lookup_of_mem hnodup hentry, news]
    cases contents.find? _ with
    | none => simp
    | some p =>
      simp only [Option.map_some, Option.some.injEq, ne_eq, ite_not, List.length_eq_zero_iff]
      split
      · rfl
      · unfold heralded
        simp only
        split
        · rfl
        · simp [announcedIn?_signal]
  · rw [filterMap_flatMap_of_notMem hother hmem, refreshed_of_notMem hmem, if_pos rfl]

end Announcing

variable {L : Type} [Transport L]

/-! ## What an incident announces -/

namespace Incident

/-- The hashes that are announced for a module at an incident, by what it served before and serves
afterwards: at a look at the source files a change, and every content when it is time for that. -/
def heralds (incident : Incident L) (before after : Option Publication) : List ContentHash :=
  match incident with
  | .event _ .sourceTick =>
      if before.map Publication.hash = after.map Publication.hash then [] else heralded after
  | .event _ .announceTick => heralded after
  | _ => []

/-- No frame is dropped at the incident. -/
def DropsNothing (incident : Incident L) (s : ServerLoop L × FileTree) : Prop :=
  (incident.apply s).1.server.endpoint.counters.txDropped =
    s.1.server.endpoint.counters.txDropped

end Incident

/-- A loop of this configuration between two incidents. -/
structure Sound (config : Config) (settings : Endpoint.Config) (s : ServerLoop L) : Prop where
  accounts : (Transport.pool s.server.endpoint.link).Accounts []
  config_eq : s.server.endpoint.config = settings
  honest : Server.AllHonest s.server.role
  names_nodup : s.server.role.names.Nodup
  watched_eq : watched s.sources = config.exported

theorem Sound.nodup {config : Config} {settings : Endpoint.Config} {s : ServerLoop L}
    (h : Sound config settings s) (hvalid : config.validate = .ok ()) :
    (s.sources.map Prod.fst).Nodup := by
  obtain ⟨-, hnodup⟩ := Config.names_of_checkNames (Config.checkNames_of_validate hvalid)
  rw [← map_watched, h.watched_eq]
  exact ClientLoop.nodup_exported hnodup

variable [PooledTransport L]

/-- What an incident comes to, if no frame is dropped at it. -/
structure Announces (settings : Endpoint.Config) (incident : Incident L)
    (s : ServerLoop L × FileTree) : Prop where
  /-- The frames that count are those of the very same incident, over a link that keeps a record. -/
  twin : ∃ r : Recorded L, incident.recorded.apply (s.1.recorded, s.2) =
      ((incident.apply s).1.withLink r, (incident.apply s).2) ∧
    r.link = (incident.apply s).1.server.endpoint.link ∧ r.frames = incident.submitted s
  /-- A look at the source files makes of each module what its own source makes of it. -/
  looks : incident.Looks → ∀ name, (incident.apply s).1.server.role.find? name =
    refreshed s.2 s.1.server.role s.1.sources name
  /-- Nothing else changes what is served. -/
  keeps : ¬ incident.Looks → (incident.apply s).1.server.role = s.1.server.role
  heard : incident.DropsNothing s → ∀ name,
    heardFor settings.port name (incident.submitted s) =
      incident.heralds (s.1.server.role.find? name) ((incident.apply s).1.server.role.find? name)
  /-- Frame by frame, what is read is answered with what is served. -/
  answers : incident.DropsNothing s → ∀ now, incident = .event now .readable →
    ∃ streams : List (List Bytes),
      List.Forall₂ (fun frame packets =>
          Server.Due s.1.server.role (Station.packetIn? settings frame) packets)
        (Station.framesPolled (Server.handler now) s.1.server) streams ∧
      CarriedIn settings streams.flatten (incident.submitted s)

section Run

variable {config : Config} {settings : Endpoint.Config} {s : ServerLoop L × FileTree}

/-- The packets of an incident are in the frames that are submitted at it. -/
theorem Sound.carriedIn (h : Sound config settings s.1) (hvalid : config.validate = .ok ())
    (incident : Incident L) (hdrops : incident.DropsNothing s) :
    CarriedIn settings (incident.packets s) (incident.submitted s) := by
  obtain ⟨r, htwin, -, -⟩ := incident.apply_twin h.accounts
  obtain ⟨out, hframes, hfrom, hout⟩ :=
    (incident.submits h.accounts (h.nodup hvalid)).exists_out
  have hnone : (incident.recorded.apply (s.1.recorded, s.2)).1.server.endpoint.counters.txDropped =
      s.1.recorded.server.endpoint.counters.txDropped := by
    rw [htwin]
    exact hdrops
  refine ⟨out, hframes, ?_, hout hnone⟩
  rw [← h.config_eq]
  exact hfrom

theorem Sound.apply (h : Sound config settings s.1) (hvalid : config.validate = .ok ())
    (incident : Incident L) : Sound config settings (incident.apply s).1 := by
  obtain ⟨r, htwin, -, haccounts⟩ := incident.apply_twin h.accounts
  have hconfig := (incident.submits h.accounts (h.nodup hvalid)).config_eq
  rw [htwin] at hconfig
  refine ⟨haccounts, hconfig.trans h.config_eq, ?_, ?_, incident.watched_apply.trans h.watched_eq⟩
  · by_cases hlooks : incident.Looks
    · rw [incident.role_apply_of_looks hlooks]
      exact foldl_lookAt_honest h.honest
    · rw [incident.role_apply hlooks]
      exact h.honest
  · by_cases hlooks : incident.Looks
    · rw [incident.role_apply_of_looks hlooks, names_foldl_lookAt]
      exact h.names_nodup
    · rw [incident.role_apply hlooks]
      exact h.names_nodup

theorem Sound.after (h : Sound config settings s.1) (hvalid : config.validate = .ok ())
    (incidents : List (Incident L)) : Sound config settings (after s incidents).1 := by
  induction incidents generalizing s with
  | nil => exact h
  | cons incident rest ih => exact ih (h.apply hvalid incident)

omit [PooledTransport L] in
/-- The packets of an incident announce what is to be announced. -/
theorem Sound.filterMap_packets (h : Sound config settings s.1) (hvalid : config.validate = .ok ())
    (incident : Incident L) (name : ModuleName) :
    (incident.packets s).filterMap (announcedIn? name) =
      incident.heralds (s.1.server.role.find? name)
        ((incident.apply s).1.server.role.find? name) := by
  cases incident with
  | event now event =>
    cases event with
    | sourceTick =>
      have hlooked : (s.1.refreshAll s.2 (announce now)).server.role.find? name =
          refreshed s.2 s.1.server.role s.1.sources name :=
        find?_refreshAll (role_announce now) s.1 (h.nodup hvalid) name
      unfold Incident.packets Incident.heralds
      rw [filterMap_flatMap_news (h.nodup hvalid), ← hlooked]
      rfl
    | announceTick =>
      unfold Incident.packets Incident.heralds
      rw [filterMap_signals h.names_nodup, Incident.role_apply _ id]
    | readable =>
      unfold Incident.packets Incident.heralds
      rw [List.filterMap_flatMap, List.flatMap_eq_nil_iff]
      intro frame hframe
      unfold Station.answered
      cases Station.packetIn? s.1.server.endpoint.config frame with
      | none => rfl
      | some message => exact filterMap_answer name s.1.server.role message
    | notified => rfl
    | arpTick => rfl
  | outside o => rfl
  | files change => rfl

theorem Sound.announces (h : Sound config settings s.1) (hvalid : config.validate = .ok ())
    (incident : Incident L) : Announces settings incident s := by
  have hnodup := h.nodup hvalid
  refine ⟨?_, ?_, incident.role_apply, ?_, ?_⟩
  · obtain ⟨r, htwin, hlink, -⟩ := incident.apply_twin h.accounts
    refine ⟨r, htwin, hlink, ?_⟩
    rw [Incident.submitted, htwin]
    rfl
  · intro hlooks name
    rw [incident.role_apply_of_looks hlooks, find?_foldl_lookAt hnodup]
  · intro hdrops name
    rw [(h.carriedIn hvalid incident hdrops).heardFor_eq, h.filterMap_packets hvalid]
  · rintro hdrops now rfl
    have hcarried := h.carriedIn hvalid _ hdrops
    refine ⟨(Station.framesPolled (Server.handler now) s.1.server).map
      (Station.answered settings (Server.answer s.1.server.role)), ?_, ?_⟩
    · rw [List.forall₂_map_right_iff, List.forall₂_same]
      exact fun frame _ => Server.answer_due h.honest (Station.packetIn? settings frame)
    · rw [← List.flatMap_def]
      have hpackets : (Incident.event now .readable).packets s =
          (Station.framesPolled (Server.handler now) s.1.server).flatMap
            (Station.answered settings (Server.answer s.1.server.role)) := by
        rw [← h.config_eq]
        rfl
      rwa [hpackets] at hcarried

end Run

/-! ## The start and everything behind it -/

/-- How a loop of this configuration begins: every module is loaded, and then all are announced in
one incident, over the link itself as over one that keeps a record. -/
structure Begins (now : Nat) (config : Config) (settings : Endpoint.Config) (link : L)
    (files : FileTree) (loaded begun : ServerLoop L) : Prop where
  endpoint_eq : loaded.server.endpoint = Endpoint.new link settings
  watched_eq : watched loaded.sources = config.exported
  serves : ∀ m ∈ config.modules, ∃ name, m.moduleName = .ok name ∧
    loaded.server.role.find? name = some (firstPublication files m name)
  only : ∀ name, (∀ m ∈ config.modules, m.moduleName ≠ .ok name) →
    loaded.server.role.find? name = none
  announced : (Incident.event now .announceTick).apply (loaded, files) = (begun, files)
  started : start now config.modules (Endpoint.new link settings) files = .ok begun
  twin : start now config.modules (Endpoint.new ({ link } : Recorded L) settings) files =
    .ok ((Incident.event now .announceTick).apply (loaded.recorded, files)).1
  /-- A daemon starts so, and goes on with those of its timers that go off at once. -/
  daemon : ∃ (d : Daemon L) (ticks : List Event),
    Daemon.start now .server config link files = .ok d files ∧
    d.loop = .server (after (begun, files) (ticks.map (Incident.event now))).1 ∧
    ∀ tick ∈ ticks, tick ∈ (timers .server config).map Prod.fst

/-- A loop begins with every configuration that has passed its check. -/
theorem begins {config : Config} {settings : Endpoint.Config} {link : L}
    (hvalid : config.validate = .ok ()) (hsettings : config.endpoint = .ok settings)
    (hpool : (Transport.pool link).Accounts []) (now : Nat) (files : FileTree) :
    let loop := loaded config (Endpoint.new link settings) files
    Begins now config settings link files loop (loop.announceAll now) ∧
      Sound config settings loop := by
  obtain ⟨hnames, -⟩ := Config.names_of_checkNames (Config.checkNames_of_validate hvalid)
  have hendpoint : (loaded config (Endpoint.new link settings) files).server.endpoint =
      Endpoint.new link settings := endpoint_loaded _
  refine ⟨⟨hendpoint, watched_loaded _, ?_, fun name => find?_loaded_of_ne hvalid _, rfl,
    start_eq hvalid now _ files, ?_, start_server_eq hsettings (start_eq hvalid now _ files)⟩,
    ?_, ?_, loaded_honest _, nodup_names_loaded _, watched_loaded _⟩
  · intro m hm
    obtain ⟨name, hname, -⟩ := hnames m hm
    exact ⟨name, hname, find?_loaded hvalid _ hm hname⟩
  · rw [start_eq hvalid, loaded_recorded config settings hpool files]
    rfl
  · rw [hendpoint]
    exact hpool
  · rw [hendpoint]
    rfl

/-- With a configuration that has passed its check, over any link whose buffers are all there, the
loop begins, and whatever happens to it then, as long as nothing is dropped: it announces each
module that has something to announce once at the start, once at a look at the source files that has
changed the hash of what the module serves, and once whenever it is time to announce everything,
which no daemon does that is not configured to.  It announces nothing at any other time.  What is
announced is the hash of what is served, and it is what requests are answered with until the loop
looks at the source files again. -/
theorem announces_changes (now : Nat) (config : Config) (link : L) (files : FileTree)
    (hvalid : config.validate = .ok ()) (hpool : (Transport.pool link).Accounts []) :
    ∃ settings loop begun, config.endpoint = .ok settings ∧
      Begins now config settings link files loop begun ∧
      Announces settings (.event now .announceTick) (loop, files) ∧
      (Event.announceTick ∈ (timers .server config).map Prod.fst ↔
        config.server.resignalInterval ≠ 0) ∧
      ∀ incidents : List (Incident L),
        let s := after (begun, files) incidents
        (∀ name p, s.1.server.role.find? name = some p → p.hash = ContentHash.of p.content) ∧
          (∀ incident, Announces settings incident s) ∧
          ∀ later : List (Incident L), (∀ incident ∈ later, ¬ incident.Looks) →
            (after s later).1.server.role = s.1.server.role := by
  obtain ⟨settings, hsettings⟩ := Config.endpoint_of_validate hvalid
  obtain ⟨hbegins, hloaded⟩ := begins hvalid hsettings hpool now files
  have hfirst := hloaded.apply (s := (loaded config (Endpoint.new link settings) files, files))
    hvalid (.event now .announceTick)
  refine ⟨settings, _, _, hsettings, hbegins, hloaded.announces (s := (_, files)) hvalid _,
    announceTick_mem_timers config, ?_⟩
  intro incidents s
  have hsound : Sound config settings s.1 := Sound.after (s := (_, files)) hfirst hvalid incidents
  exact ⟨hsound.honest, hsound.announces hvalid, fun later hlater => role_after hlater s⟩

namespace ChangedFile

def rom : ModuleName := ⟨"rom", ModuleName.valid_rom⟩

/-- One module, whose content is in a file. -/
def config : Config where
  modules := [{ name := "rom", path := some ⟨"a.rom"⟩, binary := true }]

/-- The file holds one byte. -/
def holding (byte : UInt8) : FileTree where
  nodes := [(["a.rom"], .file [byte] byte.toNat)]

def link : MemoryLink := MemoryLink.ofQueue Mac.zero 1

def look : Incident MemoryLink := .event 0 .sourceTick

end ChangedFile

open ChangedFile in
/-- The content is announced at the start, not at a look that finds the same, and once at a look
that finds another one. -/
theorem changed_file_announced :
    config.validate = .ok () ∧ (Transport.pool link).Accounts [] ∧
      ∃ loop begun : ServerLoop MemoryLink,
        start 0 config.modules (Endpoint.new link {}) (holding 1) = .ok begun ∧
        heardFor Endpoint.defaultPort rom
          (Incident.submitted (.event 0 .announceTick) (loop, holding 1)) = [ContentHash.of [1]] ∧
        heardFor Endpoint.defaultPort rom (look.submitted (begun, holding 1)) = [] ∧
        heardFor Endpoint.defaultPort rom (look.submitted (begun, holding 2)) =
          [ContentHash.of [2]] := by
  have hvalid : config.validate = .ok () := by decide +kernel
  have hpool : (Transport.pool link).Accounts [] := TransmitPool.ofCount_accounts 1
  obtain ⟨settings, loop, begun, hsettings, hbegins, hfirst, -, hrun⟩ :=
    announces_changes 0 config link (holding 1) hvalid hpool
  obtain rfl : settings = {} := (Except.ok.inj hsettings).symm
  have hrole : begun.server.role = loop.server.role :=
    (congrArg (fun s => s.1.server.role) hbegins.announced).symm.trans (hfirst.keeps id)
  have hcomputed : (match start 0 config.modules (Endpoint.new link {}) (holding 1) with
      | .error _ => none
      | .ok s =>
          let before := s.server.role.find? rom
          let same := (look.apply (s, holding 1)).1.server
          let changed := (look.apply (s, holding 2)).1.server
          some ([s.server, same, changed].map fun server => server.endpoint.counters.txDropped,
            [heralded before, look.heralds before (same.role.find? rom),
              look.heralds before (changed.role.find? rom)])) =
      some ([0, 0, 0], [[ContentHash.of [1]], [], [ContentHash.of [2]]]) := by
    decide +kernel
  rw [hbegins.started] at hcomputed
  simp only [List.map_cons, List.map_nil, Option.some.injEq, Prod.mk.injEq, List.cons.injEq,
    and_true] at hcomputed
  obtain ⟨⟨hdropped, hsame, hchanged⟩, hserved, hquiet, hheralded⟩ := hcomputed
  refine ⟨hvalid, hpool, loop, begun, hbegins.started, ?_, ?_, ?_⟩
  · have hnone : (Incident.event 0 .announceTick).DropsNothing (loop, holding 1) := by
      unfold Incident.DropsNothing
      rw [hbegins.announced, hbegins.endpoint_eq]
      exact hdropped
    rw [hfirst.heard hnone rom, hbegins.announced]
    exact hserved
  · obtain ⟨-, hannounces, -⟩ := hrun []
    exact ((hannounces look).heard (hsame.trans hdropped.symm) rom).trans hquiet
  · obtain ⟨-, hannounces, -⟩ := hrun [Incident.files fun _ => holding 2]
    exact ((hannounces look).heard (hchanged.trans hdropped.symm) rom).trans hheralded

end Daemon.ServerLoop

end RomCast
