import RomCast.Client
import RomCast.Endpoint
import RomCast.Files.Path
import RomCast.Publication
import RomCast.Text.Basic

set_option autoImplicit false

/-!
# Configurations

What a daemon is set up with: its network, its timers, and its modules.  `Config.validate` says
whether a daemon can run with a configuration; what it checks first is what it reports.
-/

namespace RomCast

/-- The link and the peer. -/
structure NetworkConfig where
  /-- The interface of the raw link. -/
  interface : String := ""
  source : Option Ipv4Address := none
  target : Option Ipv4Address := none
  /-- The peer's hardware address, as text. -/
  targetMac : Option String := none
  port : UInt16 := Endpoint.defaultPort
  checksumOffload : Bool := false
  /-- How many transmit buffers the link has. -/
  queueSize : Nat := 64
  deriving DecidableEq, Inhabited

/-- The resolution of the peer's hardware address. -/
structure ArpConfig where
  /-- Milliseconds between two questions. -/
  retryInterval : Nat := 1000
  /-- How many questions are asked at most. -/
  maxRetries : Nat := 5
  deriving DecidableEq, Inhabited

/-- What only servers look at. -/
structure ServerConfig where
  /-- Milliseconds between two looks at the source files. -/
  pollInterval : Nat := 500
  /-- Seconds between two announcements of every module; zero for none. -/
  resignalInterval : Nat := 0
  deriving DecidableEq, Inhabited

/-- What only clients look at. -/
structure ClientConfig where
  /-- Ask for every module at the start. -/
  requestOnStartup : Bool := false
  /-- Contents of more bytes are ignored. -/
  maxContentSize : Nat := Client.defaultLimit
  deriving DecidableEq, Inhabited

/-- One module. -/
structure ModuleConfig where
  name : String := ""
  /-- Where a server reads the content from, and a client writes it to. -/
  path : Option FilePath := none
  /-- Whether zero bytes are content like any other. -/
  binary : Bool := false
  /-- What stands for the content while there is none. -/
  default : Option String := none
  deriving DecidableEq, Inhabited

/-- A daemon's configuration. -/
structure Config where
  network : NetworkConfig := {}
  arp : ArpConfig := {}
  server : ServerConfig := {}
  client : ClientConfig := {}
  modules : List ModuleConfig := []
  deriving DecidableEq, Inhabited

/-- What is wrong with a configuration. -/
inductive ConfigProblem where
  | zeroPort
  | zeroQueue
  | zeroRetries
  | zeroInterval
  | zeroContentSize
  | badPeerMac (text : String)
  | badModuleName (text : String)
  | repeatedModule (text : String)
  deriving DecidableEq, Repr, Inhabited

/-- The wording of what is wrong with a configuration. -/
def ConfigProblem.message : ConfigProblem → String
  | zeroPort => "udp_port must be non-zero"
  | zeroQueue => "queue_size must be non-zero"
  | zeroRetries => "arp.max_retries must be non-zero"
  | zeroInterval => "timer intervals must be non-zero"
  | zeroContentSize => "client.max_content_size must be non-zero"
  | badPeerMac text => "dst_mac " ++ Text.quoted text
  | badModuleName text => "module name " ++ Text.quoted text
  | repeatedModule text => "module " ++ Text.quoted text ++ " configured twice"

/-! ## What follows from a configuration -/

/-- The peer's hardware address, if one is configured. -/
def NetworkConfig.peerMac (n : NetworkConfig) : Except ConfigProblem (Option Mac) :=
  match n.targetMac with
  | none => .ok none
  | some text =>
      match Mac.parse? text with
      | some mac => .ok (some mac)
      | none => .error (.badPeerMac text)

/-- Milliseconds between two announcements of every module, if there are any. -/
def ServerConfig.resignalPeriod (s : ServerConfig) : Option Nat :=
  if s.resignalInterval = 0 then none else some (s.resignalInterval * 1000)

namespace ModuleConfig

/-- The module's name. -/
def moduleName (m : ModuleConfig) : Except ConfigProblem ModuleName :=
  (ModuleName.ofText m.name).mapError fun _ => .badModuleName m.name

/-- The bytes of the module's default content. -/
def defaultContent (m : ModuleConfig) : Option Bytes := m.default.map Text.utf8

/-- The module on the side that serves it. -/
def publication (m : ModuleConfig) : Except ConfigProblem Publication := do
  return Publication.new (← m.moduleName) m.binary m.defaultContent

/-- The module on the side that receives it. -/
def replica {κ : Type} (m : ModuleConfig) : Except ConfigProblem (Replica κ) := do
  return Replica.new (← m.moduleName) m.defaultContent

end ModuleConfig

namespace Config

/-- How the daemon's endpoint is set up. -/
def endpoint (c : Config) : Except ConfigProblem Endpoint.Config := do
  return {
    source := c.network.source
    target := c.network.target
    targetMac := ← c.network.peerMac
    port := c.network.port
    checksumOffload := c.network.checksumOffload
    retryInterval := c.arp.retryInterval
    maxRetries := c.arp.maxRetries }

/-- Whether the modules, behind others of the names `seen`, have names, and every one its own. -/
def checkNames (seen : List ModuleName) : List ModuleConfig → Except ConfigProblem Unit
  | [] => .ok ()
  | m :: rest => do
      let name ← m.moduleName
      if name ∈ seen then throw (.repeatedModule m.name)
      checkNames (name :: seen) rest

/-- Whether a daemon can run with the configuration. -/
def validate (c : Config) : Except ConfigProblem Unit := do
  if c.network.port = 0 then throw .zeroPort
  if c.network.queueSize = 0 then throw .zeroQueue
  if c.arp.maxRetries = 0 then throw .zeroRetries
  if c.arp.retryInterval = 0 ∨ c.server.pollInterval = 0 then throw .zeroInterval
  if c.client.maxContentSize = 0 then throw .zeroContentSize
  let _ ← c.network.peerMac
  checkNames [] c.modules

end Config

end RomCast
