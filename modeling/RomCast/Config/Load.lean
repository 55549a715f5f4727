import RomCast.Config.Decode
import RomCast.Files.Tree

set_option autoImplicit false

/-!
# Loading a configuration

The configuration file is named by the environment, or stands in the user's configuration directory;
without one everything has its default.  Variables of the environment take precedence over the file.
A variable that does not hold what it should is passed over.
-/

namespace RomCast

/-- The variables of the environment. -/
abbrev Environment : Type := List (String × String)

/-- Why there is no configuration. -/
inductive ConfigError where
  | readFailed (path : FilePath) (cause : TextFileError)
  | parseFailed (path : FilePath)
  | writeFailed (path : FilePath) (cause : SystemError)
  | invalid (problem : ConfigProblem)
  deriving DecidableEq, Repr, Inhabited

/-- The wording of a failure to load or write a configuration. -/
def ConfigError.message : ConfigError → String
  | readFailed path cause => "failed to read " ++ path.text ++ ": " ++ cause.message
  | parseFailed path => "failed to parse " ++ path.text
  | writeFailed path cause => "failed to write " ++ path.text ++ ": " ++ cause.message
  | invalid problem => "invalid configuration: " ++ problem.message

namespace Config

/-! ## Where the file is -/

/-- The user's home directory. -/
def homeDirectory (env : Environment) : FilePath := ⟨(env.lookup "HOME").getD "/tmp"⟩

/-- The directory of the configuration file. -/
def directory (env : Environment) : FilePath :=
  match env.lookup "XDG_CONFIG_HOME" with
  | some home => FilePath.join ⟨home⟩ "remrom"
  | none => ((homeDirectory env).join ".config").join "remrom"

/-- The configuration file. -/
def filePath (env : Environment) : FilePath :=
  match env.lookup "REMROM_CONFIG" with
  | some path => ⟨path⟩
  | none => (directory env).join "config.toml"

/-! ## What the environment overrides -/

/-- Whether a variable says yes. -/
def isYes (text : String) : Bool := text = "true" || text = "1"

/-- Set what a variable sets, if it is there and holds what it should. -/
def override {α : Type} (env : Environment) (key : String) (read : String → Option α)
    (set : α → Config → Config) (c : Config) : Config :=
  match (env.lookup key).bind read with
  | some value => set value c
  | none => c

/-- Set everything that the environment sets. -/
def withOverrides (env : Environment) (c : Config) : Config :=
  let network (f : NetworkConfig → NetworkConfig) (c : Config) : Config :=
    { c with network := f c.network }
  let client (f : ClientConfig → ClientConfig) (c : Config) : Config :=
    { c with client := f c.client }
  c
  |> override env "REMROM_NETWORK__INTERFACE" some
      (fun text => network fun n => { n with interface := text })
  |> override env "REMROM_NETWORK__SRC" Ipv4Address.parse?
      (fun ip => network fun n => { n with source := some ip })
  |> override env "REMROM_NETWORK__DST" Ipv4Address.parse?
      (fun ip => network fun n => { n with target := some ip })
  |> override env "REMROM_NETWORK__DST_MAC" some
      (fun text => network fun n => { n with targetMac := some text })
  |> override env "REMROM_NETWORK__UDP_PORT" (Text.decimal? (UInt16.size - 1))
      (fun port => network fun n => { n with port := UInt16.ofNat port })
  |> override env "REMROM_NETWORK__CHKSUM_OFFLOAD" (fun text => some (isYes text))
      (fun yes => network fun n => { n with checksumOffload := yes })
  |> override env "REMROM_SERVER__RESIGNAL_INTERVAL_SECS" (Text.decimal? maxWord64)
      (fun seconds c => { c with server := { c.server with resignalInterval := seconds } })
  |> override env "REMROM_CLIENT__REQUEST_ON_STARTUP" (fun text => some (isYes text))
      (fun yes => client fun s => { s with requestOnStartup := yes })
  |> override env "REMROM_CLIENT__MAX_CONTENT_SIZE" (Text.decimal? (UInt32.size - 1))
      (fun size => client fun s => { s with maxContentSize := size })

/-! ## Loading and writing -/

/-- The configuration in a file, or the default one when there is no file. -/
def loadFrom (files : FileTree) (path : FilePath) : Except ConfigError Config := do
  if !files.contains path then return {}
  let text ← (files.readText path).mapError (ConfigError.readFailed path)
  match parse? text with
  | some c => return c
  | none => throw (.parseFailed path)

/-- The configuration of a daemon: file and environment, if it can run with what they say. -/
def load (env : Environment) (files : FileTree) : Except ConfigError Config := do
  let c := (← loadFrom files (filePath env)).withOverrides env
  c.validate.mapError ConfigError.invalid
  return c

/-- The text of a configuration file that says what holds without it. -/
def defaultText : String :=
  let c : Config := {}
  "\n".intercalate [
    "modules = []",
    "",
    "[network]",
    "interface = " ++ Text.quoted c.network.interface,
    "udp_port = " ++ toString c.network.port.toNat,
    "chksum_offload = " ++ toString c.network.checksumOffload,
    "queue_size = " ++ toString c.network.queueSize,
    "",
    "[arp]",
    "retry_interval_ms = " ++ toString c.arp.retryInterval,
    "max_retries = " ++ toString c.arp.maxRetries,
    "",
    "[server]",
    "poll_interval_ms = " ++ toString c.server.pollInterval,
    "resignal_interval_secs = " ++ toString c.server.resignalInterval,
    "",
    "[client]",
    "request_on_startup = " ++ toString c.client.requestOnStartup,
    "max_content_size = " ++ toString c.client.maxContentSize,
    ""]

/-- Write the default configuration file unless there is one; the answer is its path. -/
def writeDefault (env : Environment) : Action ConfigError FileTree FilePath := do
  let path := filePath env
  if (← get).contains path then return path
  (FileTree.writeDeep path (Text.utf8 defaultText)).mapError (ConfigError.writeFailed path)
  return path

end Config

end RomCast
