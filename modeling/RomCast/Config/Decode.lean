import RomCast.Config.Basic
import RomCast.Toml.Document

set_option autoImplicit false

/-!
# Configurations as documents

A configuration is a TOML document with a table for each section and an array of tables for the
modules.  What a document leaves out has its default, and keys that mean nothing are ignored.  A
section may also be written as an array of its values in a fixed order, or as a date, which says
nothing about any of them.
-/

namespace RomCast

namespace Toml.Value

/-- The values that a section gives for keys, each of which it may leave out. -/
def fields? (keys : List String) : Value → Option (List (Option Value))
  | .table _ entries => some (keys.map (Entries.find? entries))
  | .array items => some ((List.range keys.length).map fun i => items[i]?)
  | .tables earlier last =>
      let items := (last :: earlier).reverse.map (Value.table .header)
      some ((List.range keys.length).map fun i => items[i]?)
  | .datetime => some (keys.map fun _ => none)
  | _ => none

/-- The values of an array, whichever way it is written. -/
def items? : Value → Option (List Value)
  | .array items => some items
  | .tables earlier last => some ((last :: earlier).reverse.map (Value.table .header))
  | _ => none

/-- A text. -/
def text? : Value → Option String
  | .string text => some text
  | _ => none

/-- Yes or no. -/
def flag? : Value → Option Bool
  | .boolean value => some value
  | _ => none

/-- A number from 0 to `limit`. -/
def number? (limit : Nat) : Value → Option Nat
  | .integer n => if 0 ≤ n ∧ n ≤ limit then some n.toNat else none
  | _ => none

/-- An IPv4 address. -/
def address? (value : Value) : Option Ipv4Address := do Ipv4Address.parse? (← value.text?)

end Toml.Value

open Toml (Value)

/-- A field that may be left out. -/
def fieldOr {α : Type} (default : α) (read : Value → Option α) : Option Value → Option α
  | none => some default
  | some value => read value

/-- The largest number of 64 bits. -/
def maxWord64 : Nat := UInt64.size - 1

namespace NetworkConfig

/-- The keys of the section, in order. -/
def keys : List String :=
  ["interface", "src", "dst", "dst_mac", "udp_port", "chksum_offload", "queue_size"]

/-- The section that a value writes. -/
def decode? (value : Value) : Option NetworkConfig := do
  let unset : NetworkConfig := {}
  match ← value.fields? keys with
  | [interface, source, target, targetMac, port, offload, queue] =>
      return {
        interface := ← fieldOr unset.interface Value.text? interface
        source := ← fieldOr none (fun v => v.address?.map some) source
        target := ← fieldOr none (fun v => v.address?.map some) target
        targetMac := ← fieldOr none (fun v => v.text?.map some) targetMac
        port := UInt16.ofNat (← fieldOr unset.port.toNat (Value.number? (UInt16.size - 1)) port)
        checksumOffload := ← fieldOr unset.checksumOffload Value.flag? offload
        queueSize := ← fieldOr unset.queueSize (Value.number? maxWord64) queue }
  | _ => none

end NetworkConfig

namespace ArpConfig

/-- The keys of the section, in order. -/
def keys : List String := ["retry_interval_ms", "max_retries"]

/-- The section that a value writes. -/
def decode? (value : Value) : Option ArpConfig := do
  let unset : ArpConfig := {}
  match ← value.fields? keys with
  | [interval, retries] =>
      return {
        retryInterval := ← fieldOr unset.retryInterval (Value.number? maxWord64) interval
        maxRetries := ← fieldOr unset.maxRetries (Value.number? (UInt32.size - 1)) retries }
  | _ => none

end ArpConfig

namespace ServerConfig

/-- The keys of the section, in order. -/
def keys : List String := ["poll_interval_ms", "resignal_interval_secs"]

/-- The section that a value writes. -/
def decode? (value : Value) : Option ServerConfig := do
  let unset : ServerConfig := {}
  match ← value.fields? keys with
  | [poll, resignal] =>
      return {
        pollInterval := ← fieldOr unset.pollInterval (Value.number? maxWord64) poll
        resignalInterval := ← fieldOr unset.resignalInterval (Value.number? maxWord64) resignal }
  | _ => none

end ServerConfig

namespace ClientConfig

/-- The keys of the section, in order. -/
def keys : List String := ["request_on_startup", "max_content_size"]

/-- The section that a value writes. -/
def decode? (value : Value) : Option ClientConfig := do
  let unset : ClientConfig := {}
  match ← value.fields? keys with
  | [request, size] =>
      return {
        requestOnStartup := ← fieldOr unset.requestOnStartup Value.flag? request
        maxContentSize :=
          ← fieldOr unset.maxContentSize (Value.number? (UInt32.size - 1)) size }
  | _ => none

end ClientConfig

namespace ModuleConfig

/-- The keys of a module, in order. -/
def keys : List String := ["name", "path", "binary", "default"]

/-- The module that a value writes. -/
def decode? (value : Value) : Option ModuleConfig := do
  match ← value.fields? keys with
  | [name, path, binary, default] =>
      return {
        name := ← fieldOr "" Value.text? name
        path := ← fieldOr none (fun v => v.text?.map fun text => some ⟨text⟩) path
        binary := ← fieldOr false Value.flag? binary
        default := ← fieldOr none (fun v => v.text?.map some) default }
  | _ => none

end ModuleConfig

namespace Config

/-- The keys of a configuration, in order. -/
def keys : List String := ["network", "arp", "server", "client", "modules"]

/-- The configuration that a value writes. -/
def decode? (value : Value) : Option Config := do
  match ← value.fields? keys with
  | [network, arp, server, client, modules] =>
      return {
        network := ← fieldOr {} NetworkConfig.decode? network
        arp := ← fieldOr {} ArpConfig.decode? arp
        server := ← fieldOr {} ServerConfig.decode? server
        client := ← fieldOr {} ClientConfig.decode? client
        modules := ← fieldOr [] (fun v => do (← v.items?).mapM ModuleConfig.decode?) modules }
  | _ => none

/-- The configuration that a text writes. -/
def parse? (text : String) : Option Config := do decode? (.table .header (← Toml.parse? text))

end Config

end RomCast
