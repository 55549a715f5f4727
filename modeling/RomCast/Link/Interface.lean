import RomCast.Files.Tree
import RomCast.Link.Raw
import RomCast.Text.CharClass

set_option autoImplicit false

/-!
# Network interfaces

Opening a raw link: find the interface's index, read its hardware address, create the socket, bind
it.  The first of these that fails is what is reported, with the system's own words as its cause.
-/

namespace RomCast

/-- An interface as the system shows it: its index, and the text of its address file. -/
structure Interface where
  index : UInt32
  address : Option Bytes
  deriving DecidableEq, Inhabited

/-- What the system has to offer, and how it answers when a socket is created and bound. -/
structure Host where
  interfaces : List (String × Interface) := []
  socketError : Option SystemError := none
  bindError : Option SystemError := none
  deriving Inhabited

/-- Why a raw link cannot be opened. -/
inductive OpenError where
  | nulInName (position : Nat)
  | notFound (name : String)
  | unreadableAddress (path : String) (cause : TextFileError)
  | invalidAddress (path text : String)
  | socket (cause : SystemError)
  | bind (name : String) (cause : SystemError)
  deriving DecidableEq, Repr, Inhabited

namespace OpenError

/-- What failed. -/
def message : OpenError → String
  | nulInName _ => "interface name contains null byte"
  | notFound name => "interface '" ++ name ++ "' not found"
  | unreadableAddress path _ => "failed to read " ++ path
  | invalidAddress path _ => "unexpected MAC address in " ++ path
  | socket _ => "failed to create AF_PACKET socket"
  | bind name _ => "failed to bind raw socket to " ++ name

/-- Why it failed. -/
def causes : OpenError → List String
  | nulInName position => ["nul byte found in provided data at position: " ++ toString position]
  | notFound _ => []
  | unreadableAddress _ cause => [cause.message]
  | invalidAddress _ text => ["invalid MAC address: " ++ Text.quoted text]
  | socket cause => [cause.message]
  | bind _ cause => [cause.message]

end OpenError

namespace Host

/-- The index of an interface; a name that holds a zero byte names none. -/
def interfaceIndex (host : Host) (name : String) : Except OpenError UInt32 :=
  match (Text.utf8 name).findIdx? (· = 0) with
  | some position => .error (.nulInName position)
  | none =>
      match host.interfaces.lookup name with
      | some interface =>
          if interface.index = 0 then .error (.notFound name) else .ok interface.index
      | none => .error (.notFound name)

/-- The file that shows an interface's hardware address. -/
def addressPath (name : String) : String := "/sys/class/net/" ++ name ++ "/address"

/-- The text of an interface's address file. -/
def addressText (host : Host) (name : String) : Except TextFileError String :=
  if name.toList.contains '\x00' then .error .nulInPath
  else match (host.interfaces.lookup name).bind Interface.address with
    | none => .error (.system .noEntry)
    | some bytes => textOfBytes bytes

/-- The hardware address of an interface; blanks around it do not count. -/
def interfaceMac (host : Host) (name : String) : Except OpenError Mac := do
  let text ← (host.addressText name).mapError (OpenError.unreadableAddress (addressPath name))
  let text := Text.trim text
  match Mac.parse? text with
  | some mac => return mac
  | none => throw (.invalidAddress (addressPath name) text)

/-- Open a raw link with `queue` transmit buffers. -/
def openLink (host : Host) (name : String) (queue : Nat) : Except OpenError RawLink := do
  let interface ← host.interfaceIndex name
  let mac ← host.interfaceMac name
  if let some cause := host.socketError then throw (.socket cause)
  if let some cause := host.bindError then throw (.bind name cause)
  return { mac, interface := interface.toInt32, pool := TransmitPool.ofCount queue }

end Host

end RomCast
