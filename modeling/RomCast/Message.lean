import RomCast.Cursor
import RomCast.ModuleName

set_option autoImplicit false

/-!
# Messages

Three kinds of packet travel between a server and its clients.  A signal says that a module's
content changed; an update asks for the content; data carries one fragment of it.

Fragments are decoded leniently and checked afterwards (`Fragment.validate`), so that a receiver can
still tell to which transfer a malformed fragment belongs.
-/

namespace RomCast

/-- The largest payload of a fragment. -/
def maxPayload : Nat := 1024

/-- The kinds of packet. -/
inductive PacketKind where
  | signal
  | update
  | data
  deriving DecidableEq, Repr, Inhabited

namespace PacketKind

/-- The number that stands for a kind on the wire. -/
def toWord : PacketKind → UInt32
  | signal => 1
  | update => 2
  | data => 3

/-- The kind that a number stands for. -/
def ofWord? (w : UInt32) : Option PacketKind :=
  if w = 1 then some signal else if w = 2 then some update else if w = 3 then some data else none

/-- The name of a kind. -/
def name : PacketKind → String
  | signal => "Signal"
  | update => "Update"
  | data => "Data"

theorem ofWord?_toWord (k : PacketKind) : ofWord? k.toWord = some k := by cases k <;> rfl

end PacketKind

/-- Why a packet is refused. -/
inductive PacketError where
  | guarded (cause : GuardError)
  | unknownKind (word : UInt32)
  | invalidName (cause : ModuleName.Invalid)
  | payloadTooLarge (declared : Nat)
  | truncatedPayload (declared present : Nat)
  | outOfBounds (offset : UInt32) (length : Nat) (contentSize : UInt32)
  deriving DecidableEq, Repr, Inhabited

/-- The wording of a refused packet. -/
def PacketError.message : PacketError → String
  | guarded cause => cause.message
  | unknownKind word => "unknown packet type: " ++ toString word.toNat
  | invalidName cause => cause.message
  | payloadTooLarge declared =>
      "payload size " ++ toString declared ++ " exceeds maximum " ++ toString maxPayload
  | truncatedPayload declared present =>
      "payload truncated: declared " ++ toString declared ++ ", present " ++ toString present
  | outOfBounds offset length contentSize =>
      "fragment " ++ toString offset.toNat ++ "+" ++ toString length ++
        " exceeds content size " ++ toString contentSize.toNat

/-! ## Fragments -/

/-- One fragment of a content, as found on the wire. -/
structure Fragment where
  contentSize : UInt32
  offset : UInt32
  /-- The declared length of the payload. -/
  payloadSize : UInt16
  /-- The bytes that are present. -/
  payload : Bytes
  deriving DecidableEq, Inhabited

namespace Fragment

/-- Where the fragment ends within the content, by its declared length. -/
def stop (f : Fragment) : Nat := f.offset.toNat + f.payloadSize.toNat

/-- Whether the fragment reaches the end of the content. -/
def isLast (f : Fragment) : Bool := f.contentSize.toNat ≤ f.stop

/-- A fragment is well-formed when its payload is not too long, complete, and within the content. -/
def validate (f : Fragment) : Except PacketError Unit :=
  let declared := f.payloadSize.toNat
  if maxPayload < declared then .error (.payloadTooLarge declared)
  else if f.payload.length < declared then
    .error (.truncatedPayload declared f.payload.length)
  else if f.contentSize.toNat < f.stop then
    .error (.outOfBounds f.offset declared f.contentSize)
  else .ok ()

end Fragment

/-! ## Decoding -/

/-- What a packet says about its module. -/
inductive MessageBody where
  | signal
  | update
  | data (fragment : Fragment)
  deriving DecidableEq, Inhabited

/-- The kind of a packet. -/
def MessageBody.kind : MessageBody → PacketKind
  | signal => .signal
  | update => .update
  | data _ => .data

/-- A decoded packet. -/
structure Message where
  module : ModuleName
  contentHash : ContentHash
  body : MessageBody
  deriving DecidableEq

namespace Message

/-- Decode a packet: the header, the name, the kind, and for data the fragment.  Bytes behind the
declared payload are ignored. -/
def decode (payload : Bytes) : Except PacketError Message := do
  let guarded {α : Type} (x : Except GuardError α) : Except PacketError α :=
    x.mapError PacketError.guarded
  let header ← guarded (Reader.readFront PacketHeader payload)
  let module ← (ModuleName.ofField header.moduleName).mapError PacketError.invalidName
  let body ← match PacketKind.ofWord? header.kind with
    | none => .error (.unknownKind header.kind)
    | some .signal => pure .signal
    | some .update => pure .update
    | some .data => do
        let reader : Reader := ⟨payload, Header.size PacketHeader⟩
        let fragment ← guarded ((Reader.read FragmentHeader).result reader)
        let rest := payload.drop (Header.size PacketHeader + Header.size FragmentHeader)
        pure (.data
          { contentSize := fragment.contentSize
            offset := fragment.offset
            payloadSize := fragment.payloadSize
            payload := rest.take fragment.payloadSize.toNat })
  return ⟨module, header.contentHash, body⟩

end Message

/-! ## Encoding -/

/-- The header of a packet. -/
def packetHeader (kind : PacketKind) (module : ModuleName) (hash : ContentHash) : PacketHeader :=
  ⟨module.toField, hash, kind.toWord⟩

/-- Write a signal or an update. -/
def encodeControl (kind : PacketKind) (module : ModuleName) (hash : ContentHash) :
    Action GuardError Writer Unit :=
  Writer.put (packetHeader kind module hash)

/-- What fills a payload: given the bytes of its place, the bytes to write at their front and the
number of bytes it claims to have written. -/
abbrev Fill : Type := Bytes → Bytes × Nat

/-- Write a fragment whose payload `fill` produces within at most `room` bytes (and never more than
`maxPayload`); the answer is the length of the payload.  The fragment's header is written last,
when that length is known. -/
def encodeData (module : ModuleName) (hash : ContentHash) (contentSize offset : UInt32)
    (room : Nat) (fill : Fill) : Action GuardError Writer Nat := do
  Writer.put (packetHeader .data module hash)
  let start ← Writer.reserve (Header.size FragmentHeader)
  let capacity := min room maxPayload
  let w ← get
  if w.remaining < capacity then throw (w.refusal capacity)
  let (bytes, claimed) := fill (w.tail.take capacity)
  Writer.fillTail (bytes.take capacity)
  let written := min claimed capacity
  Writer.advance written
  Writer.patch start (Header.encode
    ({ contentSize, offset, payloadSize := UInt16.ofNat written } : FragmentHeader))
  return written

end RomCast
