import RomCast.Bytes
import RomCast.Text.Basic

set_option autoImplicit false

/-!
# Content hashes

Every packet carries the hash of the complete content it belongs to, so that a receiver can check
a reassembled transfer before making it visible.  The hash is BLAKE3.
-/

/-! ## BLAKE3

The input is cut into chunks of 1024 bytes, a chunk into blocks of 64.  Each chunk is reduced to a
chaining value, and the chaining values are joined in pairs, level by level, until one node is left;
a value without a partner moves up unchanged.  The last node of all is compressed with the root
flag.

A compression works on a state of four rows of four words: a round mixes the columns, turns the
rows against each other so that the diagonals stand in columns, mixes again and turns back. -/

namespace RomCast.Blake3

/-- Four words side by side. -/
structure Row where
  a : UInt32
  b : UInt32
  c : UInt32
  d : UInt32
  deriving DecidableEq, Repr, Inhabited

namespace Row

/-- Add word by word, modulo `2 ^ 32`. -/
@[inline] def add (x y : Row) : Row := ⟨x.a + y.a, x.b + y.b, x.c + y.c, x.d + y.d⟩

/-- Exclusive or, word by word. -/
@[inline] def xor (x y : Row) : Row := ⟨x.a ^^^ y.a, x.b ^^^ y.b, x.c ^^^ y.c, x.d ^^^ y.d⟩

/-- Rotate one word right by `n` bits, `0 < n < 32`. -/
@[inline] def turnWord (n : UInt32) (w : UInt32) : UInt32 := (w >>> n) ||| (w <<< (32 - n))

/-- Rotate every word right by `n` bits. -/
@[inline] def turn (n : UInt32) (x : Row) : Row :=
  ⟨turnWord n x.a, turnWord n x.b, turnWord n x.c, turnWord n x.d⟩

/-- Move each word one place to the left. -/
@[inline] def shift1 (x : Row) : Row := ⟨x.b, x.c, x.d, x.a⟩

/-- Move each word two places. -/
@[inline] def shift2 (x : Row) : Row := ⟨x.c, x.d, x.a, x.b⟩

/-- Move each word one place to the right. -/
@[inline] def shift3 (x : Row) : Row := ⟨x.d, x.a, x.b, x.c⟩

end Row

/-- A chaining value: eight words. -/
structure Chain where
  high : Row
  low : Row
  deriving DecidableEq, Repr, Inhabited

/-- A message block: sixteen words, in four rows. -/
structure Block where
  w0 : Row
  w1 : Row
  w2 : Row
  w3 : Row
  deriving DecidableEq, Repr, Inhabited

/-- The state of a compression. -/
structure State where
  r0 : Row
  r1 : Row
  r2 : Row
  r3 : Row
  deriving DecidableEq, Repr, Inhabited

/-- The initial chaining value. -/
def initial : Chain :=
  ⟨⟨0x6a09e667, 0xbb67ae85, 0x3c6ef372, 0xa54ff53a⟩,
   ⟨0x510e527f, 0x9b05688c, 0x1f83d9ab, 0x5be0cd19⟩⟩

/-- The order in which the next round takes the message words. -/
def Block.permute (m : Block) : Block :=
  ⟨⟨m.w0.c, m.w1.c, m.w0.d, m.w2.c⟩, ⟨m.w1.d, m.w0.a, m.w1.a, m.w3.b⟩,
   ⟨m.w0.b, m.w2.d, m.w3.a, m.w1.b⟩, ⟨m.w2.b, m.w3.c, m.w3.d, m.w2.a⟩⟩

/-- Mix the four columns, with one pair of message words for each. -/
def State.mix (s : State) (x y : Row) : State :=
  let r0 := (s.r0.add s.r1).add x
  let r3 := (s.r3.xor r0).turn 16
  let r2 := s.r2.add r3
  let r1 := (s.r1.xor r2).turn 12
  let r0 := (r0.add r1).add y
  let r3 := (r3.xor r0).turn 8
  let r2 := r2.add r3
  let r1 := (r1.xor r2).turn 7
  ⟨r0, r1, r2, r3⟩

/-- One round: the columns, then the diagonals. -/
def State.round (s : State) (m : Block) : State :=
  let s := s.mix ⟨m.w0.a, m.w0.c, m.w1.a, m.w1.c⟩ ⟨m.w0.b, m.w0.d, m.w1.b, m.w1.d⟩
  let s : State := ⟨s.r0, s.r1.shift1, s.r2.shift2, s.r3.shift3⟩
  let s := s.mix ⟨m.w2.a, m.w2.c, m.w3.a, m.w3.c⟩ ⟨m.w2.b, m.w2.d, m.w3.b, m.w3.d⟩
  ⟨s.r0, s.r1.shift3, s.r2.shift2, s.r3.shift1⟩

/-- `n` rounds, with the message permuted in between. -/
def State.rounds : Nat → State → Block → State
  | 0, s, _ => s
  | n + 1, s, m => State.rounds n (s.round m) m.permute

/-- What a node of the hash tree is compressed from. -/
structure Node where
  chain : Chain
  block : Block
  counter : UInt64
  length : UInt32
  flags : UInt32
  deriving DecidableEq, Repr, Inhabited

/-- The flag of the first block of a chunk. -/
def chunkStart : UInt32 := 1
/-- The flag of the last block of a chunk. -/
def chunkEnd : UInt32 := 2
/-- The flag of a node that joins two others. -/
def parentFlag : UInt32 := 4
/-- The flag of the last node of the tree. -/
def rootFlag : UInt32 := 8

/-- The chaining value of a node. -/
def Node.compress (n : Node) : Chain :=
  let s : State :=
    ⟨n.chain.high, n.chain.low, initial.high,
     ⟨n.counter.toUInt32, (n.counter >>> 32).toUInt32, n.length, n.flags⟩⟩
  let s := s.rounds 7 n.block
  ⟨s.r0.xor s.r2, s.r1.xor s.r3⟩

/-- The node that joins two chaining values. -/
def Node.join (left right : Chain) : Node :=
  ⟨initial, ⟨left.high, left.low, right.high, right.low⟩, 0, 64, parentFlag⟩

/-! ### Reading blocks -/

/-- The next little-endian word and the bytes behind it; missing bytes count as zero. -/
def word : Bytes → UInt32 × Bytes
  | a :: b :: c :: d :: rest =>
      (a.toUInt32 ||| b.toUInt32 <<< 8 ||| c.toUInt32 <<< 16 ||| d.toUInt32 <<< 24, rest)
  | [a, b, c] => (a.toUInt32 ||| b.toUInt32 <<< 8 ||| c.toUInt32 <<< 16, [])
  | [a, b] => (a.toUInt32 ||| b.toUInt32 <<< 8, [])
  | [a] => (a.toUInt32, [])
  | [] => (0, [])

/-- The next four words. -/
def row (bytes : Bytes) : Row × Bytes :=
  let (a, r) := word bytes
  let (b, r) := word r
  let (c, r) := word r
  let (d, r) := word r
  (⟨a, b, c, d⟩, r)

/-- The block at the front of `bytes`, which are 64 bytes or fewer. -/
def block (bytes : Bytes) : Block :=
  let (w0, r) := row bytes
  let (w1, r) := row r
  let (w2, r) := row r
  let (w3, _) := row r
  ⟨w0, w1, w2, w3⟩

/-- The blocks of a chunk from `bytes` on.  The last one is not compressed: its node is the
chunk's. -/
def chunkFrom (counter : UInt64) : Nat → Chain → UInt32 → Bytes → Node
  | 0, chain, start, bytes =>
      ⟨chain, block bytes, counter, UInt32.ofNat bytes.length, start ||| chunkEnd⟩
  | more + 1, chain, start, bytes =>
      let first := bytes.take 64
      let node : Node := ⟨chain, block first, counter, 64, start⟩
      chunkFrom counter more node.compress 0 (bytes.drop 64)

/-- The node of a chunk of at most 1024 bytes. -/
def chunk (counter : UInt64) (bytes : Bytes) : Node :=
  chunkFrom counter ((bytes.length - 1) / 64) initial chunkStart bytes

/-- The chunks of the input from number `counter` on. -/
def chunksFrom : Nat → UInt64 → Bytes → List Node
  | 0, counter, bytes => [chunk counter bytes]
  | more + 1, counter, bytes =>
      chunk counter (bytes.take 1024) :: chunksFrom more (counter + 1) (bytes.drop 1024)

/-- The chunks of the input; the empty input is one empty chunk. -/
def chunks (bytes : Bytes) : List Node := chunksFrom ((bytes.length - 1) / 1024) 0 bytes

/-! ### The tree -/

/-- Join neighbours into one node each; a node without a partner moves up unchanged. -/
def joinPairs : List Node → List Node
  | a :: b :: rest => Node.join a.compress b.compress :: joinPairs rest
  | short => short

/-- The node at the root of the tree over the given nodes, after at most `levels` levels. -/
def root : Nat → List Node → Node
  | _, [] => default
  | _, [node] => node
  | 0, node :: _ => node
  | levels + 1, nodes => root levels (joinPairs nodes)

/-- The four bytes of a word, the lowest first. -/
def wordBytes (w : UInt32) : Bytes :=
  [w.toUInt8, (w >>> 8).toUInt8, (w >>> 16).toUInt8, (w >>> 24).toUInt8]

/-- The sixteen bytes of a row. -/
def rowBytes (r : Row) : Bytes :=
  wordBytes r.a ++ (wordBytes r.b ++ (wordBytes r.c ++ wordBytes r.d))

/-- The hash of a byte string. -/
def hash (bytes : Bytes) : Octets 32 :=
  let nodes := chunks bytes
  let last := root nodes.length nodes
  let digest := { last with flags := last.flags ||| rootFlag }.compress
  ⟨rowBytes digest.high ++ rowBytes digest.low, rfl⟩

end RomCast.Blake3

/-! ## The hash of a content -/

namespace RomCast

/-- The hash of a module's complete content. -/
abbrev ContentHash : Type := Octets 32

namespace ContentHash

/-- The hash of a content. -/
def of (content : Bytes) : ContentHash := Blake3.hash content

/-- The hash that stands for "none seen yet". -/
def zero : ContentHash := Octets.zero 32

/-- All 64 digits. -/
def render (h : ContentHash) : String := Text.hex h.bytes

/-- The first sixteen digits, for log lines. -/
def short (h : ContentHash) : String := Text.hex (h.bytes.take 8)

end ContentHash

end RomCast
