import RomCast.Text.Basic
import RomCast.Toml.Scan

set_option autoImplicit false

/-!
# TOML numbers

Integers are decimal with an optional sign, or hexadecimal, octal or binary without one, and lie
within 64 bits.  Floats have a fraction, an exponent or both.  Single underscores may stand between
digits.  A decimal number that begins with a zero has no further digits before its fraction.
-/

namespace RomCast.Toml

/-- The digits that follow a first one, without the underscores between them. -/
def moreDigits (isDigit : Char → Bool) : List Char → List Char × List Char
  | '_' :: c :: rest =>
      if isDigit c then
        let (digits, rest) := moreDigits isDigit rest
        (c :: digits, rest)
      else ([], '_' :: c :: rest)
  | c :: rest =>
      if isDigit c then
        let (digits, rest) := moreDigits isDigit rest
        (c :: digits, rest)
      else ([], c :: rest)
  | [] => ([], [])

/-- One or more digits. -/
def digits (isDigit : Char → Bool) : Scan (List Char) := do
  let first ← Scan.one isDigit
  let others ← fun text => some (moreDigits isDigit text)
  return first :: others

/-- A decimal digit. -/
def isDecimal (c : Char) : Bool := '0' ≤ c && c ≤ '9'

/-- Decimal digits of which the first is a zero only when it is alone. -/
def plainDigits : Scan (List Char) := do
  if ← Scan.optional ['0'] then return ['0'] else digits isDecimal

/-- The number that digits write in a base. -/
def valueOf (base : Nat) (digits : List Char) : Nat :=
  (Text.digitsValue? base Text.hexValue? 0 digits).getD 0

/-- A sign; whether it is a minus. -/
def sign : Scan Bool := do
  if ← Scan.optional ['-'] then return true
  let _ ← Scan.optional ['+']
  return false

/-! ## Integers -/

/-- The largest integer. -/
def maxInteger : Int := 9223372036854775807

/-- The smallest integer. -/
def minInteger : Int := -9223372036854775808

/-- The magnitude of an integer.  In no base has a number of 64 bits more than 64 digits, zeros at
its front aside. -/
def magnitude (base : Nat) (digits : List Char) : Scan Int :=
  let significant := digits.dropWhile (· = '0')
  if 64 < significant.length then failure else pure (valueOf base significant : Nat)

/-- An integer, if it is within range. -/
def inRange (n : Int) : Scan Int :=
  if minInteger ≤ n ∧ n ≤ maxInteger then pure n else failure

/-- The bases with a mark of their own. -/
def bases : List (List Char × Nat) := [(['0', 'x'], 16), (['0', 'o'], 8), (['0', 'b'], 2)]

/-- An integer. -/
def integer : Scan Int := fun text =>
  match bases.find? fun entry => entry.1.isPrefixOf text with
  | some (mark, base) =>
      let isDigit (c : Char) : Bool := (Text.hexValue? c).any (· < base)
      (do inRange (← magnitude base (← digits isDigit)) : Scan Int) (text.drop mark.length)
  | none =>
      (do
        let negative ← sign
        let n ← magnitude 10 (← plainDigits)
        inRange (if negative then -n else n) : Scan Int) text

/-! ## Floats -/

/-- How many digits the largest finite double has before its point. -/
def largestDigits : Nat := 309

/-- Whether the number of these digits, with the point moved `e` places to the right, is rounded to
more than the largest finite double, that is, lies at or above the middle between the largest finite
double and the next power of two.  The middle is a whole number, so that no digit behind the point
matters. -/
def overflows (digits : List Char) (e : Int) : Bool :=
  let significant := digits.dropWhile (· = '0')
  let places : Int := significant.length + e
  let whole := significant.take largestDigits
  let middle := (Nat.pow 2 54 - 1) * Nat.pow 2 970
  if significant.isEmpty then false
  else if places = largestDigits then
    decide (middle ≤ valueOf 10 whole * Nat.pow 10 (largestDigits - whole.length))
  else decide (largestDigits < places)

/-- The digits of a fraction, behind its point. -/
def fraction : Scan (List Char) := do
  Scan.char '.'
  digits isDecimal

/-- An exponent's digit counts only if the number that the digits before it write is below this
one, so that an exponent stays below ten times as much. -/
def exponentLimit : Nat := UInt16.size

/-- The magnitude of an exponent. -/
def exponentValue (digits : List Char) : Nat :=
  digits.foldl (fun n c => if n < exponentLimit then n * 10 + valueOf 10 [c] else n) 0

/-- An exponent. -/
def exponent : Scan Int := do
  let _ ← Scan.one fun c => c = 'e' || c = 'E'
  let negative ← sign
  let n : Int := exponentValue (← digits isDecimal)
  return if negative then -n else n

/-- A float in digits.  A positive one must not be too large for a finite double. -/
def decimalFloat : Scan Unit := do
  let negative ← sign
  let whole ← plainDigits
  let fraction ← Scan.maybe fraction
  let power ← Scan.maybe exponent
  if fraction.isNone ∧ power.isNone then failure
  let places := fraction.getD []
  let tooLarge := overflows (whole ++ places) (power.getD 0 - places.length)
  if !negative ∧ tooLarge then failure

/-- Infinity, or what is no number. -/
def specialFloat : Scan Unit := do
  let _ ← sign
  Scan.exactly ['i', 'n', 'f'] <|> Scan.exactly ['n', 'a', 'n']

/-- A float. -/
def float : Scan Unit := decimalFloat <|> specialFloat

end RomCast.Toml
