import RomCast.Text.Basic
import RomCast.Toml.Scan

set_option autoImplicit false

/-!
# TOML strings

Four forms: between double quotes with escapes or between apostrophes without, each on one line or,
between tripled quotes, on several.  Line ends within a string count as line feeds, and one right
behind the opening quotes does not count at all.  A string on several lines may end in up to two
quotes of its own.
-/

namespace RomCast.Toml

/-- A character that stands for itself in any string: a tab, and everything that is no control. -/
def isStringChar (c : Char) : Bool := c = '\t' || (' ' ≤ c && c ≠ '\x7f')

/-- A character that stands for itself between double quotes. -/
def isBasicChar (c : Char) : Bool := isStringChar c && c ≠ '"' && c ≠ '\\'

/-- A character that stands between apostrophes. -/
def isLiteralChar (c : Char) : Bool := isStringChar c && c ≠ '\''

/-- The character with a code point, unless it is half of a pair or out of range. -/
def scalar? (code : Nat) : Option Char := if code.isValidChar then some (Char.ofNat code) else none

/-- A code point in exactly `n` hexadecimal digits. -/
def codePoint (n : Nat) : Scan Char := fun text =>
  let digits := text.take n
  if digits.length < n then none
  else do
    let code ← Text.digitsValue? 16 Text.hexValue? 0 digits
    return (← scalar? code, text.drop n)

/-- What follows a backslash. -/
def escaped : Scan Char := do
  match ← Scan.one fun _ => true with
  | 'b' => return '\x08'
  | 't' => return '\t'
  | 'n' => return '\n'
  | 'f' => return '\x0c'
  | 'r' => return '\r'
  | '"' => return '"'
  | '\\' => return '\\'
  | 'u' => codePoint 4
  | 'U' => codePoint 8
  | _ => failure

/-- A backslash and what it stands for. -/
def escapeSequence : Scan Char := do
  Scan.char '\\'
  escaped

/-- A string between double quotes, on one line. -/
def basicString : Scan (List Char) := do
  Scan.char '"'
  let content ← Scan.many (Scan.one isBasicChar <|> escapeSequence)
  Scan.char '"'
  return content

/-- A string between apostrophes, on one line. -/
def literalString : Scan (List Char) := do
  Scan.char '\''
  let content ← Scan.takeWhile isLiteralChar
  Scan.char '\''
  return content

/-- A backslash at the end of a line, with all blanks and line ends behind it: nothing. -/
def joinedLines : Scan (List Char) := do
  Scan.char '\\'
  space
  lineEnd
  let _ ← Scan.many (lineEnd <|> do let _ ← Scan.one isSpace)
  return []

/-- One or two quotes that are followed by something else. -/
def innerQuotes (quote : Char) : Scan (List Char) := fun text =>
  let quotes := text.takeWhile (· = quote)
  if quotes.length = 1 ∨ quotes.length = 2 then some (quotes, text.drop quotes.length) else none

/-- The quotes that a string on several lines ends in: three that close it, behind up to two of its
own. -/
def closingQuotes (quote : Char) : Scan (List Char) := fun text =>
  let own := min 2 ((text.takeWhile (· = quote)).length - 3)
  let quotes := List.replicate (own + 3) quote
  if quotes.isPrefixOf text then some (quotes.take own, text.drop quotes.length) else none

/-- A string on several lines, made of pieces. -/
def longString (quote : Char) (piece : Scan (List Char)) : Scan (List Char) := do
  Scan.exactly [quote, quote, quote]
  let _ ← Scan.maybe lineEnd
  let pieces ← Scan.many (innerQuotes quote <|> (do lineEnd; return ['\n']) <|> piece)
  let ending ← closingQuotes quote
  return pieces.flatten ++ ending

/-- A string on several lines with escapes. -/
def longBasicString : Scan (List Char) :=
  longString '"' ((do return [← Scan.one isBasicChar]) <|> joinedLines <|>
    do return [← escapeSequence])

/-- A string on several lines without escapes. -/
def longLiteralString : Scan (List Char) :=
  longString '\'' do return [← Scan.one isLiteralChar]

/-- A string of any form; tripled quotes always open a string on several lines. -/
def anyString : Scan String := fun text => do
  let scan :=
    if ['"', '"', '"'].isPrefixOf text then longBasicString
    else if ['\'', '\'', '\''].isPrefixOf text then longLiteralString
    else basicString <|> literalString
  let (content, rest) ← scan text
  return (String.ofList content, rest)

end RomCast.Toml
