import RomScript.Json.Basic
import RomScript.Text.Number

/-!
# JSON tokens

A text is cut into marks, strings and words, with blanks between them. A word is a
longest run of characters that are no marks, blanks or quotes; it has to be one of
the three names or a number. In a string a backslash escapes one character or
names a sixteen-bit unit, and two surrogate units make one character.
-/

set_option autoImplicit false

namespace RomScript

inductive JsonToken
  | beginArray
  | endArray
  | beginObject
  | endObject
  | colon
  | comma
  | text (value : String)
  | atom (value : Json)
  deriving Repr

namespace JsonToken

/-! ## Strings -/

def escaped? : Char → Option Nat
  | '"' => some 0x22
  | '\\' => some 0x5c
  | '/' => some 0x2f
  | 'b' => some 0x8
  | 'f' => some 0xc
  | 'n' => some 0xa
  | 'r' => some 0xd
  | 't' => some 0x9
  | _ => none

def unit? (a b c d : Char) : Option Nat := do
  let a ← digitValue? 16 a
  let b ← digitValue? 16 b
  let c ← digitValue? 16 c
  let d ← digitValue? 16 d
  return ((a * 16 + b) * 16 + c) * 16 + d

/-- The code points between the quotes, with surrogates for escaped units only. -/
def units? : List Char → Option (List Nat)
  | [] => some []
  | '\\' :: 'u' :: a :: b :: c :: d :: rest => do
    let code ← unit? a b c d
    let codes ← units? rest
    return code :: codes
  | '\\' :: c :: rest => do
    let code ← escaped? c
    let codes ← units? rest
    return code :: codes
  | c :: rest =>
    if c.toNat < 0x20 ∨ c = '\\' then none else (units? rest).map (c.toNat :: ·)

def isHighSurrogate (code : Nat) : Bool := 0xd800 ≤ code && code < 0xdc00

def isLowSurrogate (code : Nat) : Bool := 0xdc00 ≤ code && code < 0xe000

/-- Joins each high surrogate with the low one behind it; one without the other is refused. -/
def joinSurrogates? : List Nat → Option (List Char)
  | [] => some []
  | [code] => if isHighSurrogate code || isLowSurrogate code then none else some [Char.ofNat code]
  | code :: next :: rest =>
    if isHighSurrogate code then
      if isLowSurrogate next then
        (joinSurrogates? rest).map
          (Char.ofNat (0x10000 + (code - 0xd800) * 0x400 + (next - 0xdc00)) :: ·)
      else none
    else if isLowSurrogate code then none
    else (joinSurrogates? (next :: rest)).map (Char.ofNat code :: ·)

def string? (raw : List Char) : Option String :=
  ((units? raw).bind joinSurrogates?).map String.ofList

/-! ## Words -/

def isDigits (text : List Char) : Bool := !text.isEmpty && text.all Char.isDigit

/-- A whole number has no zero in front of other digits. -/
def isWhole (text : List Char) : Bool :=
  isDigits text && (text.length == 1 || text.head? != some '0')

def isExponent : List Char → Bool
  | '+' :: digits => isDigits digits
  | '-' :: digits => isDigits digits
  | digits => isDigits digits

def isExponentMark (c : Char) : Bool := c == 'e' || c == 'E'

def isMagnitude (text : List Char) : Bool :=
  let mantissa := text.takeWhile fun c => !isExponentMark c
  let fraction := mantissa.dropWhile (· != '.')
  isWhole (mantissa.takeWhile (· != '.')) && (fraction.isEmpty || isDigits fraction.tail) &&
    match text.dropWhile fun c => !isExponentMark c with
    | [] => true
    | _ :: exponent => isExponent exponent

def isNumber : List Char → Bool
  | '-' :: magnitude => isMagnitude magnitude
  | magnitude => isMagnitude magnitude

def word? (text : List Char) : Option Json :=
  if text = ['n', 'u', 'l', 'l'] then some .null
  else if text = ['t', 'r', 'u', 'e'] then some (.bool true)
  else if text = ['f', 'a', 'l', 's', 'e'] then some (.bool false)
  else if isWhole text then (positional? 10 0 text).map .natural
  else if isNumber text then some (.number (String.ofList text))
  else none

/-! ## The text as a whole -/

/-- What the characters read last belong to; collected characters are held in reverse. -/
inductive Part
  | none
  | word (reversed : List Char)
  | string (reversed : List Char)
  | escape (reversed : List Char)

def mark? : Char → Option JsonToken
  | '[' => some .beginArray
  | ']' => some .endArray
  | '\x7b' => some .beginObject
  | '\x7d' => some .endObject
  | ':' => some .colon
  | ',' => some .comma
  | _ => none

def isBlank (c : Char) : Bool := c == ' ' || c == '\n' || c == '\r' || c == '\t'

def scan : Part → List Char → Option (List JsonToken)
  | .none, [] => some []
  | .none, c :: rest =>
    if c = '"' then scan (.string []) rest
    else if isBlank c then scan .none rest
    else match mark? c with
      | some token => (scan .none rest).map (token :: ·)
      | none => scan (.word [c]) rest
  | .word reversed, [] => (word? reversed.reverse).map fun value => [.atom value]
  | .word reversed, c :: rest =>
    if c = '"' then do
      let value ← word? reversed.reverse
      let tokens ← scan (.string []) rest
      return .atom value :: tokens
    else if isBlank c then do
      let value ← word? reversed.reverse
      let tokens ← scan .none rest
      return .atom value :: tokens
    else match mark? c with
      | some token => do
        let value ← word? reversed.reverse
        let tokens ← scan .none rest
        return .atom value :: token :: tokens
      | none => scan (.word (c :: reversed)) rest
  | .string _, [] => none
  | .string reversed, c :: rest =>
    if c = '"' then do
      let value ← string? reversed.reverse
      let tokens ← scan .none rest
      return .text value :: tokens
    else if c = '\\' then scan (.escape (c :: reversed)) rest
    else scan (.string (c :: reversed)) rest
  | .escape _, [] => none
  | .escape reversed, c :: rest => scan (.string (c :: reversed)) rest

def ofString? (text : String) : Option (List JsonToken) := scan .none text.toList

end JsonToken

end RomScript
