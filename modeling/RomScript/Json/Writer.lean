import RomScript.Json.Basic
import RomScript.Text.Hex

/-!
# Writing JSON

Every item and field stands on a line of its own, two blanks further in than the
bracket that opens it. Empty arrays and objects are written without a line break.
-/

set_option autoImplicit false

namespace RomScript

namespace Json

/-- Quotes, backslashes and control characters are escaped, by name where there is one. -/
def escapeChar (c : Char) : String :=
  match c with
  | '"' => "\\\""
  | '\\' => "\\\\"
  | '\n' => "\\n"
  | '\r' => "\\r"
  | '\t' => "\\t"
  | c =>
    if c.toNat = 0x8 then "\\b"
    else if c.toNat = 0xc then "\\f"
    else if c.toNat < 0x20 then "\\u" ++ hex 4 c.toNat
    else String.singleton c

def quote (text : String) : String := "\"" ++ String.join (text.toList.map escapeChar) ++ "\""

def indent (depth : Nat) : String := String.ofList (List.replicate (2 * depth) ' ')

def block (depth : Nat) (left right : String) (lines : List String) : String :=
  if lines.isEmpty then left ++ right
  else
    left ++ "\n" ++ ",\n".intercalate (lines.map fun line => indent (depth + 1) ++ line) ++ "\n" ++
      indent depth ++ right

mutual

def render (depth : Nat) : Json → String
  | .null => "null"
  | .bool value => if value then "true" else "false"
  | .natural value => toString value
  | .number text => text
  | .string text => quote text
  | .array items => block depth "[" "]" (renderItems (depth + 1) items)
  | .object fields => block depth "\x7b" "\x7d" (renderFields (depth + 1) fields)

def renderItems (depth : Nat) : List Json → List String
  | [] => []
  | item :: rest => render depth item :: renderItems depth rest

def renderFields (depth : Nat) : List (String × Json) → List String
  | [] => []
  | field :: rest => (quote field.1 ++ ": " ++ render depth field.2) :: renderFields depth rest

end

def pretty (value : Json) : String := render 0 value

end Json

end RomScript
