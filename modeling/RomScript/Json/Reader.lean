import RomScript.Json.Token

/-!
# Reading JSON

A text is read with one pass over its tokens and a stack of the arrays and objects
that are still open. Only a single value with nothing behind it is accepted.
-/

set_option autoImplicit false

namespace RomScript

namespace Json

/-- An array or object whose end has not been read; what it holds so far is in reverse. -/
inductive Frame
  | items (before : List Json)
  | fields (before : List (String × Json)) (key : String)

/-- What may come next. An array or object may be closed at once only if it is empty. -/
inductive Expect
  | value (emptyArray : Bool)
  | key (before : List (String × Json))
  | anotherKey (before : List (String × Json))
  | colon (before : List (String × Json)) (key : String)
  | rest (value : Json)

def assemble? : Expect → List Frame → List JsonToken → Option Json
  | .rest value, [], [] => some value
  | .rest value, .items before :: stack, .comma :: tokens =>
    assemble? (.value false) (.items (value :: before) :: stack) tokens
  | .rest value, .items before :: stack, .endArray :: tokens =>
    assemble? (.rest (.array (value :: before).reverse)) stack tokens
  | .rest value, .fields before key :: stack, .comma :: tokens =>
    assemble? (.anotherKey ((key, value) :: before)) stack tokens
  | .rest value, .fields before key :: stack, .endObject :: tokens =>
    assemble? (.rest (.object ((key, value) :: before).reverse)) stack tokens
  | .value _, stack, .atom value :: tokens => assemble? (.rest value) stack tokens
  | .value _, stack, .text value :: tokens => assemble? (.rest (.string value)) stack tokens
  | .value _, stack, .beginArray :: tokens => assemble? (.value true) (.items [] :: stack) tokens
  | .value _, stack, .beginObject :: tokens => assemble? (.key []) stack tokens
  | .value true, .items _ :: stack, .endArray :: tokens =>
    assemble? (.rest (.array [])) stack tokens
  | .key before, stack, .text key :: tokens => assemble? (.colon before key) stack tokens
  | .key _, stack, .endObject :: tokens => assemble? (.rest (.object [])) stack tokens
  | .anotherKey before, stack, .text key :: tokens => assemble? (.colon before key) stack tokens
  | .colon before key, stack, .colon :: tokens =>
    assemble? (.value false) (.fields before key :: stack) tokens
  | _, _, _ => none

def parse? (text : String) : Option Json :=
  (JsonToken.ofString? text).bind (assemble? (.value false) [])

end Json

end RomScript
