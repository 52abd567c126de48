/-!
# JSON values

Numbers that are written without sign, fraction and exponent are naturals of any
size; all others keep their text. An object keeps its fields in order and may hold
a key more than once.
-/

set_option autoImplicit false

namespace RomScript

inductive Json
  | null
  | bool (value : Bool)
  | natural (value : Nat)
  | number (text : String)
  | string (text : String)
  | array (items : List Json)
  | object (fields : List (String × Json))
  deriving Inhabited, Repr

end RomScript
