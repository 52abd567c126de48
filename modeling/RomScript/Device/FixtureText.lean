import RomScript.Device.Fixture
import RomScript.Json.Reader
import RomScript.Text.Number

/-!
# Fixtures as text

A fixture is written as JSON. A record is an object of its fields or an array of
their values in the order of declaration, where trailing fields that have a default
may be left out. A number is a JSON number or a string in any form of a user's
number, and a map's keys are such strings.
-/

set_option autoImplicit false

namespace RomScript

inductive FixtureFault
  | notJson
  | wrongKind (expected : String)
  | number (cause : NumberError)
  | tooLarge (value : Nat)
  | unknownField (name : String)
  | repeatedField (name : String)
  | missingField (name : String)
  | surplusItems (expected : Nat)
  deriving DecidableEq, Repr

def FixtureFault.message : FixtureFault → String
  | .notJson => "the text is not JSON"
  | .wrongKind expected => "expected " ++ expected
  | .number cause => cause.message
  | .tooLarge value => "number " ++ toString value ++ " is too large"
  | .unknownField name => "unknown field " ++ name
  | .repeatedField name => "repeated field " ++ name
  | .missingField name => "missing field " ++ name
  | .surplusItems expected => "more than " ++ toString expected ++ " items"

inductive FixtureError
  | invalid (fault : FixtureFault)
  | outOfRange (cause : RangeError)
  | unreadable (reason : String)
  deriving DecidableEq, Repr

def FixtureError.message : FixtureError → String
  | .invalid fault => "invalid fixture: " ++ fault.message
  | .outOfRange cause => cause.message
  | .unreadable reason => "cannot read fixture: " ++ reason

namespace FixtureText

abbrev Reader (α : Type) := Json → Except FixtureFault α

def number : Reader Nat
  | .natural value => if value < UInt64.size then .ok value else .error (.tooLarge value)
  | .string text => (parseNumber text).mapError .number
  | _ => .error (.wrongKind "a number")

def bool : Reader Bool
  | .bool value => .ok value
  | _ => .error (.wrongKind "true or false")

def list {α : Type} (item : Reader α) : Reader (List α)
  | .array items => items.mapM item
  | _ => .error (.wrongKind "an array")

def map {α : Type} (value : Reader α) : Reader (OrderedMap Nat α)
  | .object fields => do
    let pairs ← fields.mapM fun field => do
      let key ← (parseNumber field.1).mapError FixtureFault.number
      let value ← value field.2
      return (key, value)
    return .ofList pairs
  | _ => .error (.wrongKind "an object")

/-- Refuses names that are not fields and names that come twice. -/
def checkNames (fields : List String) : List String → Except FixtureFault Unit
  | [] => .ok ()
  | name :: rest =>
    if ¬ name ∈ fields then .error (.unknownField name)
    else if name ∈ rest then .error (.repeatedField name)
    else checkNames fields rest

/-- The values of a record by the names of its fields, which are given in order. -/
def record (fields : List String) : Reader (List (String × Json))
  | .array items =>
    if fields.length < items.length then .error (.surplusItems fields.length)
    else .ok (fields.zip items)
  | .object pairs => do
    checkNames fields (pairs.map Prod.fst)
    return pairs
  | _ => .error (.wrongKind "a record")

def required {α : Type} (values : List (String × Json)) (name : String) (read : Reader α) :
    Except FixtureFault α :=
  match values.lookup name with
  | some value => read value
  | none => .error (.missingField name)

def optional {α : Type} (values : List (String × Json)) (name : String) (read : Reader α)
    (default : α) : Except FixtureFault α :=
  match values.lookup name with
  | some value => read value
  | none => .ok default

end FixtureText

namespace Fixture

open FixtureText

def i2cEntry : Reader I2cFixture := fun json => do
  let values ← record ["bus", "addr", "registers", "nak"] json
  let bus ← required values "bus" number
  let addr ← required values "addr" number
  let registers ← optional values "registers" (map number) .empty
  let refuses ← optional values "nak" bool false
  return { bus, addr, registers, refuses }

def auxEntry : Reader AuxFixture := fun json => do
  let values ← record ["bus", "registers"] json
  let bus ← required values "bus" number
  let registers ← optional values "registers" (map number) .empty
  return { bus, registers }

def ofJson : Reader Fixture := fun json => do
  let values ← record
    ["registers", "indexed", "ports", "i2c", "aux", "tmds", "head_tmds", "failing_plls"] json
  let registers ← optional values "registers" (map number) .empty
  let indexed ← optional values "indexed" (map (map number)) .empty
  let ports ← optional values "ports" (map number) .empty
  let i2c ← optional values "i2c" (list i2cEntry) []
  let aux ← optional values "aux" (list auxEntry) []
  let tmds ← optional values "tmds" (map number) .empty
  let headTmds ← optional values "head_tmds" (map (map number)) .empty
  let failingPlls ← optional values "failing_plls" (list number) []
  return { registers, indexed, ports, i2c, aux, tmds, headTmds, failingPlls }

def parse (text : String) : Except FixtureFault Fixture :=
  match Json.parse? text with
  | some json => ofJson json
  | none => .error .notJson

def load (text : String) : Except FixtureError SimulatedDevice :=
  match parse text with
  | .error fault => .error (.invalid fault)
  | .ok fixture => fixture.build.mapError .outOfRange

end Fixture

end RomScript
