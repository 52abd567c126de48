import RomScript.Text.Blank

/-!
# Numbers as users write them

An unsigned number below `2 ^ 64` is written in decimal, behind `0x` in base
sixteen, or behind `0b` in base two. Underscores between the digits carry no
meaning, and one plus sign may stand before the first digit. The mark is read
before underscores are dropped and before the sign.
-/

set_option autoImplicit false

namespace RomScript

inductive NumberError
  | empty
  | invalid (text : String)
  deriving DecidableEq, Repr

def NumberError.message : NumberError → String
  | .empty => "empty number"
  | .invalid text => "invalid number `" ++ text ++ "`"

/-- The value of a digit, letters in either case, if it is one of the first `base`. -/
def digitValue? (base : Nat) (c : Char) : Option Nat :=
  let value :=
    if '0' ≤ c ∧ c ≤ '9' then some (c.toNat - '0'.toNat)
    else if 'a' ≤ c ∧ c ≤ 'z' then some (c.toNat - 'a'.toNat + 10)
    else if 'A' ≤ c ∧ c ≤ 'Z' then some (c.toNat - 'A'.toNat + 10)
    else none
  value.filter (· < base)

/-- Reads digits behind the digits already read, whose value is `acc`. -/
def positional? (base : Nat) : Nat → List Char → Option Nat
  | acc, [] => some acc
  | acc, c :: rest => (digitValue? base c).bind fun d => positional? base (acc * base + d) rest

/-- One or more digits, with at most one plus sign in front. -/
def unsigned? (base : Nat) : List Char → Option Nat
  | [] => none
  | ['+'] => none
  | '+' :: rest => positional? base 0 rest
  | digits => positional? base 0 digits

def splitBase : List Char → Nat × List Char
  | '0' :: 'x' :: rest => (16, rest)
  | '0' :: 'X' :: rest => (16, rest)
  | '0' :: 'b' :: rest => (2, rest)
  | '0' :: 'B' :: rest => (2, rest)
  | text => (10, text)

def parseNumber (text : String) : Except NumberError Nat :=
  match trimBlank text.toList with
  | [] => .error .empty
  | trimmed =>
    let marked := splitBase trimmed
    match unsigned? marked.1 (marked.2.filter (· ≠ '_')) with
    | some value => if value < UInt64.size then .ok value else .error (.invalid text)
    | none => .error (.invalid text)

theorem positional?_append (base acc : Nat) (front back : List Char) :
    positional? base acc (front ++ back) =
      (positional? base acc front).bind fun value => positional? base value back := by
  induction front generalizing acc with
  | nil => rfl
  | cons c front ih =>
    simp only [List.cons_append, positional?]
    cases digitValue? base c with
    | none => rfl
    | some d => exact ih _

end RomScript
