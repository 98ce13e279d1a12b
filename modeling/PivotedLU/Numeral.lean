import PivotedLU.Decimal.Basic

/-!
# Numerals

The texts that stand for numbers, and their values.
-/

namespace PivotedLU

/-- Why a text is no number: it is not written like one, or its value does not fit. -/
inductive NumeralError where
  | syntactic
  | range
  deriving DecidableEq, Repr

/-- A number as written, before rounding. -/
inductive Numeral where
  | nan
  | infinity (negative : Bool)
  | decimal (negative : Bool) (value : Decimal)
  | binary (negative : Bool) (coefficient : Nat) (exponent : Int)
  deriving DecidableEq, Repr

namespace Numeral

/-! ## Characters -/

/-- The value of a digit or of a letter used as a digit, `a` being ten. -/
def digitValue (c : Char) : Option Nat :=
  if c.isDigit then some (c.toNat - 48)
  else if 'a' ≤ c ∧ c ≤ 'z' then some (c.toNat - 87)
  else if 'A' ≤ c ∧ c ≤ 'Z' then some (c.toNat - 55)
  else none

/-- A digit of the given base. -/
def digit? (base : Nat) (c : Char) : Option Nat :=
  (digitValue c).filter (· < base)

/-- Splits off a sign. -/
def sign : List Char → Bool × List Char
  | '-' :: rest => (true, rest)
  | '+' :: rest => (false, rest)
  | s => (false, s)

/-! ## Underscores -/

/-- What stood before an underscore. -/
inductive Before where
  | start
  | digit
  | underscore
  | other
  deriving DecidableEq

/-- Every underscore follows a digit and is followed by one. -/
def separates (isDigit : Char → Bool) : Before → List Char → Bool
  | before, [] => before != .underscore
  | before, c :: rest =>
    if isDigit c then separates isDigit .digit rest
    else if c = '_' then before == .digit && separates isDigit .underscore rest
    else before != .underscore && separates isDigit .other rest

/-- Underscores stand between two digits only; a base mark counts as a digit. -/
def underscoresOk (s : List Char) : Bool :=
  match (sign s).2 with
  | '0' :: mark :: rest =>
    if mark = 'x' ∨ mark = 'X' then separates (fun c => (digit? 16 c).isSome) .digit rest
    else if mark = 'b' ∨ mark = 'B' ∨ mark = 'o' ∨ mark = 'O' then
      separates (fun c => c.isDigit) .digit rest
    else separates (fun c => c.isDigit) .start ('0' :: mark :: rest)
  | rest => separates (fun c => c.isDigit) .start rest

/-! ## Mantissa and exponent -/

/-- The digits read so far: their value, how many of them stand after the point, whether there was
a point and whether there was a digit. -/
structure Mantissa where
  coefficient : Nat
  places : Nat
  point : Bool
  digits : Bool
  deriving DecidableEq, Repr

/-- Reads digits with at most one point; underscores are passed over. -/
def mantissa (base : Nat) (m : Mantissa) : List Char → Mantissa × List Char
  | [] => (m, [])
  | c :: rest =>
    if c = '_' then mantissa base m rest
    else if c = '.' ∧ m.point = false then mantissa base { m with point := true } rest
    else
      match digit? base c with
      | some d =>
        mantissa base
          { m with
            coefficient := m.coefficient * base + d
            places := if m.point then m.places + 1 else m.places
            digits := true } rest
      | none => (m, c :: rest)

/-- Reads the digits of an exponent. One that has reached ten thousand is beyond every number and
grows no more. -/
def exponentDigits (e : Nat) : List Char → Nat × List Char
  | [] => (e, [])
  | c :: rest =>
    if c = '_' then exponentDigits e rest
    else
      match digit? 10 c with
      | some d => exponentDigits (if e < 10000 then e * 10 + d else e) rest
      | none => (e, c :: rest)

/-- Reads an optional sign and at least one digit, up to the end. -/
def exponent? (s : List Char) : Option Int :=
  let (negative, rest) := sign s
  match rest with
  | [] => none
  | c :: _ =>
    if c.isDigit then
      match exponentDigits 0 rest with
      | (e, []) => some (if negative then -(e : Int) else e)
      | _ => none
    else none

/-! ## Numbers -/

/-- Reads a mantissa and what may follow it. The exponent of a hexadecimal number counts powers of
two and must be there. -/
def magnitude? (negative : Bool) (s : List Char) : Option Numeral :=
  let hexadecimal : Option (List Char) :=
    match s with
    | '0' :: mark :: rest => if mark = 'x' ∨ mark = 'X' then some rest else none
    | _ => none
  match hexadecimal with
  | some rest =>
    match mantissa 16 ⟨0, 0, false, false⟩ rest with
    | (m, mark :: rest) =>
      if m.digits ∧ (mark = 'p' ∨ mark = 'P') then
        (exponent? rest).map fun e => .binary negative m.coefficient (e - 4 * m.places)
      else none
    | _ => none
  | none =>
    match mantissa 10 ⟨0, 0, false, false⟩ s with
    | (m, []) =>
      if m.digits then some (.decimal negative ⟨m.coefficient, -m.places⟩) else none
    | (m, mark :: rest) =>
      if m.digits ∧ (mark = 'e' ∨ mark = 'E') then
        (exponent? rest).map fun e => .decimal negative ⟨m.coefficient, e - m.places⟩
      else none

/-- Reads a whole text as a number. -/
def read? (s : List Char) : Option Numeral :=
  let lower := s.map Char.toLower
  let (negative, unsigned) := sign lower
  if unsigned = "inf".toList ∨ unsigned = "infinity".toList then some (.infinity negative)
  else if lower = "nan".toList then some .nan
  else if underscoresOk s then magnitude? negative (sign s).2
  else none

/-- The binary64 number nearest to a numeral, a half going to the even mantissa. -/
def toFloat? : Numeral → Option Float
  | .nan => some Binary64.notANumber
  | .infinity negative => some (Binary64.infinity negative)
  | .decimal negative d =>
    if d.coefficient = 0 then Binary64.nearest? negative 0 1 else d.toFloat? negative
  | .binary negative coefficient exponent =>
    let (num, den) := Binary64.scale coefficient 2 exponent
    Binary64.nearest? negative num den

/-- The number a text stands for. -/
def float (s : List Char) : Except NumeralError Float :=
  match read? s with
  | none => .error .syntactic
  | some n =>
    match n.toFloat? with
    | some x => .ok x
    | none => .error .range

/-! ## Integers -/

/-- Adds digits of the given base; passes over underscores; stops as soon as 64 bits are full. -/
def wholeDigits (base n : Nat) : List Char → Except NumeralError Nat
  | [] => .ok n
  | c :: rest =>
    if c = '_' then wholeDigits base n rest
    else
      match digit? base c with
      | none => .error .syntactic
      | some d =>
        let next := n * base + d
        if next < 0x10000000000000000 then wholeDigits base next rest else .error .range

/-- The base that a text announces and the digits after the announcement. -/
def baseOf : List Char → Nat × List Char
  | '0' :: mark :: c :: rest =>
    if mark = 'b' ∨ mark = 'B' then (2, c :: rest)
    else if mark = 'o' ∨ mark = 'O' then (8, c :: rest)
    else if mark = 'x' ∨ mark = 'X' then (16, c :: rest)
    else (8, mark :: c :: rest)
  | '0' :: rest => (8, rest)
  | s => (10, s)

/-- The signed 64-bit integer a text stands for: `0x`, `0o`, `0b` or a leading `0` set the base. -/
def integer (s : List Char) : Except NumeralError Int64 := do
  let (negative, unsigned) := sign s
  if unsigned = [] then throw .syntactic
  let (base, digits) := baseOf unsigned
  let n ← wholeDigits base 0 digits
  if digits.contains '_' ∧ ¬ underscoresOk unsigned then throw .syntactic
  if negative then
    if n ≤ 0x8000000000000000 then return Int64.ofInt (-n) else throw .range
  else if n < 0x8000000000000000 then return Int64.ofInt n
  else throw .range

/-- The truth value a text stands for. -/
def boolean (s : String) : Except NumeralError Bool :=
  if s ∈ ["1", "t", "T", "TRUE", "true", "True"] then .ok true
  else if s ∈ ["0", "f", "F", "FALSE", "false", "False"] then .ok false
  else .error .syntactic

end Numeral

end PivotedLU
