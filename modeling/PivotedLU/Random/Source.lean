import PivotedLU.Random.Table

/-!
# Random source

An additive lagged recurrence on 607 words with lag 273, started from a seed.
-/

namespace PivotedLU.Random

/-- The number of words in the recurrence. -/
def length : Nat := 607

/-- The lag of the recurrence. -/
def lag : Nat := 273

/-- The modulus of the generator that fills the start values. -/
def modulus : Nat := 2147483647

/-- The words and the two places that the next number adds up. -/
structure Source where
  words : Array UInt64
  tap : Nat
  feed : Nat

/-- One step of the multiplicative generator that fills the start values. -/
def seedStep (x : Nat) : Nat :=
  48271 * x % modulus

/-- One start value from three steps of the generator. -/
def startWord (x : Nat) : UInt64 × Nat :=
  let a := seedStep x
  let b := seedStep a
  let c := seedStep b
  ((UInt64.ofNat a <<< 40) ^^^ (UInt64.ofNat b <<< 20) ^^^ UInt64.ofNat c, c)

/-- The generator's start for a seed; it is never zero. -/
def startSeed (seed : Int64) : Nat :=
  let reduced := (seed.toInt % (modulus : Int)).toNat
  if reduced = 0 then 89482311 else reduced

/-- The source for a seed. -/
def Source.ofSeed (seed : Int64) : Source :=
  let warm := Nat.repeat seedStep 20 (startSeed seed)
  let (words, _) := table.foldl (fun (words, x) start =>
    let (word, x) := startWord x
    (words.push (word ^^^ start), x)) ((#[] : Array UInt64), warm)
  ⟨words, 0, length - lag⟩

/-- The place before a place, around the end. -/
def before (i : Nat) : Nat :=
  if i = 0 then length - 1 else i - 1

/-- The next word. -/
def Source.next (s : Source) : UInt64 × Source :=
  let tap := before s.tap
  let feed := before s.feed
  let word := s.words.getD feed 0 + s.words.getD tap 0
  (word, ⟨s.words.setIfInBounds feed word, tap, feed⟩)

/-- The next number in `[0, 1)`: 63 bits of a word as a fraction; one that rounds up to one is drawn
again. Drawing again without limit need not come to an end, so after `tries` numbers in a row that
round up to one this gives up with zero; a draw without limit would go on. -/
def Source.unit : (tries : Nat) → Source → Float × Source
  | 0, s => (0, s)
  | tries + 1, s =>
    let (word, s) := s.next
    let x := (word &&& 0x7fffffffffffffff).toFloat / 9223372036854775808
    if x == 1 then s.unit tries else (x, s)

/-- `count` entries `1 + 2 (1 - u / 2)` for the next numbers `u`, after those already there. -/
def entries : (count : Nat) → Source → Array Float → Array Float
  | 0, _, drawn => drawn
  | count + 1, s, drawn =>
    let (u, s) := s.unit 1000
    entries count s (drawn.push (1 + 2 * (1 - 0.5 * u)))

end PivotedLU.Random
