import PatternTree.Descent
import PatternTree.Phrase.Repetition

/-!
Quantifiers, read token by token. An opening brace is tried as the start of a range; if none is
there, the cursor goes back to the brace.
-/

namespace PatternTree.Descent

/-- A count with one more digit. One that no quantifier can hold is given up for good. -/
def addDigit (count : Option Nat) (c : Char) : Option Nat :=
  match count with
  | some n =>
    let more := 10 * n + (c.toNat - '0'.toNat)
    if more ≤ maxCount then some more else none
  | none => none

def digitsRound (count : Option (Option Nat)) :
    Descent (Option (Option Nat) ⊕ Option (Option Nat)) := do
  match (← current).kind with
  | .character c false =>
    if c.isDigit then
      let _ ← advance
      return .inl (some (addDigit (count.getD (some 0)) c))
    else return .inr count
  | _ => return .inr count

/-- Consumes digits. The answer is `none` if there are none, and `some none` if they write a count
that is too large. -/
def digits : Descent (Option (Option Nat)) := consuming digitsRound none

/-- The least number of repetitions, and the greatest if there is one. -/
abbrev Bounds := UInt32 × Option UInt32

/-- The bounds of a range with two counts. Reversed counts are reported and change places. -/
def ordered (opening : Token) (first second : Nat) : Descent (Option Bounds) := do
  if second < first then
    report .reversedBounds (← spanFrom opening.span.start)
    return some (.ofNat second, some (.ofNat first))
  else return some (.ofNat first, some (.ofNat second))

/-- A range from after its comma on. -/
def rangeTo (opening : Token) (first : Nat) : Descent (Option Bounds) := do
  match ← digits with
  | none => if ← eat (.mark .closeBrace) then return some (.ofNat first, none) else return none
  | some none => return none
  | some (some second) =>
    if ← eat (.mark .closeBrace) then ordered opening first second else return none

/-- A range from after its first count on. -/
def rangeFrom (opening : Token) (first : Nat) : Descent (Option Bounds) := do
  if ← eatChar ',' then rangeTo opening first
  else if ← eat (.mark .closeBrace) then return some (.ofNat first, some (.ofNat first))
  else return none

/-- Consumes a range in braces. Where that fails some of it may be consumed. -/
def range : Descent (Option Bounds) := do
  let opening ← advance
  match ← digits with
  | some (some first) => rangeFrom opening first
  | some none | none => return none

/-- Takes the lazy mark after a quantifier if it is there. -/
def withLazy (bounds : Bounds) : Descent (Option Quantifier) :=
  return some ⟨bounds.1, bounds.2, ← eat (.mark .question)⟩

/-- Consumes a quantifier. Where none begins nothing is consumed. -/
def quantifier : Descent (Option Quantifier) := do
  match (← current).kind with
  | .mark .question =>
    let _ ← advance
    withLazy (0, some 1)
  | .mark .star =>
    let _ ← advance
    withLazy (0, none)
  | .mark .plus =>
    let _ ← advance
    withLazy (1, none)
  | .mark .openBrace =>
    let before := (← get).cursor.snapshot
    match ← range with
    | some bounds => withLazy bounds
    | none =>
      modify fun s => { s with cursor := s.cursor.restore before }
      return none
  | _ => return none

/-- An item with the quantifiers read so far. -/
structure Stack where
  item : Item
  /-- The number of quantifiers that were kept. -/
  kept : Nat
  /-- Where the first one begins that was not. -/
  dropped : Option Nat

def quantifiedRound (x : Stack) : Descent (Stack ⊕ Stack) := do
  let start ← position
  match ← quantifier with
  | none => return .inr x
  | some q =>
    if x.kept = maxStacked then return .inl { x with dropped := x.dropped.or (some start) }
    else
      let span ← spanFrom x.item.span.start
      return .inl { x with item := .quantified x.item q span, kept := x.kept + 1 }

/-- Wraps an item in the quantifiers that follow it, up to the most that it keeps. -/
def quantified (item : Item) : Descent Item := do
  let x ← consuming quantifiedRound ⟨item, 0, none⟩
  match x.dropped with
  | some start =>
    report .tooManyQuantifiers (← spanFrom start)
    return x.item
  | none => return x.item

end PatternTree.Descent
