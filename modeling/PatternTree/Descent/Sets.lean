import PatternTree.Descent
import PatternTree.Expression

/-!
Character sets, read token by token. A dash is part of a range only if the token after it may end
one, so the reading looks one token past the dash.
-/

namespace PatternTree

/-- The character a token stands for. A structural one stands for what it was written as. -/
def Token.character? (t : Token) : Option Character :=
  match t.kind with
  | .character c _ => some ⟨.literal c, t.span⟩
  | .shorthand s => some ⟨.shorthand s, t.span⟩
  | kind => kind.structural?.map fun c => ⟨.literal c, t.span⟩

/-- Whether a dash before the token joins it to the character before the dash. -/
def Token.Kind.endsRange : Token.Kind → Bool
  | mark .openBracket | mark .closeBracket | finish | invalid => false
  | _ => true

namespace Descent

/-- Consumes one character of a set, where `\b` is a backspace. -/
def setCharacter : Descent (Option Character) := do
  let token ← advance
  if token.kind = .shorthand .wordBoundary then
    return some ⟨.literal Control.backspace, token.span⟩
  else match token.character? with
    | some c => return some c
    | none =>
      report .unknownPart token.span
      return none

/-- Whether a range goes on: a bare dash, and after it a token that may end a range. -/
def rangeGoesOn : Descent Bool := do
  let dash ← current
  if dash.kind.isBare '-' then return (← after dash).kind.endsRange else return false

/-- The range between two characters that were consumed. The ends of a reversed range change
places. -/
def rangeBetween (first last : Character) : Descent Member := do
  let span ← checked (first.span.cover last.span)
  match first.glyph, last.glyph with
  | .literal c, .literal d =>
    if d < c then
      report .reversedRange span
      return .range last first span
    else return .range first last span
  | _, _ => return .range first last span

/-- Consumes a character or a range of characters. -/
def member : Descent (Option Member) := do
  match ← setCharacter with
  | none => return none
  | some first =>
    if ← rangeGoesOn then
      let _ ← advance
      match ← setCharacter with
      | none => throw .noRangeEnd
      | some last => return some (← rangeBetween first last)
    else return some (.single first)

def setRound (opening : Token) (members : List Member) :
    Descent (List Member ⊕ List Member) := do
  match (← current).kind with
  | .mark .closeBracket =>
    let _ ← advance
    return .inr members
  | .finish =>
    report .unclosedSet opening.span
    return .inr members
  | _ => return .inl (members ++ (← member).toList)

/-- Consumes a set from its opening bracket on. -/
def set : Descent CharSet := do
  let opening ← advance
  let inverted ← eat (.mark .caret)
  let members ← consuming (setRound opening) []
  return ⟨inverted, members, ← spanFrom opening.span.start⟩

end Descent

end PatternTree
