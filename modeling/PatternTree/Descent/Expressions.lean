import PatternTree.Descent.Groups
import PatternTree.Descent.Quantifiers
import PatternTree.Descent.Sets
import PatternTree.Parse

/-!
Expressions, read token by token: items up to the end of the text or of the group, cut into
alternatives at the bars. The groups among the items are read by a given step, which reads the
expressions inside them in turn.
-/

namespace PatternTree

namespace Descent

/-- Consumes a token that has no meaning here. -/
def skipToken (kind : Diagnostic.Kind) : Descent (Option Item) := do
  let token ← advance
  report kind token.span
  return none

/-- Consumes a character. -/
def character : Descent (Option Item) := do
  match (← advance).character? with
  | some c => return some (.character c)
  | none => throw .notCharacter

/-- Consumes an item without its quantifiers. -/
def atom (group : Descent (Option Item)) : Descent (Option Item) := do
  match (← current).kind with
  | .mark .dollar => return some (.lineEnd (← advance).span)
  | .mark .caret => return some (.lineStart (← advance).span)
  | .mark .dot => return some (.anyCharacter (← advance).span)
  | .mark .openBracket => return some (.set (← set))
  | .mark .openParen => group
  | .mark .closeParen => skipToken .unopenedGroup
  | .mark .question | .mark .star | .mark .plus => skipToken .nothingToRepeat
  | .mark .closeBracket | .mark .openBrace | .mark .closeBrace | .character _ _ | .shorthand _ =>
    character
  | .mark .bar | .invalid | .finish => skipToken .unknownPart

def item (group : Descent (Option Item)) : Descent (Option Item) := do
  match ← atom group with
  | some i => return some (← quantified i)
  | none => return none

/-- An expression as far as it is read. -/
structure Alternatives where
  /-- The alternatives that a bar has ended. -/
  ended : List Branch
  /-- The items of the next one. -/
  items : List Item
  /-- Where that one begins. -/
  start : Nat

def alternativesRound (group : Descent (Option Item)) (inGroup : Bool) (x : Alternatives) :
    Descent (Alternatives ⊕ Alternatives) := do
  let token ← current
  if token.kind = .finish ∨ inGroup ∧ token.kind = .mark .closeParen then return .inr x
  else if token.kind = .mark .bar then
    let span ← spanFrom x.start
    let _ ← advance
    return .inl ⟨x.ended ++ [⟨x.items, span⟩], [], ← position⟩
  else return .inl { x with items := x.items ++ (← item group).toList }

/-- Folds alternatives to the left. -/
def joined : List Branch → Descent Expression
  | [] => throw .noAlternative
  | first :: others => others.foldlM (fun left right =>
      return .alternation left right (← checked (left.span.cover right.span))) (.single first)

/-- Consumes an expression; inside a group its closing parenthesis is left. -/
def expression (group : Descent (Option Item)) (inGroup : Bool) : Descent Expression := do
  let x ← consuming (alternativesRound group inGroup) ⟨[], [], ← position⟩
  joined (x.ended ++ [⟨x.items, ← spanFrom x.start⟩])

/-- Consumes a group. Groups are read inside it as many levels deep as given, and no deeper. -/
def group : Nat → Descent (Option Item)
  | 0 => groupWith (throw .runaway)
  | levels + 1 => groupWith (expression (group levels) true)

/-- Consumes the whole text. -/
def whole : Descent Expression := do
  let e ← expression (group maxDepth) false
  if ← atEnd then return e else throw .stoppedEarly

end Descent

/-- What a pattern is read as, token by token. -/
def Pattern.descend (p : Pattern) : Except Descent.Fault Parsed := do
  let (expression, s) ← Descent.whole.run (.start p)
  return ⟨expression, s.diagnostics⟩

end PatternTree
