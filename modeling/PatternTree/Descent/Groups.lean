import PatternTree.Descent
import PatternTree.Expression
import PatternTree.Phrase
import PatternTree.Text.Name

/-!
Groups, read token by token. A name is looked for ahead of the cursor and consumed when all of it is
there. A group that would nest too deeply is passed over with a count of the parentheses inside it.
-/

namespace PatternTree.Descent

-- ═══════════════════════════════════════════════════════════════
-- What follows the opening parenthesis
-- ═══════════════════════════════════════════════════════════════

/-- Whether a character may stand next in a name of which `done` is read. -/
def continuesName (done : List Char) (c : Char) : Bool :=
  if done = [] then Text.isNameStart c else Text.isNamePart c

def nameRound (x : List Char × Token) : Descent ((List Char × Token) ⊕ Option (List Char)) := do
  match x.2.kind with
  | .character c false =>
    if c = '>' ∧ x.1 ≠ [] then return .inr (some x.1)
    else if continuesName x.1 c then return .inl (x.1 ++ [c], ← after x.2)
    else return .inr none
  | _ => return .inr none

/-- The number of characters from the token that is looked at on. -/
def nameLeft (x : List Char × Token) (s : State) : Nat :=
  s.cursor.pattern.length - x.2.span.start

/-- Looks for a name and its closing angle bracket after the current token. Nothing is consumed;
each round looks at a later token. -/
def groupName : Descent (Option (List Char)) := do
  loop nameLeft nameRound ([], ← after (← current))

/-- Reports a question mark that begins no modifier. -/
def unknownModifier (question : Token) : Descent (Option GroupKind) := do
  report .unknownGroupHeader question.span
  return none

/-- A modifier from its angle bracket on. -/
def angled (question : Token) : Descent (Option GroupKind) := do
  let next ← after (← current)
  if next.kind.isBare '=' then
    advanceBy 2
    return some (.look .behind)
  else if next.kind.isBare '!' then
    advanceBy 2
    return some (.look .notBehind)
  else match ← groupName with
    | some name =>
      advanceBy (name.length + 2)
      return some (.named (String.ofList name))
    | none => unknownModifier question

/-- A modifier from its question mark on. -/
def modifier : Descent (Option GroupKind) := do
  let question ← advance
  let kind := (← current).kind
  if kind.isBare ':' then
    advanceBy 1
    return some .grouping
  else if kind.isBare '=' then
    advanceBy 1
    return some (.look .ahead)
  else if kind.isBare '!' then
    advanceBy 1
    return some (.look .notAhead)
  else if kind.isBare '<' then angled question
  else unknownModifier question

/-- What follows the opening parenthesis. -/
def header : Descent (Option GroupKind) := do
  if (← current).kind = .mark .question then modifier else return none

-- ═══════════════════════════════════════════════════════════════
-- Groups that nest too deeply
-- ═══════════════════════════════════════════════════════════════

def skipSetRound (_ : Unit) : Descent (Unit ⊕ Unit) := do
  match (← advance).kind with
  | .mark .closeBracket | .finish => return .inr ()
  | _ => return .inl ()

/-- Passes over a set of which the opening bracket is consumed. -/
def skipSet : Descent Unit := do
  let _ ← eat (.mark .caret)
  consuming skipSetRound ()

def skipRound (opened : Nat) : Descent (Nat ⊕ Unit) := do
  match (← advance).kind with
  | .mark .openParen => return .inl (opened + 1)
  | .mark .closeParen =>
    match opened with
    | 0 => throw .negativeCount
    | 1 => return .inr ()
    | opened + 2 => return .inl (opened + 1)
  | .mark .openBracket =>
    skipSet
    return .inl opened
  | .finish => return .inr ()
  | _ => return .inl opened

/-- Passes over a group and reports it. -/
def skipGroup : Descent (Option Item) := do
  let start ← position
  consuming skipRound 0
  report .groupTooDeep (← spanFrom start)
  return none

-- ═══════════════════════════════════════════════════════════════
-- Groups
-- ═══════════════════════════════════════════════════════════════

/-- Consumes the parenthesis that closes a group, or reports that there is none. -/
def closeGroup (opening : Token) : Descent Unit := do
  if !(← eat (.mark .closeParen)) then report .unclosedGroup opening.span

/-- Consumes a group whose body is read by `body`. -/
def openGroup (body : Descent Expression) : Descent (Option Item) := do
  let opening ← advance
  let kind ← header
  enter maxDepth
  let expression ← body
  leave
  closeGroup opening
  return some (.group (kind.getD .capture) expression (← spanFrom opening.span.start))

/-- Consumes a group, or passes over it where no more groups may nest. -/
def groupWith (body : Descent Expression) : Descent (Option Item) := keepingDepth do
  if (← get).depth = maxDepth then skipGroup else openGroup body

end PatternTree.Descent
