import PatternTree.Cursor
import PatternTree.Diagnostic

/-!
Descent: reading a pattern token by token with a cursor. Nothing is known beforehand about where a
step ends, so each step checks what it relies on: that spans are in order, that counters stay within
their bounds, that a loop gets on with every round. A step that finds a check to fail has no answer
but a fault.
-/

namespace PatternTree

namespace Descent

/-- What never happens while a pattern is read. -/
inductive Fault
  /-- A span would end before it starts. -/
  | span (fault : Span.Fault)
  /-- Tokens are left that nobody consumed. -/
  | stoppedEarly
  /-- An expression has no alternative. -/
  | noAlternative
  /-- A token that should be a character stands for none. -/
  | notCharacter
  /-- Nothing stands after the dash of a range. -/
  | noRangeEnd
  /-- A counter would fall below zero. -/
  | negativeCount
  /-- More groups are open than may nest. -/
  | depthExceeded
  /-- The depth after a group is not the depth before it. -/
  | depthChanged
  /-- A round of a loop did not get on. -/
  | stalled
  /-- Groups are read inside one another more levels deep than they may nest. -/
  | runaway
deriving DecidableEq

structure State where
  cursor : Cursor
  diagnostics : List Diagnostic
  /-- The number of groups around the current token. -/
  depth : Nat

namespace State

def start (p : Pattern) : State := ⟨.start p, [], 0⟩

/-- The number of characters that are not consumed yet. -/
def remaining (s : State) : Nat := s.cursor.pattern.length - s.cursor.consumed

end State

end Descent

/-- A step of the descent: it moves the cursor, reports what is wrong, and answers or faults. -/
abbrev Descent (α : Type) := StateT Descent.State (Except Descent.Fault) α

namespace Descent

variable {α β σ : Type}

/-- The answer of a checked operation on spans. -/
def checked : Except Span.Fault α → Descent α
  | .ok a => pure a
  | .error fault => throw (.span fault)

-- ═══════════════════════════════════════════════════════════════
-- Tokens
-- ═══════════════════════════════════════════════════════════════

/-- The token that starts at a position. -/
def tokenAt (position : Nat) : Descent Token := do
  let token := (← get).cursor.pattern.tokenAt position
  return ⟨token.kind, ← checked token.span.check⟩

def current : Descent Token := do tokenAt (← get).cursor.consumed

/-- The token after another. -/
def after (t : Token) : Descent Token := tokenAt t.span.stop

def atEnd : Descent Bool := return (← current).kind = .finish

/-- Where the current token starts. -/
def position : Descent Nat := return (← current).span.start

/-- Consumes the current token and gives it back. -/
def advance : Descent Token := do
  let token ← current
  modify fun s => { s with cursor := s.cursor.advance }
  return token

/-- Consumes the current token if it is of the given kind. -/
def eat (kind : Token.Kind) : Descent Bool := do
  if (← current).kind = kind then
    let _ ← advance
    return true
  else return false

/-- Consumes the current token if it is `c`, written bare. -/
def eatChar (c : Char) : Descent Bool := do
  if (← current).kind.isBare c then
    let _ ← advance
    return true
  else return false

def advanceBy : Nat → Descent Unit
  | 0 => return
  | n + 1 => do
    let _ ← advance
    advanceBy n

/-- From a position to the end of what was consumed. -/
def spanFrom (start : Nat) : Descent Span := do checked ((← get).cursor.spanFrom start).check

def report (kind : Diagnostic.Kind) (span : Span) : Descent Unit :=
  modify fun s => { s with diagnostics := s.diagnostics ++ [⟨kind, span⟩] }

-- ═══════════════════════════════════════════════════════════════
-- Loops
-- ═══════════════════════════════════════════════════════════════

/-- Repeats a round until it has an answer. A round that has none must bring down what is left. -/
def loop (left : σ → State → Nat) (round : σ → Descent (σ ⊕ β)) (x : σ) : Descent β := fun s =>
  match round x s with
  | .error fault => .error fault
  | .ok (.inr answer, s') => .ok (answer, s')
  | .ok (.inl x', s') =>
    if left x' s' < left x s then loop left round x' s' else .error .stalled
termination_by s => left x s

/-- Repeats a round until it has an answer. A round that has none must consume something. -/
def consuming (round : σ → Descent (σ ⊕ β)) : σ → Descent β := loop (fun _ s => s.remaining) round

-- ═══════════════════════════════════════════════════════════════
-- Depth
-- ═══════════════════════════════════════════════════════════════

/-- Enters a group. -/
def enter (greatest : Nat) : Descent Unit := do
  let s ← get
  if s.depth < greatest then set { s with depth := s.depth + 1 } else throw .depthExceeded

/-- Leaves a group. -/
def leave : Descent Unit := do
  let s ← get
  match s.depth with
  | 0 => throw .negativeCount
  | depth + 1 => set { s with depth }

/-- A step that has to leave the depth as it was. -/
def keepingDepth (x : Descent α) : Descent α := do
  let before := (← get).depth
  let answer ← x
  if (← get).depth = before then return answer else throw .depthChanged

end Descent

end PatternTree
