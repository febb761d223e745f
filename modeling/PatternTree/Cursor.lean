import PatternTree.Pattern

/-!
A cursor over the tokens of a pattern. It holds only the end of what it has consumed; the current
token is the one that starts there.
-/

namespace PatternTree

structure Cursor where
  pattern : Pattern
  consumed : Nat

namespace Cursor

/-- A place to come back to. -/
structure Snapshot where
  consumed : Nat

def start (p : Pattern) : Cursor := ⟨p, 0⟩

def current (c : Cursor) : Token := c.pattern.tokenAt c.consumed

/-- The token after one that ends where `span` does. -/
def after (c : Cursor) (span : Span) : Token := c.pattern.tokenAt span.stop

def lookahead (c : Cursor) : Token := c.after c.current.span

/-- The token `n` steps after the current one. -/
def peek (c : Cursor) : Nat → Token
  | 0 => c.current
  | n + 1 => c.after (c.peek n).span

def atEnd (c : Cursor) : Bool := c.current.kind == .finish

/-- The cursor past the current token. At the end it stays. -/
def advance (c : Cursor) : Cursor :=
  if c.atEnd then c else { c with consumed := c.current.span.stop }

/-- Consumes the current token if it is of the given kind. -/
def eat? (c : Cursor) (kind : Token.Kind) : Option Cursor :=
  if c.current.kind = kind then some c.advance else none

/-- Consumes the current token if it is `value`, written bare. -/
def eatChar? (c : Cursor) (value : Char) : Option Cursor :=
  if c.current.kind.isBare value then some c.advance else none

def snapshot (c : Cursor) : Snapshot := ⟨c.consumed⟩

def restore (c : Cursor) (s : Snapshot) : Cursor := { c with consumed := s.consumed }

/-- Where the current token starts. -/
def position (c : Cursor) : Nat := c.current.span.start

/-- From a position to the end of what was consumed, empty if nothing was consumed since. -/
def spanFrom (c : Cursor) (start : Nat) : Span := ⟨start, max c.consumed start⟩

end Cursor

end PatternTree
