import PatternTree.Cursor

/-!
A stream of tokens: a cursor that keeps its current token at hand, so that the token is not read
again whenever it is asked for. What it keeps has to agree with its place in the pattern.
-/

namespace PatternTree

structure TokenStream where
  cursor : Cursor
  current : Token

namespace TokenStream

/-- A place to come back to, with the token there. -/
structure Snapshot where
  current : Token
  consumed : Nat
deriving DecidableEq

/-- The stream of a cursor. -/
def of (c : Cursor) : TokenStream := ⟨c, c.current⟩

def start (p : Pattern) : TokenStream := ⟨.start p, p.tokenAt 0⟩

/-- The end of what is consumed. -/
def consumed (s : TokenStream) : Nat := s.cursor.consumed

/-- Where the current token starts. -/
def position (s : TokenStream) : Nat := s.current.span.start

def atEnd (s : TokenStream) : Bool := s.current.kind == .finish

/-- The token after another. -/
def after (s : TokenStream) (t : Token) : Token := s.cursor.after t.span

/-- The token `n` steps after the current one. -/
def peek (s : TokenStream) : Nat → Token
  | 0 => s.current
  | n + 1 => s.after (s.peek n)

/-- Consumes the current token and gives it back. At the end the stream stays. -/
def advance (s : TokenStream) : Token × TokenStream :=
  (s.current, if s.atEnd then s
    else ⟨{ s.cursor with consumed := s.current.span.stop }, s.after s.current⟩)

/-- Consumes the current token if it is `wanted`. -/
def eatIf (s : TokenStream) (wanted : Bool) : Option Token × TokenStream :=
  if wanted then (some s.advance.1, s.advance.2) else (none, s)

/-- Consumes the current token if it is of the given kind. -/
def eat? (s : TokenStream) (kind : Token.Kind) : Option Token × TokenStream :=
  s.eatIf (s.current.kind = kind)

/-- Consumes the current token if it is `value`, written bare. -/
def eatChar? (s : TokenStream) (value : Char) : Option Token × TokenStream :=
  s.eatIf (s.current.kind.isBare value)

def snapshot (s : TokenStream) : Snapshot := ⟨s.current, s.cursor.consumed⟩

def restore (s : TokenStream) (place : Snapshot) : TokenStream :=
  ⟨{ s.cursor with consumed := place.consumed }, place.current⟩

/-- What is done with a stream. -/
inductive Move
  | advance
  | eat (kind : Token.Kind)
  | eatChar (value : Char)
  | snapshot
  | restore (place : Snapshot)

/-- What a move makes of a cursor. -/
def Move.apply (m : Move) (c : Cursor) : Cursor :=
  match m with
  | advance => c.advance
  | eat kind => (c.eat? kind).getD c
  | eatChar value => (c.eatChar? value).getD c
  | snapshot => c
  | restore place => c.restore ⟨place.consumed⟩

/-- A stream in use, with the snapshots that were taken of it. -/
structure InUse where
  stream : TokenStream
  taken : List Snapshot

namespace InUse

def start (p : Pattern) : InUse := ⟨.start p, []⟩

/-- Only a place that a snapshot was taken of can be restored. -/
def step (x : InUse) : Move → Option InUse
  | .advance => some { x with stream := x.stream.advance.2 }
  | .eat kind => some { x with stream := (x.stream.eat? kind).2 }
  | .eatChar value => some { x with stream := (x.stream.eatChar? value).2 }
  | .snapshot => some { x with taken := x.stream.snapshot :: x.taken }
  | .restore place =>
    if place ∈ x.taken then some { x with stream := x.stream.restore place } else none

def run (x : InUse) : List Move → Option InUse
  | [] => some x
  | m :: ms => (x.step m).bind fun y => y.run ms

end InUse

end TokenStream

end PatternTree
