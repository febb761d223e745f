/-!
Spans of a pattern. Positions count characters. A span is plain data, so one that ends before it
starts can be written down; the checked operations refuse to build one.
-/

namespace PatternTree

/-- The characters from `start` up to, and not including, `stop`. -/
structure Span where
  start : Nat
  stop : Nat
deriving DecidableEq, Inhabited

namespace Span

/-- Why an operation on spans has no answer. -/
inductive Fault
  /-- The start of a span would come after its end. -/
  | reversed (start stop : Nat)
  /-- The length of a reversed span would be negative. -/
  | negativeLength
deriving DecidableEq

def Fault.message : Fault → String
  | reversed start stop => s!"span start ({start}) is after its end ({stop})"
  | negativeLength => "attempt to subtract with overflow"

def Ordered (s : Span) : Prop := s.start ≤ s.stop

instance (s : Span) : Decidable s.Ordered := inferInstanceAs (Decidable (s.start ≤ s.stop))

/-- Accepts `s` unless it is reversed. -/
def check (s : Span) : Except Fault Span :=
  if s.Ordered then .ok s else .error (.reversed s.start s.stop)

/-- The zero-width span at a position. -/
def empty (position : Nat) : Span := ⟨position, position⟩

def isEmpty (s : Span) : Bool := s.start == s.stop

def length (s : Span) : Except Fault Nat :=
  if s.Ordered then .ok (s.stop - s.start) else .error .negativeLength

/-- From the first start to the last end of two spans. -/
def hull (s t : Span) : Span := ⟨min s.start t.start, max s.stop t.stop⟩

/-- The smallest span over two spans. Of two reversed spans the hull may be reversed too. -/
def cover (s t : Span) : Except Fault Span := (s.hull t).check

def toText (s : Span) : String := s!"({s.start}, {s.stop})"

end Span

end PatternTree
