import PatternTree.Phrase.Bracket
import PatternTree.Phrase.Header
import PatternTree.Phrase.Repetition

/-!
Phrases: a pattern as it is written, faults included. A row of phrases accounts for every
character of the text it was read from, and does not depend on where that text stands.
-/

namespace PatternTree

/-- The most levels that groups may nest. -/
def maxDepth : Nat := 128

inductive Phrase
  /-- The bar between two alternatives. -/
  | bar
  /-- A lexeme that has no meaning where it stands. -/
  | stray (l : Lexeme)
  /-- A group that is nested too deeply, from its parenthesis on. -/
  | tooDeep (ls : List Lexeme)
  | single (l : Lexeme) (repetitions : List Repetition)
  | set (b : Bracket) (repetitions : List Repetition)
  /-- A group; `closed` if it has its closing parenthesis. -/
  | group (h : Header) (body : List Phrase) (closed : Bool) (repetitions : List Repetition)

mutual

def Phrase.width : Phrase → Nat
  | .bar => 1
  | .stray l => l.width
  | .tooDeep ls => textWidth ls
  | .single l rs => l.width + Repetition.rowWidth rs
  | .set b rs => b.width + Repetition.rowWidth rs
  | .group h body closed rs =>
    h.width + Phrase.rowWidth body + closed.toNat + Repetition.rowWidth rs

def Phrase.rowWidth : List Phrase → Nat
  | [] => 0
  | p :: ps => p.width + Phrase.rowWidth ps

end

end PatternTree
