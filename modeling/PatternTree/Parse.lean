import PatternTree.Pattern
import PatternTree.Phrase.Meaning
import PatternTree.Phrase.Reading

/-!
Parsing: from a pattern to its tree and diagnostics. Every pattern has a tree.
-/

namespace PatternTree

structure Parsed where
  expression : Expression
  diagnostics : List Diagnostic

namespace Pattern

/-- The pattern as it is written. -/
def phrases (p : Pattern) : List Phrase := Phrase.readText p.lexemes

def parse (p : Pattern) : Parsed :=
  ⟨Phrase.expression 0 p.phrases, Phrase.rowDiagnostics 0 p.phrases⟩

end Pattern

end PatternTree
