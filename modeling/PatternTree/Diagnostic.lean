import PatternTree.Span

/-!
Diagnostics: what is wrong with a pattern, and where.
-/

namespace PatternTree

inductive Diagnostic.Kind
  | unclosedGroup
  | unclosedSet
  | unopenedGroup
  | nothingToRepeat
  | unknownGroupHeader
  | reversedRange
  | reversedBounds
  | unknownPart
  | groupTooDeep
  | tooManyQuantifiers
deriving DecidableEq

structure Diagnostic where
  kind : Diagnostic.Kind
  span : Span
deriving DecidableEq

namespace Diagnostic

def Kind.message : Kind → String
  | unclosedGroup => "Unclosed group"
  | unclosedSet => "Unclosed character set"
  | unopenedGroup => "Unopened group"
  | nothingToRepeat => "Invalid target for quantifier"
  | unknownGroupHeader => "Invalid capture group modifier"
  | reversedRange => "Range values reversed"
  | reversedBounds => "Quantifier range values reversed"
  | unknownPart => "Unknown regex part"
  | groupTooDeep => "Group nested too deeply"
  | tooManyQuantifiers => "Quantifiers stacked too deeply"

def toText (d : Diagnostic) : String := s!"[ERROR] {d.span.toText}: {d.kind.message}"

/-- One line for each diagnostic. -/
def report (ds : List Diagnostic) : String := String.join (ds.map fun d => d.toText ++ "\n")

end Diagnostic

end PatternTree
