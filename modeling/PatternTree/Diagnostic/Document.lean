import PatternTree.Diagnostic
import PatternTree.Document

/-!
Diagnostics as documents.
-/

namespace PatternTree

def Span.document (s : Span) : Document :=
  .record "Span" [("start", .number s.start), ("end", .number s.stop)]

namespace Diagnostic

def Kind.name : Kind → String
  | unclosedGroup => "UnclosedGroup"
  | unclosedSet => "UnclosedCharSet"
  | unopenedGroup => "UnopenedGroup"
  | nothingToRepeat => "InvalidQuantifierTarget"
  | unknownGroupHeader => "InvalidCaptureGroupModifier"
  | reversedRange => "ReversedRange"
  | reversedBounds => "ReversedQuantifierRange"
  | unknownPart => "UnknownRegexPart"
  | groupTooDeep => "GroupNestedTooDeeply"
  | tooManyQuantifiers => "QuantifiersStackedTooDeeply"

def document (d : Diagnostic) : Document :=
  .record "Diagnostic" [("kind", .word d.kind.name), ("span", d.span.document)]

def listDocument (ds : List Diagnostic) : Document := .list (ds.map document)

end Diagnostic

end PatternTree
