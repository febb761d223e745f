import PatternTree.Phrase

/-!
What phrases mean: the tree they stand for, and the diagnostics about them. Both depend on where
the phrases start; each part starts where the part before it ends.
-/

namespace PatternTree

/-- The item that a lexeme starting at `start` stands for on its own. -/
def Lexeme.item? (start : Nat) (l : Lexeme) : Option Item :=
  let span : Span := ⟨start, start + l.width⟩
  match l with
  | mark .caret => some (.lineStart span)
  | mark .dollar => some (.lineEnd span)
  | mark .dot => some (.anyCharacter span)
  | _ => l.glyph?.map fun g => .character ⟨g, span⟩

/-- What is wrong with a lexeme that has no meaning where it stands. -/
def Lexeme.fault : Lexeme → Diagnostic.Kind
  | mark .closeParen => .unopenedGroup
  | dangling => .unknownPart
  | _ => .nothingToRepeat

/-- An alternative with one more item in front. -/
def Branch.cons? (item : Option Item) (b : Branch) : Branch := ⟨item.toList ++ b.items, b.span⟩

mutual

/-- The item that a phrase starting at `start` stands for, if any. -/
def Phrase.item? (start : Nat) : Phrase → Option Item
  | .bar | .stray _ | .tooDeep _ => none
  | .single l rs =>
    (l.item? start).map fun item => Repetition.wrap start item (start + l.width) rs
  | .set b rs => some (Repetition.wrap start (.set (b.charSet start)) (start + b.width) rs)
  | .group h body closed rs =>
    let inside := start + h.width
    let stop := inside + Phrase.rowWidth body + closed.toNat
    let branches := Phrase.branches inside inside body
    let expression := Expression.ofBranches branches.1 branches.2
    some (Repetition.wrap start (.group h.groupKind expression ⟨start, stop⟩) stop rs)

/-- The alternatives of a row of phrases that starts at `position`, inside an alternative that
began at `start`: the rest of that one, and those after it. -/
def Phrase.branches (start position : Nat) : List Phrase → Branch × List Branch
  | [] => (⟨[], ⟨start, position⟩⟩, [])
  | .bar :: ps =>
    let others := Phrase.branches (position + 1) (position + 1) ps
    (⟨[], ⟨start, position⟩⟩, others.1 :: others.2)
  | p :: ps =>
    let rest := Phrase.branches start (position + p.width) ps
    (rest.1.cons? (p.item? position), rest.2)

end

/-- The expression that a row of phrases starting at `start` stands for. -/
def Phrase.expression (start : Nat) (ps : List Phrase) : Expression :=
  Expression.ofBranches (branches start start ps).1 (branches start start ps).2

mutual

/-- What is wrong with a phrase that starts at `start`, in the order of reading. -/
def Phrase.diagnostics (start : Nat) : Phrase → List Diagnostic
  | .bar => []
  | .stray l => [⟨l.fault, ⟨start, start + l.width⟩⟩]
  | .tooDeep ls => [⟨.groupTooDeep, ⟨start, start + textWidth ls⟩⟩]
  | .single l rs => Repetition.diagnostics (start + l.width) rs
  | .set b rs => b.diagnostics start ++ Repetition.diagnostics (start + b.width) rs
  | .group h body closed rs =>
    let inside := start + h.width
    let stop := inside + Phrase.rowWidth body + closed.toNat
    h.diagnostics start ++ Phrase.rowDiagnostics inside body ++
      (if closed then [] else [⟨.unclosedGroup, ⟨start, start + 1⟩⟩]) ++
      Repetition.diagnostics stop rs

def Phrase.rowDiagnostics (start : Nat) : List Phrase → List Diagnostic
  | [] => []
  | p :: ps => p.diagnostics start ++ Phrase.rowDiagnostics (start + p.width) ps

end

end PatternTree
