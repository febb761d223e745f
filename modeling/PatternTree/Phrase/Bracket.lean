import PatternTree.Diagnostic
import PatternTree.Expression

/-!
Character sets as they are written: the pieces between the brackets, two of them joined by a dash
where they make a range. Inside a set every lexeme stands for a character, structural or not.
-/

namespace PatternTree

/-- A piece of a set. A lone backslash is kept as a piece although it stands for no member. -/
inductive Piece
  | single (l : Lexeme)
  | range (first last : Lexeme)
deriving DecidableEq

/-- A set as it is written; `closed` if it has its closing bracket. -/
structure Bracket where
  inverted : Bool
  pieces : List Piece
  closed : Bool
deriving DecidableEq

/-- The character a lexeme stands for inside a set, where `\b` is a backspace. -/
def Lexeme.glyphInSet? (l : Lexeme) : Option Glyph :=
  l.glyph?.map fun g => if g = .shorthand .wordBoundary then .literal Control.backspace else g

/-- Whether a dash before the lexeme joins it to the character before the dash. -/
def Lexeme.endsRange : Lexeme → Bool
  | mark .openBracket | mark .closeBracket | dangling => false
  | _ => true

namespace Piece

/-- Reads up to the first closing bracket and past it; the middle part of the answer says whether
there is one. -/
def readAll : List Lexeme → List Piece × Bool × List Lexeme
  | [] => ([], false, [])
  | .mark .closeBracket :: rest => ([], true, rest)
  | first :: .plain '-' :: last :: rest =>
    if last.endsRange then
      let more := readAll rest
      (range first last :: more.1, more.2)
    else
      let more := readAll (.plain '-' :: last :: rest)
      (single first :: more.1, more.2)
  | l :: rest =>
    let more := readAll rest
    (single l :: more.1, more.2)

def width : Piece → Nat
  | single l => l.width
  | range first last => first.width + 1 + last.width

/-- The number of characters that pieces take up together. -/
def rowWidth : List Piece → Nat
  | [] => 0
  | p :: ps => p.width + rowWidth ps

/-- The member that a piece starting at `start` stands for. The ends of a reversed range change
places and keep their own spans. -/
def member? (start : Nat) : Piece → Option Member
  | single l => l.glyphInSet?.map fun g => .single ⟨g, ⟨start, start + l.width⟩⟩
  | range first last =>
    let stop := start + first.width + 1 + last.width
    match first.glyphInSet?, last.glyphInSet? with
    | some g, some h =>
      let low : Character := ⟨g, ⟨start, start + first.width⟩⟩
      let high : Character := ⟨h, ⟨start + first.width + 1, stop⟩⟩
      match g, h with
      | .literal c, .literal d =>
        if d < c then some (.range high low ⟨start, stop⟩) else some (.range low high ⟨start, stop⟩)
      | _, _ => some (.range low high ⟨start, stop⟩)
    | _, _ => none

/-- Whether a piece is a range between two characters of which the second comes first. -/
def reversed : Piece → Bool
  | range first last =>
    match first.glyphInSet?, last.glyphInSet? with
    | some (.literal c), some (.literal d) => d < c
    | _, _ => false
  | single _ => false

def diagnostics (start : Nat) (p : Piece) : List Diagnostic :=
  if p = single .dangling then [⟨.unknownPart, ⟨start, start + p.width⟩⟩]
  else if p.reversed then [⟨.reversedRange, ⟨start, start + p.width⟩⟩]
  else []

/-- The members that a row of pieces starting at `start` stands for. -/
def members (start : Nat) : List Piece → List Member
  | [] => []
  | p :: ps => (p.member? start).toList ++ members (start + p.width) ps

def rowDiagnostics (start : Nat) : List Piece → List Diagnostic
  | [] => []
  | p :: ps => p.diagnostics start ++ rowDiagnostics (start + p.width) ps

theorem length_readAll (ls : List Lexeme) : (readAll ls).2.2.length ≤ ls.length := by
  fun_induction readAll ls with
  | case1 => exact Nat.le_refl _
  | case2 => simp
  | case3 _ _ _ _ _ _ ih =>
    refine Nat.le_trans ih ?_
    simp only [List.length_cons]
    omega
  | case4 _ _ _ _ _ _ ih => exact Nat.le_succ_of_le ih
  | case5 _ _ _ _ _ ih => exact Nat.le_succ_of_le ih

end Piece

namespace Bracket

/-- Reads what follows an opening bracket. -/
def read (ls : List Lexeme) : Bracket × List Lexeme :=
  match ls with
  | .mark .caret :: ls =>
    let all := Piece.readAll ls
    (⟨true, all.1, all.2.1⟩, all.2.2)
  | ls =>
    let all := Piece.readAll ls
    (⟨false, all.1, all.2.1⟩, all.2.2)

theorem length_read (ls : List Lexeme) : (read ls).2.length ≤ ls.length := by
  unfold read
  split
  · exact Nat.le_succ_of_le (Piece.length_readAll _)
  · exact Piece.length_readAll _

/-- The width of what stands before the pieces. -/
def openingWidth (b : Bracket) : Nat := 1 + b.inverted.toNat

def width (b : Bracket) : Nat :=
  b.openingWidth + Piece.rowWidth b.pieces + b.closed.toNat

/-- The set that is written at `start`. -/
def charSet (start : Nat) (b : Bracket) : CharSet :=
  ⟨b.inverted, Piece.members (start + b.openingWidth) b.pieces, ⟨start, start + b.width⟩⟩

def diagnostics (start : Nat) (b : Bracket) : List Diagnostic :=
  Piece.rowDiagnostics (start + b.openingWidth) b.pieces ++
    if b.closed then [] else [⟨.unclosedSet, ⟨start, start + 1⟩⟩]

end Bracket

end PatternTree
