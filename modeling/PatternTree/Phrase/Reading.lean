import PatternTree.Phrase

/-!
Reading phrases from lexemes. Reading never fails: what has no meaning becomes a stray phrase,
and what the text leaves open is closed by its end. A row is read with a given way to read
groups; that way is built up level by level, so the recursion over depth and the recursion over
the text stay apart.
-/

namespace PatternTree

/-- The lexemes after the closing parenthesis of a group, of which `inner` further groups and
perhaps a set are open. -/
def afterGroup (inner : Nat) (inSet : Bool) : List Lexeme → List Lexeme
  | [] => []
  | l :: ls =>
    if inSet then afterGroup inner (l ≠ .mark .closeBracket) ls
    else match l with
      | .mark .openBracket => afterGroup inner true ls
      | .mark .openParen => afterGroup (inner + 1) false ls
      | .mark .closeParen =>
        match inner with
        | 0 => ls
        | inner + 1 => afterGroup inner false ls
      | _ => afterGroup inner false ls

theorem length_afterGroup (inner : Nat) (inSet : Bool) (ls : List Lexeme) :
    (afterGroup inner inSet ls).length ≤ ls.length := by
  fun_induction afterGroup inner inSet ls <;> simp_all <;> omega

/-- Skipping takes at least one lexeme. -/
theorem length_afterGroup_lt (inner : Nat) (inSet : Bool) {ls : List Lexeme} (present : ls ≠ []) :
    (afterGroup inner inSet ls).length < ls.length := by
  fun_cases afterGroup inner inSet ls with
  | case1 => exact absurd rfl present
  | _ => exact Nat.lt_succ_of_le (by simp [length_afterGroup])

/-- A way to read what follows the opening parenthesis of a group. -/
structure GroupReader where
  read : List Lexeme → Phrase × List Lexeme
  length_read : ∀ ls, (read ls).2.length ≤ ls.length

namespace Phrase

/-- Takes a whole group as one phrase without a look at its parts. -/
def skipGroup (ls : List Lexeme) : Phrase × List Lexeme :=
  let rest := afterGroup 0 false ls
  (tooDeep (.mark .openParen :: ls.take (ls.length - rest.length)), rest)

/-- Reads the phrase that starts with `l`. -/
def read (groups : GroupReader) (l : Lexeme) (ls : List Lexeme) : Phrase × List Lexeme :=
  match l with
  | .mark .bar => (bar, ls)
  | .mark .closeParen | .mark .question | .mark .star | .mark .plus | .dangling => (stray l, ls)
  | .mark .openParen => groups.read ls
  | .mark .openBracket =>
    let written := Bracket.read ls
    let repeated := Repetition.readAll written.2
    (set written.1 repeated.1, repeated.2)
  | _ =>
    let repeated := Repetition.readAll ls
    (single l repeated.1, repeated.2)

theorem length_read (groups : GroupReader) (l : Lexeme) (ls : List Lexeme) :
    (read groups l ls).2.length ≤ ls.length := by
  unfold read
  split
  case h_7 => exact groups.length_read ls
  case h_8 => exact Nat.le_trans (Repetition.length_readAll _) (Bracket.length_read ls)
  case h_9 => exact Repetition.length_readAll ls
  all_goals exact Nat.le_refl _

/-- Reads phrases up to the end, or inside a group up to its closing parenthesis. -/
def readRow (groups : GroupReader) (inGroup : Bool) (ls : List Lexeme) :
    List Phrase × List Lexeme :=
  match ls with
  | [] => ([], [])
  | l :: ls =>
    if inGroup ∧ l = .mark .closeParen then ([], l :: ls)
    else
      have := length_read groups l ls
      let phrase := read groups l ls
      let row := readRow groups inGroup phrase.2
      (phrase.1 :: row.1, row.2)
termination_by ls.length

theorem length_readRow (groups : GroupReader) (inGroup : Bool) (ls : List Lexeme) :
    (readRow groups inGroup ls).2.length ≤ ls.length := by
  fun_induction readRow groups inGroup ls with
  | case1 => exact Nat.le_refl _
  | case2 => exact Nat.le_refl _
  | case3 l ls _ shorter phrase row ih =>
    exact Nat.le_trans ih (Nat.le_succ_of_le shorter)

/-- Takes a closing parenthesis if one stands first. -/
def readClose : List Lexeme → Bool × List Lexeme
  | .mark .closeParen :: ls => (true, ls)
  | ls => (false, ls)

theorem length_readClose (ls : List Lexeme) : (readClose ls).2.length ≤ ls.length := by
  unfold readClose
  split <;> simp

/-- A group as it was read, from what follows its opening parenthesis on. -/
structure Enclosed where
  header : Header
  body : List Phrase
  closed : Bool
  rest : List Lexeme

/-- Reads a group through its closing parenthesis, with a given way to read the groups inside. -/
def readEnclosed (groups : GroupReader) (ls : List Lexeme) : Enclosed :=
  let header := Header.read ls
  let body := readRow groups true header.2
  let close := readClose body.2
  ⟨header.1, body.1, close.1, close.2⟩

theorem length_readEnclosed (groups : GroupReader) (ls : List Lexeme) :
    (readEnclosed groups ls).rest.length ≤ ls.length :=
  calc (readEnclosed groups ls).rest.length
    _ ≤ _ := length_readClose _
    _ ≤ _ := length_readRow groups true _
    _ ≤ ls.length := Header.length_read ls

/-- Reads a group and the quantifiers after it. -/
def readGroup (groups : GroupReader) (ls : List Lexeme) : Phrase × List Lexeme :=
  let g := readEnclosed groups ls
  let repeated := Repetition.readAll g.rest
  (group g.header g.body g.closed repeated.1, repeated.2)

theorem length_readGroup (groups : GroupReader) (ls : List Lexeme) :
    (readGroup groups ls).2.length ≤ ls.length :=
  Nat.le_trans (Repetition.length_readAll _) (length_readEnclosed groups ls)

/-- Reads groups that may nest so many levels deep, and skips those that nest deeper. -/
def groupReader : Nat → GroupReader
  | 0 => ⟨skipGroup, length_afterGroup 0 false⟩
  | levels + 1 => ⟨readGroup (groupReader levels), length_readGroup (groupReader levels)⟩

/-- The phrases of a whole text. -/
def readText (ls : List Lexeme) : List Phrase := (readRow (groupReader maxDepth) false ls).1

end Phrase

end PatternTree
