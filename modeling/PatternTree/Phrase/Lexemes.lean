import PatternTree.Phrase.Reading

/-!
The lexemes that phrases are written with. Main statement: reading loses nothing, so the lexemes
of the phrases read from a text are the text, whatever is wrong with it.
-/

namespace PatternTree

/-- Characters that stand for themselves. -/
def plainRow (cs : List Char) : List Lexeme := cs.map .plain

theorem plainRow_run (p : Char → Bool) (ls : List Lexeme) :
    plainRow (Lexeme.run p ls).1 ++ (Lexeme.run p ls).2 = ls := by
  induction ls with
  | nil => rfl
  | cons l ls ih =>
    cases l with
    | plain c =>
      simp only [Lexeme.run]
      split
      · exact congrArg (Lexeme.plain c :: ·) ih
      · rfl
    | _ => rfl

namespace Amount

def lexemes : Amount → List Lexeme
  | zeroOrOne => [.mark .question]
  | zeroOrMore => [.mark .star]
  | oneOrMore => [.mark .plus]
  | exactly n => .mark .openBrace :: plainRow n ++ [.mark .closeBrace]
  | atLeast n => .mark .openBrace :: plainRow n ++ [.plain ',', .mark .closeBrace]
  | between m n =>
    .mark .openBrace :: plainRow m ++ .plain ',' :: plainRow n ++ [.mark .closeBrace]

theorem lexemes_readBraces? {ls rest : List Lexeme} {a : Amount}
    (read : readBraces? ls = some (a, rest)) : a.lexemes ++ rest = .mark .openBrace :: ls := by
  have first := plainRow_run Char.isDigit ls
  simp only [readBraces?] at read
  split at read
  · split at read
    next found =>
      cases read
      rw [found] at first
      simp [lexemes, first]
    next more found =>
      have second := plainRow_run Char.isDigit more
      split at read
      next found' =>
        split at read
        next none =>
          cases read
          rw [found', none] at second
          rw [found, ← second] at first
          simpa [lexemes, plainRow] using first
        · split at read
          · cases read
            rw [found'] at second
            rw [found, ← second] at first
            simpa [lexemes] using first
          · cases read
      · cases read
    · cases read
  · cases read

theorem lexemes_read? {ls rest : List Lexeme} {a : Amount}
    (read : read? ls = some (a, rest)) : a.lexemes ++ rest = ls := by
  unfold read? at read
  split at read
  case h_4 => exact lexemes_readBraces? read
  all_goals cases read
  all_goals rfl

end Amount

namespace Repetition

def lexemes (r : Repetition) : List Lexeme :=
  r.amount.lexemes ++ if r.lazy then [.mark .question] else []

theorem lexemes_read? {ls rest : List Lexeme} {r : Repetition}
    (read : read? ls = some (r, rest)) : r.lexemes ++ rest = ls := by
  unfold read? at read
  split at read
  next found =>
    cases read
    rw [← Amount.lexemes_read? found]
    unfold readLazy
    split <;> simp [lexemes]
  · cases read

theorem lexemes_readAll (ls : List Lexeme) :
    (readAll ls).1.flatMap lexemes ++ (readAll ls).2 = ls := by
  fun_induction readAll ls with
  | case1 ls r rest found _ more ih =>
    rw [List.flatMap_cons, List.append_assoc, ih, lexemes_read? found]
  | case2 => rfl

end Repetition

/-- A closing mark, if it is there. -/
def closing (m : Mark) (closed : Bool) : List Lexeme := if closed then [.mark m] else []

theorem closing_append_eq_nil_iff {m : Mark} {closed : Bool} {ls : List Lexeme} :
    closing m closed ++ ls = [] ↔ ¬closed ∧ ls = [] := by
  cases closed <;> simp [closing]

def Piece.lexemes : Piece → List Lexeme
  | single l => [l]
  | range first last => [first, .plain '-', last]

theorem Piece.lexemes_readAll (ls : List Lexeme) :
    (readAll ls).1.flatMap lexemes ++ closing .closeBracket (readAll ls).2.1 ++ (readAll ls).2.2
      = ls := by
  fun_induction readAll ls with
  | case1 => rfl
  | case2 => rfl
  | case3 _ _ _ _ _ more ih => simpa [lexemes] using ih
  | case4 _ _ _ _ _ more ih => simpa [lexemes] using ih
  | case5 _ _ _ _ more ih => simpa [lexemes] using ih

def Bracket.lexemes (b : Bracket) : List Lexeme :=
  .mark .openBracket :: (if b.inverted then [.mark .caret] else []) ++
    b.pieces.flatMap Piece.lexemes ++ closing .closeBracket b.closed

theorem Bracket.lexemes_read (ls : List Lexeme) :
    (read ls).1.lexemes ++ (read ls).2 = .mark .openBracket :: ls := by
  unfold read
  split
  · simpa [lexemes] using Piece.lexemes_readAll _
  · simpa [lexemes] using Piece.lexemes_readAll _

def GroupKind.lexemes : GroupKind → List Lexeme
  | capture => [.mark .openParen]
  | named name =>
    [.mark .openParen, .mark .question, .plain '<'] ++ plainRow name.toList ++ [.plain '>']
  | grouping => [.mark .openParen, .mark .question, .plain ':']
  | look .ahead => [.mark .openParen, .mark .question, .plain '=']
  | look .notAhead => [.mark .openParen, .mark .question, .plain '!']
  | look .behind => [.mark .openParen, .mark .question, .plain '<', .plain '=']
  | look .notBehind => [.mark .openParen, .mark .question, .plain '<', .plain '!']

namespace Header

def lexemes : Header → List Lexeme
  | kind k => k.lexemes
  | unknown => [.mark .openParen, .mark .question]

theorem plainRow_readName? {ls rest : List Lexeme} {name : List Char}
    (read : readName? ls = some (name, rest)) : plainRow name ++ .plain '>' :: rest = ls := by
  have run := plainRow_run Text.isNamePart ls
  simp only [readName?] at read
  split at read
  · split at read
    next found =>
      cases read
      rw [found] at run
      exact run
    · cases read
  · cases read

theorem lexemes_readModifier (ls : List Lexeme) :
    (readModifier ls).1.lexemes ++ (readModifier ls).2 =
      .mark .openParen :: .mark .question :: ls := by
  unfold readModifier
  split
  case h_6 =>
    split
    next found => simp [lexemes, GroupKind.lexemes, ← plainRow_readName? found]
    · rfl
  all_goals rfl

theorem lexemes_read (ls : List Lexeme) :
    (read ls).1.lexemes ++ (read ls).2 = .mark .openParen :: ls := by
  unfold read
  split
  · exact lexemes_readModifier _
  · rfl

end Header

namespace Phrase

mutual

def lexemes : Phrase → List Lexeme
  | .bar => [.mark .bar]
  | .stray l => [l]
  | .tooDeep ls => ls
  | .single l rs => l :: rs.flatMap Repetition.lexemes
  | .set b rs => b.lexemes ++ rs.flatMap Repetition.lexemes
  | .group h body closed rs =>
    h.lexemes ++ rowLexemes body ++ closing .closeParen closed ++ rs.flatMap Repetition.lexemes

def rowLexemes : List Phrase → List Lexeme
  | [] => []
  | p :: ps => p.lexemes ++ rowLexemes ps

end

/-- A way to read groups that loses nothing. -/
def Lossless (groups : GroupReader) : Prop :=
  ∀ ls, (groups.read ls).1.lexemes ++ (groups.read ls).2 = .mark .openParen :: ls

theorem lexemes_read {groups : GroupReader} (lossless : Lossless groups) (l : Lexeme)
    (ls : List Lexeme) : (read groups l ls).1.lexemes ++ (read groups l ls).2 = l :: ls := by
  unfold read
  split
  case h_7 => exact lossless ls
  case h_8 =>
    simp only [lexemes, List.append_assoc, Repetition.lexemes_readAll]
    exact Bracket.lexemes_read ls
  case h_9 => simp [lexemes, Repetition.lexemes_readAll]
  all_goals rfl

theorem rowLexemes_readRow {groups : GroupReader} (lossless : Lossless groups) (inGroup : Bool)
    (ls : List Lexeme) :
    rowLexemes (readRow groups inGroup ls).1 ++ (readRow groups inGroup ls).2 = ls := by
  fun_induction readRow groups inGroup ls with
  | case1 => rfl
  | case2 => rfl
  | case3 l ls _ _ phrase row ih =>
    rw [rowLexemes, List.append_assoc, ih]
    exact lexemes_read lossless l ls

theorem closing_readClose (ls : List Lexeme) :
    closing .closeParen (readClose ls).1 ++ (readClose ls).2 = ls := by
  unfold readClose
  split <;> rfl

theorem lexemes_readGroup {groups : GroupReader} (lossless : Lossless groups) :
    ∀ ls, (readGroup groups ls).1.lexemes ++ (readGroup groups ls).2 = .mark .openParen :: ls := by
  intro ls
  simp only [readGroup, readEnclosed, lexemes, List.append_assoc, Repetition.lexemes_readAll,
    closing_readClose, rowLexemes_readRow lossless]
  exact Header.lexemes_read ls

theorem afterGroup_suffix (inner : Nat) (inSet : Bool) (ls : List Lexeme) :
    afterGroup inner inSet ls <:+ ls := by
  fun_induction afterGroup inner inSet ls with
  | case1 => exact List.suffix_refl _
  | case5 => exact List.suffix_cons _ _
  | _ => exact List.IsSuffix.trans ‹_› (List.suffix_cons _ _)

theorem lexemes_skipGroup (ls : List Lexeme) :
    (skipGroup ls).1.lexemes ++ (skipGroup ls).2 = .mark .openParen :: ls := by
  obtain ⟨skipped, split⟩ := afterGroup_suffix 0 false ls
  have length : ls.length - (afterGroup 0 false ls).length = skipped.length := by
    rw [← congrArg List.length split, List.length_append]
    omega
  simp only [skipGroup, lexemes, length]
  rw [List.cons_append]
  exact congrArg _ (by rw [← congrArg (List.take skipped.length) split]; simpa using split)

theorem lossless_groupReader : ∀ levels, Lossless (groupReader levels)
  | 0 => lexemes_skipGroup
  | levels + 1 => lexemes_readGroup (lossless_groupReader levels)

/-- Outside groups nothing stops a row before the end. -/
theorem rest_readRow_outside (groups : GroupReader) (ls : List Lexeme) :
    (readRow groups false ls).2 = [] := by
  fun_induction readRow groups false ls with
  | case1 => rfl
  | case2 => simp_all
  | case3 _ _ _ _ _ _ ih => exact ih

theorem rowLexemes_readText (ls : List Lexeme) : rowLexemes (readText ls) = ls := by
  have whole := rowLexemes_readRow (lossless_groupReader maxDepth) false ls
  rw [rest_readRow_outside, List.append_nil] at whole
  exact whole

end Phrase

end PatternTree
