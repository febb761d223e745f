import PatternTree.Proofs.Legality.Places
import PatternTree.Proofs.RoundTrip.Spelling
import PatternTree.Proofs.Tree.WellFormed

/-!
Canonical phrases: the phrases that the canonical text of a tree is written with. Main statements:
they spell the text, and for a well-formed tree they are legal, so that they are what is read.
-/

namespace PatternTree

/-- The lexemes spell the text, and are scanned back from it. -/
def SpelledAs (ls : List Lexeme) (source : List Char) : Prop :=
  ls.flatMap Lexeme.text = source ∧ ∀ l ∈ ls, l.Spelled

namespace SpelledAs

theorem nil : SpelledAs [] [] := ⟨rfl, by simp⟩

theorem append {ls more : List Lexeme} {source after : List Char} (first : SpelledAs ls source)
    (second : SpelledAs more after) : SpelledAs (ls ++ more) (source ++ after) := by
  refine ⟨by rw [List.flatMap_append, first.1, second.1], ?_⟩
  intro l member
  rcases List.mem_append.mp member with member | member
  · exact first.2 l member
  · exact second.2 l member

theorem lexeme {l : Lexeme} {source : List Char} (written : l.Writes source) :
    SpelledAs [l] source :=
  ⟨by simp [written.text], by simpa using written.spelled⟩

theorem mark (m : Mark) : SpelledAs [.mark m] [m.char] :=
  ⟨rfl, List.forall_mem_singleton.mpr trivial⟩

theorem bare {c : Char} (spelled : (Lexeme.plain c).Spelled) : SpelledAs [.plain c] [c] :=
  ⟨rfl, List.forall_mem_singleton.mpr spelled⟩

theorem plainRow {cs : List Char} (bare : ∀ c ∈ cs, (Lexeme.plain c).Spelled) :
    SpelledAs (plainRow cs) cs := by
  refine ⟨flatMap_text_plainRow cs, fun l member => ?_⟩
  obtain ⟨c, inside, rfl⟩ := List.mem_map.mp member
  exact bare c inside

theorem scan_eq {ls : List Lexeme} {source : List Char} (spelled : SpelledAs ls source) :
    Lexeme.scan source = ls := by
  rw [← spelled.1]
  exact Lexeme.scan_flatMap_text spelled.2

theorem dangling_not_mem {ls : List Lexeme} {source : List Char} (spelled : SpelledAs ls source) :
    .dangling ∉ ls := fun lone => spelled.2 _ lone

end SpelledAs

-- ═══════════════════════════════════════════════════════════════
-- Quantifiers
-- ═══════════════════════════════════════════════════════════════

/-- How the bounds of a quantifier are written, in their shortest form. -/
def Quantifier.amount (q : Quantifier) (afterGreedy : Bool) : Amount :=
  match q.max with
  | none =>
    if q.min = 0 then .zeroOrMore
    else if q.min = 1 then .oneOrMore
    else .atLeast (decimal q.min.toNat)
  | some max =>
    if q.min = 0 ∧ max = 1 ∧ ¬afterGreedy then .zeroOrOne
    else if q.min = max then .exactly (decimal q.min.toNat)
    else .between (decimal q.min.toNat) (decimal max.toNat)

def Quantifier.repetition (q : Quantifier) (afterGreedy : Bool) : Repetition :=
  ⟨q.amount afterGreedy, q.lazy⟩

theorem countValue_decimal (n : Nat) : countValue (decimal n) = n := Nat.ofDigitChars_ten_toDigits

theorem isDigit_decimal {n : Nat} {c : Char} (member : c ∈ decimal n) : c.isDigit :=
  Nat.isDigit_of_mem_toDigits (by decide) (by decide) member

theorem legalCount_decimal (n : UInt32) : Amount.LegalCount (decimal n.toNat) := by
  refine ⟨?_, fun d member => isDigit_decimal member⟩
  have some_digit : decimal n.toNat ≠ [] := Nat.toDigits_ne_nil
  have bound := n.toNat_lt
  simp only [isCount, countValue_decimal, maxCount, Bool.and_eq_true, decide_eq_true_eq]
  exact ⟨some_digit, by omega⟩

theorem spelled_digit {c : Char} (digit : c.isDigit) : (Lexeme.plain c).Spelled := by
  constructor
  · rintro rfl
    cases digit
  · cases found : Mark.ofChar? c with
    | none => rfl
    | some m =>
      obtain rfl := Mark.char_of_ofChar? found
      cases m <;> cases digit

namespace Quantifier

theorem legal_amount (q : Quantifier) (afterGreedy : Bool) : (q.amount afterGreedy).Legal := by
  unfold amount
  split
  · split
    · trivial
    · split
      · trivial
      · exact legalCount_decimal _
  · split
    · trivial
    · split
      · exact legalCount_decimal _
      · exact ⟨legalCount_decimal _, legalCount_decimal _⟩

theorem spelledAs_decimal (n : Nat) : SpelledAs (plainRow (decimal n)) (decimal n) :=
  SpelledAs.plainRow fun _ member => spelled_digit (isDigit_decimal member)

theorem spelledAs_amount (q : Quantifier) (afterGreedy : Bool) :
    SpelledAs (q.amount afterGreedy).lexemes (q.bounds afterGreedy) := by
  have comma : SpelledAs [.plain ','] [','] := SpelledAs.bare ⟨by decide, rfl⟩
  have braces {ls : List Lexeme} {source : List Char} (inside : SpelledAs ls source) :
      SpelledAs (.mark .openBrace :: (ls ++ [.mark .closeBrace]))
        ('\x7b' :: (source ++ ['\x7d'])) :=
    (SpelledAs.mark .openBrace).append (inside.append (SpelledAs.mark .closeBrace))
  obtain ⟨min, max, lazy⟩ := q
  cases max with
  | none =>
    simp only [amount, bounds]
    split
    · exact SpelledAs.mark .star
    · split
      · exact SpelledAs.mark .plus
      · simpa [Amount.lexemes] using braces ((spelledAs_decimal min.toNat).append comma)
  | some max =>
    simp only [amount, bounds]
    split
    · exact SpelledAs.mark .question
    · split
      · exact braces (spelledAs_decimal min.toNat)
      · have counts := comma.append (spelledAs_decimal max.toNat)
        simpa [Amount.lexemes] using braces ((spelledAs_decimal min.toNat).append counts)

theorem spelledAs_repetition (q : Quantifier) (afterGreedy : Bool) :
    SpelledAs (q.repetition afterGreedy).lexemes (q.source afterGreedy) := by
  have lazy_mark : SpelledAs (if q.lazy then [.mark .question] else [])
      (if q.lazy then ['?'] else []) := by
    cases q.lazy with
    | true => exact SpelledAs.mark .question
    | false => exact SpelledAs.nil
  exact (q.spelledAs_amount afterGreedy).append lazy_mark

theorem quantifier_repetition {q : Quantifier} (ordered : q.Ordered) (afterGreedy : Bool) :
    (q.repetition afterGreedy).quantifier = q ∧
      (q.repetition afterGreedy).amount.reversed = false := by
  obtain ⟨min, max, lazy⟩ := q
  cases max with
  | none =>
    simp only [repetition, amount, Repetition.quantifier]
    split
    next zero => simp [Amount.bounds, Amount.reversed, zero]
    next =>
      split
      next one => simp [Amount.bounds, Amount.reversed, one]
      next => simp [Amount.bounds, Amount.reversed, countValue_decimal]
  | some max =>
    -- Each case of the bounds is the shortest text for them, and stands for them again.
    have in_order : ¬max.toNat < min.toNat := Nat.not_lt.mpr (UInt32.le_iff_toNat_le.mp ordered)
    simp only [repetition, amount, Repetition.quantifier]
    split
    next optional => simp [Amount.bounds, Amount.reversed, optional.1, optional.2.1]
    next =>
      split
      next equal => simp [Amount.bounds, Amount.reversed, countValue_decimal, equal]
      next => simp [Amount.bounds, Amount.reversed, countValue_decimal, in_order]

/-- Right after a greedy quantifier no question mark is written first. -/
theorem repetition_afterGreedy (q : Quantifier) (ls : List Lexeme) :
    ((q.repetition true).lexemes ++ ls).head? ≠ some (.mark .question) := by
  have written : ∀ a : Amount, a ≠ .zeroOrOne → ∃ l more, a.lexemes = l :: more ∧
      l ≠ .mark .question := by
    intro a other
    cases a with
    | zeroOrOne => exact absurd rfl other
    | _ => exact ⟨_, _, rfl, by simp⟩
  -- The only amount that begins with a question mark is not used there.
  have other : q.amount true ≠ .zeroOrOne := by
    unfold amount
    grind
  obtain ⟨l, more, first, bare⟩ := written _ other
  simp [repetition, Repetition.lexemes, first, bare]

end Quantifier

-- ═══════════════════════════════════════════════════════════════
-- Sets
-- ═══════════════════════════════════════════════════════════════

/-- How a member of a set is written. -/
def Member.piece : Member → Piece
  | single c => .single c.glyph.lexemeInSet
  | range first last _ => .range first.glyph.lexemeInSet last.glyph.lexemeInSet

def CharSet.bracket (s : CharSet) : Bracket := ⟨s.inverted, s.members.map Member.piece, true⟩

theorem Member.spelledAs_piece (m : Member) : SpelledAs m.piece.lexemes m.source := by
  have glyph (g : Glyph) := SpelledAs.lexeme g.lexemeInSet_writes
  have dash : SpelledAs [.plain '-'] ['-'] := SpelledAs.bare ⟨by decide, rfl⟩
  cases m with
  | single c => exact glyph c.glyph
  | range first last s => exact (glyph first.glyph).append (dash.append (glyph last.glyph))

theorem Member.spelledAs_row (ms : List Member) :
    SpelledAs ((ms.map piece).flatMap Piece.lexemes) (ms.flatMap source) := by
  induction ms with
  | nil => exact SpelledAs.nil
  | cons m ms ih => exact m.spelledAs_piece.append ih

theorem CharSet.spelledAs_bracket (s : CharSet) : SpelledAs s.bracket.lexemes s.source := by
  have caret : SpelledAs (if s.inverted then [.mark .caret] else [])
      (if s.inverted then ['^'] else []) := by
    cases s.inverted with
    | true => exact SpelledAs.mark .caret
    | false => exact SpelledAs.nil
  have inside := caret.append
    ((Member.spelledAs_row s.members).append (SpelledAs.mark .closeBracket))
  rw [Bracket.lexemes, List.append_assoc, source, List.append_assoc]
  exact (SpelledAs.mark .openBracket).append inside

/-- The lexeme that a member begins with is neither a mark nor a bare dash. -/
theorem Glyph.lexemeInSet_bare (g : Glyph) : (∀ m, g.lexemeInSet ≠ .mark m) ∧
    g.lexemeInSet ≠ .plain '-' ∧ g.lexemeInSet.endsRange := by
  refine ⟨?_, g.lexemeInSet_ne_dash, ?_⟩ <;>
    rcases g.lexemeInSet_writes.bare_or_escaped with ⟨c, written⟩ | ⟨c, written⟩ <;>
    simp [written, Lexeme.endsRange]

theorem Member.lexemes_eq_cons (m : Member) : ∃ g more,
    m.piece.lexemes = Glyph.lexemeInSet g :: more := by
  cases m with
  | single c => exact ⟨_, _, rfl⟩
  | range first last s => exact ⟨_, _, rfl⟩

/-- No members and the bracket after them go on with a range, or begin with a caret. -/
theorem Member.row_bare (ms : List Member) (rest : List Lexeme) :
    let inside := (ms.map piece).flatMap Piece.lexemes ++ .mark .closeBracket :: rest
    ¬Piece.rangeFollows inside ∧ inside.head? ≠ some (.mark .caret) := by
  cases ms with
  | nil => exact ⟨by simp [Piece.rangeFollows], by simp⟩
  | cons m ms =>
    obtain ⟨g, more, first⟩ := m.lexemes_eq_cons
    -- A member is never written with a bare dash or caret in front.
    obtain ⟨no_mark, no_dash, -⟩ := g.lexemeInSet_bare
    simp only [List.map_cons, List.flatMap_cons, first, List.cons_append, List.head?_cons]
    refine ⟨?_, by simpa using no_mark .caret⟩
    unfold Piece.rangeFollows
    split
    next equal => exact absurd (List.cons.inj equal).1 no_dash
    · simp

theorem Member.rowLegal_pieces (ms : List Member) (rest : List Lexeme) :
    Piece.RowLegal (.mark .closeBracket :: rest) (ms.map piece) := by
  induction ms with
  | nil => trivial
  | cons m ms ih =>
    cases m with
    | single c =>
      exact ⟨c.glyph.lexemeInSet_bare.1 _, (row_bare ms rest).1, ih⟩
    | range first last s =>
      exact ⟨first.glyph.lexemeInSet_bare.1 _, last.glyph.lexemeInSet_bare.2.2, ih⟩

theorem CharSet.legal_bracket (s : CharSet) (rest : List Lexeme) : s.bracket.Legal rest :=
  ⟨fun _ => (Member.row_bare s.members rest).2, Member.rowLegal_pieces s.members rest, Or.inl rfl⟩

-- ═══════════════════════════════════════════════════════════════
-- Headers
-- ═══════════════════════════════════════════════════════════════

theorem Text.spelled_of_isNamePart {c : Char} (part : isNamePart c) : (Lexeme.plain c).Spelled := by
  constructor
  · rintro rfl
    revert part
    decide
  · cases found : Mark.ofChar? c with
    | none => rfl
    | some m =>
      obtain rfl := Mark.char_of_ofChar? found
      revert part
      cases m <;> decide

theorem GroupKind.spelledAs_lexemes {k : GroupKind} (wellFormed : k.WellFormed) :
    SpelledAs k.lexemes k.opening := by
  have modifier {ls : List Lexeme} {source : List Char} (rest : SpelledAs ls source) :
      SpelledAs (.mark .openParen :: .mark .question :: ls) ('(' :: '?' :: source) :=
    (SpelledAs.mark .openParen).append ((SpelledAs.mark .question).append rest)
  have angle : SpelledAs [.plain '<'] ['<'] := SpelledAs.bare ⟨by decide, rfl⟩
  have equals : SpelledAs [.plain '='] ['='] := SpelledAs.bare ⟨by decide, rfl⟩
  have bang : SpelledAs [.plain '!'] ['!'] := SpelledAs.bare ⟨by decide, rfl⟩
  cases k with
  | capture => exact SpelledAs.mark .openParen
  | named name =>
    have chars : SpelledAs (plainRow name.toList) name.toList :=
      SpelledAs.plainRow fun c member =>
        Text.spelled_of_isNamePart (Text.isNamePart_of_isName wellFormed c member)
    exact ((modifier angle).append chars).append (SpelledAs.bare ⟨by decide, rfl⟩)
  | grouping => exact modifier (SpelledAs.bare ⟨by decide, rfl⟩)
  | look l =>
    cases l with
    | ahead => exact modifier equals
    | notAhead => exact modifier bang
    | behind => exact modifier (angle.append equals)
    | notBehind => exact modifier (angle.append bang)

end PatternTree
