import PatternTree.Proofs.Grammar.Tokens
import PatternTree.Proofs.Legality.Places
import PatternTree.Proofs.Meaning.WellFormed

/-!
The rules of the grammar for quantifiers, sets and modifiers, and the parts of phrases. Main
statements: a legal part with nothing wrong derives from its rule, and what derives from a rule is
written as such a part.
-/

namespace PatternTree

theorem eq_cons_mark_of_kinds {ls : List Lexeme} {m : Mark} {rest : List Token.Kind}
    (kinds : ls.map Lexeme.kind = .mark m :: rest) :
    ∃ more, ls = .mark m :: more ∧ more.map Lexeme.kind = rest := by
  obtain ⟨l, more, rfl, first, tail⟩ := List.map_eq_cons_iff.mp kinds
  obtain rfl := Lexeme.kind_eq_mark.mp first
  exact ⟨more, rfl, tail⟩

theorem eq_cons_plain_of_kinds {ls : List Lexeme} {c : Char} {rest : List Token.Kind}
    (plain : Control.letter? c = none) (kinds : ls.map Lexeme.kind = .character c false :: rest) :
    ∃ more, ls = .plain c :: more ∧ more.map Lexeme.kind = rest := by
  obtain ⟨l, more, rfl, first, tail⟩ := List.map_eq_cons_iff.mp kinds
  obtain rfl := (Lexeme.kind_eq_bare plain).mp first
  exact ⟨more, rfl, tail⟩

theorem head?_kinds_ne_mark {ls : List Lexeme} {m : Mark} :
    (ls.map Lexeme.kind).head? ≠ some (.mark m) ↔ ls.head? ≠ some (.mark m) := by
  cases ls with
  | nil => simp
  | cons l ls => simp [Lexeme.kind_eq_mark]

-- ═══════════════════════════════════════════════════════════════
-- Quantifiers
-- ═══════════════════════════════════════════════════════════════

namespace Grammar

/-- No sign of a quantifier comes next. -/
def Unrepeated (input : List Token.Kind) : Prop :=
  ∀ m ∈ [Mark.question, .star, .plus], input.head? ≠ some (.mark m)

theorem Count.legal {digits : List Char} {n : UInt32} (count : Count digits n) :
    Amount.LegalCount digits ∧ UInt32.ofNat (countValue digits) = n := by
  obtain ⟨some_digit, all, value⟩ := count
  have bound := n.toNat_lt
  have holds : countValue digits ≤ maxCount := by
    rw [value, maxCount]
    omega
  exact ⟨⟨by simp [isCount, some_digit, holds], all⟩, by rw [value, UInt32.ofNat_toNat]⟩

theorem count_of_legal {digits : List Char} (legal : Amount.LegalCount digits) :
    Count digits (UInt32.ofNat (countValue digits)) := by
  refine ⟨?_, legal.2, legal.toNat_ofNat.symm⟩
  simpa using (Bool.and_eq_true_iff.mp legal.1).1

theorem Count.plain {digits : List Char} {n : UInt32} (count : Count digits n) :
    ∀ d ∈ digits, Control.letter? d = none :=
  fun d member => Control.letter?_digit (count.2.1 d member)

end Grammar

open Grammar

/-- Legal amounts that are not in order still open a range. -/
theorem Amount.range_derives {a : Amount} (legal : a.Legal) {rest : List Lexeme}
    (opens : (a.lexemes ++ rest).head? = some (.mark .openBrace)) :
    ∃ m n, Range ((a.lexemes ++ rest).map Lexeme.kind) (rest.map Lexeme.kind) m n ∧
      (a.reversed = false → a.bounds = (m, n)) := by
  cases a with
  | zeroOrOne | zeroOrMore | oneOrMore => cases opens
  | exactly n =>
    have range : Range _ (rest.map Lexeme.kind) _ _ := .exactly (count_of_legal legal)
    exact ⟨_, _, by simpa [lexemes, kinds_plainRow] using range, fun _ => rfl⟩
  | atLeast n =>
    have range : Range _ (rest.map Lexeme.kind) _ _ := .atLeast (count_of_legal legal)
    exact ⟨_, _, by simpa [lexemes, kinds_plainRow] using range, fun _ => rfl⟩
  | between m n =>
    have range : Range _ (rest.map Lexeme.kind) _ _ :=
      .between (count_of_legal legal.1) (count_of_legal legal.2)
    refine ⟨_, _, by simpa [lexemes, kinds_plainRow] using range, fun inOrder => ?_⟩
    simp only [reversed, decide_eq_false_iff_not] at inOrder
    rw [bounds, if_neg inOrder]

theorem Amount.derives {a : Amount} (legal : a.Legal) (inOrder : a.reversed = false)
    (rest : List Lexeme) :
    Bounds ((a.lexemes ++ rest).map Lexeme.kind) (rest.map Lexeme.kind) a.bounds.1 a.bounds.2 := by
  have braces (opens : (a.lexemes ++ rest).head? = some (.mark .openBrace)) :
      Bounds ((a.lexemes ++ rest).map Lexeme.kind) (rest.map Lexeme.kind)
        a.bounds.1 a.bounds.2 := by
    obtain ⟨m, n, range, same⟩ := range_derives legal opens
    rw [same inOrder]
    exact .range range
  cases a with
  | zeroOrOne => exact .question
  | zeroOrMore => exact .star
  | oneOrMore => exact .plus
  | exactly | atLeast | between => exact braces rfl

namespace Grammar

/-- Whether the counts of a range are written the other way round. -/
def countsReversed (m : UInt32) (n : Option UInt32) : Bool := n.any (· < m)

/-- The bounds that the counts of a range stand for. Reversed ones change places. -/
def countsInOrder (m : UInt32) : Option UInt32 → UInt32 × Option UInt32
  | some n => if n < m then (n, some m) else (m, some n)
  | none => (m, none)

theorem countsInOrder_of_ordered {m : UInt32} {n : Option UInt32} {lazy : Bool}
    (ordered : (Quantifier.mk m n lazy).Ordered) :
    countsReversed m n = false ∧ countsInOrder m n = (m, n) := by
  cases n with
  | none => exact ⟨rfl, rfl⟩
  | some n =>
    have kept : ¬n < m := UInt32.not_lt.mpr ordered
    exact ⟨decide_eq_false kept, if_neg kept⟩

/-- Every range is written as a legal amount. -/
theorem Range.written {input rest : List Token.Kind} {m : UInt32} {n : Option UInt32}
    (range : Range input rest m n) {ls : List Lexeme} (kinds : ls.map Lexeme.kind = input) :
    ∃ (a : Amount) (more : List Lexeme), ls = a.lexemes ++ more ∧ more.map Lexeme.kind = rest ∧
      a.Legal ∧ a.reversed = countsReversed m n ∧ a.bounds = countsInOrder m n := by
  -- Digits, a comma and marks have one spelling each, so the tokens give the lexemes.
  cases range with
  | exactly count =>
    obtain ⟨legal, rfl⟩ := count.legal
    obtain ⟨_, rfl, opened⟩ := eq_cons_mark_of_kinds kinds
    obtain ⟨_, rfl, counted⟩ := eq_plainRow_of_kinds count.plain opened
    obtain ⟨more, rfl, closed⟩ := eq_cons_mark_of_kinds counted
    refine ⟨.exactly _, more, by simp [Amount.lexemes], closed, legal, ?_, ?_⟩
    · simp [Amount.reversed, countsReversed]
    · simp [Amount.bounds, countsInOrder]
  | atLeast count =>
    obtain ⟨legal, rfl⟩ := count.legal
    obtain ⟨_, rfl, opened⟩ := eq_cons_mark_of_kinds kinds
    obtain ⟨_, rfl, counted⟩ := eq_plainRow_of_kinds count.plain opened
    obtain ⟨_, rfl, comma⟩ := eq_cons_plain_of_kinds rfl counted
    obtain ⟨more, rfl, closed⟩ := eq_cons_mark_of_kinds comma
    exact ⟨.atLeast _, more, by simp [Amount.lexemes], closed, legal, rfl, rfl⟩
  | between least most =>
    obtain ⟨legal, rfl⟩ := least.legal
    obtain ⟨legal', rfl⟩ := most.legal
    obtain ⟨_, rfl, opened⟩ := eq_cons_mark_of_kinds kinds
    obtain ⟨_, rfl, counted⟩ := eq_plainRow_of_kinds least.plain opened
    obtain ⟨_, rfl, comma⟩ := eq_cons_plain_of_kinds rfl counted
    obtain ⟨_, rfl, counted'⟩ := eq_plainRow_of_kinds most.plain comma
    obtain ⟨more, rfl, closed⟩ := eq_cons_mark_of_kinds counted'
    refine ⟨.between _ _, more, by simp [Amount.lexemes], closed, ⟨legal, legal'⟩, ?_, ?_⟩
    -- Counts that a quantifier can hold are compared as they are written.
    · simp [Amount.reversed, countsReversed, UInt32.lt_iff_toNat_lt, legal.toNat_ofNat,
        legal'.toNat_ofNat]
    · simp [Amount.bounds, countsInOrder, UInt32.lt_iff_toNat_lt, legal.toNat_ofNat,
        legal'.toNat_ofNat]

/-- A range whose counts are in order is written as an amount with these bounds. -/
theorem Range.amount {input rest : List Token.Kind} {m : UInt32} {n : Option UInt32}
    (range : Range input rest m n) {ls : List Lexeme} (kinds : ls.map Lexeme.kind = input) :
    ∃ (a : Amount) (more : List Lexeme), ls = a.lexemes ++ more ∧ more.map Lexeme.kind = rest ∧
      a.Legal ∧
      ∀ lazy, (Quantifier.mk m n lazy).Ordered → a.reversed = false ∧ a.bounds = (m, n) := by
  obtain ⟨a, more, written, tail, legal, reversed, bounds⟩ := range.written kinds
  refine ⟨a, more, written, tail, legal, fun lazy ordered => ?_⟩
  rw [reversed, bounds]
  exact countsInOrder_of_ordered ordered

theorem Bounds.amount {input rest : List Token.Kind} {m : UInt32} {n : Option UInt32}
    (bounds : Bounds input rest m n) {ls : List Lexeme} (kinds : ls.map Lexeme.kind = input) :
    ∃ (a : Amount) (more : List Lexeme), ls = a.lexemes ++ more ∧ more.map Lexeme.kind = rest ∧
      a.Legal ∧
      ∀ lazy, (Quantifier.mk m n lazy).Ordered → a.reversed = false ∧ a.bounds = (m, n) := by
  cases bounds with
  | question =>
    obtain ⟨more, rfl, tail⟩ := eq_cons_mark_of_kinds kinds
    exact ⟨.zeroOrOne, more, rfl, tail, trivial, fun _ _ => ⟨rfl, rfl⟩⟩
  | star =>
    obtain ⟨more, rfl, tail⟩ := eq_cons_mark_of_kinds kinds
    exact ⟨.zeroOrMore, more, rfl, tail, trivial, fun _ _ => ⟨rfl, rfl⟩⟩
  | plus =>
    obtain ⟨more, rfl, tail⟩ := eq_cons_mark_of_kinds kinds
    exact ⟨.oneOrMore, more, rfl, tail, trivial, fun _ _ => ⟨rfl, rfl⟩⟩
  | range range => exact range.amount kinds

theorem Quantified.repetition {input rest : List Token.Kind} {q : Quantifier}
    (quantified : Quantified input rest q) {ls : List Lexeme}
    (kinds : ls.map Lexeme.kind = input) :
    ∃ (r : Repetition) (more : List Lexeme), ls = r.lexemes ++ more ∧
      more.map Lexeme.kind = rest ∧ r.amount.Legal ∧
      (¬r.lazy → more.head? ≠ some (.mark .question)) ∧ r.amount.reversed = false ∧
      r.quantifier = q := by
  cases quantified with
  | lazy bounds ordered =>
    obtain ⟨a, _, rfl, tail, legal, same⟩ := bounds.amount kinds
    obtain ⟨inOrder, equal⟩ := same true ordered
    obtain ⟨more, rfl, after⟩ := eq_cons_mark_of_kinds tail
    refine ⟨⟨a, true⟩, more, by simp [Repetition.lexemes], after, legal, by simp, inOrder, ?_⟩
    rw [Repetition.quantifier, equal]
  | greedy bounds bare ordered =>
    obtain ⟨a, more, rfl, tail, legal, same⟩ := bounds.amount kinds
    obtain ⟨inOrder, equal⟩ := same false ordered
    rw [← tail, head?_kinds_ne_mark] at bare
    refine ⟨⟨a, false⟩, more, by simp [Repetition.lexemes], tail, legal, fun _ => bare, inOrder, ?_⟩
    rw [Repetition.quantifier, equal]

end Grammar

namespace Repetition

theorem derives {r : Repetition} {rest : List Lexeme} (legal : r.amount.Legal)
    (greedy : ¬r.lazy → rest.head? ≠ some (.mark .question))
    (inOrder : r.amount.reversed = false) :
    Quantified ((r.lexemes ++ rest).map Lexeme.kind) (rest.map Lexeme.kind) r.quantifier := by
  have ordered := Amount.ordered_bounds legal
  obtain ⟨a, lazy⟩ := r
  cases lazy with
  | true =>
    have bounds := Amount.derives legal inOrder (.mark .question :: rest)
    rw [lexemes, List.append_assoc]
    exact .lazy bounds (ordered true)
  | false =>
    have bounds := Amount.derives legal inOrder rest
    rw [lexemes, if_neg (by simp), List.append_nil]
    exact .greedy bounds (head?_kinds_ne_mark.mpr (greedy (by simp))) (ordered false)

/-- Where reading finds no quantifier, none begins and no range opens. -/
theorem read?_eq_none_iff {ls : List Lexeme} : read? ls = none ↔
    Unrepeated (ls.map Lexeme.kind) ∧ ¬∃ rest m n, Range (ls.map Lexeme.kind) rest m n := by
  have amount_none : read? ls = none ↔ Amount.read? ls = none := by
    unfold read?
    split
    next found => simp [found]
    next none => simp [none]
  rw [amount_none]
  -- An amount is read where one of the three signs stands, or where a range opens.
  constructor
  · intro none
    constructor
    · intro m member
      rw [head?_kinds_ne_mark]
      intro head
      obtain ⟨more, rfl⟩ := List.head?_eq_some_iff.mp head
      simp only [List.mem_cons, List.not_mem_nil, or_false] at member
      rcases member with rfl | rfl | rfl <;> cases none
    · rintro ⟨rest, m, n, range⟩
      obtain ⟨a, more, rfl, -, legal, -⟩ := range.amount rfl
      have found : Amount.read? (a.lexemes ++ more) = some (a, more) :=
        Amount.read?_eq_some_iff.mpr ⟨rfl, legal⟩
      rw [none] at found
      cases found
  · rintro ⟨unrepeated, noRange⟩
    cases found : Amount.read? ls with
    | none => rfl
    | some read =>
      obtain ⟨a, rest⟩ := read
      obtain ⟨rfl, legal⟩ := Amount.read?_eq_some_iff.mp found
      have opens : (a.lexemes ++ rest).head? = some (.mark .openBrace) := by
        cases a with
        | zeroOrOne => exact absurd rfl (unrepeated .question (by simp))
        | zeroOrMore => exact absurd rfl (unrepeated .star (by simp))
        | oneOrMore => exact absurd rfl (unrepeated .plus (by simp))
        | exactly | atLeast | between => rfl
      obtain ⟨m, n, range, -⟩ := Amount.range_derives legal opens
      exact absurd ⟨_, m, n, range⟩ noRange

theorem row_derives {rs : List Repetition} {rest : List Lexeme} (row : RowLegal rest rs)
    (inOrder : ∀ r ∈ rs, r.amount.reversed = false) :
    Quantifiers ((rs.flatMap lexemes ++ rest).map Lexeme.kind) (rest.map Lexeme.kind)
      (rs.map quantifier) := by
  induction rs with
  | nil => exact .nil (read?_eq_none_iff.mp row).2
  | cons r rs ih =>
    obtain ⟨legal, greedy, row⟩ := row
    rw [List.flatMap_cons, List.append_assoc]
    exact .cons (derives legal greedy (inOrder r List.mem_cons_self))
      (ih row fun s member => inOrder s (List.mem_cons_of_mem _ member))

/-- The shape of an item that keeps all of its quantifiers. -/
theorem shape_wrap {rs : List Repetition} (few : rs.length ≤ maxStacked) (start : Nat)
    (item : Item) (stop : Nat) :
    (wrap start item stop rs).shape = item.shape.inQuantifiers (rs.map quantifier) := by
  rw [wrap_eq_wrapAll few]
  clear few
  induction rs generalizing item stop with
  | nil => rfl
  | cons r rs ih => exact ih _ _

end Repetition

theorem Grammar.Quantifiers.repetitions {input rest : List Token.Kind} {qs : List Quantifier}
    (quantifiers : Quantifiers input rest qs) (unrepeated : Unrepeated rest) {ls : List Lexeme}
    (kinds : ls.map Lexeme.kind = input) :
    ∃ (rs : List Repetition) (more : List Lexeme), ls = rs.flatMap Repetition.lexemes ++ more ∧
      more.map Lexeme.kind = rest ∧ Repetition.RowLegal more rs ∧
      (∀ r ∈ rs, r.amount.reversed = false) ∧ rs.map Repetition.quantifier = qs := by
  induction quantifiers generalizing ls with
  | nil none =>
    subst kinds
    exact ⟨[], ls, rfl, rfl, Repetition.read?_eq_none_iff.mpr ⟨unrepeated, none⟩, by simp, rfl⟩
  | cons first others ih =>
    obtain ⟨r, _, rfl, tail, legal, greedy, inOrder, rfl⟩ := first.repetition kinds
    obtain ⟨rs, more, rfl, after, row, allInOrder, rfl⟩ := ih unrepeated tail
    exact ⟨r :: rs, more, by simp, after, ⟨legal, greedy, row⟩,
      List.forall_mem_cons.mpr ⟨inOrder, allInOrder⟩, rfl⟩

-- ═══════════════════════════════════════════════════════════════
-- Sets
-- ═══════════════════════════════════════════════════════════════

theorem Lexeme.endsRange_iff (l : Lexeme) : l.endsRange ↔
    l.kind.setGlyph?.isSome ∧ l.kind ≠ .mark .openBracket := by
  rw [setGlyph?_kind]
  cases l with
  | mark m => cases m <;> simp [endsRange, glyphInSet?, glyph?]
  | escape c => simp [endsRange, glyphInSet?, glyph?, kind_eq_mark]
  | _ => simp [endsRange, glyphInSet?, glyph?]

theorem Piece.rangeFollows_iff {ls : List Lexeme} :
    rangeFollows ls ↔ RangeFollows (ls.map Lexeme.kind) := by
  constructor
  · intro follows
    unfold rangeFollows at follows
    split at follows
    next l more =>
      obtain ⟨glyph, other⟩ := l.endsRange_iff.mp follows
      exact ⟨_, _, rfl, glyph, other⟩
    · cases follows
  · rintro ⟨last, rest, kinds, glyph, other⟩
    obtain ⟨_, rfl, tail⟩ := eq_cons_plain_of_kinds rfl kinds
    obtain ⟨l, more, rfl, rfl, -⟩ := List.map_eq_cons_iff.mp tail
    exact l.endsRange_iff.mpr ⟨glyph, other⟩

theorem Lexeme.setGlyph?_of_glyphInSet? {l : Lexeme} {g : Glyph}
    (open' : l ≠ .mark .closeBracket) (glyph : l.glyphInSet? = some g) :
    l.kind.setGlyph? = some g := by
  rw [setGlyph?_kind, if_neg open', glyph]

theorem Lexeme.glyphInSet?_of_setGlyph? {l : Lexeme} {g : Glyph}
    (glyph : l.kind.setGlyph? = some g) : l ≠ .mark .closeBracket ∧ l.glyphInSet? = some g := by
  rw [setGlyph?_kind] at glyph
  split at glyph
  · cases glyph
  next other => exact ⟨other, glyph⟩

namespace Piece

theorem diagnostics_eq_nil_iff {start : Nat} {p : Piece} :
    p.diagnostics start = [] ↔ p ≠ .single .dangling ∧ p.reversed = false := by
  unfold diagnostics
  split
  next lone => simp [lone]
  next other =>
    split
    next reversed => simp [reversed]
    next inOrder => simp [other, inOrder]

/-- A range with nothing wrong keeps its ends in their places. -/
theorem reversed_eq_false_iff {first last : Lexeme} {g h : Glyph}
    (low : first.glyphInSet? = some g) (high : last.glyphInSet? = some h) :
    (range first last).reversed = false ↔ g.InOrder h := by
  cases g with
  | shorthand => simp [reversed, low, Glyph.InOrder]
  | literal c =>
    cases h with
    | shorthand => simp [reversed, low, high, Glyph.InOrder]
    | literal d =>
      simp only [reversed, low, high, Glyph.InOrder, decide_eq_false_iff_not]
      exact Char.not_lt

theorem member?_single {l : Lexeme} {g : Glyph} (glyph : l.glyphInSet? = some g) (start : Nat) :
    (single l).member? start = some (.single ⟨g, ⟨start, start + l.width⟩⟩) := by
  rw [member?, glyph]
  rfl

theorem row_derives {ps : List Piece} {rest : List Lexeme} (start : Nat)
    (row : RowLegal rest ps) (last : Lexeme.DanglingLast (ps.flatMap lexemes ++ rest))
    (clean : rowDiagnostics start ps = []) :
    Members ((ps.flatMap lexemes ++ rest).map Lexeme.kind) (rest.map Lexeme.kind)
      ((members start ps).map Member.shape) := by
  induction ps generalizing start with
  | nil => exact .nil
  | cons p ps ih =>
    obtain ⟨here, after⟩ := List.append_eq_nil_iff.mp clean
    obtain ⟨lone, inOrder⟩ := diagnostics_eq_nil_iff.mp here
    rw [List.flatMap_cons, List.append_assoc] at last ⊢
    cases p with
    | single l =>
      obtain ⟨open', alone, row⟩ := row
      have other : l ≠ .dangling := by
        rintro rfl
        exact lone rfl
      obtain ⟨g, glyph⟩ := Lexeme.exists_glyphInSet? other
      have more := ih (start + l.width) row last.2 after
      rw [members, member?_single glyph]
      exact .single (Lexeme.setGlyph?_of_glyphInSet? open' glyph)
        (mt rangeFollows_iff.mpr alone) more
    | range low high =>
      obtain ⟨open', ends, row⟩ := row
      obtain ⟨glyph', closes⟩ := high.endsRange_iff.mp ends
      obtain ⟨h, found'⟩ := Option.isSome_iff_exists.mp glyph'
      -- The dash comes after the lower end, so that is no lone backslash.
      obtain ⟨g, found⟩ : ∃ g, low.glyphInSet? = some g :=
        Lexeme.exists_glyphInSet? fun dangling => List.cons_ne_nil _ _ (last.1 dangling)
      have ordered := (reversed_eq_false_iff found
        (Lexeme.glyphInSet?_of_setGlyph? found').2).mp inOrder
      have more := ih (start + (range low high).width) row last.2.2.2 after
      have member := (member?_range found (Lexeme.glyphInSet?_of_setGlyph? found').2 ordered start)
      rw [members, member.1]
      exact .range (Lexeme.setGlyph?_of_glyphInSet? open' found) found' closes ordered more

end Piece

/-- What derives from the rule of members is written as legal pieces. -/
theorem Grammar.Members.pieces {input rest : List Token.Kind} {ms : List Member}
    (members : Members input rest ms) {ls : List Lexeme} (kinds : ls.map Lexeme.kind = input) :
    ∃ (ps : List Piece) (more : List Lexeme), ls = ps.flatMap Piece.lexemes ++ more ∧
      more.map Lexeme.kind = rest ∧ Piece.RowLegal more ps ∧
      ∀ start, (Piece.members start ps).map Member.shape = ms ∧
        Piece.rowDiagnostics start ps = [] := by
  induction members generalizing ls with
  | nil => exact ⟨[], ls, rfl, kinds, trivial, fun _ => ⟨rfl, rfl⟩⟩
  | single character alone _ ih =>
    obtain ⟨l, _, rfl, rfl, tail⟩ := List.map_eq_cons_iff.mp kinds
    obtain ⟨open', glyph⟩ := Lexeme.glyphInSet?_of_setGlyph? character
    obtain ⟨ps, more, rfl, after, row, clean⟩ := ih tail
    rw [← tail] at alone
    refine ⟨.single l :: ps, more, rfl, after, ⟨open', mt Piece.rangeFollows_iff.mp alone, row⟩, ?_⟩
    intro start
    obtain ⟨shapes, rest_clean⟩ := clean (start + (Piece.single l).width)
    -- A lone backslash has no glyph, so the piece is none.
    have here : (Piece.single l).diagnostics start = [] := by
      refine Piece.diagnostics_eq_nil_iff.mpr ⟨?_, rfl⟩
      rintro ⟨⟩
      cases glyph
    constructor
    · rw [Piece.members, Piece.member?_single glyph, List.map_append, shapes]
      rfl
    · rw [Piece.rowDiagnostics, here, rest_clean]
      rfl
  | range low high closes inOrder _ ih =>
    obtain ⟨l, _, rfl, rfl, tail⟩ := List.map_eq_cons_iff.mp kinds
    obtain ⟨_, rfl, tail'⟩ := eq_cons_plain_of_kinds rfl tail
    obtain ⟨l', _, rfl, rfl, tail''⟩ := List.map_eq_cons_iff.mp tail'
    obtain ⟨ps, more, rfl, after, row, clean⟩ := ih tail''
    obtain ⟨open', found⟩ := Lexeme.glyphInSet?_of_setGlyph? low
    obtain ⟨-, found'⟩ := Lexeme.glyphInSet?_of_setGlyph? high
    have ends : l'.endsRange := l'.endsRange_iff.mpr ⟨by rw [high]; rfl, closes⟩
    refine ⟨.range l l' :: ps, more, rfl, after, ⟨open', ends, row⟩, ?_⟩
    intro start
    obtain ⟨shapes, rest_clean⟩ := clean (start + (Piece.range l l').width)
    obtain ⟨member, kept⟩ := Piece.member?_range found found' inOrder start
    have here : (Piece.range l l').diagnostics start = [] :=
      Piece.diagnostics_eq_nil_iff.mpr ⟨by simp, kept⟩
    constructor
    · rw [Piece.members, member, List.map_append, shapes]
      rfl
    · rw [Piece.rowDiagnostics, here, rest_clean]
      rfl

namespace Bracket

theorem diagnostics_eq_nil_iff {start : Nat} {b : Bracket} : b.diagnostics start = [] ↔
    Piece.rowDiagnostics (start + b.openingWidth) b.pieces = [] ∧ b.closed := by
  rw [diagnostics, List.append_eq_nil_iff]
  cases b.closed <;> simp

theorem derives {b : Bracket} {rest : List Lexeme} (start : Nat) (legal : b.Legal rest)
    (last : Lexeme.DanglingLast (b.lexemes ++ rest)) (clean : b.diagnostics start = []) :
    Grammar.Set ((b.lexemes ++ rest).map Lexeme.kind) (rest.map Lexeme.kind)
      (b.charSet start).shape := by
  obtain ⟨members, closed⟩ := diagnostics_eq_nil_iff.mp clean
  obtain ⟨inverted, pieces, _⟩ := b
  obtain rfl : _ = true := closed
  obtain ⟨bare, row, -⟩ := legal
  have text : (lexemes ⟨inverted, pieces, true⟩ ++ rest) = (.mark .openBracket ::
      (if inverted then [.mark .caret] else [])) ++ (pieces.flatMap Piece.lexemes ++
        .mark .closeBracket :: rest) := by
    simp [lexemes, closing]
  rw [text] at last ⊢
  have inside := Piece.row_derives _ row last.of_append members
  cases inverted with
  | true => exact .inverted inside
  | false => exact .plain (head?_kinds_ne_mark.mpr (bare (by simp))) inside

end Bracket

/-- What derives from the rule of sets is written as a legal, closed set. -/
theorem Grammar.Set.bracket {input rest : List Token.Kind} {s : CharSet}
    (set : Grammar.Set input rest s) {ls : List Lexeme} (kinds : ls.map Lexeme.kind = input) :
    ∃ (b : Bracket) (more : List Lexeme), ls = b.lexemes ++ more ∧
      more.map Lexeme.kind = rest ∧ b.Legal more ∧
      ∀ start, (b.charSet start).shape = s ∧ b.diagnostics start = [] := by
  cases set with
  | inverted members =>
    obtain ⟨_, rfl, opened⟩ := eq_cons_mark_of_kinds kinds
    obtain ⟨_, rfl, caret⟩ := eq_cons_mark_of_kinds opened
    obtain ⟨ps, _, rfl, tail, row, clean⟩ := members.pieces caret
    obtain ⟨more, rfl, after⟩ := eq_cons_mark_of_kinds tail
    refine ⟨⟨true, ps, true⟩, more, by simp [Bracket.lexemes, closing], after,
      ⟨by simp, row, Or.inl rfl⟩, fun start => ?_⟩
    obtain ⟨shapes, clean⟩ := clean (start + Bracket.openingWidth ⟨true, ps, true⟩)
    exact ⟨congrArg (CharSet.mk true · .blank) shapes,
      Bracket.diagnostics_eq_nil_iff.mpr ⟨clean, rfl⟩⟩
  | plain bare members =>
    obtain ⟨_, rfl, opened⟩ := eq_cons_mark_of_kinds kinds
    rw [← opened, head?_kinds_ne_mark] at bare
    obtain ⟨ps, _, rfl, tail, row, clean⟩ := members.pieces opened
    obtain ⟨more, rfl, after⟩ := eq_cons_mark_of_kinds tail
    refine ⟨⟨false, ps, true⟩, more, by simp [Bracket.lexemes, closing], after,
      ⟨fun _ => bare, row, Or.inl rfl⟩, fun start => ?_⟩
    obtain ⟨shapes, clean⟩ := clean (start + Bracket.openingWidth ⟨false, ps, true⟩)
    exact ⟨congrArg (CharSet.mk false · .blank) shapes,
      Bracket.diagnostics_eq_nil_iff.mpr ⟨clean, rfl⟩⟩

-- ═══════════════════════════════════════════════════════════════
-- Modifiers
-- ═══════════════════════════════════════════════════════════════

/-- A legal header of a known kind derives from the rule of modifiers. -/
theorem Header.derives {k : GroupKind} {rest : List Lexeme} (legal : (kind k).Legal rest)
    {input : List Token.Kind}
    (kinds : (k.lexemes ++ rest).map Lexeme.kind = .mark .openParen :: input) :
    Modifier input (rest.map Lexeme.kind) k := by
  cases k with
  | capture =>
    obtain rfl := (List.cons.inj kinds).2
    exact .capture (head?_kinds_ne_mark.mpr legal)
  | named name =>
    have named : Modifier _ (rest.map Lexeme.kind) (.named name) := .named legal
    obtain rfl := (List.cons.inj kinds).2
    simpa [GroupKind.lexemes, kinds_plainRow] using named
  | grouping =>
    obtain rfl := (List.cons.inj kinds).2
    exact .grouping
  | look l =>
    cases l <;> obtain rfl := (List.cons.inj kinds).2
    · exact .ahead
    · exact .notAhead
    · exact .behind
    · exact .notBehind

/-- What derives from the rule of modifiers is written as a legal header. -/
theorem Grammar.Modifier.header {input rest : List Token.Kind} {k : GroupKind}
    (modifier : Modifier input rest k) {ls : List Lexeme} (kinds : ls.map Lexeme.kind = input) :
    ∃ more : List Lexeme, .mark .openParen :: ls = k.lexemes ++ more ∧
      more.map Lexeme.kind = rest ∧ (Header.kind k).Legal more := by
  cases modifier with
  | capture bare =>
    rw [← kinds, head?_kinds_ne_mark] at bare
    exact ⟨ls, rfl, kinds, bare⟩
  | grouping | ahead | notAhead =>
    obtain ⟨_, rfl, tail⟩ := eq_cons_mark_of_kinds kinds
    obtain ⟨more, rfl, after⟩ := eq_cons_plain_of_kinds rfl tail
    exact ⟨more, rfl, after, trivial⟩
  | behind | notBehind =>
    obtain ⟨_, rfl, tail⟩ := eq_cons_mark_of_kinds kinds
    obtain ⟨_, rfl, angle⟩ := eq_cons_plain_of_kinds rfl tail
    obtain ⟨more, rfl, after⟩ := eq_cons_plain_of_kinds rfl angle
    exact ⟨more, rfl, after, trivial⟩
  | named valid =>
    -- No control character is part of a name.
    have plain : ∀ c ∈ _, Control.letter? c = none := fun c member =>
      Control.letter?_namePart (Text.isNamePart_of_isName valid c member)
    obtain ⟨_, rfl, tail⟩ := eq_cons_mark_of_kinds kinds
    obtain ⟨_, rfl, angle⟩ := eq_cons_plain_of_kinds rfl tail
    obtain ⟨_, rfl, name⟩ := eq_plainRow_of_kinds plain angle
    obtain ⟨more, rfl, after⟩ := eq_cons_plain_of_kinds rfl name
    exact ⟨more, by simp [GroupKind.lexemes], after, valid⟩

end PatternTree
