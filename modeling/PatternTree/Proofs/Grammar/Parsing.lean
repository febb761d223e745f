import PatternTree.Proofs.Grammar.Parts

/-!
Parsing accepts exactly the grammar. Phrases with nothing wrong derive from the rules, and what
derives from the rules is written as such phrases; since reading is exact, they are what is read.
-/

namespace PatternTree

open Grammar

-- ═══════════════════════════════════════════════════════════════
-- From phrases to derivations
-- ═══════════════════════════════════════════════════════════════

theorem Branch.shape_eq (b : Branch) : b.shape = ⟨Item.rowShape b.items, .blank⟩ := by
  cases b
  rfl

theorem Lexeme.derives {l : Lexeme} (item : l.isItem) (start levels : Nat)
    (rest : List Token.Kind) :
    ∃ i, l.item? start = some i ∧ Prefix levels (l.kind :: rest) rest i.shape := by
  have glyph {g : Glyph} (found : l.kind.bodyGlyph? = some g)
      (stands : l.item? start = some (.character ⟨g, ⟨start, start + l.width⟩⟩)) :
      ∃ i, l.item? start = some i ∧ Prefix levels (l.kind :: rest) rest i.shape :=
    ⟨_, stands, .character found⟩
  cases l with
  | mark m =>
    cases m with
    | caret => exact ⟨_, rfl, .lineStart⟩
    | dollar => exact ⟨_, rfl, .lineEnd⟩
    | dot => exact ⟨_, rfl, .anyCharacter⟩
    | closeBracket | openBrace | closeBrace => exact glyph rfl rfl
    | _ => cases item
  | plain c => exact glyph rfl rfl
  | escape c => exact glyph (bodyGlyph?_escape c) rfl
  | dangling => cases item

/-- One more item in front of the first alternative. -/
theorem Grammar.Alternatives.cons {levels : Nat} {input inside middle rest : List Token.Kind}
    {i : Item} {qs : List Quantifier} {first : Branch} {others : List Branch}
    (item : Prefix levels input inside i) (quantifiers : Quantifiers inside middle qs)
    (few : qs.length ≤ maxStacked) (alternatives : Alternatives levels middle rest first others) :
    Alternatives levels input rest ⟨i.inQuantifiers qs :: first.items, .blank⟩ others := by
  cases alternatives with
  | last row => exact .last (.cons item quantifiers few row)
  | more row others => exact .more (.cons item quantifiers few row) others

namespace Phrase

mutual

theorem derives_item (p : Phrase) {levels start : Nat} {rest : List Lexeme}
    (legal : p.Legal levels rest) (other : p ≠ .bar)
    (last : Lexeme.DanglingLast (p.lexemes ++ rest)) (clean : p.diagnostics start = []) :
    ∃ item i inside qs, p.item? start = some item ∧
      Prefix levels ((p.lexemes ++ rest).map Lexeme.kind) inside i ∧
      Quantifiers inside (rest.map Lexeme.kind) qs ∧ qs.length ≤ maxStacked ∧
      item.shape = i.inQuantifiers qs := by
  match p with
  | .bar => exact absurd rfl other
  | .stray l => cases clean
  | .tooDeep ls => cases clean
  | .single l rs =>
    obtain ⟨inOrder, few⟩ := Repetition.diagnostics_eq_nil_iff.mp clean
    obtain ⟨item, stands, derives⟩ := Lexeme.derives legal.1 start levels
      ((rs.flatMap Repetition.lexemes ++ rest).map Lexeme.kind)
    exact ⟨_, item.shape, _, _, by rw [item?, stands]; rfl, derives,
      Repetition.row_derives legal.2 inOrder, by simpa using few,
      Repetition.shape_wrap few start item _⟩
  | .set b rs =>
    obtain ⟨inside, repeated⟩ := List.append_eq_nil_iff.mp clean
    obtain ⟨inOrder, few⟩ := Repetition.diagnostics_eq_nil_iff.mp repeated
    rw [lexemes, List.append_assoc] at last ⊢
    have derives := Bracket.derives start legal.1 last inside
    exact ⟨_, .set (b.charSet start).shape, _, _, rfl, .set derives,
      Repetition.row_derives legal.2 inOrder, by simpa using few,
      Repetition.shape_wrap few start _ _⟩
  | .group h body closed rs =>
    obtain ⟨⟨inner, rfl, row⟩, header, -, repeats⟩ := legal
    rw [diagnostics] at clean
    simp only [List.append_eq_nil_iff] at clean
    obtain ⟨⟨⟨known, inside⟩, ended⟩, repeated⟩ := clean
    obtain ⟨inOrder, few⟩ := Repetition.diagnostics_eq_nil_iff.mp repeated
    -- With nothing wrong, the group is closed and its modifier is known.
    obtain rfl : closed = true := by
      cases closed with
      | true => rfl
      | false => cases ended
    obtain ⟨k, rfl⟩ : ∃ k, h = .kind k := by
      cases h with
      | kind k => exact ⟨k, rfl⟩
      | unknown => cases known
    let after := rs.flatMap Repetition.lexemes ++ rest
    have text : (Phrase.group (.kind k) body true rs).lexemes ++ rest =
        k.lexemes ++ (rowLexemes body ++ .mark .closeParen :: after) := by
      simp [lexemes, Header.lexemes, closing, after]
    -- The rule takes the parenthesis first, so it is split off from the rest of the header.
    obtain ⟨more, opening⟩ := (Header.kind k).lexemes_eq_cons
    have opening : k.lexemes = .mark .openParen :: more := opening
    rw [text] at last ⊢
    have body_derives := derives_row body (start + (Header.kind k).width) row last.of_append inside
    have modifier : Modifier ((more ++ (rowLexemes body ++ .mark .closeParen :: after)).map
        Lexeme.kind) ((rowLexemes body ++ .mark .closeParen :: after).map Lexeme.kind) k :=
      Header.derives header (by rw [opening]; rfl)
    have group := Prefix.group modifier body_derives
    rw [← Expression.shape_ofBranches] at group
    rw [opening]
    exact ⟨_, _, _, _, rfl, group, Repetition.row_derives repeats inOrder, by simpa using few,
      Repetition.shape_wrap few start _ _⟩

theorem derives_row (ps : List Phrase) {levels : Nat} {inGroup : Bool} (start : Nat)
    {position : Nat} {rest : List Lexeme} (row : RowLegal levels inGroup rest ps)
    (last : Lexeme.DanglingLast (rowLexemes ps ++ rest)) (clean : rowDiagnostics position ps = []) :
    Alternatives levels ((rowLexemes ps ++ rest).map Lexeme.kind) (rest.map Lexeme.kind)
      (branches start position ps).1.shape ((branches start position ps).2.map Branch.shape) := by
  match ps with
  | [] => exact .last .nil
  | p :: ps =>
    obtain ⟨legal, -, row⟩ := row
    obtain ⟨here, after⟩ := List.append_eq_nil_iff.mp clean
    rw [rowLexemes, List.append_assoc] at last ⊢
    by_cases bar : p = .bar
    · subst bar
      rw [branches]
      exact .more .nil (derives_row ps (position + 1) row last.of_append after)
    · obtain ⟨item, i, inside, qs, stands, derives, quantifiers, few, shape⟩ :=
        derives_item p legal bar last here
      have alternatives := derives_row ps start row last.of_append after
      -- What is written first goes to the front of the first alternative, as in the tree.
      have all := Alternatives.cons derives quantifiers few alternatives
      rw [branches_item stands, Branch.shape_eq, Item.rowShape, shape]
      rwa [Branch.shape_eq] at all

end

end Phrase

-- ═══════════════════════════════════════════════════════════════
-- From derivations to phrases
-- ═══════════════════════════════════════════════════════════════

theorem Token.Kind.bodyGlyph?_mark {k : Token.Kind} {g : Glyph} (glyph : k.bodyGlyph? = some g) :
    ∀ m ∈ [Mark.question, .star, .plus], k ≠ .mark m := by
  intro m member
  rintro rfl
  simp only [List.mem_cons, List.not_mem_nil, or_false] at member
  rcases member with rfl | rfl | rfl <;> cases glyph

namespace Grammar

/-- No item begins with a sign of a quantifier. -/
theorem Prefix.unrepeated {levels : Nat} {input rest : List Token.Kind} {i : Item}
    (item : Prefix levels input rest i) : Unrepeated input := by
  intro m member
  cases item with
  | character glyph => simpa using Token.Kind.bodyGlyph?_mark glyph m member
  | set set =>
    simp only [List.mem_cons, List.not_mem_nil, or_false] at member
    cases set <;> rcases member with rfl | rfl | rfl <;> simp
  | _ =>
    simp only [List.mem_cons, List.not_mem_nil, or_false] at member
    rcases member with rfl | rfl | rfl <;> simp

theorem Row.unrepeated {levels : Nat} {input rest : List Token.Kind} {items : List Item}
    (row : Row levels input rest items) (stop : Unrepeated rest) : Unrepeated input := by
  cases row with
  | nil => exact stop
  | cons item => exact item.unrepeated

theorem unrepeated_mark {m : Mark} {rest : List Token.Kind}
    (other : m ∉ [Mark.question, .star, .plus]) : Unrepeated (.mark m :: rest) := by
  intro sign member head
  obtain rfl : m = sign := by simpa using head
  exact other member

/-- The phrase is what is written between `ls` and `more`, with nothing wrong, and it stands for
the item in the given quantifiers. -/
structure Writes (levels : Nat) (ls more : List Lexeme) (i : Item) (p : Phrase) : Prop where
  text : ls = p.lexemes ++ more
  legal : p.Legal levels more
  clean : ∀ start, p.diagnostics start = []
  stands : ∀ start, ∃ item, p.item? start = some item ∧ item.shape = i

/-- A row of phrases is what is written between `ls` and `more`, with nothing wrong. -/
structure WritesRow (levels : Nat) (inGroup : Bool) (ls more : List Lexeme) (first : Branch)
    (others : List Branch) (ps : List Phrase) : Prop where
  text : ls = Phrase.rowLexemes ps ++ more
  legal : Phrase.RowLegal levels inGroup more ps
  clean : ∀ start, Phrase.rowDiagnostics start ps = []
  first : ∀ start position, (Phrase.branches start position ps).1.shape = first
  others : ∀ start position, (Phrase.branches start position ps).2.map Branch.shape = others

theorem WritesRow.nil (levels : Nat) (inGroup : Bool) (ls : List Lexeme) :
    WritesRow levels inGroup ls ls ⟨[], .blank⟩ [] [] :=
  ⟨rfl, trivial, fun _ => rfl, fun _ _ => rfl, fun _ _ => rfl⟩

theorem Writes.cons {levels : Nat} {inGroup : Bool} {ls middle more : List Lexeme} {i : Item}
    {p : Phrase} {first : Branch} {others : List Branch} {ps : List Phrase}
    (item : Writes levels ls middle i p)
    (row : WritesRow levels inGroup middle more first others ps) :
    WritesRow levels inGroup ls more ⟨i :: first.items, .blank⟩ others (p :: ps) where
  text := by rw [item.text, row.text, Phrase.rowLexemes, List.append_assoc]
  legal := by
    refine ⟨row.text ▸ item.legal, ?_, row.legal⟩
    -- A stray parenthesis would stand for no item.
    rintro - rfl
    obtain ⟨_, none, -⟩ := item.stands 0
    cases none
  clean start := by
    rw [Phrase.rowDiagnostics, item.clean, row.clean]
    rfl
  first start position := by
    obtain ⟨_, stands, rfl⟩ := item.stands position
    rw [Phrase.branches_item stands, Branch.shape_eq, ← row.first start (position + p.width),
      Branch.shape_eq]
    rfl
  others start position := by
    obtain ⟨_, stands, -⟩ := item.stands position
    rw [Phrase.branches_item stands]
    exact row.others start (position + p.width)

theorem WritesRow.bar {levels : Nat} {inGroup : Bool} {ls middle more : List Lexeme}
    {first next : Branch} {others : List Branch} {ps qs : List Phrase}
    (row : WritesRow levels inGroup ls (.mark .bar :: middle) first [] ps)
    (rest : WritesRow levels inGroup middle more next others qs) :
    WritesRow levels inGroup ls more first (next :: others) (ps ++ .bar :: qs) where
  text := by
    rw [row.text, rest.text, Phrase.rowLexemes_append, List.append_assoc]
    rfl
  legal := by
    refine Phrase.rowLegal_append.mpr ⟨?_, trivial, by simp, rest.legal⟩
    have legal := row.legal
    rw [rest.text] at legal
    exact legal
  clean start := by
    rw [Phrase.rowDiagnostics_append, row.clean, Phrase.rowDiagnostics, rest.clean]
    rfl
  first start position := by
    rw [Phrase.branches_append_bar]
    exact row.first start position
  others start position := by
    rw [Phrase.branches_append_bar, List.map_append, row.others, List.map_cons, rest.first,
      rest.others]
    rfl

theorem writes_single {levels : Nat} {l : Lexeme} {i : Item} (item : l.isItem)
    (stands : ∀ start, ∃ i', l.item? start = some i' ∧ i'.shape = i) (more : List Lexeme) :
    ∀ rs after, more = rs.flatMap Repetition.lexemes ++ after →
      Repetition.RowLegal after rs → (∀ r ∈ rs, r.amount.reversed = false) →
      rs.length ≤ maxStacked →
      Writes levels (l :: more) after (i.inQuantifiers (rs.map Repetition.quantifier))
        (.single l rs) := by
  rintro rs after rfl row inOrder few
  constructor
  · rfl
  · exact ⟨item, row⟩
  · exact fun _ => Repetition.diagnostics_eq_nil_iff.mpr ⟨inOrder, few⟩
  · intro start
    obtain ⟨i', found, rfl⟩ := stands start
    rw [Phrase.item?, found]
    exact ⟨_, rfl, Repetition.shape_wrap few start i' _⟩

end Grammar

/-- A token that the grammar takes for a character is an item on its own. -/
theorem Lexeme.item?_of_bodyGlyph? {l : Lexeme} {g : Glyph}
    (glyph : l.kind.bodyGlyph? = some g) :
    l.isItem ∧ ∀ start, ∃ i, l.item? start = some i ∧ i.shape = .character ⟨g, .blank⟩ := by
  rw [bodyGlyph?_kind] at glyph
  split at glyph
  next character =>
    obtain ⟨item, noCaret, noDollar, noDot⟩ := character
    refine ⟨item, fun start => ⟨.character ⟨g, ⟨start, start + l.width⟩⟩, ?_, rfl⟩⟩
    unfold item?
    split
    · exact absurd rfl noCaret
    · exact absurd rfl noDollar
    · exact absurd rfl noDot
    · rw [glyph]
      rfl
  · cases glyph

namespace Grammar

mutual

theorem Alternatives.phrases {levels : Nat} {input rest : List Token.Kind} {first : Branch}
    {others : List Branch} (alternatives : Alternatives levels input rest first others)
    (inGroup : Bool) (stop : Unrepeated rest) {ls : List Lexeme}
    (kinds : ls.map Lexeme.kind = input) :
    ∃ (ps : List Phrase) (more : List Lexeme), more.map Lexeme.kind = rest ∧
      WritesRow levels inGroup ls more first others ps := by
  match alternatives with
  | .last row => exact row.phrases inGroup stop kinds
  | .more row others =>
    -- A bar is no sign of a quantifier, so it stops the alternative before it.
    obtain ⟨ps, _, tail, before⟩ := row.phrases inGroup (unrepeated_mark (by decide)) kinds
    obtain ⟨middle, rfl, kinds'⟩ := eq_cons_mark_of_kinds tail
    obtain ⟨qs, more, tail', after⟩ := others.phrases inGroup stop kinds'
    exact ⟨_, more, tail', before.bar after⟩

theorem Row.phrases {levels : Nat} {input rest : List Token.Kind} {items : List Item}
    (row : Row levels input rest items) (inGroup : Bool) (stop : Unrepeated rest)
    {ls : List Lexeme} (kinds : ls.map Lexeme.kind = input) :
    ∃ (ps : List Phrase) (more : List Lexeme), more.map Lexeme.kind = rest ∧
      WritesRow levels inGroup ls more ⟨items, .blank⟩ [] ps := by
  match row with
  | .nil => exact ⟨[], ls, kinds, .nil levels inGroup ls⟩
  | .cons item quantifiers few row =>
    obtain ⟨p, _, tail, written⟩ := item.phrase kinds
    -- Reading takes all signs that come next, so the row after them must not begin with one.
    obtain ⟨rs, middle, rfl, tail', repeats, inOrder, rfl⟩ :=
      quantifiers.repetitions (row.unrepeated stop) tail
    obtain ⟨ps, more, tail'', after⟩ := row.phrases inGroup stop tail'
    have here := written rs middle rfl repeats inOrder (by simpa using few)
    exact ⟨_, more, tail'', here.cons after⟩

/-- What derives from the rule of prefixes is written as a phrase, whatever quantifiers come after
it. -/
theorem Prefix.phrase {levels : Nat} {input rest : List Token.Kind} {i : Item}
    (item : Prefix levels input rest i) {ls : List Lexeme} (kinds : ls.map Lexeme.kind = input) :
    ∃ (p : List Repetition → Phrase) (more : List Lexeme), more.map Lexeme.kind = rest ∧
      ∀ rs after, more = rs.flatMap Repetition.lexemes ++ after →
        Repetition.RowLegal after rs → (∀ r ∈ rs, r.amount.reversed = false) →
        rs.length ≤ maxStacked →
        Writes levels ls after (i.inQuantifiers (rs.map Repetition.quantifier)) (p rs) := by
  match item with
  | .lineStart =>
    obtain ⟨more, rfl, tail⟩ := eq_cons_mark_of_kinds kinds
    refine ⟨.single (.mark .caret), more, tail, writes_single rfl ?_ more⟩
    exact fun _ => ⟨_, rfl, rfl⟩
  | .lineEnd =>
    obtain ⟨more, rfl, tail⟩ := eq_cons_mark_of_kinds kinds
    refine ⟨.single (.mark .dollar), more, tail, writes_single rfl ?_ more⟩
    exact fun _ => ⟨_, rfl, rfl⟩
  | .anyCharacter =>
    obtain ⟨more, rfl, tail⟩ := eq_cons_mark_of_kinds kinds
    refine ⟨.single (.mark .dot), more, tail, writes_single rfl ?_ more⟩
    exact fun _ => ⟨_, rfl, rfl⟩
  | .character glyph =>
    obtain ⟨l, more, rfl, rfl, tail⟩ := List.map_eq_cons_iff.mp kinds
    obtain ⟨character, stands⟩ := Lexeme.item?_of_bodyGlyph? glyph
    exact ⟨.single l, more, tail, writes_single character stands more⟩
  | .set set =>
    obtain ⟨b, more, rfl, tail, legal, clean⟩ := set.bracket kinds
    refine ⟨.set b, more, tail, ?_⟩
    rintro rs after rfl row inOrder few
    constructor
    · simp [Phrase.lexemes]
    · exact ⟨legal, row⟩
    · intro start
      rw [Phrase.diagnostics, (clean start).2, Repetition.diagnostics_eq_nil_iff.mpr ⟨inOrder, few⟩]
      rfl
    · intro start
      refine ⟨_, rfl, ?_⟩
      rw [Repetition.shape_wrap few, Item.shape, (clean start).1]
  | @Prefix.group _ _ _ _ k _ _ modifier body =>
    obtain ⟨_, rfl, opened⟩ := eq_cons_mark_of_kinds kinds
    obtain ⟨_, text, tail, header⟩ := modifier.header opened
    obtain ⟨ps, _, tail', inside⟩ := body.phrases true (unrepeated_mark (by decide)) tail
    obtain ⟨more, rfl, tail''⟩ := eq_cons_mark_of_kinds tail'
    refine ⟨.group (.kind k) ps true, more, tail'', ?_⟩
    rintro rs after rfl row inOrder few
    constructor
    · rw [text, inside.text]
      simp [Phrase.lexemes, Header.lexemes, closing]
    · rw [inside.text] at header
      exact ⟨⟨_, rfl, inside.legal⟩, header, Or.inl rfl, row⟩
    · intro start
      simp only [Phrase.diagnostics, inside.clean,
        Repetition.diagnostics_eq_nil_iff.mpr ⟨inOrder, few⟩]
      rfl
    · intro start
      refine ⟨_, rfl, ?_⟩
      rw [Repetition.shape_wrap few, Item.shape, Expression.shape_ofBranches, inside.first,
        inside.others]
      rfl

end

end Grammar

-- ═══════════════════════════════════════════════════════════════
-- Parsing
-- ═══════════════════════════════════════════════════════════════

/-- Parsing accepts exactly the patterns whose tokens derive from the grammar, and a pattern that
does has one derivation, whose tree is the tree that it parses to. -/
theorem Pattern.parse_derives (p : Pattern) :
    (p.parse.diagnostics = [] ↔ ∃ e, Derives p.kinds e) ∧
      ∀ e, Derives p.kinds e ↔ p.parse.diagnostics = [] ∧ p.parse.expression.shape = e := by
  have sound (clean : p.parse.diagnostics = []) : Derives p.kinds p.parse.expression.shape := by
    have last : Lexeme.DanglingLast (Phrase.rowLexemes p.phrases ++ []) := by
      rw [List.append_nil, p.rowLexemes_phrases]
      exact Lexeme.danglingLast_scan _
    have derives := Phrase.derives_row p.phrases 0 p.rowLegal_phrases last clean
    rw [List.append_nil, p.rowLexemes_phrases, ← p.kinds_eq] at derives
    exact ⟨_, _, derives, Expression.shape_ofBranches _ _⟩
  have complete {e : Expression} (derives : Derives p.kinds e) :
      p.parse.diagnostics = [] ∧ p.parse.expression.shape = e := by
    obtain ⟨first, others, alternatives, rfl⟩ := derives
    obtain ⟨ps, more, tail, written⟩ := alternatives.phrases false (by simp [Unrepeated])
      p.kinds_eq.symm
    obtain rfl := List.map_eq_nil_iff.mp tail
    -- The phrases written for the derivation are legal, so they are the ones that are read.
    have read : Phrase.readRow (Phrase.groupReader maxDepth) false p.lexemes = (ps, []) :=
      Phrase.readRow_eq_iff.mpr ⟨written.text.symm, written.legal, Or.inl rfl⟩
    have phrases : p.phrases = ps := congrArg Prod.fst read
    rw [parse, phrases]
    refine ⟨written.clean 0, ?_⟩
    rw [Phrase.expression, Expression.shape_ofBranches, written.first, written.others]
  refine ⟨⟨fun clean => ⟨_, sound clean⟩, ?_⟩, fun e => ⟨complete, ?_⟩⟩
  · rintro ⟨e, derives⟩
    exact (complete derives).1
  · rintro ⟨clean, rfl⟩
    exact sound clean

end PatternTree
