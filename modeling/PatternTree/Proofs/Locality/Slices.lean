import Mathlib.Data.List.Infix
import PatternTree.Proofs.Coverage.Laid
import PatternTree.Proofs.Locality.Moved
import PatternTree.Proofs.Locality.Surroundings

/-!
Slices: the part of a pattern that a node spans, parsed on its own. Main statement: it parses to the
node, so a span is the node's own source, and nothing around it had a say in the node.
-/

namespace PatternTree

/-- The part of a pattern that a span takes up. -/
def Pattern.slice (p : Pattern) (s : Span) : Pattern := ⟨p.chars.extract s.start s.stop, p.unicode⟩

/-- The expression that is a node and nothing else. A member of a set is no expression. -/
def Node.alone? : Node → Option Expression
  | expression e => some e
  | branch b => some (.single b)
  | item i => some (.single ⟨[i], i.span⟩)
  | member _ => none

-- ═══════════════════════════════════════════════════════════════
-- Where nodes have their source
-- ═══════════════════════════════════════════════════════════════

/-- The node alone is what legal phrases stand for that are written where the node is. -/
def Node.Sourced (text : List Char) (x : Node) : Prop :=
  ∀ e, x.alone? = some e → ∃ start ps rest, x.span = ⟨start, start + Phrase.rowWidth ps⟩ ∧
    ReadAt text start (Phrase.rowLexemes ps ++ rest) ∧ Phrase.RowLegal maxDepth false [] ps ∧
    Phrase.expression start ps = e

/-- A node with its source in a pattern parses on its own to the node alone. -/
theorem Node.Sourced.parse_eq {p : Pattern} {x : Node} {e : Expression}
    (sourced : x.Sourced p.chars.toList) (alone : x.alone? = some e) :
    (p.slice x.span).parse.expression.moved x.span.start = e := by
  obtain ⟨start, ps, rest, span, here, row, rfl⟩ := sourced e alone
  have lexemes : (p.slice x.span).lexemes = Phrase.rowLexemes ps := by
    have width : ((Phrase.rowLexemes ps).flatMap Lexeme.text).length = Phrase.rowWidth ps := by
      rw [length_flatMap_text, Phrase.textWidth_rowLexemes]
    have chars : (p.slice x.span).chars.toList = (Phrase.rowLexemes ps).flatMap Lexeme.text := by
      rw [Pattern.slice, span, Array.toList_extract, List.extract_eq_take_drop, here.drop_eq,
        List.flatMap_append, Nat.add_sub_cancel_left, ← width, List.take_left]
    rw [Pattern.lexemes, chars, Lexeme.scan_flatMap_text_of_append here.scanned]
  have phrases : (p.slice x.span).phrases = ps := Pattern.phrases_eq lexemes.symm row
  have moved := Phrase.expression_moved start 0 ps
  rw [Nat.zero_add] at moved
  rw [Pattern.parse, phrases, span, moved]

namespace Phrase

variable {text : List Char} {levels start : Nat} {inGroup : Bool} {rest : List Lexeme}

/-- A row that nothing is skipped in is legal on its own. -/
theorem RowLegal.alone {ps : List Phrase} (row : RowLegal levels inGroup rest ps)
    (le : levels ≤ maxDepth) (shallow : ∀ d ∈ rowDiagnostics start ps, d.kind ≠ .groupTooDeep) :
    RowLegal maxDepth false [] ps :=
  (row.follow start (.nil _) fun _ => Or.inl rfl).relevel start
    (Nat.le_trans row.rowDepth_le le) nofun shallow

theorem sourced_row {ps : List Phrase} (row : RowLegal levels inGroup rest ps)
    (le : levels ≤ maxDepth) (shallow : ∀ d ∈ rowDiagnostics start ps, d.kind ≠ .groupTooDeep)
    (here : ReadAt text start (rowLexemes ps ++ rest)) :
    (Node.expression (expression start ps)).Sourced text := by
  intro e alone
  obtain rfl := Option.some.inj alone
  exact ⟨start, ps, rest, span_expression ps start, here, row.alone le shallow, rfl⟩

/-- A row without a bar is one alternative, and the alternative alone is what the row stands for. -/
theorem sourced_barless {ps : List Phrase} (barless : .bar ∉ ps)
    (row : RowLegal levels inGroup rest ps) (le : levels ≤ maxDepth)
    (shallow : ∀ d ∈ rowDiagnostics start ps, d.kind ≠ .groupTooDeep)
    (here : ReadAt text start (rowLexemes ps ++ rest)) :
    (Node.branch (branches start start ps).1).Sourced text := by
  have whole := sourced_row row le shallow here
  rw [expression, (branches_barless barless start start).2] at whole
  exact whole

/-- If the items of a row have their source, then so does every node of its expression. -/
theorem sourced_expression (ps : List Phrase) (row : RowLegal levels inGroup rest ps)
    (le : levels ≤ maxDepth) (shallow : ∀ d ∈ rowDiagnostics start ps, d.kind ≠ .groupTooDeep)
    (here : ReadAt text start (rowLexemes ps ++ rest))
    (items : ∀ b ∈ (branches start start ps).1 :: (branches start start ps).2,
      ∀ x ∈ Item.rowNodes b.items, x.Sourced text) :
    ∀ x ∈ (expression start ps).nodes, x.Sourced text := by
  have root := sourced_row row le shallow here
  induction ps using bar_induction generalizing rest with
  | barless ps none =>
    have branch := sourced_barless none row le shallow here
    rw [expression, (branches_barless none start start).2] at root ⊢
    intro x member
    rcases List.mem_cons.mp member with rfl | inside
    · exact root
    · rw [Branch.nodes_eq] at inside
      rcases List.mem_cons.mp inside with rfl | inside
      · exact branch
      · exact items _ List.mem_cons_self x inside
  | bar ps qs none ih =>
    obtain ⟨before, -, -, after⟩ := rowLegal_append.mp row
    let stop := start + rowWidth ps
    have alternatives := branches_append_bar start start ps qs
    rw [alternatives] at items
    rw [rowDiagnostics_append] at shallow
    rw [rowLexemes_append, List.append_assoc] at here
    have next : ReadAt text (stop + 1) (rowLexemes qs ++ rest) := by
      have bar := here.skip
      rw [textWidth_rowLexemes] at bar
      exact bar.tail
    have shallowBefore : ∀ d ∈ rowDiagnostics start ps, d.kind ≠ .groupTooDeep :=
      fun d member => shallow d (List.mem_append_left _ member)
    have shallowAfter : ∀ d ∈ rowDiagnostics (stop + 1) qs, d.kind ≠ .groupTooDeep :=
      fun d member => shallow d (List.mem_append_right _ member)
    have left := ih before shallowBefore here
      (fun b among => items b (List.cons_subset_cons _ (List.subset_append_left _ _) among))
      (sourced_row before le shallowBefore here)
    have branch := sourced_barless none after le shallowAfter next
    rw [expression_append_bar none] at root ⊢
    intro x member
    rcases List.mem_cons.mp member with rfl | inside
    · exact root
    · rcases List.mem_append.mp inside with inside | inside
      · exact left x inside
      · rw [Branch.nodes_eq] at inside
        rcases List.mem_cons.mp inside with rfl | inside
        · exact branch
        · exact items _ (by simp) x inside

/-- The phrase with so many of its quantifiers and no more. -/
def keep (k : Nat) : Phrase → Phrase
  | single l rs => single l (rs.take k)
  | set b rs => set b (rs.take k)
  | group h body closed rs => group h body closed (rs.take k)
  | p => p

end Phrase

theorem Repetition.flatMap_lexemes_take (rs : List Repetition) (k : Nat) :
    (rs.take k).flatMap lexemes <+: rs.flatMap lexemes :=
  List.IsPrefix.flatMap (List.take_prefix k rs) lexemes

theorem Repetition.RowLegal.take {rs : List Repetition} {rest : List Lexeme}
    (row : RowLegal rest rs) (k : Nat) : RowLegal [] (rs.take k) := by
  induction rs generalizing k with
  | nil => simp [RowLegal, read?, Amount.read?]
  | cons r rs ih =>
    cases k with
    | zero => rfl
    | succ k =>
      obtain ⟨legal, greedy, row⟩ := row
      have fewer : (rs.take k).flatMap lexemes ++ [] <+: rs.flatMap lexemes ++ rest := by
        rw [List.append_nil]
        exact (flatMap_lexemes_take rs k).trans (List.prefix_append _ _)
      exact ⟨legal, fun bare => (BeginsNoMore.of_prefix fewer).head?_ne (by decide) (greedy bare),
        ih row k⟩

namespace Phrase

theorem lexemes_keep (p : Phrase) (k : Nat) : (p.keep k).lexemes <+: p.lexemes := by
  cases p with
  | bar | stray l | tooDeep ls => exact List.prefix_refl _
  | single l rs => exact List.cons_prefix_cons.mpr ⟨rfl, Repetition.flatMap_lexemes_take rs k⟩
  | set b rs => exact (List.prefix_append_right_inj _).mpr (Repetition.flatMap_lexemes_take rs k)
  | group h body closed rs =>
    exact (List.prefix_append_right_inj _).mpr (Repetition.flatMap_lexemes_take rs k)

/-- A phrase is legal on its own with fewer of its quantifiers. -/
theorem Legal.keep {p : Phrase} (legal : p.Legal levels rest) (other : ∀ ls, p ≠ .tooDeep ls)
    (k : Nat) : (p.keep k).Legal levels [] := by
  have fewer (rs : List Repetition) : (rs.take k).flatMap Repetition.lexemes ++ [] <+:
      rs.flatMap Repetition.lexemes ++ rest := by
    rw [List.append_nil]
    exact (Repetition.flatMap_lexemes_take rs k).trans (List.prefix_append _ _)
  cases p with
  | bar => trivial
  | stray l => exact legal
  | tooDeep ls => exact absurd rfl (other ls)
  | single l rs => exact ⟨legal.1, legal.2.take k⟩
  | set b rs =>
    refine ⟨legal.1.follow fun none => Or.inl ?_, legal.2.take k⟩
    exact List.prefix_nil.mp (none ▸ fewer rs)
  | group h body closed rs =>
    obtain ⟨⟨inner, deeper, row⟩, header, ends, repeated⟩ := legal
    have less := (BeginsNoMore.of_prefix (fewer rs)).append (closing .closeParen closed)
    have ends' : closed ∨ (rs.take k).flatMap Repetition.lexemes ++ [] = [] := by
      refine ends.imp_right fun last => ?_
      have none := fewer rs
      rw [last] at none
      exact List.prefix_nil.mp none
    have row' : RowLegal inner true _ body := row.follow 0 less fun none =>
      have unclosed := (closing_append_eq_nil_iff.mp none).1
      Or.inl (closing_append_eq_nil_iff.mpr ⟨unclosed, ends'.resolve_left unclosed⟩)
    exact ⟨⟨inner, deeper, row'⟩, header.follow (less.append _), ends', repeated.take k⟩

end Phrase

/-- The nodes of an item in quantifiers: those of the item, and the item in the first so many. -/
theorem Repetition.mem_nodes_wrapAll {start stop : Nat} {item : Item} {rs : List Repetition}
    {x : Node} (member : x ∈ (wrapAll start item stop rs).nodes) :
    x ∈ item.nodes ∨ ∃ k, x = .item (wrapAll start item stop (rs.take k)) := by
  induction rs generalizing item stop with
  | nil => exact Or.inl member
  | cons r rs ih =>
    rcases ih member with inside | ⟨k, rfl⟩
    · rcases List.mem_cons.mp inside with rfl | inside
      · exact Or.inr ⟨1, rfl⟩
      · exact Or.inl inside
    · exact Or.inr ⟨k + 1, rfl⟩

namespace Phrase

/-- An item in so many of its quantifiers has its source where the phrase is. -/
theorem sourced_keep {p : Phrase} {k : Nat} {i : Item} (legal : p.Legal levels rest)
    (le : levels ≤ maxDepth) (shallow : ∀ d ∈ p.diagnostics start, d.kind ≠ .groupTooDeep)
    (here : ReadAt text start (p.lexemes ++ rest)) (stands : (p.keep k).item? start = some i)
    (span : i.span = ⟨start, start + (p.keep k).width⟩) : (Node.item i).Sourced text := by
  intro e alone
  obtain rfl := Option.some.inj alone
  have other : ∀ ls, p ≠ .tooDeep ls := by
    rintro ls rfl
    cases stands
  obtain ⟨more, split⟩ := p.lexemes_keep k
  have row : RowLegal maxDepth false [] [p.keep k] :=
    ⟨(legal.relevel start (Nat.le_trans legal.depth_le le) shallow).keep other k, nofun, trivial⟩
  refine ⟨start, [p.keep k], more ++ rest, ?_, ?_, row, ?_⟩
  · exact span
  · simpa [rowLexemes, ← split] using here
  · rw [expression, branches_item stands, span]
    rfl

theorem sourced_wrap {p : Phrase} {base : Item} {stop : Nat} {rs : List Repetition}
    (legal : p.Legal levels rest) (le : levels ≤ maxDepth)
    (shallow : ∀ d ∈ p.diagnostics start, d.kind ≠ .groupTooDeep)
    (here : ReadAt text start (p.lexemes ++ rest)) (span : base.span = ⟨start, stop⟩)
    (stands : ∀ k, (p.keep k).item? start = some (Repetition.wrap start base stop (rs.take k)))
    (width : ∀ k, start + (p.keep k).width = stop + Repetition.rowWidth (rs.take k))
    (inside : ∀ x ∈ base.nodes, x = .item base ∨ x.Sourced text) :
    ∀ x ∈ (Repetition.wrap start base stop rs).nodes, x.Sourced text := by
  have kept (k : Nat) (few : k ≤ maxStacked) :
      (Node.item (Repetition.wrapAll start base stop (rs.take k))).Sourced text := by
    have length : (rs.take k).length ≤ maxStacked := Nat.le_trans (List.length_take_le _ _) few
    have same := stands k
    rw [Repetition.wrap_eq_wrapAll length] at same
    exact sourced_keep legal le shallow here same (by rw [Repetition.span_wrapAll span, width])
  intro x member
  rcases Repetition.mem_nodes_wrapAll member with within | ⟨k, rfl⟩
  · rcases inside x within with rfl | sourced
    · exact kept 0 (Nat.zero_le _)
    · exact sourced
  · rw [List.take_take]
    exact kept _ (Nat.min_le_right _ _)

mutual

theorem sourced_item? (p : Phrase) {item : Item} (legal : p.Legal levels rest)
    (le : levels ≤ maxDepth) (shallow : ∀ d ∈ p.diagnostics start, d.kind ≠ .groupTooDeep)
    (here : ReadAt text start (p.lexemes ++ rest)) (stands : p.item? start = some item) :
    ∀ x ∈ item.nodes, x.Sourced text := by
  match p with
  | .bar | .stray _ | .tooDeep _ => cases stands
  | .single l rs =>
    obtain ⟨inner, found, rfl⟩ := Option.map_eq_some_iff.mp stands
    obtain ⟨nodes, span⟩ := Lexeme.nodes_item? found
    apply sourced_wrap legal le shallow here span
    · intro k
      rw [keep, item?, found]
      rfl
    · intro k
      rw [keep, width, Nat.add_assoc]
    · rw [nodes]
      exact fun x member => Or.inl (List.mem_singleton.mp member)
  | .set b rs =>
    cases stands
    apply sourced_wrap legal le shallow here rfl
    · intro k
      rfl
    · intro k
      rw [keep, width, Nat.add_assoc]
    · intro x member
      rcases List.mem_cons.mp member with rfl | inside
      · exact Or.inl rfl
      · -- Members of the set are no nodes with a source of their own.
        obtain ⟨m, -, rfl⟩ := List.mem_map.mp inside
        exact Or.inr fun e alone => nomatch alone
  | .group h body closed rs =>
    cases stands
    obtain ⟨⟨inner, rfl, row⟩, -⟩ := id legal
    have shallowBody : ∀ d ∈ rowDiagnostics (start + h.width) body, d.kind ≠ .groupTooDeep :=
      fun d member => shallow d (by simp [diagnostics, member])
    have within : ReadAt text (start + h.width) (rowLexemes body ++
        (closing .closeParen closed ++ (rs.flatMap Repetition.lexemes ++ rest))) := by
      rw [lexemes] at here
      simp only [List.append_assoc] at here
      have skipped := here.skip
      rwa [h.textWidth_lexemes] at skipped
    have inward : inner ≤ maxDepth := Nat.le_of_succ_le le
    have items := sourced_branches body (start + h.width) row inward shallowBody within
    have nodes := sourced_expression body row inward shallowBody within items
    apply sourced_wrap legal le shallow here rfl
    · intro k
      rfl
    · intro k
      rw [keep, width]
      omega
    · intro x member
      rcases List.mem_cons.mp member with rfl | inside
      · exact Or.inl rfl
      · exact Or.inr (nodes x inside)

theorem sourced_branches (ps : List Phrase) (start : Nat) {position : Nat}
    (row : RowLegal levels inGroup rest ps) (le : levels ≤ maxDepth)
    (shallow : ∀ d ∈ rowDiagnostics position ps, d.kind ≠ .groupTooDeep)
    (here : ReadAt text position (rowLexemes ps ++ rest)) :
    ∀ b ∈ (branches start position ps).1 :: (branches start position ps).2,
      ∀ x ∈ Item.rowNodes b.items, x.Sourced text := by
  match ps with
  | [] => simp [branches, Item.rowNodes]
  | p :: ps =>
    obtain ⟨legal, -, row⟩ := row
    rw [rowLexemes, List.append_assoc] at here
    have after := here.skip
    rw [p.textWidth_lexemes] at after
    have shallowFirst : ∀ d ∈ p.diagnostics position, d.kind ≠ .groupTooDeep :=
      fun d member => shallow d (List.mem_append_left _ member)
    have shallowRest : ∀ d ∈ rowDiagnostics (position + p.width) ps, d.kind ≠ .groupTooDeep :=
      fun d member => shallow d (List.mem_append_right _ member)
    by_cases bar : p = .bar
    · subst bar
      have rest := sourced_branches ps (position + 1) row le shallowRest after
      rw [branches]
      intro b member
      rcases List.mem_cons.mp member with rfl | later
      · exact List.forall_mem_nil _
      · exact rest b later
    · have rest := sourced_branches ps start row le shallowRest after
      cases stands : p.item? position with
      | none => rwa [branches_none bar stands]
      | some item =>
        have items := sourced_item? p legal le shallowFirst here stands
        rw [branches_item stands]
        intro b member
        rcases List.mem_cons.mp member with rfl | later
        · intro x inside
          rcases List.mem_append.mp inside with new | old
          · exact items x new
          · exact rest _ List.mem_cons_self x old
        · exact rest b (List.mem_cons_of_mem _ later)

end

end Phrase

/-- Every node's span is exactly its own source: where no group is skipped, the part of a pattern
that an expression, an alternative or an item spans parses to that node alone. -/
theorem Pattern.parse_slice (p : Pattern)
    (shallow : ∀ d ∈ p.parse.diagnostics, d.kind ≠ .groupTooDeep) :
    ∀ x ∈ p.parse.expression.nodes, ∀ e, x.alone? = some e →
      (p.slice x.span).parse.expression.moved x.span.start = e := by
  have row := p.rowLegal_phrases
  have here : ReadAt p.chars.toList 0 (Phrase.rowLexemes p.phrases ++ []) := by
    rw [List.append_nil, p.rowLexemes_phrases]
    exact p.readAt_lexemes
  have items := Phrase.sourced_branches p.phrases 0 row (Nat.le_refl _) shallow here
  have nodes := Phrase.sourced_expression p.phrases row (Nat.le_refl _) shallow here items
  exact fun x member e alone => (nodes x member).parse_eq alone

/-- The law where a header is not known, bounds are reversed, quantifiers stack, and a group and a
set are left open: for every node, and in full for the stack and for the group. -/
theorem Pattern.parse_slice_malformed :
    let p := ofText "a+?|(?b\x7b3,1\x7d*|[c-" true
    let lazy : Item := .quantified (.character ⟨.literal 'a', ⟨0, 1⟩⟩) ⟨1, none, true⟩ ⟨0, 3⟩
    let bounded : Item := .quantified (.character ⟨.literal 'b', ⟨6, 7⟩⟩) ⟨1, some 3, false⟩ ⟨6, 12⟩
    let stacked : Item := .quantified bounded ⟨0, none, false⟩ ⟨6, 13⟩
    let members : List Member :=
      [.single ⟨.literal 'c', ⟨15, 16⟩⟩, .single ⟨.literal '-', ⟨16, 17⟩⟩]
    let body : Expression :=
      .alternation (.single ⟨[stacked], ⟨6, 13⟩⟩) ⟨[.set ⟨false, members, ⟨14, 17⟩⟩], ⟨14, 17⟩⟩
        ⟨6, 17⟩
    let group : Item := .group .capture body ⟨4, 17⟩
    p.parse.expression = .alternation (.single ⟨[lazy], ⟨0, 3⟩⟩) ⟨[group], ⟨4, 17⟩⟩ ⟨0, 17⟩ ∧
      p.parse.diagnostics = [⟨.unknownGroupHeader, ⟨5, 6⟩⟩, ⟨.reversedBounds, ⟨7, 12⟩⟩,
        ⟨.unclosedSet, ⟨14, 15⟩⟩, ⟨.unclosedGroup, ⟨4, 5⟩⟩] ∧
      (∀ d ∈ p.parse.diagnostics, d.kind ≠ .groupTooDeep) ∧
      (∀ x ∈ p.parse.expression.nodes, ∀ e, x.alone? = some e →
        (p.slice x.span).parse.expression.moved x.span.start = e) ∧
      (p.slice ⟨6, 13⟩).parse.expression.moved 6 = .single ⟨[stacked], ⟨6, 13⟩⟩ ∧
      (p.slice ⟨4, 17⟩).parse.expression.moved 4 = .single ⟨[group], ⟨4, 17⟩⟩ := by
  intro p lazy bounded stacked members body group
  have tree : p.parse.expression =
      .alternation (.single ⟨[lazy], ⟨0, 3⟩⟩) ⟨[group], ⟨4, 17⟩⟩ ⟨0, 17⟩ := by
    decide +kernel
  have found : p.parse.diagnostics = [⟨.unknownGroupHeader, ⟨5, 6⟩⟩, ⟨.reversedBounds, ⟨7, 12⟩⟩,
      ⟨.unclosedSet, ⟨14, 15⟩⟩, ⟨.unclosedGroup, ⟨4, 5⟩⟩] := by decide +kernel
  have shallow : ∀ d ∈ p.parse.diagnostics, d.kind ≠ .groupTooDeep := by
    rw [found]
    decide
  have law := Pattern.parse_slice p shallow
  have inner : Node.item stacked ∈ p.parse.expression.nodes := by
    rw [tree]
    exact List.mem_of_getElem? (i := 10) rfl
  have outer : Node.item group ∈ p.parse.expression.nodes := by
    rw [tree]
    exact List.mem_of_getElem? (i := 6) rfl
  exact ⟨tree, found, shallow, law, law _ inner _ rfl, law _ outer _ rfl⟩

end PatternTree
