import PatternTree.Proofs.Brackets.Agreement
import PatternTree.Proofs.Descent.Expressions

/-!
Groups that are passed over, against groups that are read. Passing over counts parentheses and looks
for the ends of sets; reading goes through modifiers, quantifiers, sets and further groups, and
itself passes over those that nest too deeply. Main statement: both consume the same.
-/

namespace PatternTree

-- ═══════════════════════════════════════════════════════════════
-- What counts when a group is passed over
-- ═══════════════════════════════════════════════════════════════

section

variable {l : Lexeme} {ls : List Lexeme}

theorem afterGroup_other (inner : Nat) (other : ¬l.isBracket) (ls : List Lexeme) :
    afterGroup inner false (l :: ls) = afterGroup inner false ls := by
  rw [afterGroup, if_neg Bool.false_ne_true]
  all_goals
    rintro rfl
    exact other rfl

theorem afterGroup_outside (inner : Nat) (others : ∀ l ∈ ls, ¬l.isBracket) (rest : List Lexeme) :
    afterGroup inner false (ls ++ rest) = afterGroup inner false rest := by
  induction ls with
  | nil => rfl
  | cons l ls ih =>
    obtain ⟨other, others⟩ := List.forall_mem_cons.mp others
    rw [List.cons_append, afterGroup_other inner other, ih others]

theorem afterGroup_inside (inner : Nat) (unclosed : .mark .closeBracket ∉ ls) (rest : List Lexeme) :
    afterGroup inner true (ls ++ rest) = afterGroup inner true rest := by
  induction ls with
  | nil => rfl
  | cons l ls ih =>
    obtain ⟨other, unclosed⟩ := List.ne_and_not_mem_of_not_mem_cons unclosed
    simp [afterGroup, other.symm, ih unclosed]

/-- The innermost of the open groups ends first. -/
theorem afterGroup_add (outer inner : Nat) (inSet : Bool) (ls : List Lexeme) :
    afterGroup (inner + outer + 1) inSet ls =
      afterGroup outer false (afterGroup inner inSet ls) := by
  fun_induction afterGroup inner inSet ls with
  | case1 => rfl
  | case5 => simp_all [afterGroup]
  | _ => simp_all [afterGroup, Nat.add_right_comm]

/-- A group inside another counts as a whole. -/
theorem afterGroup_openParen (ls : List Lexeme) :
    afterGroup 0 false (.mark .openParen :: ls) = afterGroup 0 false (afterGroup 0 false ls) :=
  afterGroup_add 0 0 false ls

theorem afterGroup_closeParen (ls : List Lexeme) :
    afterGroup 0 false (.mark .closeParen :: ls) = ls := rfl

end

/-- A set is passed over with all that stands in it. -/
theorem Bracket.afterGroup_lexemes {b : Bracket} {rest : List Lexeme} (legal : b.Legal rest) :
    afterGroup 0 false (b.lexemes ++ rest) = afterGroup 0 false rest := by
  have unclosed : .mark .closeBracket ∉
      (if b.inverted then [.mark .caret] else []) ++ b.pieces.flatMap Piece.lexemes := by
    have pieces := Piece.closeBracket_not_mem_lexemes legal.2.1
    split <;> simpa using pieces
  have opens (ls : List Lexeme) :
      afterGroup 0 false (.mark .openBracket :: ls) = afterGroup 0 true ls := rfl
  rw [lexemes, List.append_assoc, List.cons_append, List.cons_append, opens,
    afterGroup_inside 0 unclosed]
  cases closed : b.closed with
  | true => simp [closing, afterGroup]
  | false =>
    obtain rfl : rest = [] := legal.2.2.resolve_left (by simp [closed])
    rfl

namespace Phrase

/-- A group ends where it is read to end, if what is in it counts for nothing. -/
theorem afterGroup_enclosed {h : Header} {body : List Phrase} {closed : Bool}
    {ls after : List Lexeme} (ended : closed ∨ after = [])
    (inside : let close := closing .closeParen closed ++ after
      afterGroup 0 false (rowLexemes body ++ close) = afterGroup 0 false close)
    (written : h.lexemes ++ (rowLexemes body ++ (closing .closeParen closed ++ after)) =
      .mark .openParen :: ls) : afterGroup 0 false ls = after := by
  obtain ⟨more, opening, others⟩ := h.isBracket_lexemes
  rw [opening, List.cons_append] at written
  rw [← (List.cons.inj written).2, afterGroup_outside 0 others, inside]
  cases closed with
  | true => exact afterGroup_closeParen after
  | false =>
    obtain rfl : after = [] := ended.resolve_left Bool.false_ne_true
    rfl

mutual

/-- A phrase counts for nothing when a group around it is passed over. -/
theorem afterGroup_lexemes (p : Phrase) {levels : Nat} {rest : List Lexeme}
    (legal : p.Legal levels rest) (other : p ≠ .stray (.mark .closeParen)) :
    afterGroup 0 false (p.lexemes ++ rest) = afterGroup 0 false rest := by
  match p with
  | .bar => rfl
  | .stray l =>
    have bare : ¬l.isBracket := by
      unfold Lexeme.isBracket
      split
      · cases legal
      · cases legal
      · exact absurd rfl other
      · exact Bool.false_ne_true
    exact afterGroup_other 0 bare rest
  | .tooDeep ls =>
    obtain ⟨-, inner, rfl, after⟩ := legal
    rw [lexemes, List.cons_append, afterGroup_openParen, after]
  | .single l rs =>
    rw [lexemes, List.cons_append, afterGroup_other 0 (Lexeme.isBracket_of_isItem legal.1),
      afterGroup_outside 0 (Repetition.isBracket_lexemes rs)]
  | .set b rs =>
    rw [lexemes, List.append_assoc, Bracket.afterGroup_lexemes legal.1,
      afterGroup_outside 0 (Repetition.isBracket_lexemes rs)]
  | .group h body closed rs =>
    obtain ⟨⟨inner, -, row⟩, -, ended, -⟩ := legal
    obtain ⟨more, opening, -⟩ := h.isBracket_lexemes
    have within := afterGroup_enclosed ended (afterGroup_rowLexemes body row)
      (by rw [opening, List.cons_append])
    simp only [lexemes, opening, List.append_assoc, List.cons_append]
    rw [afterGroup_openParen, within, afterGroup_outside 0 (Repetition.isBracket_lexemes rs)]

theorem afterGroup_rowLexemes (ps : List Phrase) {levels : Nat} {rest : List Lexeme}
    (row : RowLegal levels true rest ps) :
    afterGroup 0 false (rowLexemes ps ++ rest) = afterGroup 0 false rest := by
  match ps with
  | [] => rfl
  | p :: ps =>
    obtain ⟨legal, other, row⟩ := row
    rw [rowLexemes, List.append_assoc, afterGroup_lexemes p legal (other rfl),
      afterGroup_rowLexemes ps row]

end

section

variable (levels : Nat) (ls : List Lexeme)

theorem lexemes_readEnclosed :
    let g := readEnclosed (groupReader levels) ls
    g.header.lexemes ++ (rowLexemes g.body ++ (closing .closeParen g.closed ++ g.rest)) =
      .mark .openParen :: ls := by
  simp only [readEnclosed, closing_readClose, rowLexemes_readRow (lossless_groupReader levels),
    Header.lexemes_read]

theorem legal_readEnclosed :
    let g := readEnclosed (groupReader levels) ls
    let close := closing .closeParen g.closed ++ g.rest
    RowLegal levels true close g.body ∧ g.header.Legal (rowLexemes g.body ++ close) ∧
      (g.closed ∨ g.rest = []) := by
  intro g close
  have legal : (readGroup (groupReader levels) ls).1.Legal (levels + 1)
      (Repetition.readAll g.rest).2 := legal_groupReader (levels + 1) ls
  obtain ⟨⟨inner, deeper, row⟩, header, ended, -⟩ := legal
  obtain rfl := Nat.succ.inj deeper
  rw [Repetition.lexemes_readAll] at row header ended
  exact ⟨row, header, ended⟩

/-- Reading a group and passing over it end at the same place. -/
theorem rest_readEnclosed :
    (readEnclosed (groupReader levels) ls).rest = afterGroup 0 false ls := by
  obtain ⟨row, -, ended⟩ := legal_readEnclosed levels ls
  exact (afterGroup_enclosed ended (afterGroup_rowLexemes _ row)
    (lexemes_readEnclosed levels ls)).symm

end

end Phrase

-- ═══════════════════════════════════════════════════════════════
-- States
-- ═══════════════════════════════════════════════════════════════

namespace Descent

variable {s : State} {ls : List Lexeme}

/-- A group that may nest here is read up to where it would be passed over. -/
theorem group_reads (here : s.At (.mark .openParen :: ls)) {levels : Nat}
    (depth : s.depth + (levels + 1) = maxDepth) :
    ∃ i width ds, (group (levels + 1)).run s = .ok (some i, s.past width ds) ∧
      (s.past width ds).At (afterGroup 0 false ls) := by
  obtain ⟨row, header, ended⟩ := Phrase.legal_readEnclosed levels ls
  have written := Phrase.lexemes_readEnclosed levels ls
  rw [← written] at here
  rw [← Phrase.rest_readEnclosed levels ls]
  generalize Phrase.readEnclosed (Phrase.groupReader levels) ls = g at *
  have room : s.depth < maxDepth := by omega
  have inside := here.past g.header.textWidth_lexemes (g.header.diagnostics s.cursor.consumed)
  have deeper : s.depth + 1 + levels = maxDepth := by omega
  have body := row_run g.body row (Phrase.stop_and_readClose ended).1
    (s := (s.past g.header.width (g.header.diagnostics s.cursor.consumed)).deeper)
    (x := ⟨[], [], s.cursor.consumed + g.header.width⟩) inside deeper (Nat.le_refl _)
  obtain ⟨run, there⟩ := group_run header ended room here body
  exact ⟨_, _, _, run, there⟩

/-- Passing over a group and reading it move the cursor to the same place, whatever stands in the
group and wherever it ends. Passing over changes nothing else, and reports the group where that is
its purpose. -/
theorem group_skip (s : State) (here : s.cursor.current.kind = .mark .openParen)
    (room : s.depth < maxDepth) :
    ∃ width i ds,
      (consuming skipRound 0).run s = .ok ((), s.past width []) ∧
      skipGroup.run s = .ok (none, s.past width
        [⟨.groupTooDeep, ⟨s.cursor.consumed, s.cursor.consumed + width⟩⟩]) ∧
      (group (maxDepth - s.depth)).run s = .ok (some i, s.past width ds) := by
  obtain ⟨ls, here⟩ := State.exists_at_mark here
  obtain ⟨inside, split⟩ := Phrase.afterGroup_suffix 0 false ls
  obtain ⟨levels, left⟩ := Nat.exists_eq_succ_of_ne_zero (Nat.sub_ne_zero_of_lt room)
  have depth : s.depth + (levels + 1) = maxDepth := by omega
  obtain ⟨width, skips, there⟩ := skips_group here
  obtain ⟨i, width', ds, reads, there'⟩ := group_reads here depth
  obtain rfl : width = width' := there.width_eq there'
  rw [← split] at here
  have skipped := skipGroup_run here (congrArg (afterGroup 0 false) split)
  obtain rfl : width = textWidth (.mark .openParen :: inside) :=
    there.width_eq (here.past rfl [])
  rw [left]
  exact ⟨_, i, ds, skips, skipped, reads⟩

/-- The law in the deepest group there is, for a group without an end: parentheses and an opening
bracket stand in a set, a parenthesis is escaped, and the group inside is one level too deep. -/
theorem group_skip_deepest :
    let s : State := ⟨⟨.ofText "a(?<n>[^)-[(]+\\)|(?:b)\x7b2,1\x7dc" true, 1⟩, [], 127⟩
    let ds : List Diagnostic := [⟨.groupTooDeep, ⟨17, 22⟩⟩, ⟨.unclosedGroup, ⟨1, 2⟩⟩]
    s.cursor.current.kind = .mark .openParen ∧ s.depth < maxDepth ∧
      (consuming skipRound 0).run s = .ok ((), s.past 27 []) ∧
      skipGroup.run s = .ok (none, s.past 27 [⟨.groupTooDeep, ⟨1, 28⟩⟩]) ∧
      ∃ i, (group 1).run s = .ok (some i, s.past 27 ds) ∧ i.span = ⟨1, 28⟩ ∧
        i.source = "(?<n>[^\\)\\-\\[\\(]+\\)|\\\x7b2,1\\\x7dc)".toList := by
  intro s ds
  have here : s.cursor.current.kind = .mark .openParen := by decide +kernel
  have room : s.depth < maxDepth := by decide
  obtain ⟨width, i, found, skips, skipped, reads⟩ := group_skip s here room
  have stop : ((consuming skipRound 0).run s).map (·.2.cursor.consumed) = .ok 28 := by
    decide +kernel
  rw [skips] at stop
  obtain rfl : width = 27 := by
    have : 1 + width = 28 := Except.ok.inj stop
    omega
  have read : ((group (maxDepth - s.depth)).run s).map
      (fun r => (r.1.map fun i => (i.span, i.source), r.2.diagnostics)) =
        .ok (some (⟨1, 28⟩, "(?<n>[^\\)\\-\\[\\(]+\\)|\\\x7b2,1\\\x7dc)".toList), ds) := by
    decide +kernel
  rw [reads] at read
  obtain ⟨item, rfl⟩ := Prod.mk.inj (Except.ok.inj read)
  obtain ⟨span, source⟩ := Prod.mk.inj (Option.some.inj item)
  exact ⟨here, room, skips, skipped, i, reads, span, source⟩

end Descent

end PatternTree
