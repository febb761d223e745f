import PatternTree.Descent.Expressions
import PatternTree.Proofs.Descent.Groups
import PatternTree.Proofs.Descent.Quantifiers
import PatternTree.Proofs.Descent.Sets

/-!
The descent through expressions. Main statement: on every pattern it ends without a fault, and finds
the tree and the diagnostics that reading phrases gives.
-/

namespace PatternTree

namespace Descent

variable {s : State} {l : Lexeme} {ls rest : List Lexeme}

-- ═══════════════════════════════════════════════════════════════
-- Items
-- ═══════════════════════════════════════════════════════════════

section

variable {g : Descent (Option Item)}

theorem skipToken_run (kind : Diagnostic.Kind) (here : s.At (l :: ls)) :
    let stop := s.cursor.consumed + l.width
    (skipToken kind).run s =
      .ok (none, s.past l.width [⟨kind, ⟨s.cursor.consumed, stop⟩⟩]) := by
  rw [skipToken, run_bind_ok (advance_cons here), run_bind_ok (report_run _ _ _), State.past_past]
  rfl

theorem atom_stray (here : s.At (l :: ls)) (stray : l.isStray) :
    let stop := s.cursor.consumed + l.width
    (atom g).run s = .ok (none, s.past l.width [⟨l.fault, ⟨s.cursor.consumed, stop⟩⟩]) := by
  rw [atom, run_bind_ok (current_run here)]
  unfold Lexeme.isStray at stray
  split at stray <;> first | exact skipToken_run _ here | cases stray

theorem character_run {glyph : Glyph} (here : s.At (l :: ls)) (stands : l.glyph? = some glyph) :
    let span : Span := ⟨s.cursor.consumed, s.cursor.consumed + l.width⟩
    character.run s = .ok (some (.character ⟨glyph, span⟩), s.past l.width []) := by
  intro span
  have found : (Lexeme.first s.cursor.consumed (l :: ls)).character? = some ⟨glyph, span⟩ := by
    rw [Lexeme.first, Lexeme.firstKind, Token.character?_kind, stands]
    rfl
  rw [character, run_bind_ok (advance_cons here), found]
  rfl

/-- Every token that is an item on its own stands for one. -/
theorem atom_item (here : s.At (l :: ls)) (item : l.isItem) :
    ∃ i, l.item? s.cursor.consumed = some i ∧ (atom g).run s = .ok (some i, s.past l.width []) := by
  rw [atom, run_bind_ok (current_run here)]
  cases l with
  | mark m =>
    cases m with
    | caret | dollar | dot => exact ⟨_, rfl, run_bind_ok (advance_cons here) _⟩
    | closeBracket | openBrace | closeBrace => exact ⟨_, rfl, character_run here rfl⟩
    | _ => cases item
  | plain c => exact ⟨_, rfl, character_run here rfl⟩
  | escape c =>
    refine ⟨_, rfl, ?_⟩
    rw [Lexeme.first, Lexeme.firstKind]
    rcases Lexeme.kind_escape c with ⟨_, kind, -⟩ | ⟨_, kind, -⟩ | ⟨kind, -⟩ <;>
    · rw [kind]
      exact character_run here rfl
  | dangling => cases item

theorem atom_group (here : s.At (.mark .openParen :: ls)) : (atom g).run s = g.run s := by
  rw [atom, run_bind_ok (current_run here)]
  rfl

theorem item_none {width : Nat} {ds : List Diagnostic}
    (run : (atom g).run s = .ok (none, s.past width ds)) :
    (item g).run s = .ok (none, s.past width ds) := by
  rw [item, run_bind_ok run]
  rfl

/-- An item and the quantifiers after it. -/
theorem item_some {i : Item} {width : Nat} {ds : List Diagnostic} {rs : List Repetition}
    (run : (atom g).run s = .ok (some i, s.past width ds)) (row : Repetition.RowLegal rest rs)
    (next : (s.past width ds).At (rs.flatMap Repetition.lexemes ++ rest))
    (start : i.span.start = s.cursor.consumed) :
    let stop := s.cursor.consumed + width
    (item g).run s =
      .ok (some (Repetition.wrap s.cursor.consumed i stop rs),
        s.past (width + Repetition.rowWidth rs) (ds ++ Repetition.diagnostics stop rs)) := by
  intro stop
  have le : i.span.start ≤ stop := by
    rw [start]
    exact Nat.le_add_right _ _
  rw [item, run_bind_ok run]
  refine (run_bind_ok (quantified_run row next le) _).trans ?_
  rw [State.past_past, start]
  rfl

end

-- ═══════════════════════════════════════════════════════════════
-- Alternatives
-- ═══════════════════════════════════════════════════════════════

section

variable {g : Descent (Option Item)} {inGroup : Bool} {x : Alternatives}

theorem ends_iff {place : Nat} :
    ((Lexeme.first place ls).kind = .finish ∨
      inGroup ∧ (Lexeme.first place ls).kind = .mark .closeParen) ↔ Phrase.Stop inGroup ls := by
  rw [Lexeme.kind_first_eq_finish, Lexeme.kind_first_eq_mark]
  rfl

theorem alternativesRound_stop (here : s.At rest) (stop : Phrase.Stop inGroup rest) :
    (alternativesRound g inGroup x).run s = .ok (.inr x, s) := by
  rw [alternativesRound, run_bind_ok (current_run here), if_pos (ends_iff.mpr stop)]
  rfl

theorem alternativesRound_bar (here : s.At (.mark .bar :: ls))
    (le : x.start ≤ s.cursor.consumed) :
    let stop := s.cursor.consumed
    (alternativesRound g inGroup x).run s =
      .ok (.inl ⟨x.ended ++ [⟨x.items, ⟨x.start, stop⟩⟩], [], stop + 1⟩, s.past 1 []) := by
  have next : (s.past 1 []).At ls := here.tail []
  have goesOn : ¬Phrase.Stop inGroup (.mark .bar :: ls) := by simp [Phrase.Stop]
  have bar : (Lexeme.first s.cursor.consumed (.mark .bar :: ls)).kind = .mark .bar := rfl
  rw [alternativesRound, run_bind_ok (current_run here), if_neg (mt ends_iff.mp goesOn), if_pos bar,
    run_bind_ok (spanFrom_run le), run_bind_ok (advance_cons here)]
  exact run_bind_ok (position_run next) _

theorem alternativesRound_item {i : Option Item} {s' : State} (here : s.At ls)
    (bar : ls.head? ≠ some (.mark .bar)) (goesOn : ¬Phrase.Stop inGroup ls)
    (run : (item g).run s = .ok (i, s')) :
    (alternativesRound g inGroup x).run s =
      .ok (.inl { x with items := x.items ++ i.toList }, s') := by
  rw [alternativesRound, run_bind_ok (current_run here), if_neg (mt ends_iff.mp goesOn),
    if_neg (mt Lexeme.kind_first_eq_mark.mp bar), run_bind_ok run]
  rfl

/-- The cover of a first alternative in order and of any others is in order. -/
theorem joined_run {first : Branch} (ordered : first.span.Ordered) (others : List Branch)
    (s : State) :
    (joined (first :: others)).run s = .ok (Expression.ofBranches first others, s) := by
  rw [joined, Expression.ofBranches]
  have start : (Expression.single first).span.Ordered := ordered
  generalize Expression.single first = left at start ⊢
  induction others generalizing left with
  | nil => rfl
  | cons b others ih =>
    have wider : (left.span.hull b.span).Ordered := by
      simp only [Span.Ordered, Span.hull] at start ⊢
      omega
    rw [List.foldlM_cons]
    refine (run_bind_ok (run_bind_ok (cover_run start s) _) _).trans ?_
    exact ih _ wider

/-- The alternatives where the last one ends at `stop`. -/
def Alternatives.endedAt (stop : Nat) (x : Alternatives) : List Branch :=
  x.ended ++ [⟨x.items, ⟨x.start, stop⟩⟩]

/-- The alternatives with those of a row after them, of which the first goes on with the last. -/
def Alternatives.followedBy (x : Alternatives) (row : Branch × List Branch) : List Branch :=
  x.ended ++ ⟨x.items ++ row.1.items, row.1.span⟩ :: row.2

theorem Alternatives.followedBy_fresh (ended : List Branch) (start : Nat)
    (row : Branch × List Branch) :
    Alternatives.followedBy ⟨ended, [], start⟩ row = ended ++ row.1 :: row.2 := by
  obtain ⟨⟨items, span⟩, others⟩ := row
  rfl

/-- The descent through a row of phrases, of which `x` is known, answers as reading does. -/
def RowRun (group : Descent (Option Item)) (inGroup : Bool) (s : State) (x : Alternatives)
    (ps : List Phrase) : Prop :=
  let stop := s.cursor.consumed + Phrase.rowWidth ps
  ∃ y, (consuming (alternativesRound group inGroup) x).run s =
      .ok (y, s.past (Phrase.rowWidth ps) (Phrase.rowDiagnostics s.cursor.consumed ps)) ∧
    y.start ≤ stop ∧
    y.endedAt stop = x.followedBy (Phrase.branches x.start s.cursor.consumed ps)

theorem rowRun_nil (here : s.At rest) (stop : Phrase.Stop inGroup rest)
    (le : x.start ≤ s.cursor.consumed) : RowRun g inGroup s x [] := by
  refine ⟨x, ?_, le, ?_⟩
  · rw [consuming_answer (alternativesRound_stop here stop)]
    simp [Phrase.rowWidth, Phrase.rowDiagnostics]
  · simp [Alternatives.endedAt, Alternatives.followedBy, Phrase.branches, Phrase.rowWidth]

theorem rowRun_bar {ps : List Phrase} (here : s.At (.mark .bar :: ls))
    (le : x.start ≤ s.cursor.consumed)
    (run : let stop := s.cursor.consumed
      RowRun g inGroup (s.past 1 []) ⟨x.ended ++ [⟨x.items, ⟨x.start, stop⟩⟩], [], stop + 1⟩ ps) :
    RowRun g inGroup s x (.bar :: ps) := by
  obtain ⟨y, run, within, same⟩ := run
  have next : (s.past 1 []).At ls := here.tail []
  simp only [State.consumed_past, Nat.add_assoc] at run within same
  refine ⟨y, ?_, within, same.trans ?_⟩
  · rw [consuming_next next (alternativesRound_bar here le) Nat.one_pos, run, State.past_past]
    rfl
  · rw [Alternatives.followedBy_fresh]
    simp [Alternatives.followedBy, Phrase.branches]

theorem rowRun_item {p : Phrase} {ps : List Phrase} (here : s.At ls) (other : p ≠ .bar)
    (bar : ls.head? ≠ some (.mark .bar)) (goesOn : ¬Phrase.Stop inGroup ls)
    (found : (item g).run s =
      .ok (p.item? s.cursor.consumed, s.past p.width (p.diagnostics s.cursor.consumed)))
    (next : (s.past p.width (p.diagnostics s.cursor.consumed)).At rest) (positive : 0 < p.width)
    (run : RowRun g inGroup (s.past p.width (p.diagnostics s.cursor.consumed))
      { x with items := x.items ++ (p.item? s.cursor.consumed).toList } ps) :
    RowRun g inGroup s x (p :: ps) := by
  obtain ⟨y, run, within, same⟩ := run
  simp only [State.consumed_past, Nat.add_assoc] at run within same
  refine ⟨y, ?_, within, same.trans ?_⟩
  · rw [consuming_next next (alternativesRound_item here bar goesOn found) positive, run,
      State.past_past]
    rfl
  · simp [Alternatives.followedBy, Phrase.branches_other other, Branch.cons?]

/-- The alternatives of a row are joined into its expression. -/
theorem expression_run {ps : List Phrase} (here : s.At ls)
    (run : RowRun g inGroup s ⟨[], [], s.cursor.consumed⟩ ps) :
    (expression g inGroup).run s = .ok (Phrase.expression s.cursor.consumed ps,
      s.past (Phrase.rowWidth ps) (Phrase.rowDiagnostics s.cursor.consumed ps)) := by
  obtain ⟨y, run, within, same⟩ := run
  rw [Alternatives.followedBy_fresh, List.nil_append, Alternatives.endedAt] at same
  have fits := Phrase.fits_branches ps (Nat.le_refl s.cursor.consumed) _ List.mem_cons_self
  have ordered : (Phrase.branches s.cursor.consumed s.cursor.consumed ps).1.span.Ordered :=
    (fits (.branch _) (by rw [Branch.nodes_eq]; exact List.mem_cons_self)).2.2
  rw [expression, run_bind_ok (position_run here), run_bind_ok run]
  refine (run_bind_ok (spanFrom_run within) _).trans ?_
  refine (congrArg (fun bs => (joined bs).run _) same).trans ?_
  exact joined_run ordered _ _

end

-- ═══════════════════════════════════════════════════════════════
-- Phrases
-- ═══════════════════════════════════════════════════════════════

/-- The descent through a phrase answers as reading does. -/
def PhraseRun (s : State) (x : Descent (Option Item)) (p : Phrase) : Prop :=
  x.run s = .ok (p.item? s.cursor.consumed, s.past p.width (p.diagnostics s.cursor.consumed))

theorem phraseRun_set {levels : Nat} {b : Bracket} {rs : List Repetition}
    (legal : b.Legal (rs.flatMap Repetition.lexemes ++ rest)) (row : Repetition.RowLegal rest rs)
    (here : s.At (b.lexemes ++ (rs.flatMap Repetition.lexemes ++ rest))) :
    PhraseRun s (item (group levels)) (.set b rs) := by
  have found : (atom (group levels)).run s = .ok (some (.set (b.charSet s.cursor.consumed)),
      s.past b.width (b.diagnostics s.cursor.consumed)) := by
    rw [atom, run_bind_ok (current_run here)]
    exact run_bind_ok (set_run legal here) _
  rw [PhraseRun, item_some found row (here.past b.textWidth_lexemes _) rfl]
  rfl

theorem phraseRun_tooDeep {inside : List Lexeme}
    (here : s.At (.mark .openParen :: inside ++ rest))
    (after : afterGroup 0 false (inside ++ rest) = rest) (depth : s.depth = maxDepth) :
    PhraseRun s (item (group 0)) (.tooDeep (.mark .openParen :: inside)) := by
  have skipped : (group 0).run s = _ := groupWith_skip depth (skipGroup_run here after) rfl
  exact item_none ((atom_group here).trans skipped)

section

variable {levels : Nat} {h : Header} {body : List Phrase} {closed : Bool} {after : List Lexeme}

/-- A group without its quantifiers, where the descent through its body is known. -/
theorem group_run
    (header : h.Legal (Phrase.rowLexemes body ++ (closing .closeParen closed ++ after)))
    (ended : closed ∨ after = []) (room : s.depth < maxDepth)
    (here : s.At (h.lexemes ++ (Phrase.rowLexemes body ++ (closing .closeParen closed ++ after))))
    (run : let inside := (s.past h.width (h.diagnostics s.cursor.consumed)).deeper
      RowRun (group levels) true inside ⟨[], [], inside.cursor.consumed⟩ body) :
    let start := s.cursor.consumed
    let whole := h.width + Phrase.rowWidth body + closed.toNat
    let unclosed : List Diagnostic := if closed then [] else [⟨.unclosedGroup, ⟨start, start + 1⟩⟩]
    let ds := h.diagnostics start ++ Phrase.rowDiagnostics (start + h.width) body ++ unclosed
    (group (levels + 1)).run s =
      .ok (some (.group h.groupKind (Phrase.expression (start + h.width) body)
        ⟨start, start + whole⟩), s.past whole ds) ∧ (s.past whole ds).At after := by
  intro start whole unclosed ds
  have inside := here.past h.textWidth_lexemes (h.diagnostics start)
  have close := inside.past (Phrase.textWidth_rowLexemes body)
    (Phrase.rowDiagnostics (start + h.width) body)
  rw [State.past_past] at close
  obtain ⟨more, opening⟩ := h.lexemes_eq_cons
  have found : (Header.read (more ++ _)).1 = h :=
    congrArg Prod.fst (Header.read_lexemes header (congrArg (· ++ _) opening))
  rw [opening] at here
  have expression := expression_run (s := (s.past h.width (h.diagnostics start)).deeper) inside run
  have opened := openGroup_run here found room expression close ended
  refine ⟨groupWith_open (Nat.ne_of_lt room) opened rfl, ?_⟩
  have there := close.past (textWidth_closing .closeParen closed) unclosed
  rwa [State.past_past] at there

theorem phraseRun_group {rs : List Repetition}
    (legal : (Phrase.group h body closed rs).Legal (levels + 1) rest)
    (here : s.At ((Phrase.group h body closed rs).lexemes ++ rest)) (room : s.depth < maxDepth)
    (run : let inside := (s.past h.width (h.diagnostics s.cursor.consumed)).deeper
      RowRun (group levels) true inside ⟨[], [], inside.cursor.consumed⟩ body) :
    PhraseRun s (item (group (levels + 1))) (.group h body closed rs) := by
  obtain ⟨-, header, ended, row⟩ := legal
  simp only [Phrase.lexemes, List.append_assoc] at here
  obtain ⟨found, next⟩ := group_run header ended room here run
  obtain ⟨more, opening⟩ := h.lexemes_eq_cons
  rw [opening] at here
  rw [PhraseRun, item_some ((atom_group here).trans found) row next rfl]
  simp only [Phrase.item?, Phrase.diagnostics, Phrase.width, Phrase.expression, Nat.add_assoc,
    List.append_assoc]

end

mutual

theorem item_run (p : Phrase) {levels : Nat} {s : State} {rest : List Lexeme}
    (legal : p.Legal levels rest) (other : p ≠ .bar) (here : s.At (p.lexemes ++ rest))
    (depth : s.depth + levels = maxDepth) : PhraseRun s (item (group levels)) p := by
  match p with
  | .bar => exact absurd rfl other
  | .stray l => exact item_none (atom_stray here legal)
  | .tooDeep ls =>
    obtain ⟨rfl, inside, rfl, after⟩ := legal
    exact phraseRun_tooDeep here after depth
  | .single l rs =>
    obtain ⟨item, row⟩ := legal
    obtain ⟨i, stands, run⟩ := atom_item (g := group levels) here item
    have next : (s.past l.width []).At (rs.flatMap Repetition.lexemes ++ rest) := here.tail []
    have start : i.span.start = s.cursor.consumed := by rw [(Lexeme.nodes_item? stands).2]
    rw [PhraseRun, item_some run row next start, Phrase.item?, stands]
    rfl
  | .set b rs =>
    rw [Phrase.lexemes, List.append_assoc] at here
    exact phraseRun_set legal.1 legal.2 here
  | .group h body closed rs =>
    obtain ⟨⟨inner, rfl, row⟩, -, ended, -⟩ := id legal
    have room : s.depth < maxDepth := by omega
    refine phraseRun_group legal here room ?_
    simp only [Phrase.lexemes, List.append_assoc] at here
    have inside := here.past h.textWidth_lexemes (h.diagnostics s.cursor.consumed)
    refine row_run body row (Phrase.stop_and_readClose ended).1 inside ?_ (Nat.le_refl _)
    simp only [State.deeper, State.depth_past]
    omega

/-- A row is read to its end, whatever alternatives are known before it. -/
theorem row_run (ps : List Phrase) {levels : Nat} {inGroup : Bool} {s : State}
    {rest : List Lexeme} {x : Alternatives} (row : Phrase.RowLegal levels inGroup rest ps)
    (stop : Phrase.Stop inGroup rest) (here : s.At (Phrase.rowLexemes ps ++ rest))
    (depth : s.depth + levels = maxDepth) (le : x.start ≤ s.cursor.consumed) :
    RowRun (group levels) inGroup s x ps := by
  match ps with
  | [] => exact rowRun_nil here stop le
  | p :: ps =>
    obtain ⟨legal, outer, row⟩ := row
    by_cases bar : p = .bar
    · subst bar
      have next : (s.past 1 []).At (Phrase.rowLexemes ps ++ rest) := here.tail []
      exact rowRun_bar here le (row_run ps row stop next depth (Nat.le_refl _))
    · rw [Phrase.rowLexemes, List.append_assoc] at here
      obtain ⟨l, more, written, bars, closes, -⟩ := Phrase.lexemes_eq_cons legal
      have begins : (p.lexemes ++ (Phrase.rowLexemes ps ++ rest)).head? ≠ some (.mark .bar) := by
        simpa [written] using mt bars bar
      have goesOn : ¬Phrase.Stop inGroup (p.lexemes ++ (Phrase.rowLexemes ps ++ rest)) := by
        rw [written]
        rintro (none | ⟨inside, head⟩)
        · cases none
        · obtain rfl : l = .mark .closeParen := by simpa using head
          exact outer inside (closes rfl)
      have next := here.past p.textWidth_lexemes (p.diagnostics s.cursor.consumed)
      let y : Alternatives := { x with items := x.items ++ (p.item? s.cursor.consumed).toList }
      have within : y.start ≤ s.cursor.consumed + p.width := Nat.le_trans le (Nat.le_add_right _ _)
      exact rowRun_item here bar begins goesOn (item_run p legal bar here depth) next
        (Phrase.width_pos legal) (row_run ps row stop next depth within)

end

/-- The descent through a whole pattern stops at its end. -/
theorem whole_run (p : Pattern) :
    whole.run (.start p) =
      .ok (p.parse.expression, (State.start p).past p.length p.parse.diagnostics) := by
  have here : (State.start p).At (Phrase.rowLexemes p.phrases ++ []) := by
    rw [List.append_nil, p.rowLexemes_phrases]
    exact p.readAt_lexemes
  have row : RowRun (group maxDepth) false (.start p) ⟨[], [], 0⟩ p.phrases :=
    row_run p.phrases p.rowLegal_phrases (Or.inl rfl) here (Nat.zero_add _) (Nat.le_refl _)
  have there := here.past (Phrase.textWidth_rowLexemes p.phrases) p.parse.diagnostics
  rw [← p.rowWidth_phrases, whole, run_bind_ok (expression_run here row)]
  exact run_bind_ok (atEnd_run there) _

end Descent

/-- The descent ends without a fault on every pattern, and finds what reading phrases finds. So
spans are in order, counters and the depth keep within their bounds, groups leave the depth as it
was, and no round of a loop stands still. -/
theorem Pattern.descend_eq (p : Pattern) : p.descend = .ok p.parse := by
  rw [descend, Descent.whole_run]
  rfl

end PatternTree
