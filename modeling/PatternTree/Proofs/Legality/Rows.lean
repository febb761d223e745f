import PatternTree.Parse
import PatternTree.Proofs.Legality.Parts

/-!
Legal phrases: what a phrase and its follow-up have to be like for reading to give that phrase. All
that later proofs need to know of reading is here. Main statement: `readRow_eq_iff`, reading a row
of phrases is the same as writing down legal ones.
-/

namespace PatternTree

namespace Lexeme

/-- Whether a lexeme has no meaning where a phrase begins. -/
def isStray : Lexeme → Bool
  | mark .closeParen | mark .question | mark .star | mark .plus | dangling => true
  | _ => false

/-- Whether a lexeme is an item on its own. -/
def isItem : Lexeme → Bool
  | mark .bar | mark .openParen | mark .openBracket => false
  | l => !l.isStray

end Lexeme

-- ═══════════════════════════════════════════════════════════════
-- Legal phrases
-- ═══════════════════════════════════════════════════════════════

mutual

/-- The phrase is what is read in front of `rest` where groups may nest `levels` deep. A group
without its closing parenthesis ends with the text. -/
def Phrase.Legal (levels : Nat) (rest : List Lexeme) : Phrase → Prop
  | .bar => True
  | .stray l => l.isStray
  | .tooDeep ls => levels = 0 ∧
      ∃ inner, ls = .mark .openParen :: inner ∧ afterGroup 0 false (inner ++ rest) = rest
  | .single l rs => l.isItem ∧ Repetition.RowLegal rest rs
  | .set b rs => b.Legal (rs.flatMap Repetition.lexemes ++ rest) ∧ Repetition.RowLegal rest rs
  | .group h body closed rs =>
    let after := rs.flatMap Repetition.lexemes ++ rest
    let close := closing .closeParen closed ++ after
    (∃ inner, levels = inner + 1 ∧ Phrase.RowLegal inner true close body) ∧
      h.Legal (Phrase.rowLexemes body ++ close) ∧ (closed ∨ after = []) ∧
      Repetition.RowLegal rest rs

/-- The phrases are read in front of `rest`. Inside a group a closing parenthesis is none. -/
def Phrase.RowLegal (levels : Nat) (inGroup : Bool) (rest : List Lexeme) : List Phrase → Prop
  | [] => True
  | p :: ps => p.Legal levels (Phrase.rowLexemes ps ++ rest) ∧
      (inGroup → p ≠ .stray (.mark .closeParen)) ∧ Phrase.RowLegal levels inGroup rest ps

end

namespace Phrase

theorem rowLexemes_append (ps qs : List Phrase) :
    rowLexemes (ps ++ qs) = rowLexemes ps ++ rowLexemes qs := by
  induction ps with
  | nil => rfl
  | cons p ps ih => rw [List.cons_append, rowLexemes, rowLexemes, ih, List.append_assoc]

theorem rowLegal_append {levels : Nat} {inGroup : Bool} {rest : List Lexeme}
    {ps qs : List Phrase} : RowLegal levels inGroup rest (ps ++ qs) ↔
      RowLegal levels inGroup (rowLexemes qs ++ rest) ps ∧ RowLegal levels inGroup rest qs := by
  induction ps with
  | nil => simp [RowLegal]
  | cons p ps ih =>
    simp only [List.cons_append, RowLegal, ih, rowLexemes_append, List.append_assoc, and_assoc]

-- ═══════════════════════════════════════════════════════════════
-- Reading gives legal phrases
-- ═══════════════════════════════════════════════════════════════

/-- Where a row of phrases ends: with the text, or inside a group at a closing parenthesis. -/
def Stop (inGroup : Bool) (rest : List Lexeme) : Prop :=
  rest = [] ∨ inGroup ∧ rest.head? = some (.mark .closeParen)

/-- A way to read groups that gives legal phrases only. -/
def LegalReader (levels : Nat) (groups : GroupReader) : Prop :=
  ∀ ls, (groups.read ls).1.Legal levels (groups.read ls).2

theorem legal_read {levels : Nat} {groups : GroupReader} (legal : LegalReader levels groups)
    (l : Lexeme) (ls : List Lexeme) : (read groups l ls).1.Legal levels (read groups l ls).2 := by
  unfold read
  split
  case h_7 => exact legal ls
  case h_8 =>
    refine ⟨?_, Repetition.rowLegal_readAll _⟩
    rw [Repetition.lexemes_readAll]
    exact Bracket.legal_read ls
  case h_9 =>
    refine ⟨?_, Repetition.rowLegal_readAll _⟩
    cases l with
    | mark m => cases m <;> first | rfl | contradiction
    | dangling => contradiction
    | _ => rfl
  all_goals trivial

theorem rowLegal_readRow {levels : Nat} {groups : GroupReader} (legal : LegalReader levels groups)
    (lossless : Lossless groups) (inGroup : Bool) (ls : List Lexeme) :
    RowLegal levels inGroup (readRow groups inGroup ls).2 (readRow groups inGroup ls).1 := by
  fun_induction readRow groups inGroup ls with
  | case1 | case2 => trivial
  | case3 l ls continues _ phrase row ih =>
    refine ⟨?_, ?_, ih⟩
    · rw [rowLexemes_readRow lossless]
      exact legal_read legal l ls
    -- Inside a group the row would have ended at the parenthesis.
    · intro inside stray
      have whole := lexemes_read lossless l ls
      rw [show (read groups l ls).1 = _ from stray] at whole
      exact continues ⟨inside, (List.cons.inj whole).1.symm⟩

theorem stop_readRow (groups : GroupReader) (inGroup : Bool) (ls : List Lexeme) :
    Stop inGroup (readRow groups inGroup ls).2 := by
  fun_induction readRow groups inGroup ls with
  | case1 => exact Or.inl rfl
  | case2 l ls stops => exact Or.inr ⟨stops.1, by simp [stops.2]⟩
  | case3 l ls _ _ phrase row ih => exact ih

theorem legal_skipGroup : LegalReader 0 ⟨skipGroup, length_afterGroup 0 false⟩ := by
  intro ls
  have whole : _ ++ afterGroup 0 false ls = ls := (List.cons.inj (lexemes_skipGroup ls)).2
  exact ⟨rfl, _, rfl, congrArg (afterGroup 0 false) whole⟩

theorem legal_readGroup {levels : Nat} {groups : GroupReader} (legal : LegalReader levels groups)
    (lossless : Lossless groups) :
    LegalReader (levels + 1) ⟨readGroup groups, length_readGroup groups⟩ := by
  intro ls
  have closed_or_end (ls : List Lexeme) (stop : Stop true ls) :
      (readClose ls).1 ∨ (readClose ls).2 = [] := by
    rcases stop with rfl | ⟨-, head⟩
    · exact Or.inr rfl
    · obtain ⟨more, rfl⟩ := List.head?_eq_some_iff.mp head
      exact Or.inl rfl
  simp only [readGroup, readEnclosed, Legal, Repetition.lexemes_readAll, closing_readClose,
    rowLexemes_readRow lossless]
  exact ⟨⟨levels, rfl, rowLegal_readRow legal lossless true _⟩, Header.legal_read ls,
    closed_or_end _ (stop_readRow groups true _), Repetition.rowLegal_readAll _⟩

theorem legal_groupReader : ∀ levels, LegalReader levels (groupReader levels)
  | 0 => legal_skipGroup
  | levels + 1 => legal_readGroup (legal_groupReader levels) (lossless_groupReader levels)

-- ═══════════════════════════════════════════════════════════════
-- Legal phrases are read
-- ═══════════════════════════════════════════════════════════════

/-- A way to read groups that gives back each legal phrase that begins with a parenthesis. -/
def Rereads (levels : Nat) (groups : GroupReader) : Prop :=
  ∀ p ls rest, p.Legal levels rest → p.lexemes ++ rest = .mark .openParen :: ls →
    groups.read ls = (p, rest)

theorem lexemes_eq_cons {levels : Nat} {rest : List Lexeme} {p : Phrase}
    (legal : p.Legal levels rest) : ∃ l more, p.lexemes = l :: more ∧
      (l = .mark .bar → p = bar) ∧ (l = .mark .closeParen → p = stray l) ∧
      (l = .mark .openParen →
        (∃ ls, p = tooDeep ls) ∨ ∃ h body closed rs, p = group h body closed rs) := by
  cases p with
  | bar => exact ⟨_, _, rfl, by simp, by simp, by simp⟩
  | stray l =>
    refine ⟨_, _, rfl, ?_, by simp, ?_⟩ <;>
    · rintro rfl
      cases legal
  | tooDeep ls =>
    obtain ⟨-, inner, rfl, -⟩ := legal
    exact ⟨_, _, rfl, by simp, by simp, fun _ => Or.inl ⟨_, rfl⟩⟩
  | single l rs =>
    refine ⟨_, _, rfl, ?_, ?_, ?_⟩ <;>
    · rintro rfl
      cases legal.1
  | set b rs => exact ⟨_, _, rfl, by simp, by simp, by simp⟩
  | group h body closed rs =>
    obtain ⟨more, opening⟩ := h.lexemes_eq_cons
    refine ⟨.mark .openParen, more ++ rowLexemes body ++ closing .closeParen closed ++
      rs.flatMap Repetition.lexemes, ?_, by simp, by simp, fun _ => Or.inr ⟨_, _, _, _, rfl⟩⟩
    simp [lexemes, opening]

theorem lexemes_ne_nil {levels : Nat} {rest : List Lexeme} {p : Phrase}
    (legal : p.Legal levels rest) : p.lexemes ≠ [] := by
  obtain ⟨l, more, first, -⟩ := lexemes_eq_cons legal
  simp [first]

/-- Every phrase takes up some text, so a row without text is empty. -/
theorem RowLegal.eq_nil {levels : Nat} {inGroup : Bool} {rest : List Lexeme} {ps : List Phrase}
    (row : RowLegal levels inGroup rest ps) (none : rowLexemes ps = []) : ps = [] := by
  cases ps with
  | nil => rfl
  | cons p ps => exact absurd (List.append_eq_nil_iff.mp none).1 (lexemes_ne_nil row.1)

theorem read_item {groups : GroupReader} {l : Lexeme} (item : l.isItem) (ls : List Lexeme) :
    read groups l ls = (single l (Repetition.readAll ls).1, (Repetition.readAll ls).2) := by
  cases l with
  | mark m => cases m <;> first | rfl | cases item
  | dangling => cases item
  | _ => rfl

theorem read_lexemes {levels : Nat} {groups : GroupReader} (rereads : Rereads levels groups)
    {p : Phrase} {l : Lexeme} {ls rest : List Lexeme} (legal : p.Legal levels rest)
    (written : p.lexemes ++ rest = l :: ls) : read groups l ls = (p, rest) := by
  cases p with
  | bar =>
    cases written
    rfl
  | stray l' =>
    cases written
    unfold Legal Lexeme.isStray at legal
    split at legal <;> first | rfl | cases legal
  | tooDeep ls' =>
    obtain ⟨-, inner, rfl, -⟩ := id legal
    obtain rfl := (List.cons.inj written).1
    exact rereads _ _ _ legal written
  | single l' rs =>
    obtain ⟨item, row⟩ := legal
    obtain ⟨rfl, rfl⟩ := List.cons.inj written
    rw [read_item item]
    exact congrArg (fun x => (single l' x.1, x.2)) (Repetition.readAll_lexemes row)
  | set b rs =>
    obtain ⟨bracket, row⟩ := legal
    rw [lexemes, List.append_assoc] at written
    obtain rfl := (List.cons.inj written).1
    rw [read, Bracket.read_lexemes bracket written, Repetition.readAll_lexemes row]
  | group h body closed rs =>
    obtain ⟨more, opening⟩ := h.lexemes_eq_cons
    have first : l = .mark .openParen := by
      rw [lexemes, opening] at written
      exact (List.cons.inj written).1.symm
    subst first
    exact rereads _ _ _ legal written

theorem readRow_lexemes {levels : Nat} {groups : GroupReader} (rereads : Rereads levels groups)
    {inGroup : Bool} {ps : List Phrase} {rest : List Lexeme}
    (row : RowLegal levels inGroup rest ps) (stop : Stop inGroup rest) :
    readRow groups inGroup (rowLexemes ps ++ rest) = (ps, rest) := by
  induction ps with
  | nil =>
    rcases stop with rfl | ⟨inside, head⟩
    · simp [rowLexemes, readRow]
    · obtain ⟨more, rfl⟩ := List.head?_eq_some_iff.mp head
      simp [rowLexemes, readRow, inside]
  | cons p ps ih =>
    obtain ⟨legal, other, row⟩ := row
    obtain ⟨l, more, written, -, closes, -⟩ := lexemes_eq_cons legal
    -- The row goes on, since only a stray parenthesis begins with one that closes.
    have continues : ¬(inGroup ∧ l = .mark .closeParen) := by
      rintro ⟨inside, rfl⟩
      exact other inside (closes rfl)
    have phrase : read groups l (more ++ (rowLexemes ps ++ rest)) = (p, rowLexemes ps ++ rest) :=
      read_lexemes rereads legal (by rw [written]; rfl)
    rw [rowLexemes, written, List.append_assoc, List.cons_append, readRow, if_neg continues, phrase]
    simp [ih row]

/-- What follows the body of a group stops the body, and closes the group if that is closed. -/
theorem stop_and_readClose {closed : Bool} {after : List Lexeme} (ended : closed ∨ after = []) :
    Stop true (closing .closeParen closed ++ after) ∧
      readClose (closing .closeParen closed ++ after) = (closed, after) := by
  cases closed with
  | true => exact ⟨Or.inr ⟨rfl, rfl⟩, rfl⟩
  | false =>
    obtain rfl : after = [] := by simpa using ended
    exact ⟨Or.inl rfl, rfl⟩

theorem rereads_skipGroup : Rereads 0 ⟨skipGroup, length_afterGroup 0 false⟩ := by
  intro p ls rest legal written
  obtain ⟨l, more, first, -, -, opens⟩ := lexemes_eq_cons legal
  rw [first] at written
  obtain ⟨rfl, tail⟩ := List.cons.inj written
  obtain rfl : ls = more ++ rest := tail.symm
  rcases opens rfl with ⟨skipped, rfl⟩ | ⟨h, body, closed, rs, rfl⟩
  · obtain ⟨-, inner, rfl, after⟩ := legal
    obtain rfl := (List.cons.inj first).2
    simp [skipGroup, after]
  · obtain ⟨⟨inner, none, -⟩, -⟩ := legal
    cases none

theorem rereads_readGroup {levels : Nat} {groups : GroupReader} (rereads : Rereads levels groups) :
    Rereads (levels + 1) ⟨readGroup groups, length_readGroup groups⟩ := by
  intro p ls rest legal written
  obtain ⟨l, more, first, -, -, opens⟩ := lexemes_eq_cons legal
  rw [first] at written
  obtain ⟨rfl, tail⟩ := List.cons.inj written
  obtain rfl : ls = more ++ rest := tail.symm
  rcases opens rfl with ⟨skipped, rfl⟩ | ⟨h, body, closed, rs, rfl⟩
  -- No group is too deep here, and a group leaves one level less to those inside.
  · cases legal.1
  · obtain ⟨⟨inner, deeper, row⟩, header, ended, repeated⟩ := legal
    obtain rfl := Nat.succ.inj deeper
    have whole := congrArg (· ++ rest) first
    simp only [lexemes, List.append_assoc, List.cons_append] at whole
    obtain ⟨stop, closes⟩ := stop_and_readClose ended
    simp only [readGroup, readEnclosed, Header.read_lexemes header whole,
      readRow_lexemes rereads row stop, closes, Repetition.readAll_lexemes repeated]

theorem rereads_groupReader : ∀ levels, Rereads levels (groupReader levels)
  | 0 => rereads_skipGroup
  | levels + 1 => rereads_readGroup (rereads_groupReader levels)

/-- Reading is exact: a row of phrases is read where it is written and legal, and only there. -/
theorem readRow_eq_iff {levels : Nat} {inGroup : Bool} {ls rest : List Lexeme}
    {ps : List Phrase} :
    readRow (groupReader levels) inGroup ls = (ps, rest) ↔
      rowLexemes ps ++ rest = ls ∧ RowLegal levels inGroup rest ps ∧ Stop inGroup rest := by
  constructor
  · intro read
    have whole := rowLexemes_readRow (lossless_groupReader levels) inGroup ls
    have legal := rowLegal_readRow (legal_groupReader levels) (lossless_groupReader levels)
      inGroup ls
    have stop := stop_readRow (groupReader levels) inGroup ls
    rw [read] at whole legal stop
    exact ⟨whole, legal, stop⟩
  · rintro ⟨rfl, legal, stop⟩
    exact readRow_lexemes (rereads_groupReader levels) legal stop

end Phrase

namespace Pattern

theorem rowLexemes_phrases (p : Pattern) : Phrase.rowLexemes p.phrases = p.lexemes :=
  Phrase.rowLexemes_readText p.lexemes

theorem rowLegal_phrases (p : Pattern) : Phrase.RowLegal maxDepth false [] p.phrases := by
  have legal := Phrase.rowLegal_readRow (Phrase.legal_groupReader maxDepth)
    (Phrase.lossless_groupReader maxDepth) false p.lexemes
  rwa [Phrase.rest_readRow_outside] at legal

/-- Legal phrases that write a pattern are the phrases of the pattern. -/
theorem phrases_eq {p : Pattern} {ps : List Phrase} (written : Phrase.rowLexemes ps = p.lexemes)
    (row : Phrase.RowLegal maxDepth false [] ps) : p.phrases = ps := by
  have text : Phrase.rowLexemes ps ++ [] = p.lexemes := by rw [List.append_nil, written]
  rw [phrases, Phrase.readText, Phrase.readRow_eq_iff.mpr ⟨text, row, Or.inl rfl⟩]

end Pattern

end PatternTree
