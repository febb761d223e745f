import PatternTree.Descent.Quantifiers
import PatternTree.Proofs.Descent.Steps
import PatternTree.Proofs.Meaning.Extents

/-!
The descent through quantifiers. Main statement: it finds the quantifiers that are read from the
lexemes, keeps and reports the same of them, and stops where they end.
-/

namespace PatternTree.Descent

variable {s : State} {ls rest : List Lexeme}

-- ═══════════════════════════════════════════════════════════════
-- Digits
-- ═══════════════════════════════════════════════════════════════

/-- What digits write: nothing, or a count if a quantifier can hold it. -/
def written (ds : List Char) : Option (Option Nat) :=
  if ds = [] then none else some (if countValue ds ≤ maxCount then some (countValue ds) else none)

theorem written_of_isCount {ds : List Char} (count : isCount ds) :
    written ds = some (some (countValue ds)) := by
  obtain ⟨present, held⟩ := by simpa [isCount] using count
  simp [written, present, held]

theorem written_of_not_isCount {ds : List Char} (none : ¬isCount ds) :
    written ds = .none ∨ written ds = some .none := by
  by_cases present : ds = []
  · simp [written, present]
  · right
    have large : ¬countValue ds ≤ maxCount := by simpa [isCount, present] using none
    simp [written, present, large]

theorem le_ofDigitChars (ds : List Char) (n : Nat) : n ≤ Nat.ofDigitChars 10 ds n := by
  induction ds generalizing n with
  | nil => exact Nat.le_refl n
  | cons c ds ih =>
    rw [Nat.ofDigitChars_cons]
    exact Nat.le_trans (by omega) (ih _)

theorem foldl_addDigit_none (ds : List Char) : ds.foldl addDigit none = none := by
  induction ds with
  | nil => rfl
  | cons c ds ih => exact ih

/-- Once a count is too large, no further digit makes it smaller. -/
theorem foldl_addDigit (ds : List Char) {n : Nat} (held : n ≤ maxCount) :
    ds.foldl addDigit (some n) =
      if Nat.ofDigitChars 10 ds n ≤ maxCount then some (Nat.ofDigitChars 10 ds n) else none := by
  induction ds generalizing n with
  | nil => simp [Nat.ofDigitChars, held]
  | cons c ds ih =>
    rw [Nat.ofDigitChars_cons, List.foldl_cons, addDigit]
    split
    next more => exact ih more
    next large =>
      have := le_ofDigitChars ds (10 * n + (c.toNat - '0'.toNat))
      rw [foldl_addDigit_none, if_neg (by omega)]

theorem foldl_some_addDigit (ds : List Char) (count : Option Nat) :
    ds.foldl (fun count c => some (addDigit (count.getD (some 0)) c)) (some count) =
      some (ds.foldl addDigit count) := by
  induction ds generalizing count with
  | nil => rfl
  | cons c ds ih => exact ih _

theorem digitsRound_digit {c : Char} (digit : c.isDigit) (here : s.At (.plain c :: ls))
    (count : Option (Option Nat)) : (digitsRound count).run s =
      .ok (.inl (some (addDigit (count.getD (some 0)) c)), s.past 1 []) := by
  rw [digitsRound, run_bind_ok (current_run here)]
  simp only [Lexeme.first, Lexeme.firstKind, Lexeme.kind_plain, digit, if_true]
  rw [run_bind_ok (advance_cons here)]
  rfl

theorem digitsRound_stop (here : s.At ls) (stop : ∀ c, ls.head? = some (.plain c) → ¬c.isDigit)
    (count : Option (Option Nat)) : (digitsRound count).run s = .ok (.inr count, s) := by
  rw [digitsRound, run_bind_ok (current_run here)]
  split
  next c found =>
    have other : ¬c.isDigit := fun digit =>
      have plain := Control.letter?_digit digit
      stop c ((Lexeme.kind_first_eq_bare plain).mp found) digit
    rw [if_neg other]
    rfl
  · rfl

theorem consuming_digitsRound {ds : List Char} (here : s.At (plainRow ds ++ rest))
    (all : ∀ c ∈ ds, c.isDigit) (stop : ∀ c, rest.head? = some (.plain c) → ¬c.isDigit)
    (count : Option (Option Nat)) : (consuming digitsRound count).run s =
      .ok (ds.foldl (fun count c => some (addDigit (count.getD (some 0)) c)) count,
        s.past ds.length []) := by
  induction ds generalizing s count with
  | nil =>
    rw [consuming_answer (digitsRound_stop here stop count)]
    simp
  | cons c ds ih =>
    obtain ⟨digit, all⟩ := List.forall_mem_cons.mp all
    have more : (s.past 1 []).At (plainRow ds ++ rest) := here.tail []
    rw [consuming_next more (digitsRound_digit digit here count) Nat.one_pos, ih more all]
    simp [Nat.add_comm]

theorem digits_run {ds : List Char} (here : s.At (plainRow ds ++ rest))
    (all : ∀ c ∈ ds, c.isDigit) (stop : ∀ c, rest.head? = some (.plain c) → ¬c.isDigit) :
    digits.run s = .ok (written ds, s.past ds.length []) := by
  have value : ds.foldl (fun count c => some (addDigit (count.getD (some 0)) c)) none =
      written ds := by
    cases ds with
    | nil => rfl
    | cons c ds =>
      have sum := foldl_addDigit (c :: ds) (Nat.zero_le maxCount)
      rw [List.foldl_cons] at sum ⊢
      exact (foldl_some_addDigit ds _).trans (congrArg some sum)
  rw [digits, consuming_digitsRound here all stop, value]

-- ═══════════════════════════════════════════════════════════════
-- Ranges
-- ═══════════════════════════════════════════════════════════════

/-- What is wrong with an amount that is written from `start` on. -/
def reversal (start : Nat) (a : Amount) : List Diagnostic :=
  if a.reversed then [⟨.reversedBounds, ⟨start, start + a.width⟩⟩] else []

/-- The descent through a range answers as reading does. Where there is none, it reports
nothing. -/
def RangeRun (s : State) (x : Except Fault (Option Bounds × State)) :
    Option (Amount × List Lexeme) → Prop
  | some (a, _) => x = .ok (some a.bounds, s.past a.width (reversal s.cursor.consumed a))
  | none => ∃ width, x = .ok (none, s.past width [])

variable {opening : Token} {m n : List Char} {after : List Lexeme}

theorem ordered_run (opened : opening.span.start = s.cursor.consumed) :
    let a := Amount.between m n
    (ordered opening (countValue m) (countValue n)).run (s.past a.width []) =
      .ok (some a.bounds, s.past a.width (reversal s.cursor.consumed a)) := by
  intro a
  by_cases reversed : countValue n < countValue m
  · have span : (spanFrom s.cursor.consumed).run (s.past a.width []) = _ :=
      spanFrom_run (Nat.le_add_right _ _)
    rw [ordered, if_pos reversed, opened, run_bind_ok span, run_bind_ok (report_run _ _ _)]
    simp [reversal, Amount.reversed, Amount.bounds, reversed, a]
  · rw [ordered, if_neg reversed]
    simp [reversal, Amount.reversed, Amount.bounds, reversed, a]

/-- The amount that is read from after the comma on, where `n` are the digits there. -/
def readUpper (m n : List Char) : List Lexeme → Option (Amount × List Lexeme)
  | .mark .closeBrace :: rest =>
    if n = [] then some (.atLeast m, rest)
    else if isCount n then some (.between m n, rest)
    else none
  | _ => none

theorem rangeTo_run (opened : opening.span.start = s.cursor.consumed)
    (here : (s.past (m.length + 2) []).At (plainRow n ++ after)) (all : ∀ c ∈ n, c.isDigit)
    (stop : ∀ c, after.head? = some (.plain c) → ¬c.isDigit) :
    RangeRun s ((rangeTo opening (countValue m)).run (s.past (m.length + 2) []))
      (readUpper m n after) := by
  have next := here.past (textWidth_plainRow n) []
  rw [State.past_past_nil] at next
  rw [rangeTo, run_bind_ok (digits_run here all stop), State.past_past_nil]
  by_cases closed : after.head? = some (.mark .closeBrace)
  · obtain ⟨rest, rfl⟩ := List.head?_eq_some_iff.mp closed
    by_cases bare : n = []
    · subst bare
      refine (run_bind_ok (eat_mark next) _).trans ?_
      rw [if_pos rfl, State.past_past_nil]
      rfl
    · rw [readUpper, if_neg bare]
      by_cases count : isCount n
      · rw [if_pos count, written_of_isCount count]
        have width : m.length + 2 + n.length + 1 = (Amount.between m n).width := by
          simp only [Amount.width]
          omega
        refine (run_bind_ok (eat_mark next) _).trans ?_
        rw [if_pos rfl, State.past_past_nil, width]
        exact ordered_run opened
      · have large : written n = some none :=
          (written_of_not_isCount count).resolve_left (by simp [written, bare])
        rw [if_neg count, large]
        exact ⟨_, rfl⟩
  · have unread : readUpper m n after = none := by
      unfold readUpper
      split
      · exact absurd rfl closed
      · rfl
    rw [unread]
    refine ⟨m.length + 2 + n.length, ?_⟩
    split
    · rw [run_bind_ok (eat_other next closed)]
      rfl
    · rfl
    · rw [run_bind_ok (eat_other next closed)]
      rfl

/-- The amount that is read from after the first count on, of which `m` are the digits. -/
def readFrom (m : List Char) : List Lexeme → Option (Amount × List Lexeme)
  | .mark .closeBrace :: rest => some (.exactly m, rest)
  | .plain ',' :: more =>
    readUpper m (Lexeme.run Char.isDigit more).1 (Lexeme.run Char.isDigit more).2
  | _ => none

theorem readBraces?_eq (ls : List Lexeme) : Amount.readBraces? ls =
    if isCount (Lexeme.run Char.isDigit ls).1 then
      readFrom (Lexeme.run Char.isDigit ls).1 (Lexeme.run Char.isDigit ls).2
    else none := rfl

theorem rangeFrom_run (opened : opening.span.start = s.cursor.consumed)
    (here : (s.past (m.length + 1) []).At ls) :
    RangeRun s ((rangeFrom opening (countValue m)).run (s.past (m.length + 1) []))
      (readFrom m ls) := by
  have comma : Control.letter? ',' = none := rfl
  rw [rangeFrom]
  by_cases more : ls.head? = some (.plain ',')
  · obtain ⟨ls, rfl⟩ := List.head?_eq_some_iff.mp more
    have later : (s.past (m.length + 2) []).At ls := here.tail []
    obtain ⟨n, after, second⟩ : ∃ n after, Lexeme.run Char.isDigit ls = (n, after) := ⟨_, _, rfl⟩
    obtain ⟨rfl, all, stop⟩ := Lexeme.run_eq_iff.mp second
    rw [run_bind_ok (eatChar_plain comma here), if_pos rfl, State.past_past_nil, readFrom, second]
    exact rangeTo_run opened later all stop
  · rw [run_bind_ok (eatChar_other comma here more), if_neg Bool.false_ne_true]
    by_cases closed : ls.head? = some (.mark .closeBrace)
    · obtain ⟨rest, rfl⟩ := List.head?_eq_some_iff.mp closed
      refine (run_bind_ok (eat_mark here) _).trans ?_
      rw [if_pos rfl, State.past_past_nil]
      rfl
    · have unread : readFrom m ls = none := by
        unfold readFrom
        split
        · exact absurd rfl closed
        · exact absurd rfl more
        · rfl
      rw [unread, run_bind_ok (eat_other here closed)]
      exact ⟨_, rfl⟩

theorem range_run (here : s.At (.mark .openBrace :: ls)) :
    RangeRun s (range.run s) (Amount.readBraces? ls) := by
  obtain ⟨m, after, first⟩ : ∃ m after, Lexeme.run Char.isDigit ls = (m, after) := ⟨_, _, rfl⟩
  obtain ⟨rfl, all, stop⟩ := Lexeme.run_eq_iff.mp first
  have inside : (s.past 1 []).At (plainRow m ++ after) := here.tail []
  have next := inside.past (textWidth_plainRow m) []
  have counted := digits_run inside all stop
  rw [State.past_past_nil, Nat.add_comm] at next counted
  rw [range, run_bind_ok (advance_cons here), readBraces?_eq, first]
  rw [show (Lexeme.mark .openBrace).width = 1 from rfl, run_bind_ok counted]
  by_cases count : isCount m
  · rw [written_of_isCount count, if_pos count]
    exact rangeFrom_run rfl next
  · rw [if_neg count]
    refine ⟨m.length + 1, ?_⟩
    rcases written_of_not_isCount count with none | large
    · rw [none]
      rfl
    · rw [large]
      rfl

-- ═══════════════════════════════════════════════════════════════
-- Quantifiers
-- ═══════════════════════════════════════════════════════════════

theorem withLazy_run (here : s.At ls) (bounds : Bounds) :
    (withLazy bounds).run s =
      .ok (some ⟨bounds.1, bounds.2, (Repetition.readLazy ls).1⟩,
        s.past (Repetition.readLazy ls).1.toNat []) := by
  by_cases lazy : ls.head? = some (.mark .question)
  · obtain ⟨rest, rfl⟩ := List.head?_eq_some_iff.mp lazy
    rw [withLazy, run_bind_ok (eat_mark here)]
    rfl
  · have bare : (Repetition.readLazy ls).1 = false := by
      unfold Repetition.readLazy
      split
      · exact absurd rfl lazy
      · rfl
    rw [withLazy, run_bind_ok (eat_other here lazy), bare]
    simp

/-- The descent through a quantifier answers as reading does. Where there is none, it changes
nothing. -/
def QuantifierRun (s : State) (x : Except Fault (Option Quantifier × State)) :
    Option (Repetition × List Lexeme) → Prop
  | some (r, _) =>
    x = .ok (some r.quantifier, s.past r.width (reversal s.cursor.consumed r.amount))
  | none => x = .ok (none, s)

/-- A quantifier of one mark. -/
theorem withLazy_mark {m : Mark} (here : s.At (.mark m :: ls)) (bounds : Bounds) :
    (do let _ ← advance; withLazy bounds : Descent (Option Quantifier)).run s =
      .ok (some ⟨bounds.1, bounds.2, (Repetition.readLazy ls).1⟩,
        s.past (1 + (Repetition.readLazy ls).1.toNat) []) := by
  have rest : (s.past 1 []).At ls := here.tail []
  rw [run_bind_ok (advance_cons here)]
  exact (withLazy_run rest bounds).trans (by rw [State.past_past_nil])

theorem quantifier_openBrace (here : s.At (.mark .openBrace :: ls)) :
    QuantifierRun s (quantifier.run s) (Repetition.read? (.mark .openBrace :: ls)) := by
  have ranged := range_run here
  rw [quantifier, run_bind_ok (current_run here), Repetition.read?, Amount.read?]
  refine (congrArg (QuantifierRun s · _) (run_bind_ok rfl _)).mpr ?_
  cases found : Amount.readBraces? ls with
  | none =>
    rw [found] at ranged
    obtain ⟨width, failed⟩ := ranged
    rw [run_bind_ok failed]
    simp [QuantifierRun, State.past, Cursor.restore, Cursor.snapshot]
  | some read =>
    obtain ⟨a, rest⟩ := read
    rw [found] at ranged
    have written : s.At (a.lexemes ++ rest) := Amount.lexemes_readBraces? found ▸ here
    have next := written.past a.textWidth_lexemes (reversal s.cursor.consumed a)
    rw [run_bind_ok ranged]
    refine (withLazy_run next _).trans ?_
    rw [State.past_past, List.append_nil]
    rfl

theorem quantifier_run (here : s.At ls) :
    QuantifierRun s (quantifier.run s) (Repetition.read? ls) := by
  cases ls with
  | nil =>
    rw [quantifier, run_bind_ok (current_run here)]
    rfl
  | cons l ls =>
    cases l with
    | mark m =>
      cases m with
      | openBrace => exact quantifier_openBrace here
      | question =>
        rw [quantifier, run_bind_ok (current_run here)]
        exact withLazy_mark here (0, some 1)
      | star =>
        rw [quantifier, run_bind_ok (current_run here)]
        exact withLazy_mark here (0, none)
      | plus =>
        rw [quantifier, run_bind_ok (current_run here)]
        exact withLazy_mark here (1, none)
      | _ =>
        rw [quantifier, run_bind_ok (current_run here)]
        rfl
    | escape c =>
      rw [quantifier, run_bind_ok (current_run here), Lexeme.first, Lexeme.firstKind]
      rcases Lexeme.kind_escape c with ⟨d, kind, -⟩ | ⟨d, kind, -⟩ | ⟨kind, -⟩ <;>
      · rw [kind]
        rfl
    | _ =>
      rw [quantifier, run_bind_ok (current_run here)]
      rfl

-- ═══════════════════════════════════════════════════════════════
-- Stacked quantifiers
-- ═══════════════════════════════════════════════════════════════

section

variable {x : Stack} {r : Repetition}

theorem quantifier_found (here : s.At ls) (found : Repetition.read? ls = some (r, rest)) :
    quantifier.run s =
      .ok (some r.quantifier, s.past r.width (reversal s.cursor.consumed r.amount)) := by
  have run := quantifier_run here
  rwa [found] at run

theorem quantifiedRound_none (here : s.At ls) (none : Repetition.read? ls = none) :
    (quantifiedRound x).run s = .ok (.inr x, s) := by
  have run := quantifier_run here
  rw [none] at run
  rw [quantifiedRound, run_bind_ok (position_run here), run_bind_ok run]
  rfl

theorem quantifiedRound_kept (here : s.At ls) (found : Repetition.read? ls = some (r, rest))
    (few : x.kept ≠ maxStacked) (le : x.item.span.start ≤ s.cursor.consumed) :
    let stop := s.cursor.consumed + r.width
    (quantifiedRound x).run s =
      .ok (.inl ⟨.quantified x.item r.quantifier ⟨x.item.span.start, stop⟩, x.kept + 1, x.dropped⟩,
        s.past r.width (reversal s.cursor.consumed r.amount)) := by
  have span := spanFrom_run (s := s.past r.width (reversal s.cursor.consumed r.amount))
    (Nat.le_trans le (Nat.le_add_right _ r.width))
  rw [quantifiedRound, run_bind_ok (position_run here), run_bind_ok (quantifier_found here found)]
  simp only [if_neg few]
  rw [run_bind_ok span]
  rfl

theorem quantifiedRound_dropped (here : s.At ls) (found : Repetition.read? ls = some (r, rest))
    (full : x.kept = maxStacked) :
    (quantifiedRound x).run s =
      .ok (.inl { x with dropped := x.dropped.or (some s.cursor.consumed) },
        s.past r.width (reversal s.cursor.consumed r.amount)) := by
  rw [quantifiedRound, run_bind_ok (position_run here), run_bind_ok (quantifier_found here found)]
  simp only [if_pos full]
  rfl

/-- Behind the first of some quantifiers are the others. -/
theorem State.At.tail_row {rs : List Repetition}
    (here : s.At ((r :: rs).flatMap Repetition.lexemes ++ rest)) (ds : List Diagnostic) :
    (s.past r.width ds).At (rs.flatMap Repetition.lexemes ++ rest) := by
  rw [List.flatMap_cons, List.append_assoc] at here
  exact here.past r.textWidth_lexemes ds

/-- Of the quantifiers that follow, as many are kept as there is room for. -/
theorem consuming_quantifiedRound {rs : List Repetition} (row : Repetition.RowLegal rest rs)
    (here : s.At (rs.flatMap Repetition.lexemes ++ rest)) (room : x.kept ≤ maxStacked)
    (le : x.item.span.start ≤ s.cursor.consumed) :
    let held := rs.take (maxStacked - x.kept)
    let start := s.cursor.consumed
    ∃ kept, (consuming quantifiedRound x).run s =
      .ok (⟨Repetition.wrapAll x.item.span.start x.item start held, kept,
          x.dropped.or (if maxStacked - x.kept < rs.length then
            some (start + Repetition.rowWidth held) else none)⟩,
        s.past (Repetition.rowWidth rs) (Repetition.reversals start rs)) := by
  induction rs generalizing s x with
  | nil =>
    refine ⟨x.kept, ?_⟩
    rw [consuming_answer (quantifiedRound_none here row)]
    simp [Repetition.wrapAll, Repetition.rowWidth, Repetition.reversals]
  | cons r rs ih =>
    obtain ⟨found, row⟩ := row.read?_cons
    have next := here.tail_row (reversal s.cursor.consumed r.amount)
    by_cases full : x.kept = maxStacked
    · let x' : Stack := { x with dropped := x.dropped.or (some s.cursor.consumed) }
      have round : (quantifiedRound x).run s = .ok (.inl x', _) :=
        quantifiedRound_dropped here found full
      obtain ⟨kept, run⟩ := @ih _ x' row next room (Nat.le_trans le (Nat.le_add_right _ _))
      refine ⟨kept, ?_⟩
      rw [consuming_next next round r.width_pos, run]
      simp [x', full, Repetition.wrapAll, Repetition.rowWidth, Repetition.reversals, reversal]
    · let stop := s.cursor.consumed + r.width
      let x' : Stack :=
        ⟨.quantified x.item r.quantifier ⟨x.item.span.start, stop⟩, x.kept + 1, x.dropped⟩
      have round : (quantifiedRound x).run s = .ok (.inl x', _) :=
        quantifiedRound_kept here found full le
      have room' : x'.kept ≤ maxStacked := Nat.lt_of_le_of_ne room full
      obtain ⟨kept, run⟩ := @ih _ x' row next room' (Nat.le_trans le (Nat.le_add_right _ _))
      have left : maxStacked - x.kept = maxStacked - x'.kept + 1 := by
        have : x'.kept = x.kept + 1 := rfl
        omega
      refine ⟨kept, ?_⟩
      rw [consuming_next next round r.width_pos, run, left]
      simp [x', stop, Item.span, Repetition.wrapAll, Repetition.rowWidth, Repetition.reversals,
        reversal, Nat.add_assoc]

/-- The descent wraps an item in the quantifiers that follow it as reading does. -/
theorem quantified_run {item : Item} {rs : List Repetition} (row : Repetition.RowLegal rest rs)
    (here : s.At (rs.flatMap Repetition.lexemes ++ rest))
    (le : item.span.start ≤ s.cursor.consumed) :
    (quantified item).run s =
      .ok (Repetition.wrap item.span.start item s.cursor.consumed rs,
        s.past (Repetition.rowWidth rs) (Repetition.diagnostics s.cursor.consumed rs)) := by
  obtain ⟨kept, run⟩ :=
    @consuming_quantifiedRound s rest ⟨item, 0, none⟩ rs row here (Nat.zero_le _) le
  rw [quantified, run_bind_ok run, Repetition.diagnostics]
  simp only [Nat.sub_zero, Option.none_or]
  by_cases many : maxStacked < rs.length
  · have within := Repetition.rowWidth_take_le maxStacked rs
    have span := spanFrom_run (s := s.past (Repetition.rowWidth rs)
      (Repetition.reversals s.cursor.consumed rs)) (Nat.add_le_add_left within s.cursor.consumed)
    simp only [if_pos many]
    rw [run_bind_ok span, run_bind_ok (report_run _ _ _), State.past_past]
    rfl
  · simp only [if_neg many, List.append_nil]
    rfl

end

end PatternTree.Descent
