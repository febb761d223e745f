import PatternTree.Proofs.Descent.Ahead
import PatternTree.Proofs.Descent.Quantifiers
import PatternTree.Proofs.Grammar.Parts

/-!
The descent at an opening brace, where a range is tried. Main statement: a quantifier is found
exactly where the tokens ahead begin with a range of the grammar, and otherwise nothing changes.
-/

namespace PatternTree

theorem Amount.length_lexemes (a : Amount) : a.lexemes.length = a.width := by
  cases a <;> simp [lexemes, plainRow, width]; omega

/-- A question mark after an amount is its lazy mark. -/
theorem Repetition.read?_lexemes {a : Amount} (legal : a.Legal) (more : List Lexeme) :
    let lazy : Bool := more.head? = some (.mark .question)
    read? (a.lexemes ++ more) = some (⟨a, lazy⟩, more.drop lazy.toNat) := by
  intro lazy
  apply read?_eq_some_iff.mpr
  by_cases question : more.head? = some (.mark .question)
  · obtain ⟨after, rfl⟩ := List.head?_eq_some_iff.mp question
    exact ⟨by simp [lexemes, lazy], legal, by simp [lazy]⟩
  · exact ⟨by simp [lexemes, lazy, question], legal, by simp [lazy, question]⟩

namespace Descent

/-- What comes of a range with the counts `m` and `n`, which the tokens `rest` follow. Each token of
a range is one character wide. -/
structure RangeTaken (s : State) (rest : List Token.Kind) (m : UInt32) (n : Option UInt32)
    (q : Quantifier) (s' : State) : Prop where
  bounds : (q.min, q.max) = Grammar.countsInOrder m n
  lazy : q.lazy ↔ rest.head? = some (.mark .question)
  state : let width := s.cursor.kinds.length - rest.length
    s' = s.past (width + q.lazy.toNat) (if Grammar.countsReversed m n then
      [⟨.reversedBounds, ⟨s.cursor.consumed, s.cursor.consumed + width⟩⟩] else [])
  ahead : s'.cursor.kinds = rest.drop q.lazy.toNat

variable {s s' s'' : State} {rest : List Token.Kind} {m : UInt32} {n : Option UInt32}
  {q q' : Quantifier} {ls : List Lexeme}

theorem RangeTaken.unique (taken : RangeTaken s rest m n q s')
    (taken' : RangeTaken s rest m n q' s'') : q = q' ∧ s' = s'' := by
  obtain rfl : q = q' := by
    obtain ⟨least, most⟩ := Prod.mk.inj (taken.bounds.trans taken'.bounds.symm)
    have lazy := Bool.eq_iff_iff.mpr (taken.lazy.trans taken'.lazy.symm)
    cases q
    cases q'
    rw [Quantifier.mk.injEq]
    exact ⟨least, most, lazy⟩
  exact ⟨rfl, taken.state.trans taken'.state.symm⟩

/-- Where a range of the grammar is ahead it is taken. -/
theorem quantifier_taken (here : s.At ls) (range : Grammar.Range s.cursor.kinds rest m n) :
    ∃ q s', quantifier.run s = .ok (some q, s') ∧ RangeTaken s rest m n q s' := by
  obtain ⟨a, more, rfl, rfl, legal, reversed, bounds⟩ := range.written here.kinds_eq.symm
  have read := Repetition.read?_lexemes legal more
  have found := quantifier_found here read
  have width : s.cursor.kinds.length - (more.map Lexeme.kind).length = a.width := by
    rw [here.kinds_eq, List.length_map, List.length_append, a.length_lexemes, List.length_map,
      Nat.add_sub_cancel]
  -- The lazy mark is part of what was read, so what is ahead now is the rest without it.
  rw [← Repetition.lexemes_read? read] at here
  have there := here.past (Repetition.textWidth_lexemes _) (reversal s.cursor.consumed a)
  refine ⟨_, _, found, bounds, ?_, ?_, ?_⟩
  · simp [Repetition.quantifier, Lexeme.kind_eq_mark]
  · rw [width, ← reversed]
    rfl
  · rw [there.kinds_eq, List.map_drop]
    rfl

/-- A quantifier begins at an opening brace exactly where a range of the grammar does. Where none
does, the state stays as it is. -/
theorem quantifier_range_iff (s : State) (here : s.cursor.current.kind = .mark .openBrace) :
    (∀ q s', quantifier.run s = .ok (some q, s') ↔
      ∃ rest m n, Grammar.Range s.cursor.kinds rest m n ∧ RangeTaken s rest m n q s') ∧
    ((¬∃ rest m n, Grammar.Range s.cursor.kinds rest m n) →
      quantifier.run s = .ok (none, s)) := by
  obtain ⟨ls, here⟩ := State.exists_at_mark here
  have missed (rangeless : ¬∃ rest m n, Grammar.Range s.cursor.kinds rest m n) :
      quantifier.run s = .ok (none, s) := by
    rw [here.kinds_eq] at rangeless
    have unread := Repetition.read?_eq_none_iff.mpr ⟨by simp [Grammar.Unrepeated], rangeless⟩
    have run := quantifier_run here
    rwa [unread] at run
  refine ⟨fun q s' => ⟨fun run => ?_, ?_⟩, missed⟩
  · by_cases range : ∃ rest m n, Grammar.Range s.cursor.kinds rest m n
    · obtain ⟨rest, m, n, range⟩ := range
      obtain ⟨q', s'', run', taken⟩ := quantifier_taken here range
      cases run.symm.trans run'
      exact ⟨rest, m, n, range, taken⟩
    · cases run.symm.trans (missed range)
  · rintro ⟨rest, m, n, range, taken⟩
    obtain ⟨q', s'', run, taken'⟩ := quantifier_taken here range
    obtain ⟨rfl, rfl⟩ := taken.unique taken'
    exact run

/-- The law for two counts that are reversed, with leading zeros and a lazy mark. -/
theorem quantifier_range_reversed :
    let s : State := ⟨⟨.ofText "a\x7b007,2\x7d?b" false, 1⟩, [], 3⟩
    s.cursor.current.kind = .mark .openBrace ∧
      quantifier.run s =
        .ok (some ⟨2, some 7, true⟩, s.past 8 [⟨.reversedBounds, ⟨1, 8⟩⟩]) := by
  intro s
  have here : s.cursor.current.kind = .mark .openBrace := by decide +kernel
  have kinds : s.cursor.kinds = .mark .openBrace :: (Token.Kind.bareRow ['0', '0', '7'] ++
      .character ',' false :: (Token.Kind.bareRow ['2'] ++
        .mark .closeBrace :: [.mark .question, .character 'b' false])) := by decide +kernel
  have least : Grammar.Count ['0', '0', '7'] 7 := ⟨by simp, List.all_eq_true.mp rfl, rfl⟩
  have most : Grammar.Count ['2'] 2 := ⟨by simp, List.all_eq_true.mp rfl, rfl⟩
  have range : Grammar.Range s.cursor.kinds [.mark .question, .character 'b' false] 7 (some 2) :=
    kinds ▸ .between least most
  apply And.intro here
  apply ((quantifier_range_iff s here).1 _ _).mpr
  refine ⟨_, _, _, range, by decide, by decide, ?_, by decide +kernel⟩
  rw [kinds]
  rfl

end Descent

end PatternTree
