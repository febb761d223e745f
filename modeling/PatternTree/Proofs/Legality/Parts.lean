import PatternTree.Phrase.Lexemes

/-!
The parts of phrases that are legal: those that reading gives back. A part is legal or not in front
of what follows it, since quantifiers, sets and headers all look ahead. Main statements: for each
part, that reading gives legal parts only, and that a legal part is read where it is written.
-/

namespace PatternTree

theorem Lexeme.run_eq_iff {p : Char → Bool} {ls rest : List Lexeme} {cs : List Char} :
    run p ls = (cs, rest) ↔
      plainRow cs ++ rest = ls ∧ (∀ c ∈ cs, p c) ∧ ∀ c, rest.head? = some (.plain c) → ¬p c := by
  constructor
  · intro read
    refine ⟨?_, ?_⟩
    · have whole := plainRow_run p ls
      rwa [read] at whole
    · induction ls generalizing cs with
      | nil =>
        cases read
        simp
      | cons l ls ih =>
        cases l with
        | plain c =>
          rw [run] at read
          split at read
          next accepted =>
            cases read
            obtain ⟨all, stop⟩ := ih rfl
            exact ⟨by simpa [accepted] using all, stop⟩
          next refused =>
            cases read
            simpa using refused
        | _ =>
          cases read
          simp
  · rintro ⟨rfl, all, stop⟩
    induction cs with
    | nil =>
      cases rest with
      | nil => rfl
      | cons l rest =>
        cases l with
        | plain c => simp [run, plainRow, stop c rfl]
        | _ => rfl
    | cons c cs ih =>
      have first := all c (by simp)
      have more := ih fun d member => all d (by simp [member])
      simp only [plainRow, List.map_cons, List.cons_append, run, first, if_true] at more ⊢
      rw [more]

-- ═══════════════════════════════════════════════════════════════
-- Quantifiers
-- ═══════════════════════════════════════════════════════════════

namespace Amount

/-- Digits that write a count which a quantifier can hold. -/
def LegalCount (digits : List Char) : Prop := isCount digits ∧ ∀ d ∈ digits, d.isDigit

theorem LegalCount.toNat_ofNat {digits : List Char} (legal : LegalCount digits) :
    (UInt32.ofNat (countValue digits)).toNat = countValue digits := by
  have bound : countValue digits ≤ maxCount := by
    simpa using (Bool.and_eq_true_iff.mp legal.1).2
  exact UInt32.toNat_ofNat_of_lt' (Nat.lt_succ_of_le bound)

/-- Every count is one that a quantifier can hold. -/
def Legal : Amount → Prop
  | exactly n | atLeast n => LegalCount n
  | between m n => LegalCount m ∧ LegalCount n
  | _ => True

theorem legal_of_readBraces? {ls rest : List Lexeme} {a : Amount}
    (read : readBraces? ls = some (a, rest)) : a.Legal := by
  have first := Lexeme.run_eq_iff.mp (rfl : Lexeme.run Char.isDigit ls = _)
  simp only [readBraces?] at read
  split at read
  next count =>
    split at read
    · cases read
      exact ⟨count, first.2.1⟩
    next more found =>
      have second := Lexeme.run_eq_iff.mp (rfl : Lexeme.run Char.isDigit more = _)
      split at read
      · split at read
        · cases read
          exact ⟨count, first.2.1⟩
        · split at read
          next count' =>
            cases read
            exact ⟨⟨count, first.2.1⟩, count', second.2.1⟩
          · cases read
      · cases read
    · cases read
  · cases read

theorem run_count {n : List Char} (legal : LegalCount n) {after : List Lexeme}
    (stop : ∀ c, after.head? = some (.plain c) → ¬c.isDigit) :
    Lexeme.run Char.isDigit (plainRow n ++ after) = (n, after) :=
  Lexeme.run_eq_iff.mpr ⟨rfl, legal.2, stop⟩

theorem readBraces?_exactly {n : List Char} (legal : LegalCount n) (rest : List Lexeme) :
    readBraces? (plainRow n ++ .mark .closeBrace :: rest) = some (exactly n, rest) := by
  rw [readBraces?, run_count legal (by simp)]
  simp [legal.1]

theorem readBraces?_atLeast {n : List Char} (legal : LegalCount n) (rest : List Lexeme) :
    readBraces? (plainRow n ++ .plain ',' :: .mark .closeBrace :: rest) =
      some (atLeast n, rest) := by
  rw [readBraces?, run_count legal (by simp)]
  simp [legal.1, Lexeme.run]

theorem readBraces?_between {m n : List Char} (first : LegalCount m) (second : LegalCount n)
    (rest : List Lexeme) :
    readBraces? (plainRow m ++ .plain ',' :: (plainRow n ++ .mark .closeBrace :: rest)) =
      some (between m n, rest) := by
  -- Without a second count the same text would be read as an open range.
  have some_digit : n ≠ [] := by
    rintro rfl
    simp [LegalCount, isCount] at second
  rw [readBraces?, run_count first (by simp)]
  simp only [first.1, if_true]
  rw [run_count second (by simp)]
  simp [second.1, some_digit]

/-- A quantifier's amount is read exactly where a legal one is written. -/
theorem read?_eq_some_iff {ls rest : List Lexeme} {a : Amount} :
    read? ls = some (a, rest) ↔ a.lexemes ++ rest = ls ∧ a.Legal := by
  constructor
  · intro read
    refine ⟨lexemes_read? read, ?_⟩
    unfold read? at read
    split at read
    case h_4 => exact legal_of_readBraces? read
    all_goals cases read
    all_goals trivial
  · rintro ⟨rfl, legal⟩
    cases a with
    | zeroOrOne | zeroOrMore | oneOrMore => rfl
    | exactly n => simpa [lexemes, read?] using readBraces?_exactly legal rest
    | atLeast n => simpa [lexemes, read?] using readBraces?_atLeast legal rest
    | between m n => simpa [lexemes, read?] using readBraces?_between legal.1 legal.2 rest

end Amount

namespace Repetition

/-- The quantifiers `rs` are all that are read in front of `rest`: a greedy one has no question
mark after it, and `rest` begins none. -/
def RowLegal (rest : List Lexeme) : List Repetition → Prop
  | [] => read? rest = none
  | r :: rs => r.amount.Legal ∧
      (¬r.lazy → (rs.flatMap lexemes ++ rest).head? ≠ some (.mark .question)) ∧ RowLegal rest rs

theorem read?_eq_some_iff {ls rest : List Lexeme} {r : Repetition} :
    read? ls = some (r, rest) ↔ r.lexemes ++ rest = ls ∧ r.amount.Legal ∧
      (¬r.lazy → rest.head? ≠ some (.mark .question)) := by
  constructor
  · intro read
    refine ⟨lexemes_read? read, ?_⟩
    unfold read? at read
    split at read
    next found =>
      cases read
      -- A question mark after a greedy quantifier would have been taken as its lazy mark.
      refine ⟨(Amount.read?_eq_some_iff.mp found).2, ?_⟩
      unfold readLazy
      split
      · simp
      next other =>
        intro _ head
        obtain ⟨more, rfl⟩ := List.head?_eq_some_iff.mp head
        exact other more rfl
    · cases read
  · rintro ⟨rfl, legal, greedy⟩
    obtain ⟨amount, lazy⟩ := r
    cases lazy with
    | true =>
      have found : Amount.read? (amount.lexemes ++ .mark .question :: rest) = _ :=
        Amount.read?_eq_some_iff.mpr ⟨rfl, legal⟩
      simp [read?, lexemes, found, readLazy]
    | false =>
      have found : Amount.read? (amount.lexemes ++ rest) = _ :=
        Amount.read?_eq_some_iff.mpr ⟨rfl, legal⟩
      have bare : readLazy rest = (false, rest) := by
        unfold readLazy
        split
        · simp at greedy
        · rfl
      simp [read?, lexemes, found, bare]

/-- The first of legal quantifiers is read, and the others are legal. -/
theorem RowLegal.read?_cons {r : Repetition} {rs : List Repetition} {rest : List Lexeme}
    (row : RowLegal rest (r :: rs)) :
    read? ((r :: rs).flatMap lexemes ++ rest) = some (r, rs.flatMap lexemes ++ rest) ∧
      RowLegal rest rs := by
  obtain ⟨legal, greedy, row⟩ := row
  refine ⟨?_, row⟩
  rw [List.flatMap_cons, List.append_assoc]
  exact read?_eq_some_iff.mpr ⟨rfl, legal, greedy⟩

theorem rowLegal_readAll (ls : List Lexeme) : RowLegal (readAll ls).2 (readAll ls).1 := by
  fun_induction readAll ls with
  | case1 ls r after found _ more ih =>
    obtain ⟨-, legal, greedy⟩ := read?_eq_some_iff.mp found
    refine ⟨legal, ?_, ih⟩
    rwa [lexemes_readAll]
  | case2 ls none => exact none

theorem readAll_lexemes {rs : List Repetition} {rest : List Lexeme} (row : RowLegal rest rs) :
    readAll (rs.flatMap lexemes ++ rest) = (rs, rest) := by
  induction rs with
  | nil =>
    unfold readAll
    split
    next found =>
      rw [List.flatMap_nil, List.nil_append, show read? rest = none from row] at found
      cases found
    · rfl
  | cons r rs ih =>
    obtain ⟨found, row⟩ := row.read?_cons
    unfold readAll
    split
    next found' =>
      cases found.symm.trans found'
      rw [ih row]
    next none => cases found.symm.trans none

end Repetition

-- ═══════════════════════════════════════════════════════════════
-- Sets
-- ═══════════════════════════════════════════════════════════════

/-- Whether a range goes on: a bare dash, and after it a character that may end a range. -/
def Piece.rangeFollows : List Lexeme → Bool
  | .plain '-' :: l :: _ => l.endsRange
  | _ => false

theorem Lexeme.ne_of_endsRange {l : Lexeme} (ends : l.endsRange) :
    l ≠ .mark .closeBracket ∧ l ≠ .dangling := by
  constructor
  all_goals
    rintro rfl
    cases ends

namespace Piece

/-- The pieces are all that are read in front of `after`, which begins with the closing bracket or
is empty: none begins with a closing bracket, and two characters with a dash between them are one
piece wherever they can be. -/
def RowLegal (after : List Lexeme) : List Piece → Prop
  | [] => True
  | single l :: ps => l ≠ .mark .closeBracket ∧ ¬rangeFollows (ps.flatMap lexemes ++ after) ∧
      RowLegal after ps
  | range first last :: ps => first ≠ .mark .closeBracket ∧ last.endsRange ∧ RowLegal after ps

theorem rowLegal_readAll (ls : List Lexeme) :
    RowLegal (closing .closeBracket (readAll ls).2.1 ++ (readAll ls).2.2) (readAll ls).1 := by
  fun_induction readAll ls with
  | case1 | case2 => trivial
  | case3 first last rest other ends more ih => exact ⟨other, ends, ih⟩
  | case4 first last rest other ends more ih =>
    refine ⟨other, ?_, ih⟩
    rw [← List.append_assoc, lexemes_readAll]
    simpa [rangeFollows] using ends
  | case5 l rest other none more ih =>
    refine ⟨other, ?_, ih⟩
    rw [← List.append_assoc, lexemes_readAll]
    unfold rangeFollows
    split
    next last rest => exact absurd rfl (none last rest)
    · simp

theorem closed_or_rest_readAll (ls : List Lexeme) :
    (readAll ls).2.1 ∨ (readAll ls).2.2 = [] := by
  fun_induction readAll ls with
  | case1 => exact Or.inr rfl
  | case2 => exact Or.inl rfl
  | case3 _ _ _ _ _ _ ih | case4 _ _ _ _ _ _ ih | case5 _ _ _ _ _ ih => exact ih

theorem readAll_cons_single {l : Lexeme} {ls : List Lexeme} (other : l ≠ .mark .closeBracket)
    (none : ¬rangeFollows ls) :
    readAll (l :: ls) = (single l :: (readAll ls).1, (readAll ls).2) := by
  -- Reading looks two lexemes ahead, and only for a dash; the range is what `none` rules out.
  by_cases dash : ∃ last rest, ls = .plain '-' :: last :: rest
  · obtain ⟨last, rest, rfl⟩ := dash
    have barred : last.endsRange = false := by simpa [rangeFollows] using none
    rw [readAll]
    · simp [barred]
    · exact other
  · rw [readAll]
    · exact other
    · exact fun last rest equal => dash ⟨last, rest, equal⟩

theorem readAll_lexemes {ps : List Piece} {after : List Lexeme} (row : RowLegal after ps) :
    readAll (ps.flatMap lexemes ++ after) = (ps ++ (readAll after).1, (readAll after).2) := by
  induction ps with
  | nil => rfl
  | cons p ps ih =>
    cases p with
    | single l =>
      obtain ⟨other, none, row⟩ := row
      rw [List.flatMap_cons, lexemes, List.append_assoc, List.cons_append, List.nil_append,
        readAll_cons_single other none, ih row]
      rfl
    | range first last =>
      obtain ⟨other, ends, row⟩ := row
      rw [List.flatMap_cons, lexemes, List.append_assoc]
      simp only [List.cons_append, List.nil_append]
      rw [readAll]
      · simp [ends, ih row]
      · exact other

end Piece

namespace Bracket

/-- The set is all that is read as one in front of `rest`. A set without its closing bracket ends
with the text. -/
def Legal (rest : List Lexeme) (b : Bracket) : Prop :=
  let inside := b.pieces.flatMap Piece.lexemes ++ (closing .closeBracket b.closed ++ rest)
  (¬b.inverted → inside.head? ≠ some (.mark .caret)) ∧
    Piece.RowLegal (closing .closeBracket b.closed ++ rest) b.pieces ∧ (b.closed ∨ rest = [])

theorem legal_read (ls : List Lexeme) : (read ls).1.Legal (read ls).2 := by
  unfold read
  split
  · exact ⟨by simp, Piece.rowLegal_readAll _, Piece.closed_or_rest_readAll _⟩
  next ls other =>
    refine ⟨?_, Piece.rowLegal_readAll _, Piece.closed_or_rest_readAll _⟩
    rw [← List.append_assoc, Piece.lexemes_readAll]
    intro _ head
    obtain ⟨more, rfl⟩ := List.head?_eq_some_iff.mp head
    exact other more rfl

theorem read_caret (ls : List Lexeme) :
    read (.mark .caret :: ls) =
      (⟨true, (Piece.readAll ls).1, (Piece.readAll ls).2.1⟩, (Piece.readAll ls).2.2) := rfl

theorem read_bare {ls : List Lexeme} (bare : ls.head? ≠ some (.mark .caret)) :
    read ls = (⟨false, (Piece.readAll ls).1, (Piece.readAll ls).2.1⟩, (Piece.readAll ls).2.2) := by
  unfold read
  split
  · simp at bare
  · rfl

theorem read_lexemes {b : Bracket} {ls rest : List Lexeme} (legal : b.Legal rest)
    (written : b.lexemes ++ rest = .mark .openBracket :: ls) : read ls = (b, rest) := by
  obtain ⟨inverted, pieces, closed⟩ := b
  obtain ⟨bare, row, ended⟩ := legal
  -- The pieces stop at the closing bracket, or with the text if there is none.
  have pieces_read : Piece.readAll (pieces.flatMap Piece.lexemes ++
      (closing .closeBracket closed ++ rest)) = (pieces, closed, rest) := by
    rw [Piece.readAll_lexemes row]
    cases closed with
    | true => simp [closing, Piece.readAll]
    | false =>
      obtain rfl : rest = [] := by simpa using ended
      simp [closing, Piece.readAll]
  cases inverted with
  | true =>
    obtain rfl : ls = .mark .caret :: (pieces.flatMap Piece.lexemes ++
        (closing .closeBracket closed ++ rest)) := by simpa [lexemes] using written.symm
    rw [read_caret, pieces_read]
  | false =>
    obtain rfl : ls = pieces.flatMap Piece.lexemes ++ (closing .closeBracket closed ++ rest) := by
      simpa [lexemes] using written.symm
    rw [read_bare (bare (by simp)), pieces_read]

end Bracket

-- ═══════════════════════════════════════════════════════════════
-- Headers
-- ═══════════════════════════════════════════════════════════════

theorem Text.isNamePart_of_isName {name : List Char} (valid : Text.isName name) :
    ∀ c ∈ name, Text.isNamePart c := by
  cases name with
  | nil => simp
  | cons c cs =>
    simp only [Text.isName, Bool.and_eq_true, List.all_eq_true] at valid
    intro d member
    rcases List.mem_cons.mp member with rfl | later
    · exact Text.isNamePart_of_isNameStart valid.1
    · exact valid.2 d later

namespace Header

theorem lexemes_eq_cons (h : Header) : ∃ more, h.lexemes = .mark .openParen :: more := by
  cases h with
  | unknown => exact ⟨_, rfl⟩
  | kind k =>
    cases k with
    | look l => cases l <;> exact ⟨_, rfl⟩
    | _ => exact ⟨_, rfl⟩

/-- The header is what is read in front of `rest`. -/
def Legal (rest : List Lexeme) : Header → Prop
  | kind .capture => rest.head? ≠ some (.mark .question)
  | kind (.named name) => Text.isName name.toList
  | kind _ => True
  | unknown => readModifier rest = (unknown, rest)

theorem readName?_eq_some_iff {ls rest : List Lexeme} {name : List Char} :
    readName? ls = some (name, rest) ↔
      plainRow name ++ .plain '>' :: rest = ls ∧ Text.isName name := by
  constructor
  · intro read
    refine ⟨plainRow_readName? read, ?_⟩
    simp only [readName?] at read
    split at read
    next valid =>
      split at read
      · cases read
        exact valid
      · cases read
    · cases read
  · rintro ⟨rfl, valid⟩
    have run : Lexeme.run Text.isNamePart (plainRow name ++ .plain '>' :: rest) = _ :=
      Lexeme.run_eq_iff.mpr ⟨rfl, Text.isNamePart_of_isName valid, by simp; decide⟩
    simp [readName?, run, valid]

theorem legal_readModifier (ls : List Lexeme) :
    (readModifier ls).1.Legal (readModifier ls).2 := by
  -- Either a modifier is complete, or the question mark alone is taken and all after it kept.
  have known_or_kept : (readModifier ls).1.Legal (readModifier ls).2 ∨
      readModifier ls = (unknown, ls) := by
    unfold readModifier
    split
    case h_6 =>
      split
      next found =>
        left
        simpa [Legal] using (readName?_eq_some_iff.mp found).2
      · exact Or.inr rfl
    case h_7 => exact Or.inr rfl
    all_goals exact Or.inl trivial
  rcases known_or_kept with legal | kept
  · exact legal
  · rw [kept]
    exact kept

theorem legal_read (ls : List Lexeme) : (read ls).1.Legal (read ls).2 := by
  unfold read
  split
  · exact legal_readModifier _
  next other =>
    intro head
    obtain ⟨more, rfl⟩ := List.head?_eq_some_iff.mp head
    exact other more rfl

theorem readModifier_named {name : String} (valid : Text.isName name.toList)
    (rest : List Lexeme) :
    readModifier (.plain '<' :: (plainRow name.toList ++ .plain '>' :: rest)) =
      (kind (.named name), rest) := by
  have found : readName? (plainRow name.toList ++ .plain '>' :: rest) = _ :=
    readName?_eq_some_iff.mpr ⟨rfl, valid⟩
  -- A name begins with neither sign that would make the modifier a look behind.
  have start : ∀ c, ¬Text.isNamePart c → ∀ more,
      plainRow name.toList ++ .plain '>' :: rest ≠ .plain c :: more := by
    intro c barred more equal
    cases chars : name.toList with
    | nil => simp [chars, Text.isName] at valid
    | cons d cs =>
      obtain rfl : d = c := by simpa [chars, plainRow] using congrArg List.head? equal
      exact barred (Text.isNamePart_of_isName valid d (by simp [chars]))
  rw [readModifier]
  · simp [found]
  · exact start '=' (by decide)
  · exact start '!' (by decide)

theorem read_lexemes {h : Header} {ls rest : List Lexeme} (legal : h.Legal rest)
    (written : h.lexemes ++ rest = .mark .openParen :: ls) : read ls = (h, rest) := by
  cases h with
  | unknown =>
    cases written
    exact legal
  | kind k =>
    cases k with
    | capture =>
      obtain rfl : rest = ls := by simpa [lexemes, GroupKind.lexemes] using written
      unfold read
      split
      · exact absurd rfl legal
      · rfl
    | named name =>
      obtain rfl : ls = .mark .question :: .plain '<' ::
          (plainRow name.toList ++ .plain '>' :: rest) := by
        simpa [lexemes, GroupKind.lexemes] using written.symm
      exact readModifier_named legal rest
    | grouping =>
      cases written
      rfl
    | look l => cases l <;> cases written <;> rfl

end Header

end PatternTree
