import PatternTree.Proofs.Coverage.Spans
import PatternTree.Proofs.Legality.Tokens
import PatternTree.Proofs.Locality.Surroundings

/-!
Boundaries: the places where the tokens of a pattern start, told from its text. Main statement: the
walk over a pattern shares all of it out among tokens of one or two characters, and a token starts
exactly where an even number of backslashes ends.
-/

namespace PatternTree

-- ═══════════════════════════════════════════════════════════════
-- Backslashes before a place
-- ═══════════════════════════════════════════════════════════════

theorem trailingBackslashes_concat (cs : List Char) (c : Char) :
    trailingBackslashes (cs ++ [c]) = if c = '\\' then trailingBackslashes cs + 1 else 0 := by
  simp only [trailingBackslashes, List.rtakeWhile_concat, decide_eq_true_eq]
  split <;> simp

/-- A whole lexeme keeps the number of backslashes at the end even. -/
theorem Lexeme.Spelled.trailingBackslashes_append {l : Lexeme} (spelled : l.Spelled)
    {cs : List Char} (even : trailingBackslashes cs % 2 = 0) :
    trailingBackslashes (cs ++ l.text) % 2 = 0 := by
  cases l with
  | mark m => rw [text, trailingBackslashes_concat, if_neg m.char_ne_backslash]
  | plain c => rw [text, trailingBackslashes_concat, if_neg spelled.1]
  | escape c =>
    have split : cs ++ (escape c).text = cs ++ ['\\'] ++ [c] := by simp [text]
    rw [split, trailingBackslashes_concat, trailingBackslashes_concat, if_pos rfl]
    split <;> omega
  | dangling => cases spelled

namespace ReadAt

variable {text : List Char} {start : Nat} {l : Lexeme} {ls : List Lexeme}

theorem take_eq_append (here : ReadAt text start (l :: ls)) :
    text.take (start + l.width) = text.take start ++ l.text := by
  rw [List.take_add, here.drop_eq, List.flatMap_cons, ← l.length_text, List.take_left]

theorem getElem?_eq_head? (here : ReadAt text start (l :: ls)) :
    text[start]? = (l.text ++ ls.flatMap Lexeme.text).head? := by
  rw [← List.flatMap_cons, ← here.drop_eq, List.head?_drop]

/-- A lexeme is two characters wide if it is a backslash that is not the last character. -/
theorem width_eq_two_iff (here : ReadAt text start (l :: ls)) :
    l.width = 2 ↔ text[start]? = some '\\' ∧ start + 1 < text.length := by
  have first := here.getElem?_eq_head?
  have length := here.length_eq
  rw [textWidth_cons] at length
  rcases Lexeme.spelled_or_last_of_scan here.scanned with spelled | ⟨rfl, rfl⟩
  · cases l with
    | mark m => simp [first, Lexeme.width, Lexeme.text, m.char_ne_backslash]
    | plain c => simp [first, Lexeme.width, Lexeme.text, spelled.1]
    | escape c =>
      rw [show (Lexeme.escape c).width = 2 from rfl] at length
      exact iff_of_true rfl ⟨first, by omega⟩
    | dangling => cases spelled
  · simp [Lexeme.width, length]

end ReadAt

-- ═══════════════════════════════════════════════════════════════
-- Tokens of lexemes
-- ═══════════════════════════════════════════════════════════════

namespace Lexeme

variable {text : List Char} {start : Nat} {ls : List Lexeme}

theorem start_le_of_mem_tokens {t : Token} (member : t ∈ tokens start ls) :
    start ≤ t.span.start := by
  induction ls generalizing start with
  | nil => cases member
  | cons l ls ih =>
    rcases List.mem_cons.mp member with rfl | later
    · exact Nat.le_refl _
    · exact Nat.le_trans (Nat.le_add_right _ _) (ih later)

/-- A token of the text is that of the lexeme from its start on. -/
theorem exists_readAt_of_mem_tokens (here : ReadAt text start ls) {t : Token}
    (member : t ∈ tokens start ls) : ∃ l more, ReadAt text t.span.start (l :: more) ∧
      t = ⟨l.kind, ⟨t.span.start, t.span.start + l.width⟩⟩ := by
  induction ls generalizing start with
  | nil => cases member
  | cons l ls ih =>
    rcases List.mem_cons.mp member with rfl | later
    · exact ⟨l, ls, here, rfl⟩
    · exact ih here.tail later

theorem tile_tokens (start : Nat) (ls : List Lexeme) :
    Span.Tile start ((tokens start ls).map Token.span) (start + textWidth ls) := by
  induction ls generalizing start with
  | nil => rfl
  | cons l ls ih =>
    have rest := ih (start + l.width)
    rw [Nat.add_assoc] at rest
    exact ⟨rfl, Nat.lt_add_of_pos_right l.width_pos, rest⟩

/-- From a token on that starts behind an even number of backslashes, tokens start exactly behind
even numbers of them. -/
theorem starts_iff (here : ReadAt text start ls)
    (even : trailingBackslashes (text.take start) % 2 = 0) {q : Nat} (past : start ≤ q)
    (inside : q < text.length) :
    (∃ t ∈ tokens start ls, t.span.start = q) ↔ trailingBackslashes (text.take q) % 2 = 0 := by
  induction ls generalizing start with
  | nil =>
    have length := here.length_eq
    rw [textWidth_nil] at length
    omega
  | cons l ls ih =>
    by_cases first : start = q
    · exact iff_of_true ⟨_, List.mem_cons_self, first⟩ (first ▸ even)
    rcases spelled_or_last_of_scan here.scanned with spelled | ⟨rfl, rfl⟩
    · by_cases later : start + l.width ≤ q
      · have next := spelled.trailingBackslashes_append even
        rw [← here.take_eq_append] at next
        rw [← ih here.tail next later]
        simp [tokens, first]
      · -- Only the second character of an escape is inside a lexeme.
        have two : l.width = 2 := by
          have bound : l.width ≤ 2 := by cases l <;> simp [width]
          omega
        obtain rfl : q = start + 1 := by omega
        have backslash := (here.width_eq_two_iff.mp two).1
        have odd : trailingBackslashes (text.take (start + 1)) =
            trailingBackslashes (text.take start) + 1 := by
          rw [List.take_add_one, backslash, Option.toList_some, trailingBackslashes_concat,
            if_pos rfl]
        refine iff_of_false ?_ (by omega)
        rintro ⟨t, member, starts⟩
        rcases List.mem_cons.mp member with rfl | member
        · exact first starts
        · have := start_le_of_mem_tokens member
          omega
    · have length := here.length_eq
      rw [textWidth_cons, textWidth_nil] at length
      have : dangling.width = 1 := rfl
      omega

end Lexeme

-- ═══════════════════════════════════════════════════════════════
-- Tokens of a pattern
-- ═══════════════════════════════════════════════════════════════

/-- How the tokens of a pattern, without the one past its end, lie in the text. -/
structure Pattern.SharedOut (p : Pattern) (ts : List Token) : Prop where
  /-- Reading begun again at the start of a token gives that token, which is not the end. -/
  restarts : ∀ t ∈ ts, p.tokenAt t.span.start = t ∧ t.kind ≠ .finish
  covers : Span.Tile 0 (ts.map Token.span) p.length
  narrow : ∀ t ∈ ts, t.span.stop = t.span.start + 1 ∨ t.span.stop = t.span.start + 2
  starts : ∀ q < p.length, (∃ t ∈ ts, t.span.start = q) ↔
    trailingBackslashes (p.chars.toList.take q) % 2 = 0
  escapes : ∀ t ∈ ts, t.span.stop = t.span.start + 2 ↔
    p.chars[t.span.start]? = some '\\' ∧ t.span.start + 1 < p.length
  invalid : (∃ t ∈ ts, t.kind = .invalid) ↔ trailingBackslashes p.chars.toList % 2 = 1
  invalid_last : ∀ t ∈ ts.dropLast, t.kind ≠ .invalid

/-- The walk over a pattern ends, and shares the text out among its tokens. -/
theorem Pattern.tokens_share_out (p : Pattern) :
    ∃ ts, p.tokens = ts ++ [p.tokenAt p.length] ∧
      p.tokenAt p.length = ⟨.finish, .empty p.length⟩ ∧ p.SharedOut ts := by
  have here := p.readAt_lexemes
  have length : p.length = textWidth p.lexemes := by simpa using p.length_eq_of_readAt here
  refine ⟨Lexeme.tokens 0 p.lexemes, by rw [p.tokenAt_length, p.tokens_eq], p.tokenAt_length, ?_⟩
  constructor
  case restarts =>
    intro t member
    obtain ⟨l, more, there, token⟩ := Lexeme.exists_readAt_of_mem_tokens here member
    exact ⟨(tokenAt_cons there).trans token.symm, token ▸ l.kind_ne_finish⟩
  case covers =>
    have tile := Lexeme.tile_tokens 0 p.lexemes
    rwa [Nat.zero_add, ← length] at tile
  case narrow =>
    intro t member
    obtain ⟨l, more, -, token⟩ := Lexeme.exists_readAt_of_mem_tokens here member
    rw [token]
    cases l <;> simp [Lexeme.width]
  case starts => exact fun q inside => Lexeme.starts_iff here rfl (Nat.zero_le q) inside
  case escapes =>
    intro t member
    obtain ⟨l, more, there, token⟩ := Lexeme.exists_readAt_of_mem_tokens here member
    have stop : t.span.stop = t.span.start + l.width := congrArg (fun t => t.span.stop) token
    rw [stop, Nat.add_left_cancel_iff, there.width_eq_two_iff, Array.getElem?_toList]
    rfl
  case invalid =>
    exact Lexeme.invalid_mem_tokens_iff.trans (Lexeme.dangling_mem_scan_iff _)
  case invalid_last => exact here.danglingLast.kind_ne_invalid 0

end PatternTree
