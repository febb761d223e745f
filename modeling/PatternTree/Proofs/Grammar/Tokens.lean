import PatternTree.Proofs.Grammar.Rules
import PatternTree.Proofs.Legality.Rows
import PatternTree.Proofs.Legality.Tokens

/-!
Tokens and lexemes: the grammar sees the tokens of a pattern, reading sees its lexemes. Main
statements: the tokens of a pattern are the kinds of its lexemes, and a kind tells marks, bare
characters and glyphs apart.
-/

namespace PatternTree

-- ═══════════════════════════════════════════════════════════════
-- Tokens of a pattern
-- ═══════════════════════════════════════════════════════════════

namespace Pattern

/-- The kinds of the tokens of a pattern, without the one past its end. -/
def kinds (p : Pattern) : List Token.Kind := p.tokens.dropLast.map Token.kind

/-- The tokens of a pattern are its lexemes, and one past its end. -/
theorem kind_tokens (p : Pattern) :
    p.tokens.map Token.kind = p.lexemes.map Lexeme.kind ++ [.finish] := by
  rw [tokens_eq, List.map_append, Lexeme.kind_tokens]
  rfl

theorem kinds_eq (p : Pattern) : p.kinds = p.lexemes.map Lexeme.kind := by
  rw [kinds, List.map_dropLast, kind_tokens, List.dropLast_concat]

end Pattern

-- ═══════════════════════════════════════════════════════════════
-- What a kind tells
-- ═══════════════════════════════════════════════════════════════

theorem Control.letter?_of_ofLetter? {c letter : Char} (found : ofLetter? letter = some c) :
    letter? c = some letter := by
  unfold ofLetter? at found
  split at found <;> cases found <;> rfl

namespace Lexeme

/-- Only a control character has two spellings with the same token. -/
theorem kind_eq_bare {l : Lexeme} {c : Char} (plain : Control.letter? c = none) :
    l.kind = .character c false ↔ l = .plain c := by
  cases l with
  | escape d =>
    simp only [kind]
    split
    -- The token of `\n` is that of a bare line feed, which has a letter and so is not plain.
    next control found =>
      have := Control.letter?_of_ofLetter? found
      simp only [Token.Kind.character.injEq, and_true, reduceCtorEq, iff_false]
      rintro rfl
      rw [plain] at this
      cases this
    · split <;> simp
  | _ => simp [kind]

theorem kind_escape (c : Char) :
    (∃ d, (escape c).kind = .character d false ∧ Glyph.ofEscape c = .literal d) ∨
    (∃ s, (escape c).kind = .shorthand s ∧ Glyph.ofEscape c = .shorthand s) ∨
    ((escape c).kind = .character c true ∧ Glyph.ofEscape c = .literal c) := by
  cases control : Control.ofLetter? c with
  | some d =>
    left
    exact ⟨d, by simp [kind, control], by simp [Glyph.ofEscape, control]⟩
  | none =>
    right
    cases shorthand : Shorthand.ofLetter? c with
    | some s =>
      left
      exact ⟨s, by simp [kind, control, shorthand], by simp [Glyph.ofEscape, control, shorthand]⟩
    | none =>
      right
      simp [kind, Glyph.ofEscape, control, shorthand]

theorem bodyGlyph?_escape (c : Char) : (escape c).kind.bodyGlyph? = (escape c).glyph? := by
  have stands : (escape c).glyph? = some (Glyph.ofEscape c) := rfl
  rcases kind_escape c with ⟨d, kind, glyph⟩ | ⟨s, kind, glyph⟩ | ⟨kind, glyph⟩ <;>
    rw [kind, stands, glyph] <;> rfl

/-- Outside sets a token stands for the same glyph as its lexeme, if it is no structure there. -/
theorem bodyGlyph?_kind (l : Lexeme) :
    l.kind.bodyGlyph? =
      if l.isItem ∧ l ≠ .mark .caret ∧ l ≠ .mark .dollar ∧ l ≠ .mark .dot then l.glyph?
      else none := by
  cases l with
  | mark m => cases m <;> rfl
  | plain c => rfl
  | dangling => rfl
  | escape c =>
    have character : (escape c).isItem ∧ escape c ≠ .mark .caret ∧ escape c ≠ .mark .dollar ∧
        escape c ≠ .mark .dot := ⟨rfl, by simp, by simp, by simp⟩
    rw [if_pos character, bodyGlyph?_escape]

/-- Inside a set every token but the closing bracket stands for the same glyph as its lexeme. -/
theorem setGlyph?_kind (l : Lexeme) :
    l.kind.setGlyph? = if l = .mark .closeBracket then none else l.glyphInSet? := by
  cases l with
  | mark m => cases m <;> rfl
  | plain c => rfl
  | dangling => rfl
  | escape c =>
    rcases kind_escape c with ⟨d, kind, glyph⟩ | ⟨s, kind, glyph⟩ | ⟨kind, glyph⟩
    · simp [kind, glyph, glyph?, glyphInSet?, Token.Kind.setGlyph?]
    · cases s <;> simp [kind, glyph, glyph?, glyphInSet?, Token.Kind.setGlyph?]
    · simp [kind, glyph, glyph?, glyphInSet?, Token.Kind.setGlyph?]

end Lexeme

theorem kinds_plainRow (cs : List Char) :
    (plainRow cs).map Lexeme.kind = Token.Kind.bareRow cs := by
  rw [plainRow, List.map_map]
  rfl

/-- Bare characters that are no control characters are spelled in one way. -/
theorem eq_plainRow_of_kinds {cs : List Char} (plain : ∀ c ∈ cs, Control.letter? c = none)
    {ls : List Lexeme} {rest : List Token.Kind}
    (kinds : ls.map Lexeme.kind = Token.Kind.bareRow cs ++ rest) :
    ∃ more, ls = plainRow cs ++ more ∧ more.map Lexeme.kind = rest := by
  induction cs generalizing ls with
  | nil => exact ⟨ls, rfl, kinds⟩
  | cons c cs ih =>
    obtain ⟨l, ls, rfl, first, tail⟩ := List.map_eq_cons_iff.mp kinds
    obtain ⟨more, rfl, after⟩ := ih (fun d member => plain d (List.mem_cons_of_mem _ member)) tail
    obtain rfl := (Lexeme.kind_eq_bare (plain c List.mem_cons_self)).mp first
    exact ⟨more, rfl, after⟩

theorem Control.letter?_digit {c : Char} (digit : c.isDigit) : letter? c = none := by
  unfold letter?
  split <;> first | rfl | cases digit

theorem Control.letter?_namePart {c : Char} (part : Text.isNamePart c) : letter? c = none := by
  unfold letter?
  split
  case h_6 => rfl
  all_goals
    revert part
    decide

end PatternTree
