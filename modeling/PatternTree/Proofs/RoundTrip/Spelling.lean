import PatternTree.Phrase.Bracket
import PatternTree.Expression.Source

/-!
Spelling: the lexemes that canonical text is made of. Main statements: spelled lexemes are scanned
back from their text, and the lexeme of a character reads back as that character, in sets and
outside.
-/

namespace PatternTree

theorem Control.ofLetter?_of_letter? {c letter : Char} (found : letter? c = some letter) :
    ofLetter? letter = some c := by
  unfold letter? at found
  split at found <;> cases found <;> rfl

theorem Shorthand.ofEscape_letter (s : Shorthand) : Glyph.ofEscape s.letter = .shorthand s := by
  cases s <;> rfl

/-- An escaped structural character stands for itself. -/
theorem Glyph.ofEscape_structural {c : Char} (structural : c = '\\' ∨ (Mark.ofChar? c).isSome) :
    ofEscape c = literal c := by
  rcases structural with rfl | mark
  · rfl
  · obtain ⟨m, found⟩ := Option.isSome_iff_exists.mp mark
    obtain rfl := Mark.char_of_ofChar? found
    cases m <;> rfl

namespace Lexeme

/-- Scanning the lexeme's text gives the lexeme, whatever comes after it. -/
def Spelled : Lexeme → Prop
  | plain c => c ≠ '\\' ∧ Mark.ofChar? c = none
  | dangling => False
  | _ => True

theorem scan_text_append {l : Lexeme} (spelled : l.Spelled) (cs : List Char) :
    scan (l.text ++ cs) = l :: scan cs := by
  cases l with
  | mark m =>
    rw [text, List.cons_append, List.nil_append, scan_cons_bare m.char_ne_backslash, ofChar,
      Mark.ofChar?_char]
  | plain c =>
    rw [text, List.cons_append, List.nil_append, scan_cons_bare spelled.1, ofChar, spelled.2]
  | escape c => rfl
  | dangling => cases spelled

theorem scan_flatMap_text_append {ls : List Lexeme} (spelled : ∀ l ∈ ls, l.Spelled)
    (cs : List Char) : scan (ls.flatMap text ++ cs) = ls ++ scan cs := by
  induction ls with
  | nil => rfl
  | cons l ls ih =>
    rw [List.flatMap_cons, List.append_assoc, scan_text_append (spelled l (by simp)),
      ih fun l member => spelled l (by simp [member])]
    rfl

theorem scan_flatMap_text {ls : List Lexeme} (spelled : ∀ l ∈ ls, l.Spelled) :
    scan (ls.flatMap text) = ls := by
  have whole := scan_flatMap_text_append spelled []
  rwa [List.append_nil, scan, List.append_nil] at whole

end Lexeme

-- ═══════════════════════════════════════════════════════════════
-- Characters
-- ═══════════════════════════════════════════════════════════════

/-- The lexeme that a character is written as outside sets. -/
def charLexeme (c : Char) : Lexeme :=
  match Control.letter? c with
  | some letter => .escape letter
  | none => if c = '\\' ∨ (Mark.ofChar? c).isSome then .escape c else .plain c

/-- The lexeme that a character is written as inside a set. -/
def memberLexeme (c : Char) : Lexeme :=
  if c = Control.backspace then .escape 'b'
  else if c = '-' then .escape '-'
  else charLexeme c

/-- The lexeme is spelled as `source`, and it is no mark that a body or a set reads as structure. -/
structure Lexeme.Writes (l : Lexeme) (source : List Char) : Prop where
  text : l.text = source
  spelled : l.Spelled
  bare_or_escaped : (∃ c, l = .plain c) ∨ ∃ c, l = .escape c

theorem Lexeme.writes_escape (c : Char) : (escape c).Writes ['\\', c] :=
  ⟨rfl, trivial, Or.inr ⟨c, rfl⟩⟩

theorem charLexeme_writes (c : Char) : (charLexeme c).Writes (charSource c) := by
  unfold charLexeme charSource
  cases Control.letter? c with
  | some letter => exact Lexeme.writes_escape letter
  | none =>
    -- What is structure when bare is written with a backslash.
    by_cases structural : c = '\\' ∨ (Mark.ofChar? c).isSome
    · simp only [structural, if_true]
      exact Lexeme.writes_escape c
    · obtain ⟨other, unmarked⟩ := not_or.mp structural
      simp only [structural, if_false]
      exact ⟨rfl, ⟨other, Option.not_isSome_iff_eq_none.mp unmarked⟩, Or.inl ⟨c, rfl⟩⟩

theorem glyph?_charLexeme (c : Char) : (charLexeme c).glyph? = some (.literal c) := by
  unfold charLexeme
  cases found : Control.letter? c with
  | some letter => simp [Lexeme.glyph?, Glyph.ofEscape, Control.ofLetter?_of_letter? found]
  | none =>
    by_cases structural : c = '\\' ∨ (Mark.ofChar? c).isSome
    · simp only [structural, if_true, Lexeme.glyph?, Glyph.ofEscape_structural structural]
    · simp only [structural, if_false, Lexeme.glyph?]

theorem memberLexeme_writes (c : Char) : (memberLexeme c).Writes (memberSource c) := by
  unfold memberLexeme memberSource
  split
  · exact Lexeme.writes_escape 'b'
  · split
    · exact Lexeme.writes_escape '-'
    · exact charLexeme_writes c

theorem glyphInSet?_memberLexeme (c : Char) :
    (memberLexeme c).glyphInSet? = some (.literal c) := by
  unfold memberLexeme
  split
  next backspace =>
    subst backspace
    rfl
  · split
    next dash =>
      subst dash
      rfl
    · simp [Lexeme.glyphInSet?, glyph?_charLexeme]

/-- A bare dash in a set would make a range. -/
theorem memberLexeme_ne_dash (c : Char) : memberLexeme c ≠ .plain '-' := by
  intro equal
  have glyph := glyphInSet?_memberLexeme c
  rw [equal] at glyph
  obtain rfl : '-' = c := by simpa [Lexeme.glyphInSet?, Lexeme.glyph?] using glyph
  simp [memberLexeme, Control.backspace] at equal

namespace Glyph

def lexeme : Glyph → Lexeme
  | literal c => charLexeme c
  | shorthand s => .escape s.letter

def lexemeInSet : Glyph → Lexeme
  | literal c => memberLexeme c
  | shorthand s => .escape s.letter

theorem lexeme_writes (g : Glyph) : g.lexeme.Writes g.source := by
  cases g with
  | literal c => exact charLexeme_writes c
  | shorthand s => exact Lexeme.writes_escape s.letter

theorem glyph?_lexeme (g : Glyph) : g.lexeme.glyph? = some g := by
  cases g with
  | literal c => exact glyph?_charLexeme c
  | shorthand s => exact congrArg some s.ofEscape_letter

theorem lexemeInSet_writes (g : Glyph) : g.lexemeInSet.Writes g.sourceInSet := by
  cases g with
  | literal c => exact memberLexeme_writes c
  | shorthand s => exact Lexeme.writes_escape s.letter

theorem glyphInSet?_lexemeInSet {g : Glyph} (member : g ≠ .shorthand .wordBoundary) :
    g.lexemeInSet.glyphInSet? = some g := by
  cases g with
  | literal c => exact glyphInSet?_memberLexeme c
  | shorthand s => simp [lexemeInSet, Lexeme.glyphInSet?, Lexeme.glyph?, s.ofEscape_letter, member]

theorem lexemeInSet_ne_dash (g : Glyph) : g.lexemeInSet ≠ .plain '-' := by
  cases g with
  | literal c => exact memberLexeme_ne_dash c
  | shorthand s => simp [lexemeInSet]

end Glyph

end PatternTree
