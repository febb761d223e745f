import PatternTree.Proofs.Brackets.Agreement
import PatternTree.Proofs.Grammar.Tokens
import PatternTree.Proofs.Meaning.WellFormed

/-!
Entries of a set: the tokens between its brackets, cut from the left, into a range wherever there
can be one. Main statements: pieces that are read are such a cut of their tokens, with the same
members and the same diagnostics, and no token is lost in them.
-/

namespace PatternTree

/-- The character that a token is inside a set. -/
def Token.setCharacter? (t : Token) : Option Character := t.kind.setGlyph?.map (⟨·, t.span⟩)

/-- The characters of a member in the order of the text, the dash of a range among them. -/
def Member.written : Member → List Character
  | single c => [c]
  | range first last _ =>
    let low := if first.span.start ≤ last.span.start then first else last
    let high := if first.span.start ≤ last.span.start then last else first
    [low, ⟨.literal '-', ⟨low.span.stop, high.span.start⟩⟩, high]

section

variable {first last : Character}

theorem Member.written_range (before : first.span.start ≤ last.span.start) (span : Span) :
    (range first last span).written =
      [first, ⟨.literal '-', ⟨first.span.stop, last.span.start⟩⟩, last] := by
  simp [written, before]

theorem Member.written_swapped (before : first.span.start < last.span.start) (span : Span) :
    (range last first span).written =
      [first, ⟨.literal '-', ⟨first.span.stop, last.span.start⟩⟩, last] := by
  simp [written, Nat.not_le.mpr before]

end

/-- An entry of a set: a token on its own, or two with a dash between them. -/
inductive Entry
  | single (t : Token)
  | range (first dash last : Token)

namespace Entry

def span : Entry → Span
  | single t => t.span
  | range first _ last => ⟨first.span.start, last.span.stop⟩

/-- Whether an entry is a range between two characters of which the second comes first. -/
def reversed : Entry → Bool
  | single _ => false
  | range first _ last =>
    match first.kind.setGlyph?, last.kind.setGlyph? with
    | some (.literal c), some (.literal d) => d < c
    | _, _ => false

/-- The member that an entry is. The ends of a reversed range change places. -/
def member? (e : Entry) : Option Member :=
  match e with
  | single t => t.setCharacter?.map .single
  | range first _ last =>
    match first.setCharacter?, last.setCharacter? with
    | some low, some high =>
      some (if e.reversed then .range high low e.span else .range low high e.span)
    | _, _ => none

def diagnostics (e : Entry) : List Diagnostic :=
  match e with
  | single t => if t.kind = .invalid then [⟨.unknownPart, t.span⟩] else []
  | range .. => if e.reversed then [⟨.reversedRange, e.span⟩] else []

/-- Whether a range goes on: a bare dash, and after it a token that may end a range. -/
def RangeFollows : List Token → Prop
  | dash :: last :: _ => dash.kind = .character '-' false ∧ last.kind ≠ .mark .openBracket ∧
      last.kind ≠ .invalid
  | _ => False

instance : (ts : List Token) → Decidable (RangeFollows ts)
  | [] | [_] => isFalse id
  | _ :: _ :: _ => inferInstanceAs (Decidable (_ ∧ _ ∧ _))

/-- Tokens that are cut into entries from the left, into a range wherever they make one. -/
inductive Cut : List Token → List Entry → Prop
  | nil : Cut [] []
  | single {t : Token} {ts : List Token} {es : List Entry} (alone : ¬RangeFollows ts)
    (more : Cut ts es) : Cut (t :: ts) (.single t :: es)
  | range {first dash last : Token} {ts : List Token} {es : List Entry}
    (follows : RangeFollows (dash :: last :: ts)) (more : Cut ts es) :
    Cut (first :: dash :: last :: ts) (.range first dash last :: es)

theorem Cut.unique {ts : List Token} {es es' : List Entry} (cut : Cut ts es) (cut' : Cut ts es') :
    es = es' := by
  induction cut generalizing es' with
  | nil =>
    cases cut'
    rfl
  | single alone _ ih =>
    cases cut' with
    | single _ more => rw [ih more]
    | range follows => exact absurd follows alone
  | range follows _ ih =>
    cases cut' with
    | single alone => exact absurd follows alone
    | range _ more => rw [ih more]

end Entry

/-- Of the tokens inside a set, all but an opening bracket and a lone backslash may end a range. -/
theorem Lexeme.endsRange_of_ne {l : Lexeme} (other : l ≠ .mark .closeBracket) :
    l.endsRange ↔ l.kind ≠ .mark .openBracket ∧ l.kind ≠ .invalid := by
  rw [Ne, kind_eq_mark, Ne, kind_eq_invalid]
  cases l with
  | mark m => cases m <;> first | exact absurd rfl other | simp [endsRange]
  | _ => simp [endsRange]

theorem Token.setCharacter?_lexeme {l : Lexeme} {g : Glyph} (other : l ≠ .mark .closeBracket)
    (glyph : l.glyphInSet? = some g) (span : Span) :
    setCharacter? ⟨l.kind, span⟩ = some ⟨g, span⟩ := by
  rw [setCharacter?, Lexeme.setGlyph?_kind, if_neg other, glyph]
  rfl

namespace Piece

/-- No closing bracket is part of the piece. -/
def Bare : Piece → Prop
  | single l => l ≠ .mark .closeBracket
  | range first last => first ≠ .mark .closeBracket ∧ last ≠ .mark .closeBracket

/-- The entry that a piece written from `start` on is. -/
def entry (start : Nat) : Piece → Entry
  | single l => .single ⟨l.kind, ⟨start, start + l.width⟩⟩
  | range first last =>
    let dash := start + first.width
    .range ⟨first.kind, ⟨start, dash⟩⟩ ⟨.character '-' false, ⟨dash, dash + 1⟩⟩
      ⟨last.kind, ⟨dash + 1, dash + 1 + last.width⟩⟩

/-- The entries of pieces that are written from `start` on. -/
def entries (start : Nat) : List Piece → List Entry
  | [] => []
  | p :: ps => p.entry start :: entries (start + p.width) ps

variable {p : Piece} {ps : List Piece} {after : List Lexeme} (start : Nat)

theorem RowLegal.bare (row : RowLegal after (p :: ps)) : p.Bare ∧ RowLegal after ps := by
  cases p with
  | single l => exact ⟨row.1, row.2.2⟩
  | range first last => exact ⟨⟨row.1, (Lexeme.ne_of_endsRange row.2.1).1⟩, row.2.2⟩

theorem reversed_entry (bare : p.Bare) : (p.entry start).reversed = p.reversed := by
  cases p with
  | single l => rfl
  | range first last =>
    simp only [entry, Entry.reversed, Lexeme.setGlyph?_kind, if_neg bare.1, if_neg bare.2]
    rfl

theorem span_entry (p : Piece) : (p.entry start).span = ⟨start, start + p.width⟩ := by
  cases p <;> simp [entry, Entry.span, width, Nat.add_assoc]

theorem diagnostics_entry (bare : p.Bare) : (p.entry start).diagnostics = p.diagnostics start := by
  cases p with
  | single l =>
    simp only [entry, Entry.diagnostics, diagnostics, Lexeme.kind_eq_invalid, Piece.single.injEq]
    rfl
  | range first last =>
    have reversed := reversed_entry start bare
    have span := span_entry start (range first last)
    have other : range first last ≠ single .dangling := by simp
    rw [entry] at reversed span
    rw [diagnostics, if_neg other, entry, Entry.diagnostics, reversed, span]

theorem member?_entry (bare : p.Bare) : (p.entry start).member? = p.member? start := by
  cases p with
  | single l =>
    simp only [entry, Entry.member?, Token.setCharacter?, member?, Lexeme.setGlyph?_kind,
      if_neg (show l ≠ .mark .closeBracket from bare), Option.map_map]
    rfl
  | range first last =>
    have reversed := reversed_entry start bare
    rw [entry] at reversed
    simp only [entry, Entry.member?, Token.setCharacter?, Lexeme.setGlyph?_kind, if_neg bare.1,
      if_neg bare.2, reversed]
    cases low : first.glyphInSet? with
    | none => simp [member?, low]
    | some g =>
      cases high : last.glyphInSet? with
      | none => simp [member?, low, high]
      | some h =>
        rw [member?_range_eq start low high]
        rfl

theorem filterMap_member?_entries (row : RowLegal after ps) :
    (entries start ps).filterMap Entry.member? = members start ps := by
  induction ps generalizing start with
  | nil => rfl
  | cons p ps ih =>
    obtain ⟨bare, row⟩ := row.bare
    rw [entries, members, List.filterMap_cons, member?_entry start bare, ih _ row]
    cases p.member? start <;> rfl

theorem flatMap_diagnostics_entries (row : RowLegal after ps) :
    (entries start ps).flatMap Entry.diagnostics = rowDiagnostics start ps := by
  induction ps generalizing start with
  | nil => rfl
  | cons p ps ih =>
    obtain ⟨bare, row⟩ := row.bare
    rw [entries, rowDiagnostics, List.flatMap_cons, diagnostics_entry start bare, ih _ row]

/-- A range that goes on in the tokens of a set goes on in the text. -/
theorem rangeFollows_of_tokens {ls : List Lexeme} (bare : .mark .closeBracket ∉ ls)
    (follows : Entry.RangeFollows (Lexeme.tokens start ls)) (after : List Lexeme) :
    rangeFollows (ls ++ after) := by
  cases ls with
  | nil => cases follows
  | cons d ls =>
    cases ls with
    | nil => cases follows
    | cons l ls =>
      obtain ⟨dash, other, whole⟩ := follows
      obtain rfl := (Lexeme.kind_eq_bare rfl).mp dash
      simp only [List.mem_cons, not_or] at bare
      exact (Lexeme.endsRange_of_ne (Ne.symm bare.2.1)).mpr ⟨other, whole⟩

/-- Pieces that are read are the entries of their tokens. -/
theorem cut_entries (row : RowLegal after ps) :
    Entry.Cut (Lexeme.tokens start (ps.flatMap lexemes)) (entries start ps) := by
  induction ps generalizing start with
  | nil => exact .nil
  | cons p ps ih =>
    cases p with
    | single l =>
      obtain ⟨-, alone, row⟩ := row
      have bare := closeBracket_not_mem_lexemes row
      exact .single (fun follows => alone (rangeFollows_of_tokens _ bare follows after)) (ih _ row)
    | range first last =>
      obtain ⟨-, ends, row⟩ := row
      have other := (Lexeme.ne_of_endsRange ends).1
      have stop : start + (range first last).width = start + first.width + 1 + last.width := by
        simp only [width, Nat.add_assoc]
      rw [entries, stop]
      exact .range ⟨rfl, (Lexeme.endsRange_of_ne other).mp ends⟩ (ih _ row)

theorem written_single {l : Lexeme} (other : l ≠ .mark .closeBracket) :
    ((single l).member? start).toList.flatMap Member.written =
      (Lexeme.tokens start (single l).lexemes).filterMap Token.setCharacter? := by
  simp only [lexemes, Lexeme.tokens, List.filterMap_cons, Token.setCharacter?,
    Lexeme.setGlyph?_kind, if_neg other, member?]
  cases l.glyphInSet? <;> rfl

/-- A range is written with its dash between its ends, whichever of them comes first in it. -/
theorem written_range {first last : Lexeme} {g h : Glyph} (bare : (range first last).Bare)
    (low : first.glyphInSet? = some g) (high : last.glyphInSet? = some h) :
    ((range first last).member? start).toList.flatMap Member.written =
      (Lexeme.tokens start (range first last).lexemes).filterMap Token.setCharacter? := by
  have dash := Token.setCharacter?_lexeme (l := .plain '-') (by simp) rfl
  have before : start < start + first.width + 1 := by omega
  simp only [lexemes, Lexeme.tokens, List.filterMap_cons, dash,
    Token.setCharacter?_lexeme bare.1 low, Token.setCharacter?_lexeme bare.2 high,
    member?_range_eq start low high]
  by_cases reversed : (range first last).reversed
  · rw [if_pos reversed]
    exact congrArg (· ++ []) (Member.written_swapped before _)
  · rw [if_neg reversed]
    exact congrArg (· ++ []) (Member.written_range (Nat.le_of_lt before) _)

/-- The characters of the members are those of the tokens that the pieces are written with. -/
theorem written_members (row : RowLegal after ps)
    (last : Lexeme.DanglingLast (ps.flatMap lexemes ++ after)) :
    (members start ps).flatMap Member.written =
      (Lexeme.tokens start (ps.flatMap lexemes)).filterMap Token.setCharacter? := by
  induction ps generalizing start with
  | nil => rfl
  | cons p ps ih =>
    rw [List.flatMap_cons, List.append_assoc] at last
    rw [List.flatMap_cons, Lexeme.tokens_append, List.filterMap_append, members,
      List.flatMap_append, p.textWidth_lexemes]
    obtain ⟨bare, legal⟩ := row.bare
    rw [ih _ legal last.of_append]
    cases p with
    | single l => rw [written_single _ bare]
    | range x y =>
      -- The dash comes after the first end, so that is no lone backslash.
      obtain ⟨g, low⟩ : ∃ g, x.glyphInSet? = some g :=
        Lexeme.exists_glyphInSet? fun lone => List.cons_ne_nil _ _ (last.1 lone)
      obtain ⟨h, high⟩ := Lexeme.exists_glyphInSet? (Lexeme.ne_of_endsRange row.2.1).2
      rw [written_range _ bare low high]

end Piece

end PatternTree
