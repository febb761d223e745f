import PatternTree.Proofs.Locality.Moved
import PatternTree.Proofs.Locality.Surroundings

/-!
A bar outside groups and sets keeps what is on either side apart. Main statement: two patterns with
a bar between them parse to the alternatives and the diagnostics of the one, then those of the
other, moved past the bar.
-/

namespace PatternTree

namespace Pattern

/-- The bar between two texts is a lexeme, unless a backslash stands right before it. -/
theorem lexemes_bar {a : String} (complete : trailingBackslashes a.toList % 2 = 0) (b : String)
    (unicode : Bool) : (ofText (a ++ "|" ++ b) unicode).lexemes =
      (ofText a unicode).lexemes ++ .mark .bar :: (ofText b unicode).lexemes := by
  have bar : (ofText ("|" ++ b) unicode).lexemes = .mark .bar :: (ofText b unicode).lexemes := by
    simp only [lexemes, ofText, String.toList_append]
    exact Lexeme.scan_cons_bare (by decide) b.toList
  rw [String.append_assoc, lexemes_append complete, bar]

/-- Where nothing is left open before it, a bar is read as such. -/
theorem phrases_bar {a b whole : Pattern}
    (closed : ∀ d ∈ a.parse.diagnostics, d.kind ≠ .unclosedGroup ∧ d.kind ≠ .unclosedSet)
    (lexemes : whole.lexemes = a.lexemes ++ .mark .bar :: b.lexemes) :
    whole.phrases = a.phrases ++ .bar :: b.phrases := by
  have before :
      Phrase.RowLegal maxDepth false (Phrase.rowLexemes (.bar :: b.phrases) ++ []) a.phrases :=
    a.rowLegal_phrases.follow 0 (.ended rfl [] _) fun _ => Or.inr fun d member =>
      ⟨(closed d member).1, (closed d member).2, (absurd · (by decide))⟩
  apply phrases_eq
  · rw [Phrase.rowLexemes_append, Phrase.rowLexemes, a.rowLexemes_phrases, b.rowLexemes_phrases,
      lexemes]
    rfl
  · exact Phrase.rowLegal_append.mpr ⟨before, trivial, by simp, b.rowLegal_phrases⟩

/-- Alternation is compositional. -/
theorem parse_bar (a b : String) (unicode : Bool)
    (closed : ∀ d ∈ (ofText a unicode).parse.diagnostics,
      d.kind ≠ .unclosedGroup ∧ d.kind ≠ .unclosedSet)
    (complete : trailingBackslashes a.toList % 2 = 0) :
    let left := (ofText a unicode).parse
    let right := (ofText b unicode).parse
    let whole := (ofText (a ++ "|" ++ b) unicode).parse
    whole.expression.alternatives = left.expression.alternatives ++
        right.expression.alternatives.map (Branch.moved (a.length + 1)) ∧
      whole.diagnostics =
        left.diagnostics ++ right.diagnostics.map (Diagnostic.moved (a.length + 1)) := by
  have phrases := phrases_bar closed (lexemes_bar complete b unicode)
  have width := (ofText a unicode).rowWidth_phrases
  rw [length_ofText] at width
  have branches :=
    Phrase.branches_append_bar 0 0 (ofText a unicode).phrases (ofText b unicode).phrases
  have right := Phrase.branches_moved (a.length + 1) (ofText b unicode).phrases 0 0
  have wrong := Phrase.rowDiagnostics_moved (a.length + 1) (ofText b unicode).phrases 0
  rw [Nat.zero_add] at right wrong
  simp only [width, Nat.zero_add, right] at branches
  simp only [parse, Phrase.expression, phrases, branches, Expression.alternatives_ofBranches]
  constructor
  · simp
  · rw [Phrase.rowDiagnostics_append, width, Nat.zero_add, Phrase.rowDiagnostics]
    exact congrArg _ wrong

/-- The law at a stray parenthesis, half a count and an escaped backslash before the bar, and an
open set after it. -/
theorem parse_bar_malformed :
    let left := (ofText ")a\x7b2\\\\" true).parse
    let right := (ofText "*[a-" true).parse
    let whole := (ofText (")a\x7b2\\\\" ++ "|" ++ "*[a-") true).parse
    (∀ d ∈ left.diagnostics, d.kind ≠ .unclosedGroup ∧ d.kind ≠ .unclosedSet) ∧
      trailingBackslashes ")a\x7b2\\\\".toList % 2 = 0 ∧
      whole.expression.alternatives =
        left.expression.alternatives ++ right.expression.alternatives.map (Branch.moved 7) ∧
      whole.diagnostics = left.diagnostics ++ right.diagnostics.map (Diagnostic.moved 7) ∧
      whole.diagnostics =
        [⟨.unopenedGroup, ⟨0, 1⟩⟩, ⟨.nothingToRepeat, ⟨7, 8⟩⟩, ⟨.unclosedSet, ⟨8, 9⟩⟩] ∧
      whole.expression.text = "a\\\x7b2\\\\|[a\\-]" := by
  have closed : ∀ d ∈ (ofText ")a\x7b2\\\\" true).parse.diagnostics,
      d.kind ≠ .unclosedGroup ∧ d.kind ≠ .unclosedSet := by decide +kernel
  have complete : trailingBackslashes ")a\x7b2\\\\".toList % 2 = 0 := by decide +kernel
  obtain ⟨alternatives, diagnostics⟩ := parse_bar ")a\x7b2\\\\" "*[a-" true closed complete
  exact ⟨closed, complete, alternatives, diagnostics, by decide +kernel, by decide +kernel⟩

end Pattern

end PatternTree
