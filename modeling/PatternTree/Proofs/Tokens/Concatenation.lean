import PatternTree.Proofs.Locality.Moved
import PatternTree.Proofs.RoundTrip.Canonical
import PatternTree.Proofs.Tokens.Boundaries

/-!
Texts one after another. A token is read from its start on, so a text is read alike wherever it
stands and whatever stands before it. Main statements: the walk over two texts is the walk over the
first and then the walk over the second, moved, unless a backslash at the end of the first takes
the beginning of the second; and an item never ends in such a backslash in canonical text, so the
tokens of a row of items are those of the items.
-/

namespace PatternTree

/-- The token `k` characters further on. -/
def Token.moved (k : Nat) (t : Token) : Token := ⟨t.kind, t.span.moved k⟩

/-- The tokens of a pattern, up to the one past its end. -/
def Pattern.walk (p : Pattern) : List Token := p.tokens.takeWhile (·.kind ≠ .finish)

-- ═══════════════════════════════════════════════════════════════
-- The rest of a text
-- ═══════════════════════════════════════════════════════════════

namespace Pattern

section

variable (a b : String) (unicode : Bool) (place : Nat)

theorem lexemeAt?_append :
    (ofText (a ++ b) unicode).lexemeAt? (place + a.length) =
      (ofText b unicode).lexemeAt? place := by
  have char (n : Nat) :
      (ofText (a ++ b) unicode).chars[n + a.length]? = (ofText b unicode).chars[n]? := by
    simp only [ofText, String.toList_append, List.getElem?_toArray, ← String.length_toList]
    rw [List.getElem?_append_right (Nat.le_add_left _ _), Nat.add_sub_cancel]
  simp only [lexemeAt?, Nat.add_right_comm place, char]

/-- A token depends on the text from its start on only. -/
theorem tokenAt_append :
    (ofText (a ++ b) unicode).tokenAt (place + a.length) =
      ((ofText b unicode).tokenAt place).moved a.length := by
  simp only [tokenAt, lexemeAt?_append]
  cases (ofText b unicode).lexemeAt? place with
  | some l => simp [Token.moved, Span.moved, Nat.add_right_comm]
  | none => simp [Token.moved, Span.moved, Span.empty, length_ofText, Nat.add_comm]

/-- So do all tokens that are read from there on. -/
theorem tokensFrom_append :
    (ofText (a ++ b) unicode).tokensFrom (place + a.length) =
      ((ofText b unicode).tokensFrom place).map (Token.moved a.length) := by
  have inside (n : Nat) : n + a.length < (ofText (a ++ b) unicode).length ↔
      n < (ofText b unicode).length := by
    rw [length_ofText, length_ofText, String.length_append]
    omega
  fun_induction (ofText b unicode).tokensFrom place with
  | case1 place before ih =>
    rw [tokensFrom, if_pos ((inside place).mpr before), tokenAt_append, List.map_cons, ← ih]
    rfl
  | case2 place past =>
    rw [tokensFrom, if_neg (mt (inside place).mp past), tokenAt_append]
    rfl

end

end Pattern

-- ═══════════════════════════════════════════════════════════════
-- Walks over two texts
-- ═══════════════════════════════════════════════════════════════

namespace Lexeme

/-- Lexemes that are written further on have the same tokens, moved. -/
theorem tokens_moved (k start : Nat) (ls : List Lexeme) :
    tokens (start + k) ls = (tokens start ls).map (Token.moved k) := by
  induction ls generalizing start with
  | nil => rfl
  | cons l ls ih =>
    have rest := ih (start + l.width)
    rw [Nat.add_right_comm] at rest
    simp [tokens, rest, Token.moved, Span.moved, Nat.add_right_comm]

theorem kind_ne_finish_of_mem_tokens {start : Nat} {ls : List Lexeme} {t : Token}
    (member : t ∈ tokens start ls) : t.kind ≠ .finish := by
  have kind := List.mem_map_of_mem (f := Token.kind) member
  rw [kind_tokens] at kind
  obtain ⟨l, -, same⟩ := List.mem_map.mp kind
  exact same ▸ l.kind_ne_finish

end Lexeme

namespace Pattern

theorem walk_eq (p : Pattern) : p.walk = Lexeme.tokens 0 p.lexemes := by
  have inside : ∀ t ∈ Lexeme.tokens 0 p.lexemes, decide (t.kind ≠ .finish) :=
    fun _ member => decide_eq_true (Lexeme.kind_ne_finish_of_mem_tokens member)
  rw [walk, tokens_eq, List.takeWhile_append_of_pos inside]
  exact List.append_nil _

theorem textWidth_lexemes_ofText (a : String) (unicode : Bool) :
    textWidth (ofText a unicode).lexemes = a.length := by
  have length := (ofText a unicode).length_eq_of_readAt (ofText a unicode).readAt_lexemes
  rwa [length_ofText, Nat.zero_add, eq_comm] at length

theorem walk_eq_nil_iff {a : String} {unicode : Bool} : (ofText a unicode).walk = [] ↔ a = "" := by
  rw [walk_eq, ← String.length_eq_zero_iff, ← textWidth_lexemes_ofText a unicode]
  cases (ofText a unicode).lexemes with
  | nil => exact iff_of_true rfl rfl
  | cons l ls => exact iff_of_false (List.cons_ne_nil _ _) (Nat.add_pos_left l.width_pos _).ne'

theorem walk_append_of_even {a : String} (even : trailingBackslashes a.toList % 2 = 0) (b : String)
    (unicode : Bool) : (ofText (a ++ b) unicode).walk =
      (ofText a unicode).walk ++ (ofText b unicode).walk.map (Token.moved a.length) := by
  rw [walk_eq, walk_eq, walk_eq, lexemes_append even, Lexeme.tokens_append,
    textWidth_lexemes_ofText, Lexeme.tokens_moved]

/-- The token of a lone backslash would stand before the end of the whole, where there is none. -/
theorem eq_empty_of_walk_append {a b : String} {unicode : Bool} {k : Nat}
    (odd : trailingBackslashes a.toList % 2 = 1)
    (joined : (ofText (a ++ b) unicode).walk =
      (ofText a unicode).walk ++ (ofText b unicode).walk.map (Token.moved k)) : b = "" := by
  by_contra written
  obtain ⟨t, member, invalid⟩ : ∃ t ∈ (ofText a unicode).walk, t.kind = .invalid := by
    rw [walk_eq]
    exact Lexeme.invalid_mem_tokens_iff.mpr ((Lexeme.dangling_mem_scan_iff _).mpr odd)
  have more : (ofText b unicode).walk.map (Token.moved k) ≠ [] :=
    mt List.map_eq_nil_iff.mp (mt walk_eq_nil_iff.mp written)
  have earlier : t ∈ (ofText (a ++ b) unicode).walk.dropLast := by
    rw [joined, List.dropLast_append_of_ne_nil more]
    exact List.mem_append_left _ member
  rw [walk_eq] at earlier
  exact (Lexeme.danglingLast_scan _).kind_ne_invalid 0 t earlier invalid

/-- **Texts one after another.** The walk over two texts is the walk over the first and then the
walk over the second, moved, unless the first ends in an odd number of backslashes and the last of
them takes the beginning of the second. From any place of the second on the whole is read as the
second is on its own, whatever the first is. -/
theorem walk_append (a b : String) (unicode : Bool) :
    let first := ofText a unicode
    let second := ofText b unicode
    let whole := ofText (a ++ b) unicode
    (whole.walk = first.walk ++ second.walk.map (Token.moved a.length) ↔
        trailingBackslashes a.toList % 2 = 0 ∨ b = "") ∧
      ∀ place, whole.tokensFrom (place + a.length) =
        (second.tokensFrom place).map (Token.moved a.length) := by
  refine ⟨⟨fun joined => ?_, ?_⟩, tokensFrom_append a b unicode⟩
  · rcases Nat.mod_two_eq_zero_or_one (trailingBackslashes a.toList) with even | odd
    · exact Or.inl even
    · exact Or.inr (eq_empty_of_walk_append odd joined)
  · rintro (even | rfl)
    · exact walk_append_of_even even b unicode
    · rw [String.append_empty, walk_eq_nil_iff.mpr rfl, List.map_nil, List.append_nil]

-- ═══════════════════════════════════════════════════════════════
-- Walks over canonical text
-- ═══════════════════════════════════════════════════════════════

/-- The tokens of texts that are walked over one by one, each moved past those before it. -/
def walkEach (unicode : Bool) : List String → List Token
  | [] => []
  | text :: texts =>
    (ofText text unicode).walk ++ (walkEach unicode texts).map (Token.moved text.length)

theorem walk_join {texts : List String}
    (even : ∀ text ∈ texts, trailingBackslashes text.toList % 2 = 0) (unicode : Bool) :
    (ofText (String.join texts) unicode).walk = walkEach unicode texts := by
  induction texts with
  | nil => exact walk_eq_nil_iff.mpr rfl
  | cons text texts ih =>
    obtain ⟨first, rest⟩ := List.forall_mem_cons.mp even
    rw [String.join_cons, walk_append_of_even first, ih rest]
    rfl

end Pattern

theorem SpelledAs.trailingBackslashes_even {ls : List Lexeme} {source : List Char}
    (spelled : SpelledAs ls source) : trailingBackslashes source % 2 = 0 := by
  rw [← Lexeme.dangling_not_mem_scan_iff, spelled.scan_eq]
  exact spelled.dangling_not_mem

theorem trailingBackslashes_append_even {cs ds : List Char}
    (first : trailingBackslashes cs % 2 = 0) (second : trailingBackslashes ds % 2 = 0) :
    trailingBackslashes (cs ++ ds) % 2 = 0 := by
  rw [← Lexeme.dangling_not_mem_scan_iff] at first second ⊢
  rw [Lexeme.scan_append first, List.mem_append, not_or]
  exact ⟨first, second⟩

namespace Item

def text (item : Item) : String := String.ofList item.source

/-- An item never ends in a backslash that is left over. Nothing need be known of the item: even
one that is not well-formed, such as a group with a backslash for a name, ends in a mark. -/
theorem trailingBackslashes_source (item : Item) : trailingBackslashes item.source % 2 = 0 := by
  cases item with
  | character c => exact (SpelledAs.lexeme c.glyph.lexeme_writes).trailingBackslashes_even
  | lineStart => exact (SpelledAs.mark .caret).trailingBackslashes_even
  | lineEnd => exact (SpelledAs.mark .dollar).trailingBackslashes_even
  | anyCharacter => exact (SpelledAs.mark .dot).trailingBackslashes_even
  | set s => exact s.spelledAs_bracket.trailingBackslashes_even
  | group kind body =>
    rw [source, trailingBackslashes_concat]
    rfl
  | quantified item q =>
    exact trailingBackslashes_append_even item.trailingBackslashes_source
      (q.spelledAs_repetition _).trailingBackslashes_even

theorem join_text (items : List Item) :
    String.join (items.map text) = String.ofList (rowSource items) := by
  induction items with
  | nil => rfl
  | cons item row ih =>
    rw [List.map_cons, String.join_cons, ih, rowSource, String.ofList_append]
    rfl

/-- The tokens of a printed alternative are those of its items, printed on their own. -/
theorem walk_row (items : List Item) (unicode : Bool) :
    (Pattern.ofText (String.ofList (rowSource items)) unicode).walk =
      Pattern.walkEach unicode (items.map text) := by
  rw [← join_text]
  apply Pattern.walk_join
  simp only [List.forall_mem_map, text, String.toList_ofList]
  exact fun item _ => item.trailingBackslashes_source

end Item

end PatternTree
