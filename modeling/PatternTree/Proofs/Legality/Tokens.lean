import PatternTree.Proofs.Legality.Places

/-!
Tokens of a pattern: those of its lexemes, each where its lexeme is written. Main statement: where
the lexemes from a position on are known, the tokens from there on are theirs.
-/

namespace PatternTree

namespace Lexeme

@[simp] theorem kind_mark (m : Mark) : (mark m).kind = .mark m := rfl

@[simp] theorem kind_plain (c : Char) : (plain c).kind = .character c false := rfl

theorem kind_eq_mark {l : Lexeme} {m : Mark} : l.kind = .mark m ↔ l = .mark m := by
  cases l with
  | escape c =>
    simp only [kind]
    split
    · simp
    · split <;> simp
  | _ => simp [kind]

theorem kind_eq_invalid {l : Lexeme} : l.kind = .invalid ↔ l = .dangling := by
  cases l with
  | escape c =>
    simp only [kind]
    split
    · simp
    · split <;> simp
  | _ => simp [kind]

theorem kind_ne_finish (l : Lexeme) : l.kind ≠ .finish := by
  cases l with
  | escape c =>
    simp only [kind]
    split
    · simp
    · split <;> simp
  | _ => simp [kind]

/-- The tokens of lexemes that are written from `start` on. -/
def tokens (start : Nat) : List Lexeme → List Token
  | [] => []
  | l :: ls => ⟨l.kind, ⟨start, start + l.width⟩⟩ :: tokens (start + l.width) ls

theorem tokens_append (start : Nat) (ls more : List Lexeme) :
    tokens start (ls ++ more) = tokens start ls ++ tokens (start + textWidth ls) more := by
  induction ls generalizing start with
  | nil => rfl
  | cons l ls ih => simp [tokens, ih, Nat.add_assoc]

theorem kind_tokens (start : Nat) (ls : List Lexeme) :
    (tokens start ls).map Token.kind = ls.map Lexeme.kind := by
  induction ls generalizing start with
  | nil => rfl
  | cons l ls ih => simp [tokens, ih]

theorem invalid_mem_tokens_iff {start : Nat} {ls : List Lexeme} :
    (∃ t ∈ tokens start ls, t.kind = .invalid) ↔ .dangling ∈ ls := by
  rw [← List.mem_map, kind_tokens, List.mem_map]
  simp [kind_eq_invalid]

/-- Only the last token of a text may be a lone backslash. -/
theorem DanglingLast.kind_ne_invalid {ls : List Lexeme} (last : DanglingLast ls) (start : Nat) :
    ∀ t ∈ (tokens start ls).dropLast, t.kind ≠ .invalid := by
  induction ls generalizing start with
  | nil => simp [tokens]
  | cons l ls ih =>
    cases ls with
    | nil => simp [tokens]
    | cons l' ls =>
      have whole : l ≠ .dangling := fun lone => List.cons_ne_nil _ _ (last.1 lone)
      have more := ih last.2 (start + l.width)
      rw [tokens, tokens, List.dropLast_cons_cons]
      exact List.forall_mem_cons.mpr ⟨mt kind_eq_invalid.mp whole, more⟩

end Lexeme

namespace Pattern

theorem scan_drop {p : Pattern} {position : Nat} {l : Lexeme}
    (found : p.lexemeAt? position = some l) :
    Lexeme.scan (p.chars.toList.drop position) =
      l :: Lexeme.scan (p.chars.toList.drop (position + l.width)) := by
  obtain ⟨c, here, rfl⟩ := Option.map_eq_some_iff.mp found
  obtain ⟨inside, rfl⟩ := Array.getElem?_eq_some_iff.mp here
  have split : p.chars.toList.drop position =
      p.chars[position] :: p.chars.toList.drop (position + 1) := by
    rw [List.drop_eq_getElem_cons (by simpa using inside), Array.getElem_toList]
  rw [split]
  -- Only a backslash looks at the character after it, and only the last one finds none.
  by_cases backslash : p.chars[position] = '\\'
  · rw [if_pos backslash, backslash]
    cases next : p.chars[position + 1]? with
    | none =>
      have ended : p.chars.toList.drop (position + 1) = [] := by simpa using next
      simp [ended, Lexeme.scan, Lexeme.width]
    | some d =>
      obtain ⟨inside', rfl⟩ := Array.getElem?_eq_some_iff.mp next
      rw [List.drop_eq_getElem_cons (by simpa using inside'), Array.getElem_toList]
      rfl
  · rw [if_neg backslash, Lexeme.scan_cons_bare backslash, Lexeme.width_ofChar]

section

variable {p : Pattern} {position : Nat} {l : Lexeme} {ls : List Lexeme}

/-- The lexeme at a position is the first of those from there on. -/
theorem lexemeAt?_eq_head? (here : ReadAt p.chars.toList position ls) :
    p.lexemeAt? position = ls.head? := by
  cases found : p.lexemeAt? position with
  | some l => rw [← here.scanned, scan_drop found, List.head?_cons]
  | none =>
    have past : p.chars.toList.drop position = [] := by simpa [lexemeAt?] using found
    rw [← here.scanned, past]
    rfl

theorem tokenAt_cons (here : ReadAt p.chars.toList position (l :: ls)) :
    p.tokenAt position = ⟨l.kind, ⟨position, position + l.width⟩⟩ := by
  rw [tokenAt, lexemeAt?_eq_head? here]
  rfl

theorem tokenAt_nil (here : ReadAt p.chars.toList position []) :
    p.tokenAt position = ⟨.finish, .empty p.length⟩ := by
  rw [tokenAt, lexemeAt?_eq_head? here]
  rfl

theorem tokenAt_length (p : Pattern) : p.tokenAt p.length = ⟨.finish, .empty p.length⟩ :=
  tokenAt_nil ⟨Nat.le_refl _, congrArg Lexeme.scan (List.drop_of_length_le (Nat.le_refl _))⟩

theorem length_eq_of_readAt (here : ReadAt p.chars.toList position ls) :
    p.length = position + textWidth ls := here.length_eq

/-- The walk over a pattern goes from lexeme to lexeme. -/
theorem tokensFrom_eq (here : ReadAt p.chars.toList position ls) :
    p.tokensFrom position = Lexeme.tokens position ls ++ [⟨.finish, .empty p.length⟩] := by
  have length := length_eq_of_readAt here
  induction ls generalizing position with
  | nil =>
    rw [tokensFrom, if_neg (by simp [length]), tokenAt_nil here]
    rfl
  | cons l ls ih =>
    have := l.width_pos
    rw [textWidth_cons] at length
    rw [tokensFrom, if_pos (by omega), tokenAt_cons here, ih here.tail (by omega)]
    rfl

end

/-- The tokens of a pattern are those of its lexemes, and one past its end. -/
theorem tokens_eq (p : Pattern) :
    p.tokens = Lexeme.tokens 0 p.lexemes ++ [⟨.finish, .empty p.length⟩] :=
  tokensFrom_eq p.readAt_lexemes

end Pattern

end PatternTree
