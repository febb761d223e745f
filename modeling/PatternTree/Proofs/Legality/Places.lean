import PatternTree.Proofs.Legality.Widths

/-!
Places of lexemes: what the text holds where the lexemes from a position on are known. A position
moves on by the width of what was read.
-/

namespace PatternTree

/-- A lone backslash is not followed by anything. -/
def Lexeme.DanglingLast : List Lexeme → Prop
  | [] => True
  | l :: ls => (l = dangling → ls = []) ∧ DanglingLast ls

theorem Lexeme.danglingLast_scan (cs : List Char) : DanglingLast (scan cs) := by
  fun_induction scan cs with
  | case1 => trivial
  | case2 => exact ⟨fun _ => rfl, trivial⟩
  | case3 c cs ih => exact ⟨by simp, ih⟩
  | case4 c cs _ _ ih =>
    refine ⟨fun lone => ?_, ih⟩
    unfold ofChar at lone
    split at lone <;> cases lone

theorem Lexeme.DanglingLast.of_append {ls more : List Lexeme} (last : DanglingLast (ls ++ more)) :
    DanglingLast more := by
  induction ls with
  | nil => exact last
  | cons l ls ih => exact ih last.2

theorem Lexeme.DanglingLast.of_append_left {ls more : List Lexeme}
    (last : DanglingLast (ls ++ more)) : DanglingLast ls := by
  induction ls with
  | nil => trivial
  | cons l ls ih => exact ⟨fun lone => (List.append_eq_nil_iff.mp (last.1 lone)).1, ih last.2⟩

/-- A text that begins with a lexeme is the spelling of the lexeme and what is scanned after it. -/
theorem Lexeme.scan_eq_cons {cs : List Char} {l : Lexeme} {ls : List Lexeme}
    (scanned : scan cs = l :: ls) : ∃ rest, cs = l.text ++ rest ∧ scan rest = ls := by
  unfold scan at scanned
  split at scanned
  · cases scanned
  · cases scanned
    exact ⟨[], rfl, rfl⟩
  · cases scanned
    exact ⟨_, rfl, rfl⟩
  · cases scanned
    exact ⟨_, by rw [text_ofChar]; rfl, rfl⟩

/-- The lexemes are those of the text from a position on. -/
structure ReadAt (text : List Char) (start : Nat) (ls : List Lexeme) : Prop where
  inside : start ≤ text.length
  scanned : Lexeme.scan (text.drop start) = ls

namespace ReadAt

variable {text : List Char} {start : Nat} {l : Lexeme} {ls more : List Lexeme}

theorem drop_eq (here : ReadAt text start ls) : text.drop start = ls.flatMap Lexeme.text := by
  rw [← here.scanned, Lexeme.flatMap_text_scan]

theorem danglingLast (here : ReadAt text start ls) : Lexeme.DanglingLast ls :=
  here.scanned ▸ Lexeme.danglingLast_scan _

theorem length_eq (here : ReadAt text start ls) : text.length = start + textWidth ls := by
  have rest := congrArg List.length here.drop_eq
  rw [List.length_drop, length_flatMap_text] at rest
  have := here.inside
  omega

theorem tail (here : ReadAt text start (l :: ls)) : ReadAt text (start + l.width) ls := by
  have length := here.length_eq
  rw [textWidth_cons] at length
  obtain ⟨rest, split, scanned⟩ := Lexeme.scan_eq_cons here.scanned
  refine ⟨by omega, ?_⟩
  rw [← List.drop_drop, split, ← l.length_text, List.drop_left]
  exact scanned

theorem skip (here : ReadAt text start (ls ++ more)) :
    ReadAt text (start + textWidth ls) more := by
  induction ls generalizing start with
  | nil => exact here
  | cons l ls ih =>
    have rest := ih (show ReadAt text start (l :: (ls ++ more)) from here).tail
    rwa [textWidth_cons, ← Nat.add_assoc]

theorem getElem?_mark {m : Mark} (here : ReadAt text start (.mark m :: ls)) :
    text[start]? = some m.char := by
  have first := congrArg List.head? here.drop_eq
  rwa [List.head?_drop] at first

/-- Only a mark is spelled as a mark. -/
theorem getElem?_ne_mark {m : Mark} (here : ReadAt text start ls)
    (other : ls.head? ≠ some (.mark m)) : text[start]? ≠ some m.char := by
  intro found
  obtain ⟨inside, char⟩ := List.getElem?_eq_some_iff.mp found
  -- A bare character is scanned on its own, and the character of a mark is scanned as that mark.
  apply other
  rw [← here.scanned, List.drop_eq_getElem_cons inside, char,
    Lexeme.scan_cons_bare m.char_ne_backslash, Lexeme.ofChar, Mark.ofChar?_char]
  rfl

theorem prefix_drop (here : ReadAt text start (ls ++ more)) :
    ls.flatMap Lexeme.text <+: text.drop start := by
  rw [here.drop_eq, List.flatMap_append]
  exact List.prefix_append _ _

end ReadAt

theorem flatMap_text_plainRow (cs : List Char) : (plainRow cs).flatMap Lexeme.text = cs := by
  induction cs with
  | nil => rfl
  | cons c cs ih => exact congrArg (c :: ·) ih

theorem GroupKind.flatMap_text_lexemes (k : GroupKind) :
    k.lexemes.flatMap Lexeme.text = k.opening := by
  cases k with
  | named name => simp [lexemes, opening, flatMap_text_plainRow, Lexeme.text, Mark.char]
  | look l => cases l <;> rfl
  | _ => rfl

theorem Pattern.readAt_lexemes (p : Pattern) : ReadAt p.chars.toList 0 p.lexemes :=
  ⟨Nat.zero_le _, rfl⟩

end PatternTree
