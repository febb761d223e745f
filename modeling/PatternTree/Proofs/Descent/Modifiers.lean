import PatternTree.Proofs.Descent.Groups
import PatternTree.Proofs.RoundTrip.Canonical

/-!
The modifier of a group as characters. Main statement: the descent at a question mark takes a
modifier that is written there in full, and where none is it takes the question mark alone.
-/

namespace PatternTree

/-- A modifier as it is written, from its question mark on, and the kind of group that it makes. -/
inductive ModifierText : List Char → GroupKind → Prop
  | grouping : ModifierText ['?', ':'] .grouping
  | ahead : ModifierText ['?', '='] (.look .ahead)
  | notAhead : ModifierText ['?', '!'] (.look .notAhead)
  | behind : ModifierText ['?', '<', '='] (.look .behind)
  | notBehind : ModifierText ['?', '<', '!'] (.look .notBehind)
  | named {name : String} (valid : Text.isName name.toList) :
    ModifierText (['?', '<'] ++ name.toList ++ ['>']) (.named name)

namespace ModifierText

variable {sign : List Char} {kind : GroupKind}

/-- The parenthesis of the group and the modifier are what opens the group. -/
theorem opening_eq (written : ModifierText sign kind) : kind.opening = '(' :: sign := by
  cases written <;> rfl

/-- What is written is read, whatever comes after it. -/
theorem read (written : ModifierText sign kind) (after : List Char) :
    ∃ ls, Lexeme.scan (sign ++ after) = .mark .question :: ls ∧
      (Header.readModifier ls).1 = .kind kind := by
  cases written with
  | @named name valid =>
    have spelled : SpelledAs (plainRow name.toList) name.toList :=
      SpelledAs.plainRow fun c member =>
        Text.spelled_of_isNamePart (Text.isNamePart_of_isName valid c member)
    have row := Lexeme.scan_flatMap_text_append spelled.2 ('>' :: after)
    rw [spelled.1] at row
    have split : ['?', '<'] ++ name.toList ++ ['>'] ++ after =
        '?' :: '<' :: (name.toList ++ '>' :: after) := by simp
    have scanned : Lexeme.scan ('?' :: '<' :: (name.toList ++ '>' :: after)) = .mark .question ::
        .plain '<' :: (plainRow name.toList ++ .plain '>' :: Lexeme.scan after) :=
      congrArg (fun ls => Lexeme.mark .question :: .plain '<' :: ls) row
    rw [split, scanned]
    exact ⟨_, rfl, congrArg Prod.fst (Header.readModifier_named valid _)⟩
  | _ => exact ⟨_, rfl, rfl⟩

/-- What is read is written. -/
theorem of_read {ls : List Lexeme} (read : (Header.readModifier ls).1 = .kind kind) :
    ∃ sign, ModifierText sign kind ∧ sign <+: '?' :: ls.flatMap Lexeme.text := by
  unfold Header.readModifier at read
  split at read
  case h_6 =>
    split at read
    next name rest found =>
      cases read
      obtain ⟨rfl, valid⟩ := Header.readName?_eq_some_iff.mp found
      refine ⟨_, .named (by rwa [String.toList_ofList]), rest.flatMap Lexeme.text, ?_⟩
      simp [flatMap_text_plainRow, Lexeme.text]
    · cases read
  all_goals cases read
  · exact ⟨_, .grouping, _, rfl⟩
  · exact ⟨_, .ahead, _, rfl⟩
  · exact ⟨_, .notAhead, _, rfl⟩
  · exact ⟨_, .behind, _, rfl⟩
  · exact ⟨_, .notBehind, _, rfl⟩

end ModifierText

/-- The characters from the cursor on. -/
def Cursor.text (c : Cursor) : List Char := c.pattern.chars.toList.drop c.consumed

namespace Descent

/-- A modifier is taken exactly where it is written in full: then no more than its characters are
consumed, and nothing is reported. Otherwise the question mark alone is consumed and reported. -/
theorem modifier_exact (s : State) (here : s.cursor.current.kind = .mark .question) :
    (∀ sign kind, ModifierText sign kind → sign <+: s.cursor.text →
      modifier.run s = .ok (some kind, s.past sign.length [])) ∧
    ((¬∃ sign kind, ModifierText sign kind ∧ sign <+: s.cursor.text) →
      modifier.run s = .ok (none, s.past 1
        [⟨.unknownGroupHeader, ⟨s.cursor.consumed, s.cursor.consumed + 1⟩⟩])) := by
  obtain ⟨ls, here⟩ := State.exists_at_mark here
  have text : s.cursor.text = '?' :: ls.flatMap Lexeme.text := here.drop_eq
  constructor
  · rintro sign kind written ⟨after, split⟩
    obtain ⟨ls', scanned, read⟩ := written.read after
    rw [split] at scanned
    obtain rfl : ls = ls' := (List.cons.inj (here.scanned.symm.trans scanned)).2
    have width : kind.opening.length - 1 = sign.length := by rw [written.opening_eq]; rfl
    rw [modifier_run here, read, State.afterModifier, width]
  · intro unwritten
    cases read : (Header.readModifier ls).1 with
    | kind kind =>
      obtain ⟨sign, written, begins⟩ := ModifierText.of_read read
      exact absurd ⟨sign, kind, written, text ▸ begins⟩ unwritten
    | unknown =>
      rw [modifier_run here, read]
      rfl

/-- The law for a name that is closed, and for one that a dash breaks off. -/
theorem modifier_exact_named :
    let s : State := ⟨⟨.ofText "a(?<_b1>(?<a-b>c)" false, 2⟩, [], 0⟩
    let t : State := ⟨⟨.ofText "a(?<_b1>(?<a-b>c)" false, 9⟩, [], 1⟩
    s.cursor.current.kind = .mark .question ∧ t.cursor.current.kind = .mark .question ∧
      modifier.run s = .ok (some (.named "_b1"), s.past 6 []) ∧
      modifier.run t = .ok (none, t.past 1 [⟨.unknownGroupHeader, ⟨9, 10⟩⟩]) := by
  intro s t
  have hereS : s.cursor.current.kind = .mark .question := by decide +kernel
  have hereT : t.cursor.current.kind = .mark .question := by decide +kernel
  have written : ModifierText (['?', '<'] ++ "_b1".toList ++ ['>']) (.named "_b1") :=
    .named (by decide +kernel)
  have begins : ['?', '<'] ++ "_b1".toList ++ ['>'] <+: s.cursor.text := by decide +kernel
  have unwritten : ¬∃ sign kind, ModifierText sign kind ∧ sign <+: t.cursor.text := by
    rintro ⟨sign, kind, written, after, split⟩
    obtain ⟨ls, scanned, read⟩ := written.read after
    have whole : Lexeme.scan t.cursor.text = .mark .question :: ls := split ▸ scanned
    have unknown : (Header.readModifier (Lexeme.scan t.cursor.text).tail).1 = .unknown := by
      decide +kernel
    rw [whole, List.tail_cons, read] at unknown
    cases unknown
  exact ⟨hereS, hereT, (modifier_exact s hereS).1 _ _ written begins,
    (modifier_exact t hereT).2 unwritten⟩

end Descent

end PatternTree
