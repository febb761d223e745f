import PatternTree.Text.Alphabetic
import PatternTree.Text.Numeric

/-!
Names of groups: a letter or an underscore, then letters, digits, number signs and underscores.
-/

namespace PatternTree.Text

def isNameStart (c : Char) : Bool := c == '_' || isAlphabetic c

def isNamePart (c : Char) : Bool := c == '_' || isAlphabetic c || isNumeric c

theorem isNamePart_of_isNameStart {c : Char} (start : isNameStart c) : isNamePart c := by
  simp only [isNameStart, isNamePart, Bool.or_eq_true] at start ⊢
  exact Or.inl start

def isName : List Char → Bool
  | [] => false
  | c :: cs => isNameStart c && cs.all isNamePart

end PatternTree.Text
