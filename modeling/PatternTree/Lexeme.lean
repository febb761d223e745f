import PatternTree.Symbol

/-!
Lexemes: the smallest pieces of a pattern's text. A lexeme holds its own spelling, so a list of
lexemes is a text cut into pieces, with nothing added and nothing lost.
-/

namespace PatternTree

/-- What a body or a set reads in one piece as a character. -/
inductive Glyph
  | literal (c : Char)
  | shorthand (s : Shorthand)
deriving DecidableEq

/-- The meaning of a letter after a backslash: a control character, a shorthand, or itself. -/
def Glyph.ofEscape (c : Char) : Glyph :=
  match Control.ofLetter? c with
  | some control => .literal control
  | none => match Shorthand.ofLetter? c with
    | some s => .shorthand s
    | none => .literal c

/-- A piece of the text: a character on its own, a backslash with the character after it, or a
backslash that nothing follows. -/
inductive Lexeme
  | mark (m : Mark)
  | plain (c : Char)
  | escape (c : Char)
  | dangling
deriving DecidableEq

namespace Lexeme

/-- How a lexeme is spelled. -/
def text : Lexeme → List Char
  | mark m => [m.char]
  | plain c => [c]
  | escape c => ['\\', c]
  | dangling => ['\\']

/-- The number of characters a lexeme takes up. -/
def width : Lexeme → Nat
  | escape _ => 2
  | _ => 1

@[simp] theorem length_text (l : Lexeme) : l.text.length = l.width := by cases l <;> rfl

theorem width_pos (l : Lexeme) : 0 < l.width := by cases l <;> simp [width]

/-- A character that no backslash stands before. -/
def ofChar (c : Char) : Lexeme :=
  match Mark.ofChar? c with
  | some m => mark m
  | none => plain c

theorem text_ofChar (c : Char) : (ofChar c).text = [c] := by
  unfold ofChar
  split
  next found => exact congrArg (fun c => [c]) (Mark.char_of_ofChar? found)
  · rfl

theorem width_ofChar (c : Char) : (ofChar c).width = 1 := by
  rw [← length_text, text_ofChar]
  rfl

/-- Cuts a text into lexemes. -/
def scan : List Char → List Lexeme
  | [] => []
  | ['\\'] => [dangling]
  | '\\' :: c :: cs => escape c :: scan cs
  | c :: cs => ofChar c :: scan cs

theorem flatMap_text_scan (cs : List Char) : (scan cs).flatMap text = cs := by
  fun_induction scan cs with
  | case1 => rfl
  | case2 => rfl
  | case3 c cs ih => rw [List.flatMap_cons, ih]; rfl
  | case4 c cs _ _ ih => rw [List.flatMap_cons, ih, text_ofChar]; rfl

theorem scan_cons_bare {c : Char} (bare : c ≠ '\\') (cs : List Char) :
    scan (c :: cs) = ofChar c :: scan cs := by
  rw [scan]
  · rintro rfl
    exact absurd rfl bare
  · rintro _ _ rfl
    exact absurd rfl bare

/-- The character a lexeme stands for outside character sets. A lone backslash stands for none. -/
def glyph? : Lexeme → Option Glyph
  | mark m => some (.literal m.char)
  | plain c => some (.literal c)
  | escape c => some (Glyph.ofEscape c)
  | dangling => none

/-- The longest run of lexemes at the front that are unescaped characters satisfying `p`, as text,
and the lexemes after it. -/
def run (p : Char → Bool) : List Lexeme → List Char × List Lexeme
  | plain c :: ls =>
    if p c then
      let more := run p ls
      (c :: more.1, more.2)
    else ([], plain c :: ls)
  | ls => ([], ls)

theorem length_run_le (p : Char → Bool) (ls : List Lexeme) :
    (run p ls).2.length ≤ ls.length := by
  induction ls with
  | nil => simp [run]
  | cons l ls ih =>
    cases l with
    | plain c =>
      simp only [run, List.length_cons]
      split
      · exact Nat.le_succ_of_le ih
      · simp
    | _ => simp [run]

end Lexeme

/-- The number of characters a list of lexemes takes up. -/
def textWidth : List Lexeme → Nat
  | [] => 0
  | l :: ls => l.width + textWidth ls

theorem length_flatMap_text (ls : List Lexeme) :
    (ls.flatMap Lexeme.text).length = textWidth ls := by
  induction ls with
  | nil => rfl
  | cons l ls ih => rw [List.flatMap_cons, List.length_append, l.length_text, ih, textWidth]

end PatternTree
