/-!
The characters with a role of their own in a pattern: the structural marks, and the letters that
mean something else after a backslash.
-/

namespace PatternTree

/-- A character that is structural wherever it stands unescaped. -/
inductive Mark
  | caret | dollar | dot
  | openBracket | closeBracket
  | openParen | closeParen
  | question
  | openBrace | closeBrace
  | plus | star | bar
deriving DecidableEq

namespace Mark

def char : Mark → Char
  | caret => '^'
  | dollar => '$'
  | dot => '.'
  | openBracket => '['
  | closeBracket => ']'
  | openParen => '('
  | closeParen => ')'
  | question => '?'
  | openBrace => '\x7b'
  | closeBrace => '\x7d'
  | plus => '+'
  | star => '*'
  | bar => '|'

def ofChar? : Char → Option Mark
  | '^' => some caret
  | '$' => some dollar
  | '.' => some dot
  | '[' => some openBracket
  | ']' => some closeBracket
  | '(' => some openParen
  | ')' => some closeParen
  | '?' => some question
  | '\x7b' => some openBrace
  | '\x7d' => some closeBrace
  | '+' => some plus
  | '*' => some star
  | '|' => some bar
  | _ => none

theorem ofChar?_char (m : Mark) : ofChar? m.char = some m := by cases m <;> rfl

theorem char_ne_backslash (m : Mark) : m.char ≠ '\\' := by cases m <;> decide

theorem char_of_ofChar? {c : Char} {m : Mark} (found : ofChar? c = some m) : m.char = c := by
  unfold ofChar? at found
  split at found <;> cases found <;> rfl

end Mark

/-- A class of characters, or a place between them, that is written as one letter after a
backslash. -/
inductive Shorthand
  | digit | notDigit
  | wordBoundary | notWordBoundary
  | space | notSpace
  | word | notWord
deriving DecidableEq

namespace Shorthand

/-- The letter after the backslash. -/
def letter : Shorthand → Char
  | digit => 'd'
  | notDigit => 'D'
  | wordBoundary => 'b'
  | notWordBoundary => 'B'
  | space => 's'
  | notSpace => 'S'
  | word => 'w'
  | notWord => 'W'

def ofLetter? : Char → Option Shorthand
  | 'd' => some digit
  | 'D' => some notDigit
  | 'b' => some wordBoundary
  | 'B' => some notWordBoundary
  | 's' => some space
  | 'S' => some notSpace
  | 'w' => some word
  | 'W' => some notWord
  | _ => none

theorem ofLetter?_letter (s : Shorthand) : ofLetter? s.letter = some s := by cases s <;> rfl

theorem letter_of_ofLetter? {c : Char} {s : Shorthand} (found : ofLetter? c = some s) :
    s.letter = c := by
  unfold ofLetter? at found
  split at found <;> cases found <;> rfl

end Shorthand

namespace Control

/-- The control character that a letter after a backslash stands for. -/
def ofLetter? : Char → Option Char
  | 't' => some '\t'
  | 'n' => some '\n'
  | 'r' => some '\r'
  | 'v' => some '\x0b'
  | 'f' => some '\x0c'
  | _ => none

/-- The letter that stands for a control character. -/
def letter? : Char → Option Char
  | '\t' => some 't'
  | '\n' => some 'n'
  | '\r' => some 'r'
  | '\x0b' => some 'v'
  | '\x0c' => some 'f'
  | _ => none

/-- What `\b` stands for inside a character set. -/
def backspace : Char := '\x08'

end Control

end PatternTree
