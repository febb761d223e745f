import PatternTree.Token

/-!
Patterns, and the token at each position of one. A token depends only on the characters from its
start on, so reading can begin again at any position; the walk from 0 begins again at the end of
each token.
-/

namespace PatternTree

/-- A pattern to be read. Both modes of reading treat every character alike. -/
structure Pattern where
  chars : Array Char
  unicode : Bool

namespace Pattern

def ofText (text : String) (unicode : Bool) : Pattern := ⟨text.toList.toArray, unicode⟩

def length (p : Pattern) : Nat := p.chars.size

def isEmpty (p : Pattern) : Bool := p.chars.isEmpty

def lexemes (p : Pattern) : List Lexeme := Lexeme.scan p.chars.toList

/-- The lexeme that starts at a position inside the pattern. -/
def lexemeAt? (p : Pattern) (position : Nat) : Option Lexeme :=
  p.chars[position]?.map fun c =>
    if c = '\\' then
      match p.chars[position + 1]? with
      | some d => .escape d
      | none => .dangling
    else .ofChar c

/-- The token that starts at a position. Past the end it is always the same one. -/
def tokenAt (p : Pattern) (position : Nat) : Token :=
  match p.lexemeAt? position with
  | some l => ⟨l.kind, ⟨position, position + l.width⟩⟩
  | none => ⟨.finish, .empty p.length⟩

theorem lt_stop_tokenAt (p : Pattern) {position : Nat} (inside : position < p.length) :
    position < (p.tokenAt position).span.stop := by
  have present : ∃ l, p.lexemeAt? position = some l := by
    simp [lexemeAt?, Array.getElem?_eq_getElem (show position < p.chars.size from inside)]
  obtain ⟨l, found⟩ := present
  have := l.width_pos
  simp only [tokenAt, found]
  omega

/-- The tokens from a position on, each starting where the one before it ends, through the first
one past the end. -/
def tokensFrom (p : Pattern) (position : Nat) : List Token :=
  if position < p.length then
    p.tokenAt position :: p.tokensFrom (p.tokenAt position).span.stop
  else [p.tokenAt position]
termination_by p.length - position
decreasing_by
  have := p.lt_stop_tokenAt ‹_›
  omega

def tokens (p : Pattern) : List Token := p.tokensFrom 0

end Pattern

end PatternTree
