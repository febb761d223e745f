import PatternTree.Expression

/-!
The canonical text of a tree: every structural character is escaped and every quantifier takes
its shortest form that reads back as the same bounds.
-/

namespace PatternTree

/-- A character as it is written outside sets. -/
def charSource (c : Char) : List Char :=
  match Control.letter? c with
  | some letter => ['\\', letter]
  | none => if c = '\\' ∨ (Mark.ofChar? c).isSome then ['\\', c] else [c]

/-- A character as it is written inside a set, where a bare dash would make a range. -/
def memberSource (c : Char) : List Char :=
  if c = Control.backspace then ['\\', 'b']
  else if c = '-' then ['\\', '-']
  else charSource c

namespace Glyph

def source : Glyph → List Char
  | literal c => charSource c
  | shorthand s => ['\\', s.letter]

def sourceInSet : Glyph → List Char
  | literal c => memberSource c
  | shorthand s => ['\\', s.letter]

end Glyph

def Member.source : Member → List Char
  | single c => c.glyph.sourceInSet
  | range first last _ => first.glyph.sourceInSet ++ '-' :: last.glyph.sourceInSet

def CharSet.source (s : CharSet) : List Char :=
  '[' :: ((if s.inverted then ['^'] else []) ++ s.members.flatMap Member.source ++ [']'])

/-- What opens a group, from its parenthesis on. -/
def GroupKind.opening : GroupKind → List Char
  | capture => ['(']
  | named name => ['(', '?', '<'] ++ name.toList ++ ['>']
  | grouping => ['(', '?', ':']
  | look .ahead => ['(', '?', '=']
  | look .notAhead => ['(', '?', '!']
  | look .behind => ['(', '?', '<', '=']
  | look .notBehind => ['(', '?', '<', '!']

/-- The decimal digits of a number. -/
def decimal (n : Nat) : List Char := Nat.toDigits 10 n

/-- The bounds of a quantifier. Right after a greedy quantifier a question mark would only make
that one lazy, so there the bounds are spelled out. -/
def Quantifier.bounds (q : Quantifier) (afterGreedy : Bool) : List Char :=
  match q.max with
  | none =>
    if q.min = 0 then ['*']
    else if q.min = 1 then ['+']
    else '\x7b' :: decimal q.min.toNat ++ [',', '\x7d']
  | some max =>
    if q.min = 0 ∧ max = 1 ∧ ¬afterGreedy then ['?']
    else if q.min = max then '\x7b' :: decimal q.min.toNat ++ ['\x7d']
    else '\x7b' :: decimal q.min.toNat ++ ',' :: decimal max.toNat ++ ['\x7d']

def Quantifier.source (q : Quantifier) (afterGreedy : Bool) : List Char :=
  q.bounds afterGreedy ++ if q.lazy then ['?'] else []

/-- Whether a question mark right after the item would be taken for a lazy mark. -/
def Item.endsGreedy : Item → Bool
  | quantified _ q _ => !q.lazy
  | _ => false

mutual

def Expression.source : Expression → List Char
  | .single b => b.source
  | .alternation left right _ => left.source ++ '|' :: right.source

def Branch.source : Branch → List Char
  | ⟨items, _⟩ => Item.rowSource items

def Item.source : Item → List Char
  | .character c => c.glyph.source
  | .lineStart _ => ['^']
  | .lineEnd _ => ['$']
  | .anyCharacter _ => ['.']
  | .set s => s.source
  | .group kind body _ => kind.opening ++ body.source ++ [')']
  | .quantified item q _ => item.source ++ q.source item.endsGreedy

def Item.rowSource : List Item → List Char
  | [] => []
  | item :: row => item.source ++ Item.rowSource row

end

def Expression.text (e : Expression) : String := String.ofList e.source

end PatternTree
