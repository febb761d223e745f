import PatternTree.Lexeme
import PatternTree.Span

/-!
Tokens: what stands at a position of a pattern, decoded, with the span it takes up.
-/

namespace PatternTree

/-- What a token is. Past the last character there is only `finish`. -/
inductive Token.Kind
  | mark (m : Mark)
  | character (value : Char) (escaped : Bool)
  | shorthand (s : Shorthand)
  | invalid
  | finish
deriving DecidableEq

structure Token where
  kind : Token.Kind
  span : Span
deriving DecidableEq

/-- Control escapes count as written bare; an escape without a meaning of its own stands for the
character after the backslash and is marked as escaped. -/
def Lexeme.kind : Lexeme → Token.Kind
  | mark m => .mark m
  | plain c => .character c false
  | escape c =>
    match Control.ofLetter? c with
    | some control => .character control false
    | none => match Shorthand.ofLetter? c with
      | some s => .shorthand s
      | none => .character c true
  | dangling => .invalid

namespace Token.Kind

/-- The structural character that the token was written as. -/
def structural? : Token.Kind → Option Char
  | mark m => some m.char
  | _ => none

/-- Whether the token is `c` and does not count as escaped. -/
def isBare (k : Token.Kind) (c : Char) : Bool := k == character c false

end Token.Kind

end PatternTree
