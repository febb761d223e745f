import PatternTree.Proofs.Descent.Steps

/-!
What stands ahead of the cursor, as tokens. Statements about a step that is taken from any state
speak of these tokens and not of lexemes; a cursor inside its pattern has both.
-/

namespace PatternTree

namespace Cursor

/-- The tokens from the cursor on, through the first one past the end. -/
def ahead (c : Cursor) : List Token := c.pattern.tokensFrom c.consumed

/-- The kinds of the tokens ahead, without the one past the end. -/
def kinds (c : Cursor) : List Token.Kind := c.ahead.dropLast.map Token.kind

end Cursor

namespace Descent.State

variable {s : State} {ls : List Lexeme}

theorem At.ahead_eq (here : s.At ls) :
    s.cursor.ahead =
      Lexeme.tokens s.cursor.consumed ls ++ [⟨.finish, .empty s.cursor.pattern.length⟩] :=
  Pattern.tokensFrom_eq here

theorem At.kinds_eq (here : s.At ls) : s.cursor.kinds = ls.map Lexeme.kind := by
  rw [Cursor.kinds, here.ahead_eq, List.dropLast_concat, Lexeme.kind_tokens]

end Descent.State

end PatternTree
