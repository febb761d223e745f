import PatternTree.Expression.Source
import PatternTree.Diagnostic
import PatternTree.Text.Name

/-!
Group headers: the parenthesis that opens a group, and the modifier after it. A modifier counts
only when it is complete; otherwise the header ends after the question mark.
-/

namespace PatternTree

inductive Header
  | kind (k : GroupKind)
  /-- A question mark that begins no modifier. -/
  | unknown
deriving DecidableEq

namespace Header

/-- Reads a name and the angle bracket that closes it. -/
def readName? (ls : List Lexeme) : Option (List Char × List Lexeme) :=
  let name := Lexeme.run Text.isNamePart ls
  if Text.isName name.1 then
    match name.2 with
    | .plain '>' :: rest => some (name.1, rest)
    | _ => none
  else none

/-- Reads what follows the question mark after an opening parenthesis. -/
def readModifier : List Lexeme → Header × List Lexeme
  | .plain ':' :: rest => (kind .grouping, rest)
  | .plain '=' :: rest => (kind (.look .ahead), rest)
  | .plain '!' :: rest => (kind (.look .notAhead), rest)
  | .plain '<' :: .plain '=' :: rest => (kind (.look .behind), rest)
  | .plain '<' :: .plain '!' :: rest => (kind (.look .notBehind), rest)
  | .plain '<' :: ls =>
    match readName? ls with
    | some (name, rest) => (kind (.named (String.ofList name)), rest)
    | none => (unknown, .plain '<' :: ls)
  | ls => (unknown, ls)

/-- Reads what follows an opening parenthesis. -/
def read : List Lexeme → Header × List Lexeme
  | .mark .question :: ls => readModifier ls
  | ls => (kind .capture, ls)

theorem length_readName? {ls rest : List Lexeme} {name : List Char}
    (read : readName? ls = some (name, rest)) : rest.length ≤ ls.length := by
  have bound := Lexeme.length_run_le Text.isNamePart ls
  simp only [readName?] at read
  split at read
  · split at read
    next after found =>
      cases read
      rw [found, List.length_cons] at bound
      omega
    · cases read
  · cases read

theorem length_readModifier (ls : List Lexeme) : (readModifier ls).2.length ≤ ls.length := by
  unfold readModifier
  split
  case h_6 =>
    split
    next found =>
      have := length_readName? found
      simp only [List.length_cons]
      omega
    · exact Nat.le_refl _
  all_goals simp
  all_goals omega

theorem length_read (ls : List Lexeme) : (read ls).2.length ≤ ls.length := by
  unfold read
  split
  · exact Nat.le_succ_of_le (length_readModifier _)
  · exact Nat.le_refl _

/-- The kind of group a header stands for. One that is not known captures. -/
def groupKind : Header → GroupKind
  | kind k => k
  | unknown => .capture

def width : Header → Nat
  | kind k => k.opening.length
  | unknown => 2

theorem width_pos (h : Header) : 0 < h.width := by
  cases h with
  | unknown => exact Nat.zero_lt_two
  | kind k =>
    cases k with
    | look l => cases l <;> exact Nat.zero_lt_succ _
    | _ => exact Nat.zero_lt_succ _

/-- The question mark of a header that is not known stands right after the parenthesis. -/
def diagnostics (start : Nat) : Header → List Diagnostic
  | kind _ => []
  | unknown => [⟨.unknownGroupHeader, ⟨start + 1, start + 2⟩⟩]

end Header

end PatternTree
