/-!
Documents: values made of named records, cases, lists and basic values, before a choice of how
they are written. Fields keep their order.
-/

namespace PatternTree

inductive Document
  | number (n : Nat)
  | flag (b : Bool)
  | character (c : Char)
  | text (s : String)
  /-- An optional value that is not there. -/
  | absent
  | present (d : Document)
  /-- A case that holds nothing. -/
  | word (name : String)
  /-- A case that holds one value. -/
  | tagged (name : String) (d : Document)
  | list (ds : List Document)
  | record (name : String) (fields : List (String × Document))

def Document.optional {α : Type} (write : α → Document) : Option α → Document
  | none => absent
  | some a => present (write a)

end PatternTree
