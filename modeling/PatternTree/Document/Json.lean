import PatternTree.Document
import PatternTree.Document.Layout

/-!
Documents as JSON. A case that holds a value is an object with one member; the names of records
are not written.
-/

namespace PatternTree.Json

/-- A character inside a JSON string. Of the control characters only those below the space are
escaped. -/
def escape (c : Char) : String :=
  match c with
  | '"' => "\\\""
  | '\\' => "\\\\"
  | '\x08' => "\\b"
  | '\x0c' => "\\f"
  | '\n' => "\\n"
  | '\r' => "\\r"
  | '\t' => "\\t"
  | c =>
    if c.toNat < 0x20 then
      "\\u00" ++ (if c.toNat < 0x10 then "0" else "") ++ String.ofList (Nat.toDigits 16 c.toNat)
    else c.toString

def quote (s : String) : String := s.foldl (fun out c => out ++ escape c) "\"" ++ "\""

mutual

def layout (colon : String) : Document → Layout
  | .number n => .leaf (toString n)
  | .flag b => .leaf (if b then "true" else "false")
  | .character c => .leaf (quote c.toString)
  | .text s => .leaf (quote s)
  | .absent => .leaf "null"
  | .present d => layout colon d
  | .word name => .leaf (quote name)
  | .tagged name d => .block "\x7b" "\x7d" false [.labelled (quote name ++ colon) (layout colon d)]
  | .list ds => .block "[" "]" false (layouts colon ds)
  | .record _ fields => .block "\x7b" "\x7d" false (members colon fields)

def layouts (colon : String) : List Document → List Layout
  | [] => []
  | d :: ds => layout colon d :: layouts colon ds

def members (colon : String) : List (String × Document) → List Layout
  | [] => []
  | (name, d) :: fields => .labelled (quote name ++ colon) (layout colon d) :: members colon fields

end

/-- On one line, without blanks. -/
def compact (d : Document) : String := (layout ":" d).toText ⟨none, "", false⟩

/-- An entry to a line, indented by two spaces a level. -/
def pretty (d : Document) : String := (layout ": " d).toText ⟨some "  ", "", false⟩

end PatternTree.Json
