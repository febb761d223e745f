import PatternTree.Document
import PatternTree.Document.Layout
import PatternTree.Text.Combining
import PatternTree.Text.Ignorable
import PatternTree.Text.Unprintable

/-!
Documents as terms: cases and records with their names, characters and strings as literals.
-/

namespace PatternTree.Debug

/-- A character inside a literal that `quote` ends. A character that cannot be seen, or would join
to the one before it, is written by its code point. -/
def escape (quote : Char) (c : Char) : String :=
  match c with
  | '\x00' => "\\0"
  | '\t' => "\\t"
  | '\r' => "\\r"
  | '\n' => "\\n"
  | '\\' => "\\\\"
  | c =>
    if c = quote then "\\" ++ c.toString
    else if Text.isCombining c || Text.isIgnorable c || !Text.isPrintable c then
      "\\u\x7b" ++ String.ofList (Nat.toDigits 16 c.toNat) ++ "\x7d"
    else c.toString

def quoteChar (c : Char) : String := "'" ++ escape '\'' c ++ "'"

def quoteText (s : String) : String := s.foldl (fun out c => out ++ escape '"' c) "\"" ++ "\""

mutual

def layout : Document → Layout
  | .number n => .leaf (toString n)
  | .flag b => .leaf (if b then "true" else "false")
  | .character c => .leaf (quoteChar c)
  | .text s => .leaf (quoteText s)
  | .absent => .leaf "None"
  | .present d => .block "Some(" ")" false [layout d]
  | .word name => .leaf name
  | .tagged name d => .block (name ++ "(") ")" false [layout d]
  | .list ds => .block "[" "]" false (layouts ds)
  | .record name fields => .block (name ++ " \x7b") "\x7d" true (members fields)

def layouts : List Document → List Layout
  | [] => []
  | d :: ds => layout d :: layouts ds

def members : List (String × Document) → List Layout
  | [] => []
  | (name, d) :: fields => .labelled (name ++ ": ") (layout d) :: members fields

end

/-- On one line. -/
def compact (d : Document) : String := (layout d).toText ⟨none, " ", false⟩

/-- An entry to a line, indented by four spaces a level. -/
def pretty (d : Document) : String := (layout d).toText ⟨some "    ", "", true⟩

end PatternTree.Debug
