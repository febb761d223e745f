/-!
Layouts: text with blocks in it, each written on one line or with an entry to a line.
-/

namespace PatternTree

/-- Text in blocks. A spaced block, if written on one line, has a space inside each end. -/
inductive Layout
  | leaf (text : String)
  | labelled (label : String) (l : Layout)
  | block (opening closing : String) (spaced : Bool) (entries : List Layout)

namespace Layout

/-- How blocks are written. -/
structure Style where
  /-- The indentation of one level, if entries stand on lines of their own. -/
  step : Option String
  /-- What follows a comma between entries on one line. -/
  gap : String
  /-- Whether a comma follows the last entry too. -/
  trailing : Bool

namespace Style

/-- What stands before the first entry of a block whose entries are `depth` levels deep. -/
def lead (style : Style) (spaced : Bool) (depth : Nat) : String :=
  match style.step with
  | some step => "\n" ++ String.join (List.replicate depth step)
  | none => if spaced then " " else ""

def between (style : Style) (depth : Nat) : String :=
  match style.step with
  | some _ => "," ++ style.lead false depth
  | none => "," ++ style.gap

end Style

mutual

/-- Adds a layout to `out`. -/
def write (style : Style) (depth : Nat) (out : String) : Layout → String
  | .leaf text => out ++ text
  | .labelled label l => l.write style depth (out ++ label)
  | .block opening closing _ [] => out ++ opening ++ closing
  | .block opening closing spaced (first :: rest) =>
    let start := out ++ opening ++ style.lead spaced (depth + 1)
    let body := writeRest style (depth + 1) (first.write style (depth + 1) start) rest
    body ++ (if style.trailing then "," else "") ++ style.lead spaced depth ++ closing

def writeRest (style : Style) (depth : Nat) (out : String) : List Layout → String
  | [] => out
  | l :: ls =>
    writeRest style depth (l.write style depth (out ++ style.between depth)) ls

end

def toText (style : Style) (l : Layout) : String := l.write style 0 ""

end Layout

end PatternTree
