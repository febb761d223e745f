import PatternTree.Diagnostic.Document
import PatternTree.Expression

/-!
Trees as documents. A node that is one of several kinds is tagged with its kind; `fields` is the
node without its tag.
-/

namespace PatternTree

def Shorthand.name : Shorthand → String
  | digit => "Digit"
  | notDigit => "NonDigit"
  | wordBoundary => "WordBoundary"
  | notWordBoundary => "NonWordBoundary"
  | space => "WhiteSpace"
  | notSpace => "NonWhiteSpace"
  | word => "Word"
  | notWord => "NonWord"

def Character.document (c : Character) : Document :=
  match c.glyph with
  | .literal value => .tagged "Character"
      (.record "Character" [("value", .character value), ("span", c.span.document)])
  | .shorthand s => .tagged (s.name ++ "Character") c.span.document

def Member.fields : Member → Document
  | single c => c.document
  | range first last s => .record "CharSetRange"
      [("start", first.document), ("end", last.document), ("span", s.document)]

def Member.document : Member → Document
  | single c => .tagged "Character" c.document
  | m => .tagged "Range" m.fields

def CharSet.fields (s : CharSet) : Document :=
  .record "CharSet" [("invert", .flag s.inverted), ("body", .list (s.members.map Member.document)),
    ("span", s.span.document)]

def Lookaround.document : Lookaround → Document
  | ahead => .word "PositiveLookahead"
  | notAhead => .word "NegativeLookahead"
  | behind => .word "PositiveLookbehind"
  | notBehind => .word "NegativeLookbehind"

namespace GroupKind

/-- The tag of a group and the name of its record. -/
def tag : GroupKind → String
  | capture | named _ => "GroupCapture"
  | grouping | look _ => "GroupNonCapture"

/-- The field that tells apart groups with one tag. -/
def field : GroupKind → String × Document
  | capture => ("name", .absent)
  | named name => ("name", .present (.text name))
  | grouping => ("kind", .absent)
  | look l => ("kind", .present l.document)

end GroupKind

def Quantifier.fields (q : Quantifier) : List (String × Document) :=
  [("min", .number q.min.toNat), ("max", .optional (fun m => .number m.toNat) q.max),
    ("lazy", .flag q.lazy)]

def Expression.tag : Expression → String
  | single _ => "SubExpression"
  | alternation .. => "Alternation"

def Item.tag : Item → String
  | character _ => "Character"
  | lineStart _ => "StartCharacter"
  | lineEnd _ => "EndCharacter"
  | anyCharacter _ => "AnyCharacter"
  | set _ => "CharSet"
  | group kind _ _ => kind.tag
  | quantified .. => "Quantified"

mutual

def Expression.fields : Expression → Document
  | .single b => b.fields
  | .alternation left right s => .record "Alternation"
      [("left", .tagged left.tag left.fields), ("right", right.fields), ("span", s.document)]

def Branch.fields : Branch → Document
  | ⟨items, s⟩ => .record "SubExpression"
      [("body", .list (Item.documents items)), ("span", s.document)]

def Item.fields : Item → Document
  | .character c => c.document
  | .lineStart s | .lineEnd s | .anyCharacter s => s.document
  | .set s => s.fields
  | .group kind body s => .record kind.tag
      [("expression", .tagged body.tag body.fields), kind.field, ("span", s.document)]
  | .quantified item q s => .record "Quantified"
      (("item", .tagged item.tag item.fields) :: q.fields ++ [("span", s.document)])

def Item.documents : List Item → List Document
  | [] => []
  | item :: items => .tagged item.tag item.fields :: Item.documents items

end

def Expression.document (e : Expression) : Document := .tagged e.tag e.fields

def Item.document (i : Item) : Document := .tagged i.tag i.fields

end PatternTree
