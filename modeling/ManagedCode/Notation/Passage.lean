import ManagedCode.Notation.Document
import ManagedCode.Notation.Term

/-!
# Passages of the object notation

    A term as it stands in a document: with the extensions that are switched on, with the number of
    levels that may still nest below it, and perhaps sharing the parentheses of the alternative it
    is the content of. A passage answers what readers ask of a document.

    Every construct costs levels: a list, tuple, record or table one, and each of its parts one
    more; a present value, a wrapped value and the content of an alternative one each; an
    alternative one, and one more while its name is read. A document that nests deeper than its
    limit is refused.
-/

namespace ManagedCode.Notation

/-- How deep a document may nest. -/
def nestingLimit : Nat := 128

/-- A term as it stands in a document. -/
structure Passage where
  term : Term
  extensions : Extensions := {}
  /-- How many levels may still nest. -/
  room : Nat := nestingLimit
  /-- Whether the parentheses of the term are those of an alternative, which it shares. -/
  shared : Bool := false
deriving Repr, Inhabited

namespace Passage

/-- The passage a text stands for. -/
def parse? (text : String) : Option Passage :=
  (Term.parse? text).map fun (extensions, term) => { term, extensions }

/-- A term `levels` below a passage. -/
def below? (p : Passage) (levels : Nat) (term : Term) : Option Passage :=
  if levels ≤ p.room then some { p with term, room := p.room - levels, shared := false } else none

/-- The term itself. Where parentheses are shared it is the only one in them. -/
def own? (p : Passage) : Option Term :=
  if p.shared then
    match p.term with
    | .group none [content] => some content
    | _ => none
  else some p.term

-- ── Plain data ──────────────────────────────────────────────────────────────────

/-- A number. -/
def figure? (p : Passage) : Option Figure := do
  match ← p.own? with
  | .figure value => return value
  | _ => none

/-- A truth value. -/
def boolean? (p : Passage) : Option Bool := do
  match ← p.own? with
  | .name ⟨"true", false⟩ => return true
  | .name ⟨"false", false⟩ => return false
  | _ => none

/-- A string. -/
def text? (p : Passage) : Option String := do
  match ← p.own? with
  | .text value => return value
  | _ => none

/-- Parts that stand in brackets at the end of `levels` levels. -/
def bracketed? (p : Passage) (levels : Nat) (parts : List Term) : Option (List Passage) :=
  if levels ≤ p.room then parts.mapM (p.below? (levels + 1)) else none

/-- The items of a list. -/
def items? (p : Passage) : Option (List Passage) := do
  match ← p.own? with
  | .list items => p.bracketed? 1 items
  | _ => none

/-- The parts of a tuple. -/
def parts? (p : Passage) : Option (List Passage) := do
  match ← p.own? with
  | .group none items => p.bracketed? 1 items
  | _ => none

/-- Whether a term is led by a name. -/
def isLedBy (n : Name) : Term → Bool
  | .name m => m = n
  | .group label _ => label = some n
  | .record label _ => label = some n
  | _ => false

/-- What follows `Some` in a name that runs on from it. -/
def behindPresent? (n : Name) : Option (List Char) :=
  match n.raw, n.text.toList with
  | false, 'S' :: 'o' :: 'm' :: 'e' :: c :: behind => some (c :: behind)
  | _, _ => none

/-- What follows `Some` in a term that runs on from it: a number, or a term that starts with a
    name. -/
def runOn? : Term → Option Term
  | .name n => (behindPresent? n).bind fun behind =>
      if behind.head?.any Char.isDigit then (Figure.read? behind).map .figure
      else some (.name ⟨String.ofList behind, false⟩)
  | .group (some n) items =>
      (behindPresent? n).map fun behind => .group (some ⟨String.ofList behind, false⟩) items
  | .record (some n) fields =>
      (behindPresent? n).map fun behind => .record (some ⟨String.ofList behind, false⟩) fields
  | .joined content => some content
  | _ => none

/-- A value that may be absent: `None`, or `Some` with the value. By an extension the value needs
    no parentheses, not even a blank in front of it, or stands there without `Some`. -/
def optional? (p : Passage) : Option (Option Passage) := do
  match ← p.own? with
  | .name ⟨"None", false⟩ => return none
  | .group (some ⟨"Some", false⟩) [content] => return some (← p.below? 1 content)
  | other =>
      if !p.extensions.implicitSome ∨ isLedBy .absent other ∨ isLedBy .present other then none
      else return some (← p.below? 1 ((runOn? other).getD other))

-- ── Records ─────────────────────────────────────────────────────────────────────

/-- Whether the name in front of a value is that of its type. It may be left out. -/
def mayName (type : String) (label : Option Name) : Bool := label.all fun n => n.text == type

/-- The content of a wrapped value. -/
def wrapped? (type : String) (p : Passage) : Option Passage := do
  let term ← p.own?
  if p.extensions.unwrapNewtypes || p.shared then p.below? 1 term
  else
    match term with
    | .group label [content] => if mayName type label then p.below? 1 content else none
    | _ => none

/-- The fields of a term in parentheses, if the name in front of it is that of its type. -/
def fieldsOf? (type : String) : Term → Option (List (String × Term))
  | .record label fields => if mayName type label then some fields else none
  | .group label [] => if mayName type label then some [] else none
  | .unit => some []
  | _ => none

/-- The known ones of some fields, which stand in parentheses at the end of `levels` levels. The
    others may be anything. -/
def known? (p : Passage) (levels : Nat) (known : List String) (fields : List (String × Term)) :
    Option (List (String × Passage)) := do
  if p.room < levels then none
  let fields ← fields.mapM fun (name, value) => do return (name, ← p.below? (levels + 1) value)
  let (asked, ignored) := fields.partition fun field => known.contains field.1
  if ignored.all fun field => field.2.term.isAnything field.2.room then return asked else none

/-- The known fields of a record. -/
def fields? (type : String) (known : List String) (p : Passage) :
    Option (List (String × Passage)) := do
  p.known? 1 known (← fieldsOf? type p.term)

-- ── Alternatives ────────────────────────────────────────────────────────────────

/-- The name of an alternative. -/
def alternative? (p : Passage) : Option String := do
  if p.room < 2 then none
  match ← p.own? with
  | .name n => return n.text
  | .group (some n) _ => return n.text
  | .record (some n) _ => return n.text
  | _ => none

/-- Whether an alternative has no content. -/
def isBare (p : Passage) : Bool :=
  match p.own? with
  | some (.name _) => true
  | _ => false

/-- The one unnamed content of an alternative, which shares its parentheses if an extension says
    so. -/
def content? (p : Passage) : Option Passage := do
  let term ← p.own?
  if p.extensions.unwrapVariants then
    let body ← match term with
      | .group (some _) items => some (Term.group none items)
      | .record (some _) fields => some (Term.record none fields)
      | _ => none
    return { ← p.below? 2 body with shared := true }
  else
    match term with
    | .group (some _) [content] => p.below? 2 content
    | _ => none

/-- The known ones of the named contents of an alternative. -/
def contents? (known : List String) (p : Passage) : Option (List (String × Passage)) := do
  match ← p.own? with
  | .record (some _) fields => p.known? 2 known fields
  | .group (some _) [] => p.known? 2 known []
  | _ => none

end Passage

end ManagedCode.Notation

namespace ManagedCode

instance : Document Notation.Passage where
  depth p := p.term.depth
  natural? p := p.figure?.bind Notation.Figure.natural?
  integer? p := p.figure?.bind Notation.Figure.integer?
  boolean? := Notation.Passage.boolean?
  text? := Notation.Passage.text?
  items? := Notation.Passage.items?
  parts? := Notation.Passage.parts?
  optional? := Notation.Passage.optional?
  wrapped? := Notation.Passage.wrapped?
  fields? := Notation.Passage.fields?
  alternative? := Notation.Passage.alternative?
  isBare := Notation.Passage.isBare
  content? := Notation.Passage.content?
  contents? := Notation.Passage.contents?

end ManagedCode
