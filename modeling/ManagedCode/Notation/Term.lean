import ManagedCode.Notation.Token

/-!
# Terms of the object notation

    The tree a text in the notation stands for: names, numbers and strings at the leaves; lists,
    groups in parentheses with or without a leading name, records of named fields, and tables of
    keys and values above them. Attributes in front of the tree switch on extensions of the
    notation.

* **`Term.read?`** and its companions read the tree from tokens.
* **`Term.isAnything`** says which terms may stand where nothing is asked of them, given how many
  levels are left to nest.
-/

namespace ManagedCode.Notation

/-- The extensions of the notation that a document has switched on. -/
structure Extensions where
  /-- A value may stand for its presence, without `Some` around it. -/
  implicitSome : Bool := false
  /-- Wrapped values are written without their wrapping. -/
  unwrapNewtypes : Bool := false
  /-- A record shares the parentheses of the alternative it is the content of. -/
  unwrapVariants : Bool := false
deriving DecidableEq, Repr, Inhabited

/-- A term. -/
inductive Term where
  | figure (value : Figure)
  | text (value : String)
  | character (value : Char)
  | name (value : Name)
  | unit
  | list (items : List Term)
  | group (name : Option Name) (items : List Term)
  | record (name : Option Name) (fields : List (String × Term))
  | table (entries : List (Term × Term))
  /-- A term that starts with a raw name and runs on from `Some`. -/
  | joined (content : Term)
deriving Repr, Inhabited

namespace Extensions

/-- Switches on the extension of the given name. -/
def enable? (e : Extensions) : String → Option Extensions
  | "implicit_some" => some { e with implicitSome := true }
  | "unwrap_newtypes" => some { e with unwrapNewtypes := true }
  | "unwrap_variant_newtypes" => some { e with unwrapVariants := true }
  | _ => none

/-- Reads the names of an attribute, with commas between them and perhaps behind the last. -/
def readNames? (e : Extensions) : List Token → Option (Extensions × List Token)
  | .name n :: .mark ')' :: .mark ']' :: rest => (e.enable? n.text).map (·, rest)
  | .name n :: .mark ',' :: .mark ')' :: .mark ']' :: rest => (e.enable? n.text).map (·, rest)
  | .name n :: .mark ',' :: rest => (e.enable? n.text).bind fun e => e.readNames? rest
  | _ => none

/-- What stands behind the opening of an attribute. -/
def opened? : List Token → Option (List Token)
  | .mark '#' :: .mark '!' :: .mark '[' :: .name ⟨"enable", false⟩ :: .mark '(' :: rest =>
      some rest
  | _ => none

/-- Reads the attributes in front of a document, `count` at most. -/
def read? (e : Extensions) : (count : Nat) → List Token → Option (Extensions × List Token)
  | 0, tokens => some (e, tokens)
  | count + 1, tokens =>
      match opened? tokens with
      | some rest => (e.readNames? rest).bind fun (e, rest) => e.read? count rest
      | none => some (e, tokens)

end Extensions

namespace Term

-- Each parser below takes the number of steps it may nest; two to a token always suffice.

mutual

/-- The term at the front of a list of tokens. -/
def read? (e : Extensions) : (steps : Nat) → List Token → Option (Term × List Token)
  | 0, _ => none
  | steps + 1, tokens =>
      match tokens with
      | .figure value :: rest => some (.figure value, rest)
      | .text value :: rest => some (.text value, rest)
      | .character value :: rest => some (.character value, rest)
      | .joined value :: rest =>
          (read? e steps (.name value :: rest)).map fun (content, rest) => (.joined content, rest)
      | .name value :: .unit :: rest => some (.group (some value) [], rest)
      | .name value :: .mark '(' :: rest => readBody? e steps (some value) rest
      | .name value :: rest =>
          if e.implicitSome ∧ value = .present then
            (read? e steps rest).map fun (content, rest) => (.group (some value) [content], rest)
          else some (.name value, rest)
      | .unit :: rest => some (.unit, rest)
      | .mark '(' :: rest => readBody? e steps none rest
      | .mark '[' :: rest =>
          (readItems? e steps ']' rest).map fun (items, rest) => (.list items, rest)
      | .mark '\x7b' :: rest =>
          (readEntries? e steps rest).map fun (entries, rest) => (.table entries, rest)
      | _ => none

/-- What stands in parentheses: named fields if it starts with one, else items. -/
def readBody? (e : Extensions) :
    (steps : Nat) → Option Name → List Token → Option (Term × List Token)
  | 0, _, _ => none
  | steps + 1, label, tokens =>
      match tokens with
      | .name _ :: .mark ':' :: _ =>
          (readFields? e steps tokens).map fun (fields, rest) => (.record label fields, rest)
      | _ => (readItems? e steps ')' tokens).map fun (items, rest) => (.group label items, rest)

/-- Items up to a closing bracket, with commas between them and perhaps behind the last. -/
def readItems? (e : Extensions) :
    (steps : Nat) → Char → List Token → Option (List Term × List Token)
  | 0, _, _ => none
  | steps + 1, close, tokens =>
      match tokens with
      | [] => none
      | first :: rest =>
          if first = .mark close then some ([], rest)
          else
            match read? e steps tokens with
            | some (item, .mark c :: rest) =>
                if c = ',' then
                  (readItems? e steps close rest).map fun (items, rest) => (item :: items, rest)
                else if c = close then some ([item], rest)
                else none
            | _ => none

/-- Named fields up to the closing parenthesis. -/
def readFields? (e : Extensions) :
    (steps : Nat) → List Token → Option (List (String × Term) × List Token)
  | 0, _ => none
  | steps + 1, tokens =>
      match tokens with
      | .mark ')' :: rest => some ([], rest)
      | .name field :: .mark ':' :: rest =>
          match read? e steps rest with
          | some (value, .mark ',' :: rest) =>
              (readFields? e steps rest).map fun (fields, rest) =>
                ((field.text, value) :: fields, rest)
          | some (value, .mark ')' :: rest) => some ([(field.text, value)], rest)
          | _ => none
      | _ => none

/-- Keys and values up to the closing brace. -/
def readEntries? (e : Extensions) :
    (steps : Nat) → List Token → Option (List (Term × Term) × List Token)
  | 0, _ => none
  | steps + 1, tokens =>
      match tokens with
      | .mark '\x7d' :: rest => some ([], rest)
      | _ =>
          match read? e steps tokens with
          | some (key, .mark ':' :: rest) =>
              match read? e steps rest with
              | some (value, .mark ',' :: rest) =>
                  (readEntries? e steps rest).map fun (entries, rest) =>
                    ((key, value) :: entries, rest)
              | some (value, .mark '\x7d' :: rest) => some ([(key, value)], rest)
              | _ => none
          | _ => none

end

/-- The term of a list of tokens, all of which it takes up. -/
def ofTokens? (e : Extensions) (tokens : List Token) : Option Term :=
  match read? e (2 * tokens.length + 2) tokens with
  | some (term, []) => some term
  | _ => none

/-- The term of a text, and the extensions it is written with. -/
def parse? (text : String) : Option (Extensions × Term) := do
  let tokens ← Token.scan text.toList
  let (e, tokens) ← Extensions.read? {} tokens.length tokens
  return (e, ← ofTokens? e tokens)

-- ── Depth ───────────────────────────────────────────────────────────────────────

mutual

/-- How deep a term nests. -/
def depth : Term → Nat
  | list items => depthOfItems items + 1
  | group _ items => depthOfItems items + 1
  | record _ fields => depthOfFields fields + 1
  | table entries => depthOfEntries entries + 1
  | joined content => depth content
  | _ => 1

/-- How deep the deepest of some items nests. -/
def depthOfItems : List Term → Nat
  | [] => 0
  | item :: rest => max (depth item) (depthOfItems rest)

/-- How deep the deepest of some fields nests. -/
def depthOfFields : List (String × Term) → Nat
  | [] => 0
  | (_, value) :: rest => max (depth value) (depthOfFields rest)

/-- How deep the deepest of some entries nests. -/
def depthOfEntries : List (Term × Term) → Nat
  | [] => 0
  | (key, value) :: rest => max (max (depth key) (depth value)) (depthOfEntries rest)

end

-- ── Terms of which nothing is asked ─────────────────────────────────────────────

/-- The names that stand for themselves alone, never in front of parentheses. -/
def bareNames : List Name :=
  [⟨"true", false⟩, ⟨"false", false⟩, .absent, ⟨"inf", false⟩, ⟨"NaN", false⟩]

/-- Whether a name may stand in front of parentheses with any content. -/
def mayLead (label : Option Name) : Bool :=
  label.all fun n => n != .present && !bareNames.contains n

mutual

/-- Whether a term may stand where nothing is asked of it, with `room` levels left. What stands in
    brackets takes two of them, a present value takes one. -/
def isAnything : (room : Nat) → Term → Bool
  | _, figure value => value.isAnything
  | _, text _ => true
  | _, character _ => true
  | _, name value => value != .present
  | _, unit => true
  | room, list items => 0 < room && areAnything (room - 1) items
  | room, group label items =>
      if label = some .present then
        match items with
        | [content] => 0 < room && isAnything (room - 1) content
        | _ => false
      else mayLead label && 0 < room && areAnything (room - 1) items
  | room, record label fields =>
      mayLead label && 0 < room && fieldsAreAnything (room - 1) fields
  | room, table entries => 0 < room && entriesAreAnything (room - 1) entries
  | _, joined _ => false

/-- Whether all of some items may stand where nothing is asked of them. -/
def areAnything : (room : Nat) → List Term → Bool
  | _, [] => true
  | room, item :: rest => 0 < room && isAnything (room - 1) item && areAnything room rest

/-- Whether the values of all of some fields may stand where nothing is asked of them. -/
def fieldsAreAnything : (room : Nat) → List (String × Term) → Bool
  | _, [] => true
  | room, (_, value) :: rest =>
      0 < room && isAnything (room - 1) value && fieldsAreAnything room rest

/-- Whether all of some entries may stand where nothing is asked of them. -/
def entriesAreAnything : (room : Nat) → List (Term × Term) → Bool
  | _, [] => true
  | room, (key, value) :: rest =>
      0 < room && isAnything (room - 1) key && isAnything (room - 1) value &&
        entriesAreAnything room rest

end

end Term

end ManagedCode.Notation
