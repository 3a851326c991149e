import ManagedCode.Notation.Figure

/-!
# Tokens of the object notation

    Units, runtime descriptions and settings are kept in RON files. This module splits such a text
    into tokens: names, numbers, plain and raw strings, characters, and marks. Blanks, line comments
    and nested block comments are skipped.
-/

namespace ManagedCode.Notation

/-- A name. Written raw, behind `r#`, it may hold points and signs, and is never a keyword. -/
structure Name where
  text : String
  raw : Bool := false
deriving DecidableEq, Repr, Inhabited

/-- The name around a value that is present. -/
def Name.present : Name := ⟨"Some", false⟩

/-- The name of a value that is absent. -/
def Name.absent : Name := ⟨"None", false⟩

/-- A token. -/
inductive Token where
  | figure (value : Figure)
  | text (value : String)
  | character (value : Char)
  | name (value : Name)
  /-- A raw name that runs on from `Some`. -/
  | joined (value : Name)
  /-- A pair of parentheses with nothing between them. -/
  | unit
  /-- A bracket or another sign. -/
  | mark (value : Char)
deriving DecidableEq, Repr, Inhabited

namespace Token

-- ── Blanks ──────────────────────────────────────────────────────────────────────

/-- Where the skipping of blanks stands. -/
inductive Blank where
  | outside
  | line
  /-- In a block comment, inside of `depth` others. -/
  | block (depth : Nat)

/-- Whether a character is blank. -/
def isBlank (c : Char) : Bool := c == ' ' || c == '\n' || c == '\t' || c == '\r'

/-- Skips blanks and comments. A block comment has to end. -/
def skip : Blank → List Char → Option (List Char)
  | .outside, '/' :: '/' :: rest => skip .line rest
  | .outside, '/' :: '*' :: rest => skip (.block 0) rest
  | .outside, c :: rest => if isBlank c then skip .outside rest else some (c :: rest)
  | .line, c :: rest => if c = '\n' then skip .outside rest else skip .line rest
  | .block depth, '/' :: '*' :: rest => skip (.block (depth + 1)) rest
  | .block 0, '*' :: '/' :: rest => skip .outside rest
  | .block (depth + 1), '*' :: '/' :: rest => skip (.block depth) rest
  | .block depth, _ :: rest => skip (.block depth) rest
  | .block _, [] => none
  | .outside, [] => some []
  | .line, [] => some []

-- ── Strings ─────────────────────────────────────────────────────────────────────

/-- Where the reading of a string stands. -/
inductive Quoting where
  | plain
  /-- Behind a backslash. -/
  | escape
  /-- In a two-digit escape, before the last `left` digits. -/
  | byte (left value : Nat)
  /-- Before the opening brace of an escape by number. -/
  | opening
  /-- In an escape by number, behind `count` digits. -/
  | number (count value : Nat)

/-- The character of a one-letter escape. -/
def simpleEscape? : Char → Option Char
  | '\'' => some '\''
  | '"' => some '"'
  | '\\' => some '\\'
  | 'n' => some '\n'
  | 'r' => some '\r'
  | 't' => some '\t'
  | '0' => some '\x00'
  | _ => none

/-- The character of a number, if there is one. -/
def scalar? (n : Nat) : Option Char := if n.isValidChar then some (Char.ofNat n) else none

/-- Reads up to a closing quote; `read` holds the characters read, latest first. Gives the
    characters and what follows the quote. -/
def quotedBody (quote : Char) :
    Quoting → (read : List Char) → List Char → Option (List Char × List Char)
  | _, _, [] => none
  | .plain, read, c :: rest =>
      if c = quote then some (read.reverse, rest)
      else if c = '\\' then quotedBody quote .escape read rest
      else quotedBody quote .plain (c :: read) rest
  | .escape, read, c :: rest =>
      if c = 'x' then quotedBody quote (.byte 2 0) read rest
      else if c = 'u' then quotedBody quote .opening read rest
      else
        match simpleEscape? c with
        | some escaped => quotedBody quote .plain (escaped :: read) rest
        | none => none
  | .byte left value, read, c :: rest =>
      match Text.digit? c with
      | none => none
      | some d =>
          let value := value * 16 + d
          if left ≤ 1 then quotedBody quote .plain (Char.ofNat value :: read) rest
          else quotedBody quote (.byte (left - 1) value) read rest
  | .opening, read, c :: rest =>
      if c = '\x7b' then quotedBody quote (.number 0 0) read rest else none
  | .number count value, read, c :: rest =>
      if c = '\x7d' then
        match if count = 0 then none else scalar? value with
        | some escaped => quotedBody quote .plain (escaped :: read) rest
        | none => none
      else
        match Text.digit? c with
        | some d =>
            if count < 6 then quotedBody quote (.number (count + 1) (value * 16 + d)) read rest
            else none
        | none => none

/-- Reads a raw string behind its opening quote, up to a quote with `hashes` hash signs. -/
def rawBody (hashes : Nat) : (read : List Char) → List Char → Option (List Char × List Char)
  | _, [] => none
  | read, c :: rest =>
      if c = '"' ∧ rest.take hashes = List.replicate hashes '#' then
        some (read.reverse, rest.drop hashes)
      else rawBody hashes (c :: read) rest

/-- Reads a raw string behind its leading letter. -/
def raw? (cs : List Char) : Option (List Char × List Char) :=
  let hashes := (cs.takeWhile (· == '#')).length
  match cs.drop hashes with
  | '"' :: rest => rawBody hashes [] rest
  | _ => none

/-- Reads a character behind its opening quote. -/
def character? (cs : List Char) : Option (Char × List Char) :=
  match quotedBody '\'' .plain [] cs with
  | some ([c], rest) => some (c, rest)
  | _ => none

-- ── Names and marks ─────────────────────────────────────────────────────────────

/-- Whether a character may start a name. -/
def startsName (c : Char) : Bool := c.isAlpha || c == '_'

/-- Whether a character may stand in a name. -/
def isNameChar (c : Char) : Bool := c.isAlphanum || c == '_'

/-- Reads a raw name behind `r#`. -/
def rawName (cs : List Char) : Name × List Char :=
  (⟨String.ofList (cs.takeWhile Figure.isFigureChar), true⟩, cs.dropWhile Figure.isFigureChar)

/-- Reads a name that is not raw. Apart from `Some`, in front of a value that is present, it does
    not run on into a point or a sign. -/
def name? (cs : List Char) : Option (Token × List Char) :=
  let text := String.ofList (cs.takeWhile isNameChar)
  match cs.dropWhile isNameChar with
  | [] => some (.name ⟨text, false⟩, [])
  | '#' :: c :: rest =>
      if text = "Somer" ∧ Figure.isFigureChar c then
        let (raw, rest) := rawName (c :: rest)
        some (.joined raw, rest)
      else some (.name ⟨text, false⟩, '#' :: c :: rest)
  | c :: rest =>
      if Figure.isFigureChar c ∧ text ≠ Name.present.text then none
      else some (.name ⟨text, false⟩, c :: rest)

/-- Reads a number. -/
def figure? (cs : List Char) : Option (Token × List Char) :=
  (Figure.read? (cs.takeWhile Figure.isFigureChar)).map fun value =>
    (.figure value, cs.dropWhile Figure.isFigureChar)

/-- The marks. -/
def marks : List Char := "()[]\x7b\x7d:,#!".toList

/-- Reads what starts with the letter `r`, given what follows it. -/
def readR? (rest : List Char) : Option (Token × List Char) :=
  match rest with
  | '#' :: c :: more =>
      if Figure.isFigureChar c then
        let (raw, rest) := rawName (c :: more)
        some (.name raw, rest)
      else (raw? rest).map fun (value, rest) => (.text (String.ofList value), rest)
  | '"' :: _ => (raw? rest).map fun (value, rest) => (.text (String.ofList value), rest)
  | _ => name? ('r' :: rest)

/-- Reads the token at the front of a text that does not start with a blank. -/
def read? : List Char → Option (Token × List Char)
  | [] => none
  | '(' :: ')' :: rest => some (.unit, rest)
  | c :: rest =>
      if marks.contains c then some (.mark c, rest)
      else if c = '"' then
        (quotedBody '"' .plain [] rest).map fun (value, rest) =>
          (.text (String.ofList value), rest)
      else if c = '\'' then
        (character? rest).map fun (value, rest) => (.character value, rest)
      else if c = 'r' then readR? rest
      else if startsName c then name? (c :: rest)
      else if Figure.startsFigure c then figure? (c :: rest)
      else none

/-- Splits a text into fewer than `count` tokens. -/
def scanWithin : (count : Nat) → List Char → Option (List Token)
  | 0, _ => none
  | count + 1, cs =>
      match skip .outside cs with
      | none => none
      | some [] => some []
      | some body =>
          match read? body with
          | none => none
          | some (token, rest) => (scanWithin count rest).map (token :: ·)

/-- Splits a text into tokens. Every token takes up a character, so there are no more of them than
    characters. -/
def scan (cs : List Char) : Option (List Token) := scanWithin (cs.length + 1) cs

end Token

end ManagedCode.Notation
