import ManagedCode.Text.Numeral

/-!
# Figures

    The numbers of the object notation. An integer has an optional sign, one of four radices, and
    `_` between its digits; a fraction has a point, an exponent, or both, and no `_`. Plain decimal
    digits are both at once, so that a number too large for a word still stands for a fraction.

* **`Figure.read?`** takes a run of characters as a whole.
* **`Figure.natural?`** and **`Figure.integer?`** give its value to a typed field.
* **`Figure.isAnything`** accepts it where no field asks for its type.
-/

namespace ManagedCode.Notation

/-- The sign in front of a number. -/
inductive Sign where
  | absent
  | plus
  | minus
deriving DecidableEq, Repr, Inhabited

/-- A number. -/
inductive Figure where
  /-- An integer, and whether its characters are a fraction as well. -/
  | integer (sign : Sign) (magnitude : Nat) (isFraction : Bool)
  | fraction
deriving DecidableEq, Repr, Inhabited

namespace Figure

/-- Whether a character may stand in a number or in what is mistaken for one. -/
def isFigureChar (c : Char) : Bool := c.isAlphanum || c == '_' || c == '.' || c == '+' || c == '-'

/-- Whether a number starts with this character. -/
def startsFigure (c : Char) : Bool := c.isDigit || c == '.' || c == '+' || c == '-'

/-- The sign of a number, and the rest. -/
def signOf : List Char → Sign × List Char
  | '+' :: rest => (.plus, rest)
  | '-' :: rest => (.minus, rest)
  | cs => (.absent, cs)

/-- The radix of an integer, and its digits. -/
def radixOf : List Char → Nat × List Char
  | '0' :: 'x' :: rest => (16, rest)
  | '0' :: 'b' :: rest => (2, rest)
  | '0' :: 'o' :: rest => (8, rest)
  | cs => (10, cs)

/-- The magnitude of an integer. Its digits do not start with `_`. -/
def magnitude? (cs : List Char) : Option Nat :=
  let (radix, digits) := radixOf cs
  match digits with
  | [] => none
  | '_' :: _ => none
  | _ => Text.digits? radix (digits.filter (· != '_'))

/-- Whether characters are nothing, or an exponent. -/
def isExponent : List Char → Bool
  | [] => true
  | c :: rest =>
      let digits := (signOf rest).2
      (c == 'e' || c == 'E') && !digits.isEmpty && digits.all Char.isDigit

/-- Whether characters are decimal digits with at most one point among them, and an exponent. -/
def isFraction (cs : List Char) : Bool :=
  let whole := cs.takeWhile Char.isDigit
  match cs.dropWhile Char.isDigit with
  | '.' :: rest =>
      let places := rest.takeWhile Char.isDigit
      !(whole ++ places).isEmpty && isExponent (rest.dropWhile Char.isDigit)
  | rest => !whole.isEmpty && isExponent rest

/-- The signed names of numbers that are not finite. -/
def isNamed (sign : Sign) (cs : List Char) : Bool :=
  sign != .absent && (cs == "inf".toList || cs == "NaN".toList)

/-- The number that a run of characters stands for. -/
def read? (cs : List Char) : Option Figure :=
  let (sign, body) := signOf cs
  match magnitude? body with
  | some n => some (.integer sign n (isFraction body))
  | none => if isFraction body || isNamed sign body then some .fraction else none

/-- The figure of an integer. -/
def ofInt (n : Int) : Figure := .integer (if n < 0 then .minus else .absent) n.natAbs true

/-- An integer without a sign. -/
def natural? : Figure → Option Nat
  | integer .absent n _ => some n
  | _ => none

/-- An integer with or without a sign. -/
def integer? : Figure → Option Int
  | integer .minus n _ => some (-(n : Int))
  | integer _ n _ => some n
  | fraction => none

/-- Whether an integer fits a word: an unsigned one without a sign, a signed one with it. -/
def fitsWord : Sign → Nat → Bool
  | .absent, n => n < Word.limit
  | .plus, n => n < 0x8000000000000000
  | .minus, n => n ≤ 0x8000000000000000

/-- Whether a number may stand where any value may. -/
def isAnything : Figure → Bool
  | integer sign n isFraction => fitsWord sign n || isFraction
  | fraction => true

end Figure

end ManagedCode.Notation
