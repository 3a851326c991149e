/-!
# Kinds of values

    The logical kind of a value as the producer of the code describes it: the primitive kinds of
    the managed language, references, raw machine words, and the placeholder kind.
-/

namespace ManagedCode

/-- The logical kind of a value. -/
inductive Kind where
  | boolean
  | byte
  | short
  | char
  | int
  | float
  | long
  | double
  | object
  /-- A machine word: a raw address or embedded metadata. -/
  | word
  | illegal
deriving DecidableEq, Repr, Inhabited

namespace Kind

/-- Every kind, in order of declaration. -/
def all : List Kind :=
  [boolean, byte, short, char, int, float, long, double, object, word, illegal]

/-- The name of a kind in messages and documents. -/
def name : Kind → String
  | boolean => "Boolean"
  | byte => "Byte"
  | short => "Short"
  | char => "Char"
  | int => "Int"
  | float => "Float"
  | long => "Long"
  | double => "Double"
  | object => "Object"
  | word => "Word"
  | illegal => "Illegal"

/-- The one-letter code of a kind. -/
def letter : Kind → Char
  | boolean => 'z'
  | byte => 'b'
  | short => 's'
  | char => 'c'
  | int => 'i'
  | float => 'f'
  | long => 'j'
  | double => 'd'
  | object => 'a'
  | word => 'w'
  | illegal => '-'

/-- The kind with a given name. -/
def ofName? (text : String) : Option Kind := all.find? fun k => k.name == text

/-- The kind with a given letter. -/
def ofLetter? (c : Char) : Option Kind := all.find? fun k => k.letter == c

/-- Whether a value of this kind takes two slots of a frame. -/
def isWide : Kind → Bool
  | long | double => true
  | _ => false

/-- Whether a value of this kind is a reference. -/
def isObject : Kind → Bool
  | object => true
  | _ => false

/-- Whether a value of this kind fits a 32 bit constant. -/
def isIntLike : Kind → Bool
  | boolean | byte | short | char | int | float => true
  | _ => false

/-- A kind is found again by its letter. -/
theorem ofLetter?_letter (k : Kind) : ofLetter? k.letter = some k := by
  cases k <;> rfl

end Kind

end ManagedCode
