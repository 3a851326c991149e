import ManagedCode.Ident
import ManagedCode.Notation.Document

/-!
# Readers of plain data

    Numbers within their ranges, identities, lists, options, and the fields of records: required,
    with a default, or absent by default. A field that is given twice makes the record unreadable.
-/

namespace ManagedCode.Read

variable {δ : Type} [Document δ] {α : Type}

/-- An unsigned number below a bound. -/
def below (bound : Nat) (d : δ) : Option Nat := (Document.natural? d).filter (· < bound)

/-- A byte. -/
def byte (d : δ) : Option UInt8 := (below 0x100 d).map UInt8.ofNat

/-- A 32 bit unsigned number. -/
def nat32 (d : δ) : Option Nat := below Word.limit32 d

/-- A size. -/
def size (d : δ) : Option Nat := below Word.limit d

/-- A word. -/
def word (d : δ) : Option UInt64 := (below Word.limit d).map UInt64.ofNat

/-- A signed number below a bound, and not below its negation. -/
def signed (bound : Int) (d : δ) : Option Int :=
  (Document.integer? d).filter fun n => -bound ≤ n ∧ n < bound

/-- A 32 bit signed number. -/
def int32 (d : δ) : Option Int := signed 0x80000000 d

/-- A 64 bit signed number. -/
def int64 (d : δ) : Option Int := signed 0x8000000000000000 d

/-- A truth value. -/
def flag (d : δ) : Option Bool := Document.boolean? d

/-- A string. -/
def text (d : δ) : Option String := Document.text? d

/-- A list. -/
def list (item : δ → Option α) (d : δ) : Option (List α) := do
  (← Document.items? d).mapM item

/-- A value that may be absent. -/
def option (item : δ → Option α) (d : δ) : Option (Option α) := do
  match ← Document.optional? d with
  | none => return none
  | some content => return some (← item content)

/-- A wrapped word. -/
def identity (type : String) (wrap : UInt64 → α) (d : δ) : Option α := do
  return wrap (← word (← Document.wrapped? type d))

/-- The identity of a method. -/
def methodId : δ → Option MethodId := identity "MethodId" MethodId.mk

/-- The identity of a type. -/
def typeId : δ → Option TypeId := identity "KlassId" TypeId.mk

/-- The address of an object. -/
def objectAddress : δ → Option ObjectAddress := identity "ObjectAddress" ObjectAddress.mk

/-- The identity of installed code. -/
def codeId (d : δ) : Option CodeId := do
  return ⟨← size (← Document.wrapped? "InstalledCodeId" d)⟩

-- ── Fields ──────────────────────────────────────────────────────────────────────

/-- The field of the given name, if it is given at most once. -/
def find (fields : List (String × δ)) (name : String) : Option (Option δ) :=
  match fields.filter fun field => field.1 == name with
  | [] => some none
  | [(_, value)] => some (some value)
  | _ => none

/-- A field that has to be given. -/
def required (fields : List (String × δ)) (name : String) (item : δ → Option α) : Option α := do
  match ← find fields name with
  | some value => item value
  | none => none

/-- A field with a default. -/
def defaulted (fields : List (String × δ)) (name : String) (fallback : α)
    (item : δ → Option α) : Option α := do
  match ← find fields name with
  | some value => item value
  | none => return fallback

/-- A field that may be absent, or given as absent. -/
def optional (fields : List (String × δ)) (name : String) (item : δ → Option α) :
    Option (Option α) :=
  defaulted fields name none (option item)

end ManagedCode.Read
