/-!
# Entry points

    The named offsets of an installed unit: its entries and its handlers. Each has at most one
    offset, and the latest one counts.
-/

namespace ManagedCode

/-- The names of offsets in the code. -/
inductive EntryKind where
  | entry
  | verifiedEntry
  | osrEntry
  | exceptions
  | deopt
  | unwindHandler
deriving DecidableEq, Repr, Inhabited

namespace EntryKind

/-- Every kind, in listing order. -/
def all : List EntryKind := [entry, verifiedEntry, osrEntry, exceptions, deopt, unwindHandler]

/-- The name of a kind in summaries. -/
def name : EntryKind → String
  | entry => "Entry"
  | verifiedEntry => "VerifiedEntry"
  | osrEntry => "OsrEntry"
  | exceptions => "Exceptions"
  | deopt => "Deopt"
  | unwindHandler => "UnwindHandler"

end EntryKind

/-- The named offsets of a unit. -/
structure EntryPoints where
  entry : Option Nat := none
  verifiedEntry : Option Nat := none
  osrEntry : Option Nat := none
  exceptions : Option Nat := none
  deopt : Option Nat := none
  unwindHandler : Option Nat := none
deriving DecidableEq, Repr, Inhabited

namespace EntryPoints

/-- The offset of the given kind. -/
def get? (e : EntryPoints) : EntryKind → Option Nat
  | .entry => e.entry
  | .verifiedEntry => e.verifiedEntry
  | .osrEntry => e.osrEntry
  | .exceptions => e.exceptions
  | .deopt => e.deopt
  | .unwindHandler => e.unwindHandler

/-- Sets the offset of the given kind. -/
def set (e : EntryPoints) (kind : EntryKind) (offset : Nat) : EntryPoints :=
  match kind with
  | .entry => { e with entry := some offset }
  | .verifiedEntry => { e with verifiedEntry := some offset }
  | .osrEntry => { e with osrEntry := some offset }
  | .exceptions => { e with exceptions := some offset }
  | .deopt => { e with deopt := some offset }
  | .unwindHandler => { e with unwindHandler := some offset }

/-- The offsets that are set, in listing order. -/
def toList (e : EntryPoints) : List (EntryKind × Nat) :=
  EntryKind.all.filterMap fun kind => (e.get? kind).map (kind, ·)

/-- Where callers that know the receiver enter: the verified entry, else the unverified one, else
    the start of the code. -/
def verified (e : EntryPoints) : Nat := (e.verifiedEntry <|> e.entry).getD 0

/-- The offset set last is the one found, and no other kind is touched. -/
theorem get?_set (e : EntryPoints) (kind other : EntryKind) (offset : Nat) :
    (e.set kind offset).get? other = if other = kind then some offset else e.get? other := by
  cases kind <;> cases other <;> rfl

end EntryPoints

end ManagedCode
