/-!
# Marks

    The meanings a producer attaches to offsets in the code. Each mark has a fixed number in the
    producer's output.
-/

namespace ManagedCode

/-- The meaning of an offset. -/
inductive Mark where
  | verifiedEntry
  | unverifiedEntry
  | osrEntry
  | unwindEntry
  | exceptionHandlerEntry
  | deoptHandlerEntry
  | staticCallStub
  | invokeInvalid
  | invokeInterface
  | invokeStatic
  | invokeSpecial
  | invokeVirtual
  | inlineInvokeVirtual
  | implicitNull
  | pollNear
  | pollReturnNear
  | pollFar
  | pollReturnFar
  | typePatching
  | dummyReference
  | accessFieldPatching
deriving DecidableEq, Repr, Inhabited

namespace Mark

/-- Every mark with its number and its name. -/
def table : List (Int × String × Mark) :=
  [(0x0001, "VerifiedEntry", verifiedEntry),
   (0x0002, "UnverifiedEntry", unverifiedEntry),
   (0x0003, "OsrEntry", osrEntry),
   (0x0004, "UnwindEntry", unwindEntry),
   (0x0005, "ExceptionHandlerEntry", exceptionHandlerEntry),
   (0x0006, "DeoptHandlerEntry", deoptHandlerEntry),
   (0x1000, "StaticCallStub", staticCallStub),
   (0x2000, "InvokeInvalid", invokeInvalid),
   (0x2001, "InvokeInterface", invokeInterface),
   (0x2002, "InvokeStatic", invokeStatic),
   (0x2003, "InvokeSpecial", invokeSpecial),
   (0x2004, "InvokeVirtual", invokeVirtual),
   (0x2005, "InlineInvokeVirtual", inlineInvokeVirtual),
   (0x3000, "ImplicitNull", implicitNull),
   (0x3001, "PollNear", pollNear),
   (0x3002, "PollReturnNear", pollReturnNear),
   (0x3003, "PollFar", pollFar),
   (0x3004, "PollReturnFar", pollReturnFar),
   (0x4000, "KlassPatching", typePatching),
   (0x4001, "DummyOopRelocation", dummyReference),
   (0x4002, "AccessFieldPatching", accessFieldPatching)]

/-- The mark with the given number. -/
def ofNumber? (number : Int) : Option Mark :=
  (table.find? fun row => row.1 == number).map fun row => row.2.2

/-- The name of a mark. -/
def name (mark : Mark) : String :=
  ((table.find? fun row => row.2.2 == mark).map fun row => row.2.1).getD ""

/-- The name of the mark with the given number. -/
def nameOfNumber? (number : Int) : Option String :=
  (table.find? fun row => row.1 == number).map fun row => row.2.1

end Mark

end ManagedCode
