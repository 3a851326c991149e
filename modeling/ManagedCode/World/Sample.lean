import ManagedCode.World.Description

/-!
# A sample runtime

    A small runtime to try installations in: an abstract type with one implementation, an array
    type, a type on its own, and two runtime stubs.
-/

namespace ManagedCode.Description

/-- An abstract shape and a circle that implements its area, which also has a static method. -/
def sample : Description where
  types :=
    [{ id := ⟨0x100⟩, name := "Shape", isAbstract := true, mirror := ⟨0x9100⟩ },
     { id := ⟨0x200⟩, name := "Circle", parent := some ⟨0x100⟩, mirror := ⟨0x9200⟩ },
     { id := ⟨0x300⟩, name := "[J", mirror := ⟨0x9300⟩ },
     { id := ⟨0x400⟩, name := "Node", mirror := ⟨0x9400⟩ }]
  methods :=
    [{ id := ⟨0x1000⟩, holder := ⟨0x100⟩, name := "area", parameterSize := 1 },
     { id := ⟨0x2000⟩, holder := ⟨0x200⟩, name := "area", parameterSize := 1,
       overrides := some ⟨0x1000⟩ },
     { id := ⟨0x3000⟩, holder := ⟨0x200⟩, name := "unit", isStatic := true }]
  stubs := [0x70000000, 0x70000100]
  resolveVirtualCall := 0x71000000
  resolveStaticCall := 0x71000100
  resolveSpecialCall := 0x71000200
  pollingPage := 0x72000000
  pageSize := 0x1000
  emptyCacheWord := 0xffffffffffffffff
  longArrayType := ⟨0x300⟩

end ManagedCode.Description
