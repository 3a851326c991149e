import ManagedCode.World.CodeTable

/-!
# Summaries

    The lines that tell what was installed: where, its entry points, relocations, reference maps,
    scopes and dependencies.
-/

namespace ManagedCode

/-- The lines of one safepoint: its offset, and its scopes, innermost first. -/
def Safepoint.summary (s : Safepoint) : Checked (List String) := do
  let scopes ← s.scopes.mapM Scope.text
  return s!"  pc +{s.pc}" :: scopes.map fun scope => "    " ++ scope

/-- The line of one relocation. -/
def Relocation.summary (r : Relocation) : String :=
  s!"  reloc +{r.offset} {r.kind.text} {r.format.text}"

/-- The line of one reference map. -/
def RefMap.summary (pc : Nat) (m : RefMap) : Checked String := do
  let references ← m.text
  return s!"  oop map +{pc} {references}"

/-- The lines that tell what was installed. -/
def Code.summary (c : Code) : Checked (List String) := do
  let size ← c.blob.size
  let maps ← c.maps.maps.mapM fun (pc, m) => m.summary pc
  let safepoints ← c.safepoints.mapM Safepoint.summary
  let place := Word.hex c.address.toNat
  return [s!"{c.name} installed at {place} ({size} bytes, frame {c.frameSize})"] ++
    (c.entryPoints.toList.map fun (kind, offset) => s!"  {kind.name} +{offset}") ++
    c.blob.relocations.map Relocation.summary ++
    maps ++
    safepoints.flatten ++
    c.dependencies.map fun d => "  depends on " ++ d.text

end ManagedCode
