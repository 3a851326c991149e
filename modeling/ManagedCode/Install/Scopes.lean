import ManagedCode.Compiled.Frame
import ManagedCode.Debug.Safepoints
import ManagedCode.Install.Lowering

/-!
# Scopes of a suspension point

    Turns the chain of frames of a suspension point into scopes, outermost frame first. A value
    that takes two slots is followed by a placeholder in the producer's list, and the placeholder
    counts as a slot of its own wherever it stands.
-/

namespace ManagedCode

/-- The lowered slots of a frame, by part. -/
structure FrameSlots where
  locals : List ScopeValue := []
  expressions : List ScopeValue := []
  monitors : List Monitor := []
deriving DecidableEq, Repr, Inhabited

/-- Puts the slots of the value at index `i` in front of its part. -/
def FrameSlots.push (f : FrameSlots) (frame : Frame) (i : Nat) (slots : List ScopeValue) :
    FrameSlots :=
  if i < frame.localCount then { f with locals := slots ++ f.locals }
  else { f with expressions := slots ++ f.expressions }

/-- Lowers the values of a frame from index `i` on. -/
def lowerSlots (ctx : ValueContext) (frame : Frame) :
    (i : Nat) → List Value → Lower FrameSlots
  | _, [] => return {}
  | i, v :: rest =>
      if i < frame.localCount + frame.stackCount then do
        let t ← lower ctx v
        match t.second with
        | none => return (← lowerSlots ctx frame (i + 1) rest).push frame i t.slots
        | some _ =>
            match rest with
            | .illegal :: rest =>
                return (← lowerSlots ctx frame (i + 2) rest).push frame i t.slots
            | _ => throw (.value .noPlaceholder)
      else do
        let m ← lowerMonitor ctx v
        let f ← lowerSlots ctx frame (i + 1) rest
        return { f with monitors := m :: f.monitors }

/-- Checks that the parts of a frame cover its values. -/
def Frame.checkCounts (f : Frame) : Checked Unit := do
  let slots ← Size.add f.localCount f.stackCount
  let count ← Size.add slots f.lockCount
  require (count = f.values.length)
    (.value (.slotCount f.values.length f.localCount f.stackCount f.lockCount))

/-- The scope of one frame. -/
def lowerFrame (ctx : ValueContext) (frame : Frame) : Lower Scope := do
  modify fun t => { t with references := (t.references.addMetadata (.method frame.method)).2 }
  frame.checkCounts
  let slots ← lowerSlots ctx frame 0 frame.values
  return {
    method := frame.method
    bci := frame.bci
    reexecute := frame.reexecutes
    rethrow := frame.rethrow
    locals := slots.locals
    expressions := slots.expressions
    monitors := slots.monitors }

/-- Describes the frames of a chain, given outermost first, at the open safepoint `pc`. -/
def describeFrames (ctx : ValueContext) (pc : Nat) (log : SafepointLog) (frames : List Frame) :
    Lower SafepointLog :=
  frames.foldlM (fun log frame => do
    let scope ← lowerFrame ctx frame
    log.describe pc scope) log

/-- Describes the whole chain of a suspension point and its objects at the open safepoint `pc`. -/
def describeSafepoint (ctx : ValueContext) (pc : Nat) (log : SafepointLog) (info : DebugInfo) :
    Lower SafepointLog := do
  let log ← describeFrames ctx pc log info.chain.reverse
  log.setObjects pc (← get).pool

end ManagedCode
