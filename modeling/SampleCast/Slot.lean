import SampleCast.Frame

/-! The published block.
One slot holds the latest block of samples and the generation it belongs to. Before the first
block, it holds the empty frame of generation zero. A block is written over the one before it, of
which nothing stays. -/

namespace SampleCast

/-- Writes a block over a frame, whose lists are emptied and then filled again. -/
def Frame.refill (f block : Frame) : Frame :=
  let f := { f with
    timestamp := block.timestamp
    channelCount := block.channelCount
    pointsPerChannel := block.pointsPerChannel }
  let f := { f with analog := [] }
  let f := { f with analog := f.analog ++ block.analog }
  let f := { f with digital := [] }
  { f with digital := f.digital ++ block.digital }

@[simp] theorem Frame.refill_eq (f block : Frame) : f.refill block = block := rfl

structure Slot where
  generation : Nat := 0
  frame : Frame := {}
  deriving DecidableEq, Inhabited

namespace Slot

def publish (s : Slot) (generation : Nat) (block : Frame) : Slot where
  generation
  frame := s.frame.refill block

@[simp] theorem publish_eq (s : Slot) (generation : Nat) (block : Frame) :
    s.publish generation block = ⟨generation, block⟩ := rfl

def copy (s : Slot) (channels : List UInt32) : Option (Nat × Frame) :=
  (s.frame.select channels).map (s.generation, ·)

end Slot
end SampleCast
