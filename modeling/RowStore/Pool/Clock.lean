/-!
# The clock

The clock chooses which page of a full pool gives way to another.  Frames stand around a dial.
Each has a notch that says whether the frame is tracked, that is, holds a page that could give way,
and whether it was referenced since the hand passed it last.

`Clock.evict` moves the hand on from frame to frame.  A frame that is not tracked, or that the
caller rules out, is passed over.  A referenced frame gets a second chance: its mark is cleared and
the hand goes on.  The first tracked frame without a mark is the victim.  Two rounds suffice, since
the first clears all marks that are in the way.

Frames are numbered from zero, and numbers that are not on the dial have no effect.
-/

namespace RowStore

/-- The marks of one frame on the dial. -/
structure Notch where
  tracked : Bool
  referenced : Bool
  deriving DecidableEq, Repr

/-- The dial, the position of the hand, and the number of tracked frames. -/
structure Clock where
  dial : Array Notch
  hand : Nat
  size : Nat
  deriving DecidableEq, Repr

namespace Clock

/-- The clock for a number of frames, none of which is tracked. -/
def ofCapacity (capacity : Nat) : Clock :=
  ⟨Array.replicate capacity ⟨false, false⟩, 0, 0⟩

/-- The number of frames on the dial. -/
def capacity (c : Clock) : Nat := c.dial.size

/-- Whether a frame is tracked. -/
def tracks (c : Clock) (frame : Nat) : Bool :=
  (c.dial[frame]?.map Notch.tracked).getD false

/-- Whether a frame is marked as referenced. -/
def references (c : Clock) (frame : Nat) : Bool :=
  (c.dial[frame]?.map Notch.referenced).getD false

/-- Starts to track a frame, which counts as a reference to it. -/
def insert (c : Clock) (frame : Nat) : Clock :=
  match c.dial[frame]? with
  | none => c
  | some notch =>
    { c with
      dial := c.dial.setIfInBounds frame ⟨true, true⟩
      size := if notch.tracked then c.size else c.size + 1 }

/-- Marks a frame as referenced. -/
def touch (c : Clock) (frame : Nat) : Clock :=
  { c with dial := c.dial.modify frame fun notch => { notch with referenced := true } }

/-- Stops tracking a frame. -/
def remove (c : Clock) (frame : Nat) : Clock :=
  if c.tracks frame then
    { c with dial := c.dial.setIfInBounds frame ⟨false, false⟩, size := c.size - 1 }
  else c

/-- The frame after the one that the hand points to. -/
def nextHand (c : Clock) : Nat := (c.hand + 1) % c.capacity

/-- Looks at as many frames as given, from the hand on, for one that can give way. -/
def sweep (evictable : Nat → Bool) : Nat → Clock → Option Nat × Clock
  | 0, c => (none, c)
  | steps + 1, c =>
    match c.dial[c.hand]? with
    | none => (none, c)
    | some notch =>
      if !(notch.tracked && evictable c.hand) then
        sweep evictable steps { c with hand := c.nextHand }
      else if notch.referenced then
        sweep evictable steps
          { c with hand := c.nextHand, dial := c.dial.setIfInBounds c.hand ⟨true, false⟩ }
      else
        (some c.hand,
          { c with
            hand := c.nextHand
            dial := c.dial.setIfInBounds c.hand ⟨false, false⟩
            size := c.size - 1 })

/-- Chooses a victim among the tracked frames that the caller allows, and stops tracking it. -/
def evict (c : Clock) (evictable : Nat → Bool) : Option Nat × Clock :=
  if c.size = 0 then (none, c) else sweep evictable (2 * c.capacity) c

end Clock

end RowStore
