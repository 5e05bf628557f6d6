import DiceTable.Event.Frame
import DiceTable.Json.Printer
import DiceTable.Timestamp.Basic

/-!
# The last message

A slot for the frame received last, whatever it says, and for when it was received.
-/

namespace DiceTable

/-- The frame received last, with the time of its arrival. -/
structure LastMessage where
  latest : Option (Frame × Timestamp) := none
  deriving DecidableEq, Repr

namespace LastMessage

/-- The slot with this frame in it. -/
def hold (frame : Frame) (now : Timestamp) : LastMessage := ⟨some (frame, now)⟩

/-- The frame. -/
def frame? (m : LastMessage) : Option Frame := m.latest.map (·.1)

/-- The time of arrival. -/
def receivedAt? (m : LastMessage) : Option Timestamp := m.latest.map (·.2)

/-- The time of day and the frame as indented JSON. -/
def render? (m : LastMessage) : Option String :=
  m.latest.map fun (frame, now) => "[" ++ now.clockText ++ "] " ++ frame.encode.indented

end LastMessage

end DiceTable
