/-
Recall.Time.Window — the recent past as a filter.

A window reaches back a fixed length of time from now. A record outside it, or one that is not
dated, is dropped; records dated in the future are inside. A window with any other name than the
three here lets everything through.
-/
import Recall.Time.Timestamp

namespace Recall

/-- The windows that bound anything. -/
inductive Window where
  | day
  | week
  | month
  deriving DecidableEq, Repr

namespace Window

/-- Every window. -/
def all : List Window := [.day, .week, .month]

/-- The name of a window. -/
def name : Window → String
  | .day => "24h"
  | .week => "7d"
  | .month => "30d"

/-- The window with a name. -/
def ofName? (s : String) : Option Window :=
  all.find? fun w => s == w.name

/-- The number of days that a window reaches back. -/
def days : Window → Int
  | .day => 1
  | .week => 7
  | .month => 30

/-- The length of a window in milliseconds. -/
def length (w : Window) : Int :=
  w.days * 24 * 60 * 60 * 1000

/-- Whether an instant, if there is one, is in the window with a name. -/
def admits (window : String) (instant : Option Int) (now : Int) : Bool :=
  match ofName? window with
  | none => true
  | some w =>
    match instant with
    | none => false
    | some t => now - t ≤ w.length

/-- Whether a timestamp is in the window with a name. -/
def admitsText (window : String) (timestamp : Option String) (now : Int) : Bool :=
  admits window (timestamp.bind Timestamp.parse?) now

end Window

end Recall
