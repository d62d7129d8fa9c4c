import Mdx.Console.Markup
import Mdx.Console.Wrap
import Mdx.Fault.Failure
import Mdx.Log.Basic

/-!
# The console

Records of the log are written to a screen, the level in a column of its own and the text beside it.
The screen can be swapped for another one; that sets the log's threshold back. Information and
printed texts may be styled, and records of other levels are shown as they are.
-/

namespace Mdx

/-- A screen: its width and what was written to it. -/
structure Screen where
  width : Nat
  text : String := ""
deriving Inhabited

/-- The console: the log, the current screen, and the screens before it, last first. -/
structure Console where
  log : Log := {}
  screen : Screen
  earlier : List Screen := []
deriving Inhabited

namespace Console

/-- The width of the column of levels. -/
def levelWidth : Nat :=
  8

/-- The lines of a text as a screen of the given width shows them, each behind a margin. -/
def render (width : Nat) (margin : List Char) (text : List Char) : String :=
  let blank := List.replicate margin.length ' '
  let behind := match wrap (max 1 (width - margin.length)) text with
    | [] => []
    | first :: rest => (margin ++ first) :: rest.map (blank ++ ·)
  String.ofList (behind.flatMap fun line => Text.trimEnd line ++ ['\n'])

/-- The margin of a record. -/
def margin (level : Level) : List Char :=
  let name := level.name.toList
  name ++ List.replicate (levelWidth + 1 - name.length) ' '

/-- Writes to the current screen. -/
def write (c : Console) (text : String) : Console :=
  { c with screen := { c.screen with text := c.screen.text ++ text } }

/-- The failure of a styled text with a closing tag that has no opening one. -/
def badStyle : Failure :=
  .raised "MarkupError" "closing tag doesn't match any open tag"

/-- The text that a screen shows for a text that may be styled. -/
def visible (styled : Bool) (text : String) : Except Failure (List Char) :=
  if styled then
    match unstyled? text.toList with
    | some shown => .ok shown
    | none => .error badStyle
  else .ok text.toList

/-- Adds a record to the log and shows it, if its level is admitted. -/
def emit (c : Console) (level : Level) (text : String) : Except Failure Console := do
  if c.log.admits level then
    let shown ← visible (level == .info) text
    return { c.write (render c.screen.width (margin level) shown) with log := c.log.add level text }
  else return c

/-- Prints a text. -/
def print (c : Console) (text : String) : Except Failure Console := do
  return c.write (render c.screen.width [] (← visible true text))

/-- The console with another threshold of its log. -/
def withThreshold (c : Console) (rank : Int) : Console :=
  { c with log := { c.log with threshold := rank } }

/-- The console with the same screen set anew, which sets the threshold back. -/
def reset (c : Console) : Console :=
  c.withThreshold Level.info.rank

/-- The console with a new screen. -/
def swap (c : Console) (width : Nat) : Console :=
  { c.reset with screen := ⟨width, ""⟩, earlier := c.screen :: c.earlier }

/-- All screens in the order in which they were used. -/
def screens (c : Console) : List Screen :=
  (c.screen :: c.earlier).reverse

end Console

end Mdx
