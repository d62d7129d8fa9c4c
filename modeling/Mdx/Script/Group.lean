import Mdx.Script.Literal

/-!
# Bracket groups

A group is a piece of script code from an opening bracket to the closing bracket that matches it.
Brackets of the three kinds must close in order, and literals are skipped. A scan may be held to a
window: a step starts only while the window has room left, but a literal is read in the whole text.
-/

namespace Mdx.Script

/-- The closing bracket of an opening one. -/
def closerOf? (c : Char) : Option Char :=
  if c == '\x7b' then some '\x7d'
  else if c == '[' then some ']'
  else if c == '(' then some ')'
  else none

/-- A closing bracket. -/
def isCloser (c : Char) : Bool :=
  c == '\x7d' || c == ']' || c == ')'

/-- How the scan for a group ends. -/
inductive GroupScan where
  /-- The group is closed, and this text is after it. -/
  | closed (rest : List Char)
  /-- A closing bracket stands where it does not belong. -/
  | mismatched
  /-- The window or the text ends before the group does. -/
  | unclosed
deriving DecidableEq, Repr

/-- Scans to the end of the first group, with the closing brackets awaited on the stack and room for
`room` more characters in the window. -/
def scanGroup (room : Nat) (stack : List Char) (s : List Char) : GroupScan :=
  match room, s with
  | 0, _ => .unclosed
  | _ + 1, [] => .unclosed
  | room + 1, c :: rest =>
      match h : literalRest? (c :: rest) with
      | some after =>
          have : after.length < rest.length + 1 := length_lt_of_literalRest? h
          scanGroup (room + 1 - (rest.length + 1 - after.length)) stack after
      | none =>
          match closerOf? c with
          | some closer => scanGroup room (closer :: stack) rest
          | none =>
              if isCloser c then
                match stack with
                | [] => .mismatched
                | top :: below =>
                    if top != c then .mismatched
                    else if below.isEmpty then .closed rest
                    else scanGroup room below rest
              else scanGroup room stack rest
termination_by s.length

/-- The text after the group that starts here, or after the first one that starts later. -/
def groupRest? (s : List Char) : Option (List Char) :=
  match scanGroup s.length [] s with
  | .closed rest => some rest
  | _ => none

theorem length_lt_of_scanGroup {room : Nat} {stack s r : List Char}
    (h : scanGroup room stack s = .closed r) : r.length < s.length := by
  fun_induction scanGroup room stack s <;> simp_all <;> omega

/-- A group has at least one character. -/
theorem length_lt_of_groupRest? {s r : List Char} (h : groupRest? s = some r) :
    r.length < s.length := by
  unfold groupRest? at h
  split at h
  · rename_i heq
    obtain rfl := Option.some.inj h
    exact length_lt_of_scanGroup heq
  · simp at h

/-- The offset after the first group at or after an offset, within the characters before `limit`.
A scan that runs on past the end of the text is a fault. -/
def groupEnd? (src : List Char) (pos limit : Nat) : Except OffsetFault (Option Nat) :=
  match scanGroup (limit - pos) [] (src.drop pos) with
  | .closed rest => .ok (some (src.length - rest.length))
  | .mismatched => .ok none
  | .unclosed => if src.length < limit && pos < limit then .error .outOfText else .ok none

end Mdx.Script
