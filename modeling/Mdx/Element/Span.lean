
import Mdx.Element.Lexer

/-!
# Where markup starts, and the span of an element

An angle bracket starts embedded markup if a tag's name, a closing tag, a fragment or a comment
follows. A name has to be followed by a blank, a slash, the closing bracket or the end of the text,
and has no colon, so that the link `<https://x>` and the address `<a@b.c>` do not count.

An element that stands in running text reaches from its opening tag to the closing tag that matches
it. Tags that do not match, or are never closed, make no element. A fault of a tag, though, takes all
of the text, so that it is reported and not passed over.
-/

namespace Mdx.Element

/-- Whether a tag's name may end before this text. -/
def endsName : List Char → Bool
  | [] => true
  | c :: _ => Text.isBlank c || c == '/' || c == '>'

/-- The text after the start of markup, if markup starts here. -/
def startRest? : List Char → Option (List Char)
  | '<' :: '!' :: '-' :: '-' :: rest => some rest
  | '<' :: '/' :: c :: rest => if isNameStart c || c == '>' then some rest else none
  | '<' :: '>' :: rest => some rest
  | '<' :: c :: rest =>
      if isNameStart c then
        let after := rest.dropWhile fun d => isNameRest d && d != ':'
        if endsName after then some after else none
      else none
  | _ => none

/-- Whether markup starts here. -/
def startsHere (s : List Char) : Bool :=
  (startRest? s).isSome

/-- How the search for the end of an element ends. -/
inductive SpanScan where
  /-- The element ends at this offset. -/
  | closed (stop : Nat)
  /-- There is no element. -/
  | absent
  /-- The tokens end within the element. -/
  | unclosed
deriving DecidableEq, Repr

/-- Goes on to the end of the element whose open tags have these names, innermost first. -/
def scanTags : (names : List String) → List Token → SpanScan
  | [], _ => .absent
  | _ :: _, [] => .unclosed
  | name :: names, t :: rest =>
      match t.kind with
      | .openTag => scanTags (t.name :: name :: names) rest
      | .closeTag =>
          if name != t.name then .absent
          else if names.isEmpty then .closed t.stop
          else scanTags names rest
      | _ => scanTags (name :: names) rest

/-- The search from the first token on. -/
def scanFirst : List Token → SpanScan
  | [] => .absent
  | t :: rest =>
      if t.start != 0 then .absent
      else match t.kind with
        | .selfClosing => .closed t.stop
        | .comment => .closed t.stop
        | .openTag => scanTags [t.name] rest
        | _ => .absent

/-- The length of the element or comment at the start of a text; all of the text if a tag in the
element, or the first tag, is faulty. -/
inductive Span where
  | upTo (length : Nat)
  | whole
  | absent
deriving DecidableEq, Repr

/-- The element or comment at the start of a text. -/
def spanOf (window : List Char) : Span :=
  match tokens window with
  | (ts, fault) =>
      match scanFirst ts, fault, ts with
      | .closed stop, _, _ => .upTo stop
      | .unclosed, some _, _ => .whole
      | .absent, some _, [] => if startsHere window then .whole else .absent
      | _, _, _ => .absent

/-- The offset after the element or comment at the offset `pos`, read up to the offset `limit`. -/
def spanEnd? (src : List Char) (pos limit : Nat) : Option Nat :=
  match spanOf ((src.drop pos).take (limit - pos)) with
  | .upTo length => some (pos + length)
  | .whole => some limit
  | .absent => none

end Mdx.Element
