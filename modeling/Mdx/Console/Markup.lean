import Mdx.Text.Basic
import Mdx.Text.Case

/-!
# Styled texts

A text for the console may hold tags in square brackets that style what stands between them. A tag
starts with a small letter or one of a few marks, and a slash makes it a closing one, which closes the
innermost tag of its name or, without a name, the innermost tag. A backslash before a bracket takes
its meaning away. What is shown is the text without its tags.
-/

namespace Mdx.Console

/-- A piece of a styled text. -/
inductive Piece where
  | plain (text : List Char)
  | tag (body : List Char)

/-- A character that a tag may start with. -/
def startsTag (c : Char) : Bool :=
  ('a' ≤ c && c ≤ 'z') || c == '#' || c == '/' || c == '@'

/-- The body of a tag and the rest after it, given the text after the opening bracket. -/
def tagBody? : List Char → Option (List Char × List Char)
  | [] => none
  | c :: rest =>
      if !startsTag c then none
      else
        let body := rest.takeWhile fun d => d != '[' && d != ']'
        match rest.dropWhile fun d => d != '[' && d != ']' with
        | ']' :: after => some (c :: body, after)
        | _ => none

/-- Adds a character to the plain text in front of pieces. -/
def consPlain (c : Char) : List Piece → List Piece
  | .plain text :: rest => .plain (c :: text) :: rest
  | pieces => .plain [c] :: pieces

/-- The pieces of a styled text; `slashes` is the number of backslashes right before it. -/
def pieces : (fuel : Nat) → (slashes : Nat) → List Char → List Piece
  | 0, _, _ => []
  | _ + 1, slashes, [] => [.plain (List.replicate slashes '\\')]
  | fuel + 1, slashes, '\\' :: rest => pieces fuel (slashes + 1) rest
  | fuel + 1, slashes, c :: rest =>
      let kept := .plain (List.replicate (slashes / 2) '\\')
      match if c == '[' then tagBody? rest else none with
      | some (body, after) =>
          if slashes % 2 = 1 then
            kept :: .plain ('[' :: body ++ [']']) :: pieces fuel 0 after
          else kept :: .tag body :: pieces fuel 0 after
      | none =>
          let shown := if c == '[' && 0 < slashes then slashes - 1 else slashes
          .plain (List.replicate shown '\\') :: consPlain c (pieces fuel 0 rest)

/-- The name of a tag: what stands before an equals sign. -/
def tagName (body : List Char) : List Char :=
  Text.lower (Text.trim (body.takeWhile (· != '=')))

/-- The open tags without the innermost one of a name. -/
def close? (name : List Char) : List (List Char) → Option (List (List Char))
  | [] => none
  | top :: rest =>
      if name.isEmpty || top = name then some rest else (close? name rest).map (top :: ·)

/-- The text that pieces show, or nothing if a closing tag has no opening one; `opened` are the names
of the open tags, the innermost first. -/
def shown? (opened : List (List Char)) : List Piece → Option (List Char)
  | [] => some []
  | .plain text :: rest => (shown? opened rest).map (text ++ ·)
  | .tag ('/' :: body) :: rest => do shown? (← close? (tagName body) opened) rest
  | .tag body :: rest => shown? (tagName body :: opened) rest

/-- The text that a styled text shows, or nothing if a closing tag has no opening one. -/
def unstyled? (text : List Char) : Option (List Char) :=
  shown? [] (pieces (text.length + 1) 0 text)

end Mdx.Console
