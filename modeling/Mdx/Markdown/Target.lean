import Mdx.Markdown.Entity

/-!
# Destinations and titles of links

A destination stands between angle brackets, or has no blanks and balanced parentheses. A title
stands between quotation marks, apostrophes or parentheses.
-/

namespace Mdx.Markdown

/-- The destination in angle brackets whose opening bracket has been read, as it is written, and the
text after it. -/
def bracketed? (before : List Char) : List Char → Option (List Char × List Char)
  | [] => none
  | '\n' :: _ => none
  | '<' :: _ => none
  | '>' :: rest => some (before.reverse, rest)
  | '\\' :: c :: rest => bracketed? (c :: '\\' :: before) rest
  | c :: rest => bracketed? (c :: before) rest

/-- The destination without brackets, as it is written, and the text after it; `level` parentheses are
open. -/
def unbracketed? (level : Nat) (before : List Char) (s : List Char) :
    Option (List Char × List Char) :=
  match s with
  | [] => finish s
  | '\\' :: c :: rest =>
      if c == ' ' then finish s else unbracketed? level (c :: '\\' :: before) rest
  | c :: rest =>
      if c.toNat ≤ 0x20 || c.toNat == 0x7f then finish s
      else if c == '(' then
        if 32 ≤ level then none else unbracketed? (level + 1) (c :: before) rest
      else if c == ')' then
        if level = 0 then finish s else unbracketed? (level - 1) (c :: before) rest
      else unbracketed? level (c :: before) rest
where
  /-- The destination ends here. -/
  finish (rest : List Char) : Option (List Char × List Char) :=
    if before.isEmpty || level ≠ 0 then none else some (before.reverse, rest)

/-- The destination of a link, and the text after it. -/
def destination? (s : List Char) : Option (List Char × List Char) :=
  match s with
  | '<' :: rest => (bracketed? [] rest).map fun (d, after) => (unescape d, after)
  | _ => (unbracketed? 0 [] s).map fun (d, after) => (unescape d, after)

/-- How the reading of a title ends. -/
inductive TitleScan where
  /-- The title is closed: its text as it is written, and the text after it. -/
  | closed (title rest : List Char)
  /-- The text ends before the title. -/
  | unclosed (title : List Char)
  /-- There is no title. -/
  | absent
deriving Inhabited

/-- Goes on to the end of a title that ends with `closer`. -/
def scanTitle (closer : Char) (before : List Char) : List Char → TitleScan
  | [] => .unclosed before.reverse
  | [c] =>
      if c == closer then .closed before.reverse []
      else if c == '(' && closer == ')' then .absent
      else .unclosed (c :: before).reverse
  | c :: d :: rest =>
      if c == closer then .closed before.reverse (d :: rest)
      else if c == '(' && closer == ')' then .absent
      else if c == '\\' then scanTitle closer (d :: c :: before) rest
      else scanTitle closer (c :: before) (d :: rest)

/-- What closes the title that a character opens. -/
def titleCloser? (c : Char) : Option Char :=
  if c == '\x22' || c == '\x27' then some c else if c == '(' then some ')' else none

/-- The title of a link, and the text after it. -/
def title? (s : List Char) : Option (List Char × List Char) :=
  match s with
  | [] => none
  | c :: rest =>
      match titleCloser? c with
      | none => none
      | some closer =>
          match scanTitle closer [] rest with
          | .closed title after => some (unescape title, after)
          | _ => none

end Mdx.Markdown
