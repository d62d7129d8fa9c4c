import Mdx.Markdown.Block.Interrupt
import Mdx.Markdown.Target
import Mdx.Markdown.Url

/-!
# Link definitions

A definition gives the destination and the title of all links with a label. It may go on over several
lines, as a paragraph does. Labels are compared without regard to letter case and to the number of
blanks between words.
-/

namespace Mdx.Markdown

/-- The destination and title of the links with a label. -/
structure Definition where
  label : List Char
  href : List Char
  title : List Char
deriving Inhabited

/-- A text with one space in place of each row of blanks; `gap` says that a blank comes before. -/
def collapseBlanks (gap : Bool) : List Char → List Char
  | [] => []
  | c :: rest =>
      if isBlank c then collapseBlanks true rest
      else if gap then ' ' :: c :: collapseBlanks false rest
      else c :: collapseBlanks false rest

/-- The form in which labels are compared. -/
def normalizeLabel (label : List Char) : List Char :=
  Text.foldCase (collapseBlanks false (trim label))

/-- The definition of a label; the first one counts. -/
def definitionOf? (definitions : List Definition) (label : List Char) : Option Definition :=
  let key := normalizeLabel label
  definitions.find? (·.label == key)

/-- The text of a definition that is being read: what is left of the lines taken so far, the lines
that may still be taken, and how many have been taken after the first one. -/
structure DefinitionText where
  unread : List Char
  more : List (List Char)
  taken : Nat

namespace DefinitionText

/-- The number of characters left. -/
def size (t : DefinitionText) : Nat :=
  t.unread.length + t.more.flatten.length

/-- Takes another line, if there is one. -/
def takeLine (t : DefinitionText) : DefinitionText :=
  match t.more with
  | [] => t
  | l :: more => ⟨t.unread ++ l, more, t.taken + 1⟩

/-- Goes on to a rest of the text. -/
def goTo (t : DefinitionText) (rest : List Char) : DefinitionText :=
  { t with unread := rest }

/-- The label whose opening bracket has been read, and the text after its closing bracket. -/
def label? : (room : Nat) → (before : List Char) → DefinitionText → Option (List Char × DefinitionText)
  | 0, _, _ => none
  | room + 1, before, t =>
      match t.unread with
      | [] => none
      | '[' :: _ => none
      | ']' :: rest => some (before.reverse, t.goTo rest)
      | '\n' :: rest => label? room ('\n' :: before) (t.goTo rest).takeLine
      | '\\' :: '\n' :: rest => label? room ('\n' :: '\\' :: before) (t.goTo rest).takeLine
      | '\\' :: c :: rest => label? room (c :: '\\' :: before) (t.goTo rest)
      | c :: rest => label? room (c :: before) (t.goTo rest)

/-- Goes past blanks and line breaks. -/
def skipGap : (room : Nat) → DefinitionText → DefinitionText
  | 0, t => t
  | room + 1, t =>
      match t.unread with
      | [] => t
      | c :: rest =>
          if c == '\n' then skipGap room (t.goTo rest).takeLine
          else if Text.isIndent c then skipGap room (t.goTo rest)
          else t

/-- The title that ends with `closer`, and the text after it; it may go on over the lines that are
left. -/
def titleWith? (closer : Char) (before unread : List Char) :
    (more : List (List Char)) → (taken : Nat) → Option (List Char × DefinitionText)
  | more, taken =>
      match scanTitle closer [] unread with
      | .closed title rest => some (before ++ unescape title, ⟨rest, more, taken⟩)
      | .absent => none
      | .unclosed title =>
          match more with
          | [] => none
          | l :: more => titleWith? closer (before ++ unescape title) l more (taken + 1)

/-- The title that starts here, and the text after it. -/
def title? (t : DefinitionText) : Option (List Char × DefinitionText) :=
  match t.unread with
  | [] => none
  | c :: rest =>
      match titleCloser? c with
      | none => none
      | some closer => titleWith? closer [] rest t.more t.taken

/-- Whether nothing but blanks is left on the line. -/
def atLineEnd (t : DefinitionText) : Bool :=
  match t.unread.dropWhile Text.isIndent with
  | [] => true
  | c :: _ => c == '\n'

/-- The title after a destination, and the text after it. Blanks have to divide it from the
destination, unless it goes on over another line, and nothing else may follow on its line; otherwise
there is no title. -/
def titleAfter (t : DefinitionText) : Option (List Char × DefinitionText) :=
  let gap := t.unread.head?.any fun c => c == '\n' || Text.isIndent c
  let absent := if t.atLineEnd then some ([], t) else none
  match (if gap then skipGap (t.size + 1) t else t).title? with
  | none => absent
  | some (title, after) =>
      if !gap && after.taken = t.taken then absent
      else if after.atLineEnd then some (title, after)
      else if title.isEmpty then none
      else absent

end DefinitionText

/-- The lines after a definition's first one that may belong to it. -/
def definitionLines (lines : Array Line) (scope : Scope) : (room next : Nat) → List (List Char)
  | 0, _ => []
  | room + 1, next =>
      let l := lineAt lines next
      if scope.last ≤ next || l.isEmpty then []
      else if isCodeLine scope l || l.indent < 0 ||
          !interruptsDefinition lines scope next scope.last then
        (l.content ++ l.ending) :: definitionLines lines scope room (next + 1)
      else []

/-- The definition that starts a text, and the number of lines after the first one that it takes. -/
def readDefinition? (t : DefinitionText) : Option (Definition × Nat) :=
  match t.label? (t.size + 1) [] with
  | none => none
  | some (label, t) =>
      match t.unread with
      | ':' :: rest =>
          let t := t.goTo rest
          let t := t.skipGap (t.size + 1)
          match destination? t.unread with
          | none => none
          | some (destination, rest) =>
              let href := Url.normalize destination
              if !Url.isSafe href then none
              else
                match (t.goTo rest).titleAfter with
                | none => none
                | some (title, t) =>
                    let key := normalizeLabel label
                    if key.isEmpty then none else some (⟨key, href, title⟩, t.taken)
      | _ => none

/-- The definition that starts on a line, and the number of the line after it. -/
def definition? (lines : Array Line) (scope : Scope) (start : Nat) : Option (Definition × Nat) :=
  let l := lineAt lines start
  match startText? scope l with
  | some ('[' :: rest) =>
      let more := definitionLines lines scope (scope.last - start) (start + 1)
      (readDefinition? ⟨rest ++ l.ending, more, 0⟩).map fun (d, taken) => (d, start + 1 + taken)
  | _ => none

end Mdx.Markdown
