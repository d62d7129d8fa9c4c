/-!
# Script literals

A quote, a template or a comment in script code is skipped as a whole, so that the brackets and
angle brackets inside it count for nothing. A literal that is not ended takes the rest of the text;
a quote that is not ended takes the rest of its line.

A scanner takes the text from where it stands and returns the text after what it has read.
-/

namespace Mdx.Script

/-- The characters that open a quote or a template. -/
def isQuote (c : Char) : Bool :=
  c == '\x27' || c == '\x22' || c == '\x60'

/-- The text after a quote whose opening mark has been read. A backslash takes the character after
it along, and a line break ends all but a template. -/
def quoteRest (mark : Char) : List Char → List Char
  | [] => []
  | c :: rest =>
      if c == '\\' then
        match rest with
        | [] => []
        | _ :: rest => quoteRest mark rest
      else if c == mark then rest
      else if c == '\n' && mark != '\x60' then c :: rest
      else quoteRest mark rest

/-- The text after a block comment whose opening mark has been read. -/
def blockCommentRest : List Char → List Char
  | [] => []
  | c :: rest =>
      if c == '*' then
        match rest with
        | '/' :: after => after
        | _ => blockCommentRest rest
      else blockCommentRest rest

/-- The text after the literal that starts here, if one does. -/
def literalRest? : List Char → Option (List Char)
  | [] => none
  | c :: rest =>
      if isQuote c then some (quoteRest c rest)
      else if c == '/' then
        match rest with
        | '/' :: after => some (after.dropWhile (· != '\n'))
        | '*' :: after => some (blockCommentRest after)
        | _ => none
      else none

theorem length_quoteRest_le (mark : Char) (s : List Char) :
    (quoteRest mark s).length ≤ s.length := by
  fun_induction quoteRest mark s <;> simp_all <;> omega

theorem length_blockCommentRest_le (s : List Char) :
    (blockCommentRest s).length ≤ s.length := by
  fun_induction blockCommentRest s <;> simp_all <;> omega

/-- A literal has at least one character. -/
theorem length_lt_of_literalRest? {s r : List Char} (h : literalRest? s = some r) :
    r.length < s.length := by
  unfold literalRest? at h
  split at h
  · simp at h
  · rename_i c rest
    split at h
    · obtain rfl := Option.some.inj h
      have := length_quoteRest_le c rest
      simp only [List.length_cons]
      omega
    · split at h
      · split at h
        · rename_i after
          obtain rfl := Option.some.inj h
          have := (List.dropWhile_suffix (l := after) (· != '\n')).length_le
          simp only [List.length_cons]
          omega
        · rename_i after
          obtain rfl := Option.some.inj h
          have := length_blockCommentRest_le after
          simp only [List.length_cons]
          omega
        · simp at h
      · simp at h

/-- An offset at which a text has no character. -/
inductive OffsetFault where
  | outOfText
deriving DecidableEq, Repr

/-- The offset after the literal that starts at an offset, if one does. -/
def literalEnd? (src : List Char) (pos : Nat) : Option Nat :=
  (literalRest? (src.drop pos)).map fun rest => src.length - rest.length

/-- The offset after the literal that starts at an offset of the text, if one does. -/
def skipLiteral (src : List Char) (pos : Nat) : Except OffsetFault (Option Nat) :=
  if pos < src.length then .ok (literalEnd? src pos) else .error .outOfText

end Mdx.Script
