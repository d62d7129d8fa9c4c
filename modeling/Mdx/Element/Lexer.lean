import Mdx.Element.Token
import Mdx.Script.Group
import Mdx.Text.Basic
import Mdx.Text.Word

/-!
# Cutting embedded markup into tokens

An angle bracket starts a tag only if a name, a slash, a closing angle bracket or the mark of a
comment follows; otherwise it is text, as in `a < b`. Expressions in braces are passed over as whole
groups, in text and in attributes. Attributes are checked for their shape and not looked into.

The tokens before a fault are kept, but for the text right before it.
-/

namespace Mdx.Element

open Mdx.Script (groupRest? length_lt_of_groupRest?)

/-- A character that a tag's name starts with. -/
def isNameStart (c : Char) : Bool :=
  c.isAlpha || c == '_' || c == '$'

/-- A character that a tag's name goes on with. -/
def isNameRest (c : Char) : Bool :=
  Text.isWord c || c == '$' || c == '.' || c == ':' || c == '-'

/-- A character of an attribute's name. -/
def isAttributeChar (c : Char) : Bool :=
  !(Text.isBlank c || c == '=' || c == '/' || c == '>' || c == '\x7b' || c == '\x7d' ||
    c == '\x22' || c == '\x27' || c == '<')

/-- A character of an attribute's value that has no quotes. -/
def isUnquotedChar (c : Char) : Bool :=
  !(Text.isBlank c || c == '\x22' || c == '\x27' || c == '=' || c == '<' || c == '>' ||
    c == '\x60')

/-- The cause of a fault, with the text from where it lies. -/
abbrev Fault := LexicalCause × List Char

/-- The text after an attribute's value. The slash of `/>` is no part of a value without quotes. -/
def valueRest (name : String) (s : List Char) : Except Fault (List Char) :=
  match s with
  | [] => .error (.missingValue name, s)
  | c :: rest =>
      if c == '\x22' || c == '\x27' then
        match rest.dropWhile (· != c) with
        | [] => .error (.unterminatedValue name, s)
        | _ :: after => .ok after
      else if c == '\x7b' then
        match groupRest? s with
        | some after => .ok after
        | none => .error (.unbalancedExpression name, s)
      else
        let value := s.takeWhile isUnquotedChar
        let after := s.dropWhile isUnquotedChar
        match value.getLast?, after with
        | none, _ => .error (.invalidValue name, s)
        | some '/', '>' :: _ => .ok ('/' :: after)
        | some _, _ => .ok after

theorem length_valueRest_le {name : String} {s r : List Char} (h : valueRest name s = .ok r) :
    r.length ≤ s.length := by
  unfold valueRest at h
  split at h
  · simp at h
  · rename_i c rest
    split at h
    · split at h
      · simp at h
      · rename_i after heq
        obtain rfl := Except.ok.inj h
        have := (List.dropWhile_suffix (l := rest) (· != c)).length_le
        rw [heq] at this
        simp only [List.length_cons] at this ⊢
        omega
    · split at h
      · split at h
        · rename_i heq
          obtain rfl := Except.ok.inj h
          exact Nat.le_of_lt (length_lt_of_groupRest? heq)
        · simp at h
      · have hsum := congrArg List.length
          (List.takeWhile_append_dropWhile (p := isUnquotedChar) (l := c :: rest))
        rw [List.length_append] at hsum
        dsimp only at h
        split at h
        · simp at h
        · rename_i hlast _
          obtain rfl := Except.ok.inj h
          have : (List.takeWhile isUnquotedChar (c :: rest)) ≠ [] := by
            intro hnil
            rw [hnil] at hlast
            simp at hlast
          have := List.length_pos_iff.2 this
          simp only [List.length_cons] at hsum ⊢
          omega
        · obtain rfl := Except.ok.inj h
          omega

theorem length_lt_of_dropWhile_eq_cons {p : Char → Bool} {s rest : List Char} {c : Char}
    (h : s.dropWhile p = c :: rest) : rest.length < s.length := by
  have := (List.dropWhile_suffix (l := s) p).length_le
  rw [h, List.length_cons] at this
  omega

theorem length_lt_of_spread {c : Char} {s rest after : List Char} (hle : rest.length + 1 ≤ s.length)
    (hg : groupRest? (c :: rest) = some after) : after.length < s.length := by
  have := length_lt_of_groupRest? hg
  rw [List.length_cons] at this
  omega

theorem length_lt_of_attributeName {s rest next : List Char} (hle : rest.length + 1 ≤ s.length)
    (ha : (rest.dropWhile isAttributeChar).dropWhile Text.isBlank = next) :
    next.length < s.length := by
  have h₁ := (List.dropWhile_suffix (l := rest.dropWhile isAttributeChar) Text.isBlank).length_le
  have h₂ := (List.dropWhile_suffix (l := rest) isAttributeChar).length_le
  rw [ha] at h₁
  omega

theorem length_lt_of_attributeValue {name : String} {s rest after next : List Char}
    (hle : rest.length + 1 ≤ s.length)
    (ha : (rest.dropWhile isAttributeChar).dropWhile Text.isBlank = '=' :: after)
    (hv : valueRest name (after.dropWhile Text.isBlank) = .ok next) : next.length < s.length := by
  have h₁ := length_valueRest_le hv
  have h₂ := (List.dropWhile_suffix (l := after) Text.isBlank).length_le
  have h₃ := length_lt_of_attributeName hle ha
  rw [List.length_cons] at h₃
  omega

/-- The end of a tag: whether it closes itself, and the text after it. `start` is the text from the
tag's angle bracket on. -/
def tagRest (name : String) (start : List Char) (s : List Char) :
    Except Fault (Bool × List Char) :=
  match hs : s.dropWhile Text.isBlank with
  | [] => .error (.unterminatedTag name, start)
  | c :: rest =>
      have hle : rest.length + 1 ≤ s.length := length_lt_of_dropWhile_eq_cons hs
      if c == '/' && rest.head? == some '>' then .ok (true, rest.tail)
      else if c == '>' then .ok (false, rest)
      else if c == '\x7b' then
        match hg : groupRest? (c :: rest) with
        | some after =>
            have : after.length < s.length := length_lt_of_spread hle hg
            tagRest name start after
        | none => .error (.unbalancedExpression name, c :: rest)
      else if isAttributeChar c then
        match ha : (rest.dropWhile isAttributeChar).dropWhile Text.isBlank with
        | '=' :: after =>
            match hv : valueRest name (after.dropWhile Text.isBlank) with
            | .error fault => .error fault
            | .ok next =>
                have : next.length < s.length := length_lt_of_attributeValue hle ha hv
                tagRest name start next
        | next =>
            have : next.length < s.length := length_lt_of_attributeName hle ha
            tagRest name start next
      else .error (.unexpectedCharacter c name, c :: rest)
termination_by s.length

/-- A token that starts here, without offsets, and the text after it. -/
structure Lexeme where
  kind : TokenKind
  name : String
  rest : List Char

/-- The text after the end mark of a comment. -/
def commentRest? : List Char → Option (List Char)
  | [] => none
  | c :: rest =>
      if c == '-' then
        match rest with
        | '-' :: '>' :: after => some after
        | _ => commentRest? rest
      else commentRest? rest

/-- The closing tag whose slash has been read: a name and blanks, and the closing bracket. -/
def closingTag? (s : List Char) : Option (String × List Char) :=
  let s := s.dropWhile Text.isBlank
  let name :=
    match s with
    | c :: _ => if isNameStart c then s.takeWhile isNameRest else []
    | [] => []
  match (s.drop name.length).dropWhile Text.isBlank with
  | '>' :: rest => some (String.ofList name, rest)
  | _ => none

/-- The tag or comment whose opening bracket has been read; none if the bracket is text. -/
def lexemeAfter (rest : List Char) : Except Fault (Option Lexeme) :=
  match rest with
  | '!' :: '-' :: '-' :: body =>
      match commentRest? body with
      | some after => .ok (some ⟨.comment, "", after⟩)
      | none => .error (.unterminatedComment, '<' :: rest)
  | '/' :: body =>
      match closingTag? body with
      | some (name, after) => .ok (some ⟨.closeTag, name, after⟩)
      | none =>
          match body with
          | c :: _ =>
              if isNameStart c then .error (.malformedClosingTag, '<' :: rest) else .ok none
          | [] => .ok none
  | '>' :: after => .ok (some ⟨.openTag, "", after⟩)
  | c :: tail =>
      if isNameStart c then
        let name := String.ofList (c :: tail.takeWhile isNameRest)
        match tagRest name ('<' :: rest) (tail.dropWhile isNameRest) with
        | .error fault => .error fault
        | .ok (true, after) => .ok (some ⟨.selfClosing, name, after⟩)
        | .ok (false, after) => .ok (some ⟨.openTag, name, after⟩)
      else .ok none
  | [] => .ok none

theorem length_le_of_tagRest {name : String} {start s r : List Char} {b : Bool}
    (h : tagRest name start s = .ok (b, r)) : r.length ≤ s.length := by
  fun_induction tagRest name start s <;> grind

theorem length_le_of_commentRest? {s r : List Char} (h : commentRest? s = some r) :
    r.length ≤ s.length := by
  fun_induction commentRest? s <;> simp_all <;> omega

theorem length_le_of_closingTag? {s r : List Char} {name : String}
    (h : closingTag? s = some (name, r)) : r.length ≤ s.length := by
  unfold closingTag? at h
  dsimp only at h
  split at h
  · rename_i rest heq
    obtain ⟨_, rfl⟩ := Prod.mk.inj (Option.some.inj h)
    have h₁ := (List.dropWhile_suffix (l := s) Text.isBlank).length_le
    have h₂ := congrArg List.length heq
    have h₃ (t : List Char) := (List.dropWhile_suffix (l := t) Text.isBlank).length_le
    grind
  · simp at h

/-- The text after a token is no longer than the text after its opening bracket. -/
theorem length_le_of_lexemeAfter {rest : List Char} {l : Lexeme}
    (h : lexemeAfter rest = .ok (some l)) : l.rest.length ≤ rest.length := by
  unfold lexemeAfter at h
  split at h
  · split at h
    · rename_i heq
      have := length_le_of_commentRest? heq
      grind
    · simp at h
  · split at h
    · rename_i heq
      have := length_le_of_closingTag? heq
      grind
    · split at h
      · split at h <;> simp at h
      · simp at h
  · grind
  · split at h
    · dsimp only at h
      split at h
      · simp at h
      · rename_i heq
        have := length_le_of_tagRest heq
        have (t : List Char) := (List.dropWhile_suffix (l := t) isNameRest).length_le
        grind
      · rename_i heq
        have := length_le_of_tagRest heq
        have (t : List Char) := (List.dropWhile_suffix (l := t) isNameRest).length_le
        grind
    · simp at h
  · simp at h

/-- The text token between two offsets, if it has any characters. -/
def textToken (start stop : Nat) : List Token :=
  if start < stop then [⟨.text, "", start, stop⟩] else []

/-- The tokens of the end `s` of a text of `total` characters, and the fault that ends them, if there
is one. The text token that comes first starts at `textStart`. -/
def tokensFrom (total textStart : Nat) (s : List Char) : List Token × Option LexicalFault :=
  match s with
  | [] => (textToken textStart total, none)
  | c :: rest =>
      if c == '<' then
        match h : lexemeAfter rest with
        | .error (cause, place) => ([], some ⟨cause, total - place.length⟩)
        | .ok (some l) =>
            have := length_le_of_lexemeAfter h
            let start := total - (rest.length + 1)
            let stop := total - l.rest.length
            match tokensFrom total stop l.rest with
            | (tokens, fault) =>
                (textToken textStart start ++ ⟨l.kind, l.name, start, stop⟩ :: tokens, fault)
        | .ok none => tokensFrom total textStart rest
      else if c == '\x7b' then
        match h : groupRest? (c :: rest) with
        | some after =>
            have := length_lt_of_groupRest? h
            tokensFrom total textStart after
        | none => tokensFrom total textStart rest
      else tokensFrom total textStart rest
termination_by s.length
decreasing_by all_goals simp_all; try omega

/-- The tokens of a text, and the fault that ends them, if there is one. -/
def tokens (s : List Char) : List Token × Option LexicalFault :=
  tokensFrom s.length 0 s

end Mdx.Element
