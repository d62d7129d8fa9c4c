import Mdx.Markdown.Url
import Mdx.Text.Basic

/-!
# Angle brackets in running text

Between angle brackets there may be the address of a link, an address of electronic mail, or a single
tag, instruction, declaration or section of character data that is left as it is.
-/

namespace Mdx.Markdown

/-- A character of the name of a tag. -/
def isTagChar (c : Char) : Bool :=
  c.isAlphanum || c == '-'

/-- A character that the name of an attribute starts with. -/
def isAttrStart (c : Char) : Bool :=
  c.isAlpha || c == '_' || c == ':'

/-- A character of the name of an attribute. -/
def isAttrChar (c : Char) : Bool :=
  c.isAlphanum || c == ':' || c == '.' || c == '_' || c == '-'

/-- A character of an attribute's value without quotes. -/
def isBareChar (c : Char) : Bool :=
  !(c == '\x22' || c == '\x27' || c == '=' || c == '<' || c == '>' || c == '\x60' ||
    c.toNat ≤ 0x20)

/-- The text after the first place where `needle` stands. -/
def after? (needle : List Char) : List Char → Option (List Char)
  | [] => none
  | c :: rest =>
      if needle.isPrefixOf (c :: rest) then some ((c :: rest).drop needle.length)
      else after? needle rest

/-- The texts that may follow a value without quotes. It takes as many characters as it can; fewer
will do, since some blank characters may be part of it as well as end it. -/
def bareRests (s : List Char) : List (List Char) :=
  (List.range (s.takeWhile isBareChar).length).reverse.map fun i => s.drop (i + 1)

/-- The texts that may follow a value. -/
def valueRests (s : List Char) : List (List Char) :=
  match s with
  | [] => []
  | c :: rest => if c == '\x22' || c == '\x27' then (after? [c] rest).toList else bareRests s

/-- The texts that may follow a value with blanks in front, which may belong to the value. -/
def spacedValueRests (s : List Char) : List (List Char) :=
  (List.range ((s.takeWhile Text.isBlank).length + 1)).reverse.flatMap fun i => valueRests (s.drop i)

/-- The texts that may follow an attribute's equals sign and value, or all of it if there is no such
sign. -/
def attrRests (s : List Char) : List (List Char) :=
  match s.dropWhile Text.isBlank with
  | '=' :: rest => spacedValueRests rest
  | _ => [s]

/-- The text after the attributes and the end of an opening tag: the first way of reading them that
comes to an end. -/
def openTagRest? : (room : Nat) → List Char → Option (List Char)
  | 0, _ => none
  | room + 1, s =>
      match s.dropWhile Text.isBlank with
      | '>' :: rest => some rest
      | '/' :: '>' :: rest => some rest
      | c :: rest =>
          if isAttrStart c && rest.length + 1 < s.length then
            (attrRests (rest.dropWhile isAttrChar)).findSome? (openTagRest? room)
          else none
      | [] => none

/-- The text after the end of a closing tag whose slash has been read. -/
def closeTagRest? (s : List Char) : Option (List Char) :=
  match s with
  | [] => none
  | c :: rest =>
      if c.isAlpha then
        match (rest.dropWhile isTagChar).dropWhile Text.isBlank with
        | '>' :: rest => some rest
        | _ => none
      else none

/-- The text after the tag, instruction, declaration or section that starts here. -/
def rawInlineRest? (s : List Char) : Option (List Char) :=
  match s with
  | '<' :: '/' :: rest => closeTagRest? rest
  | '<' :: '?' :: rest => after? ['?', '>'] rest
  | '<' :: '!' :: c :: rest =>
      if c.isAlpha then after? ['>'] rest
      else if "[CDATA[".toList.isPrefixOf (c :: rest) then after? [']', ']', '>'] (rest.drop 6)
      else none
  | '<' :: c :: rest =>
      if c.isAlpha then openTagRest? (rest.length + 1) (rest.dropWhile isTagChar) else none
  | _ => none

/-- Whether a text is an address with a scheme, of two to thirty-two characters. -/
def isAutolink (s : List Char) : Bool :=
  match s with
  | [] => false
  | c :: tail =>
      let scheme := tail.takeWhile fun d => d.isAlphanum || d == '+' || d == '.' || d == '-'
      match tail.drop scheme.length with
      | ':' :: rest =>
          c.isAlpha && 1 ≤ scheme.length && scheme.length ≤ 31 &&
            rest.all fun d => !(d == '<' || d == '>' || d.toNat ≤ 0x20)
      | _ => false

/-- Whether a text is a label of a mail address's domain. -/
def isMailLabel (s : List Char) : Bool :=
  s.length ≤ 63 && s.head?.any Char.isAlphanum && s.getLast?.any Char.isAlphanum &&
    s.all fun c => c.isAlphanum || c == '-'

/-- Whether a text is a mail address. -/
def isMailAddress (s : List Char) : Bool :=
  let name := s.takeWhile (· != '@')
  match s.drop name.length with
  | _ :: domain =>
      !name.isEmpty &&
        name.all (fun c => c.isAlphanum || ".!#$%&'*+/=?^_\x60\x7b|\x7d~-".toList.contains c) &&
        (splitAt '.' [] domain).all isMailLabel
  | [] => false

/-- A text without one line feed at its end. -/
def withoutBreak (s : List Char) : List Char :=
  if s.getLast? = some '\n' then s.dropLast else s

/-- The text between an opening angle bracket that has been read and the closing one, if no other
opening bracket comes before. -/
def angled? (before : List Char) : List Char → Option (List Char)
  | [] => none
  | c :: rest =>
      if c == '<' then none else if c == '>' then some before.reverse else angled? (c :: before) rest

/-- The address of the link that the text between angle brackets stands for. -/
def autolinkAddress? (url : List Char) : Option (List Char) :=
  let whole := withoutBreak url
  let address :=
    if isAutolink whole then some (Url.normalize url)
    else if isMailAddress whole then some (Url.normalize ("mailto:".toList ++ url))
    else none
  match address with
  | some href => if Url.isSafe href then some href else none
  | none => none

end Mdx.Markdown
