import Mdx.Markdown.Entity
import Mdx.Markdown.Punycode
import Mdx.Text.Basic
import Mdx.Text.Case

/-!
# Link addresses

An address is taken apart into its parts as a browser does, its host name is written in ASCII, and
all characters that do not belong into an address are percent-encoded. For the text of a link the
opposite is done, so that it can be read.
-/

namespace Mdx.Markdown.Url

/-- The parts of an address. -/
structure Parts where
  protocol : List Char := []
  slashes : Bool := false
  auth : List Char := []
  host : List Char := []
  service : List Char := []
  rest : List Char := []

/-- A character of a protocol's name. The four letters beyond ASCII are those that differ from `i`,
`k` and `s` in letter case only. -/
def isProtocolChar (c : Char) : Bool :=
  c.isAlphanum || c == '.' || c == '+' || c == '-' || [0x130, 0x131, 0x17f, 0x212a].contains c.toNat

/-- The protocol at the start of an address, with its colon, and the text after it. -/
def splitProtocol (s : List Char) : List Char × List Char :=
  let name := s.takeWhile isProtocolChar
  match s.drop name.length with
  | ':' :: rest => if name.isEmpty then ([], s) else (name ++ [':'], rest)
  | _ => ([], s)

/-- Protocols whose addresses have two slashes before the host. -/
def isSlashed (protocol : List Char) : Bool :=
  ["http:", "https:", "ftp:", "gopher:", "file:"].any (·.toList == protocol)

/-- The protocol whose addresses have no host. -/
def isHostless (protocol : List Char) : Bool :=
  protocol == "javascript:".toList

/-- Characters that end the part of an address that may name a user. -/
def endsAuth (c : Char) : Bool :=
  c == '/' || c == '?' || c == '#'

/-- Characters that no host name has. -/
def endsHost (c : Char) : Bool :=
  endsAuth c || c == '%' || c == ';' || c == '\x27' || c == '\x7b' || c == '\x7d' || c == '|' ||
    c == '\\' || c == '^' || c == '\x60' || c == '<' || c == '>' || c == '\x22' || c == ' ' ||
    c == '\r' || c == '\n' || c == '\t'

/-- The name of a user before the last at sign in front of the path, and the text after the sign. -/
def splitAuth (s : List Char) : List Char × List Char :=
  let front := s.takeWhile (!endsAuth ·)
  let tail := front.reverse.takeWhile (· != '@')
  if tail.length = front.length then ([], s)
  else
    let count := front.length - tail.length - 1
    (s.take count, s.drop (count + 1))

/-- The host, with its service number, and the text after it. A colon at the end is not part of it. -/
def splitHost (s : List Char) : List Char × List Char :=
  let host := s.takeWhile (!endsHost ·)
  let host := if host.getLast? = some ':' then host.dropLast else host
  (host, s.drop host.length)

/-- A host name and its service number. -/
def splitPort (host : List Char) : List Char × List Char :=
  let digits := (host.reverse.takeWhile Char.isDigit).reverse
  match (host.take (host.length - digits.length)).getLast? with
  | some ':' => (host.take (host.length - digits.length - 1), digits)
  | _ => (host, [])

/-- A character of a label of a host name. -/
def isLabelChar (c : Char) : Bool :=
  c.isAlphanum || c == '+' || c == '_' || c == '-'

/-- Whether a label of a host name is well formed; any character beyond ASCII will do. -/
def isLabel (label : List Char) : Bool :=
  label.length ≤ 63 && label.all fun c => isLabelChar c || 128 ≤ c.toNat

/-- The labels up to the first one that is malformed, the valid start of that one, and the text that
does not belong to the host name after all. -/
def validLabels (before : List (List Char)) : List (List Char) → List (List Char) × Option (List Char)
  | [] => (before.reverse, none)
  | label :: rest =>
      if isLabel label then validLabels (label :: before) rest
      else
        let start := (label.takeWhile isLabelChar).take 63
        let other := ['.'].intercalate (label.drop start.length :: rest)
        ((start :: before).reverse, some other)

/-- A host name that is an address in brackets. -/
def isBracketed (host : List Char) : Bool :=
  host.head? = some '[' && host.getLast? = some ']'

/-- The host name as far as it is well formed, and the text before the path that is not. -/
def checkHost (host : List Char) : List Char × List Char :=
  if isBracketed host then
    let inner := (host.drop 1).dropLast
    (if 255 < host.length then [] else inner, [])
  else
    match validLabels [] (splitAt '.' [] host) with
    | (labels, other) =>
        let name := ['.'].intercalate labels
        (if 255 < name.length then [] else name, other.getD [])

/-- The parts of an address. -/
def parse (url : List Char) : Parts :=
  match splitProtocol (Text.trim url) with
  | (protocol, s) =>
      let slashes := "//".toList.isPrefixOf s
      let cut := slashes && !isHostless protocol
      let s := if cut then s.drop 2 else s
      if !isHostless protocol && (slashes || (!protocol.isEmpty && !isSlashed protocol)) then
        match splitAuth s with
        | (auth, s) =>
            match splitHost s with
            | (host, s) =>
                match splitPort host with
                | (host, service) =>
                    match checkHost host with
                    | (host, other) =>
                        { protocol := protocol, slashes := cut, auth := auth, host := host
                          service := service, rest := other ++ s }
      else { protocol := protocol, slashes := cut, rest := s }

/-- The address with these parts, each of them written in a certain way. A host name with a colon in
it stands in brackets, which are written as they are. -/
def format (write : List Char → List Char) (p : Parts) : List Char :=
  write (p.protocol ++ (if p.slashes then ['/', '/'] else []) ++
      (if p.auth.isEmpty then [] else p.auth ++ ['@'])) ++
    (if p.host.contains ':' then '[' :: write p.host ++ [']'] else write p.host) ++
    write ((if p.service.isEmpty then [] else ':' :: p.service) ++ p.rest)

/-- Whether the host name of an address is written in ASCII. -/
def recodesHost (protocol : List Char) : Bool :=
  protocol.isEmpty || ["http:", "https:", "mailto:"].any (·.toList == protocol)

/-- A character that divides the labels of a host name. -/
def isDot (c : Char) : Bool :=
  c == '.' || c.toNat == 0x3002 || c.toNat == 0xff0e || c.toNat == 0xff61

/-- The labels of a host name. -/
def labels (before : List Char) : List Char → List (List Char)
  | [] => [before.reverse]
  | c :: rest => if isDot c then before.reverse :: labels [] rest else labels (c :: before) rest

/-- The host name with each label in ASCII. -/
def asciiHost (host : List Char) : List Char :=
  ['.'].intercalate ((labels [] host).map fun label =>
    if label.any (0x7f ≤ ·.toNat) then "xn--".toList ++ Punycode.encode label else label)

/-- The host name with each label in its own script; none if one is malformed. -/
def scriptHost? (host : List Char) : Option (List Char) :=
  ((labels [] host).mapM fun label =>
    if "xn--".toList.isPrefixOf label then Punycode.decode? (Text.lower (label.drop 4))
    else some label).map ['.'].intercalate

/-- The two hexadecimal digits of a byte after a percent sign. -/
def percent (byte : Nat) : List Char :=
  let digit (n : Nat) : Char :=
    if n < 10 then Char.ofNat ('0'.toNat + n) else Char.ofNat ('A'.toNat + (n - 10))
  ['%', digit (byte / 16), digit (byte % 16)]

/-- The bytes of a character in UTF-8. -/
def utf8 (c : Char) : List Nat :=
  let n := c.toNat
  if n < 0x80 then [n]
  else if n < 0x800 then [0xc0 + n / 0x40, 0x80 + n % 0x40]
  else if n < 0x10000 then [0xe0 + n / 0x1000, 0x80 + n / 0x40 % 0x40, 0x80 + n % 0x40]
  else
    [0xf0 + n / 0x40000, 0x80 + n / 0x1000 % 0x40, 0x80 + n / 0x40 % 0x40, 0x80 + n % 0x40]

/-- Characters that stand for themselves in an address. -/
def isPlain (c : Char) : Bool :=
  c.isAlphanum || ";/?:@&=+$,-_.!~*'()#".toList.contains c

/-- A text with all characters that do not belong into an address percent-encoded. -/
def encode : List Char → List Char
  | '%' :: a :: b :: rest =>
      if (Text.hexValue? a).isSome && (Text.hexValue? b).isSome then '%' :: a :: b :: encode rest
      else percent 0x25 ++ encode (a :: b :: rest)
  | c :: rest => (if isPlain c then [c] else (utf8 c).flatMap percent) ++ encode rest
  | [] => []

/-- The bytes that a row of percent signs with two digits each stands for. -/
def percentBytes : List Char → List Nat
  | '%' :: a :: b :: rest =>
      match Text.hexValue? a, Text.hexValue? b with
      | some h, some l => (h * 16 + l) :: percentBytes rest
      | _, _ => []
  | _ => []

/-- Characters that stay encoded in the text of a link. -/
def staysEncoded (byte : Nat) : Bool :=
  ";/?:@&=+$,#%".toList.contains (Char.ofNat byte)

/-- A byte that goes on a character. -/
def isTrail (byte : Nat) : Bool :=
  0x80 ≤ byte && byte < 0xc0

/-- The character with a number, if it is one that takes this many bytes; otherwise as many
replacement characters. -/
def decodedPoint (count low n : Nat) : List Char :=
  if low ≤ n && n ≤ 0x10ffff && !(0xd800 ≤ n && n ≤ 0xdfff) then [Char.ofNat n]
  else List.replicate count (Char.ofNat 0xfffd)

/-- The characters that bytes stand for. -/
def decodeBytes (bytes : List Nat) : List Char :=
  match bytes with
  | [] => []
  | a :: rest =>
      if a < 0x80 then
        (if staysEncoded a then percent a else [Char.ofNat a]) ++ decodeBytes rest
      else
        match rest with
        | b :: c :: d :: more =>
            if 0xc0 ≤ a && a < 0xe0 && isTrail b then
              decodedPoint 2 0x80 (a % 0x20 * 0x40 + b % 0x40) ++ decodeBytes (c :: d :: more)
            else if 0xe0 ≤ a && a < 0xf0 && isTrail b && isTrail c then
              decodedPoint 3 0x800 (a % 0x10 * 0x1000 + b % 0x40 * 0x40 + c % 0x40) ++
                decodeBytes (d :: more)
            else if 0xf0 ≤ a && a < 0xf8 && isTrail b && isTrail c && isTrail d then
              decodedPoint 4 0x10000
                (a % 8 * 0x40000 + b % 0x40 * 0x1000 + c % 0x40 * 0x40 + d % 0x40) ++
                decodeBytes more
            else Char.ofNat 0xfffd :: decodeBytes (b :: c :: d :: more)
        | [b, c] =>
            if 0xc0 ≤ a && a < 0xe0 && isTrail b then
              decodedPoint 2 0x80 (a % 0x20 * 0x40 + b % 0x40) ++ decodeBytes [c]
            else if 0xe0 ≤ a && a < 0xf0 && isTrail b && isTrail c then
              decodedPoint 3 0x800 (a % 0x10 * 0x1000 + b % 0x40 * 0x40 + c % 0x40)
            else Char.ofNat 0xfffd :: decodeBytes [b, c]
        | [b] =>
            if 0xc0 ≤ a && a < 0xe0 && isTrail b then
              decodedPoint 2 0x80 (a % 0x20 * 0x40 + b % 0x40)
            else Char.ofNat 0xfffd :: decodeBytes [b]
        | [] => [Char.ofNat 0xfffd]

/-- A text with percent-encoded characters decoded, where that is safe; `skip` characters at its start
have been used up. -/
def decodeFrom : (skip : Nat) → List Char → List Char
  | _, [] => []
  | skip + 1, _ :: rest => decodeFrom skip rest
  | 0, c :: rest =>
      match percentBytes (c :: rest) with
      | [] => c :: decodeFrom 0 rest
      | bytes => decodeBytes bytes ++ decodeFrom (3 * bytes.length - 1) rest

/-- The address of a link as it is written out. -/
def normalize (url : List Char) : List Char :=
  let p := parse url
  format encode (if recodesHost p.protocol then { p with host := asciiHost p.host } else p)

/-- The text of a link that shows its address. -/
def display (url : List Char) : List Char :=
  let p := parse url
  let p := if recodesHost p.protocol then { p with host := (scriptHost? p.host).getD p.host } else p
  decodeFrom 0 (format id p)

/-- Whether an address may be linked to: scripts, files and data other than images may not. -/
def isSafe (url : List Char) : Bool :=
  let url := Text.lower (Text.trim url)
  let startsWith (start : String) : Bool := start.toList.isPrefixOf url
  if ["vbscript:", "javascript:", "file:", "data:"].any startsWith then
    ["data:image/gif;", "data:image/png;", "data:image/jpeg;", "data:image/webp;"].any startsWith
  else true

end Mdx.Markdown.Url
