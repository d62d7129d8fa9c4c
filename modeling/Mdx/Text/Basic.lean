/-!
# Classes of characters

A class of characters that a standard lays down is a list of ranges in increasing order.

The blank characters are the tab, the line and page separators, the spaces of all widths and the
four information separators; neither the zero-width space nor the byte order mark is blank. The
space characters are the blank ones apart from the information separators. Trimming takes blank
characters off the ends of a text.

Each script's decimal digits stand in a row of ten code points, from the digit zero up, so a list
of the zeros gives both the class and the value of a digit.
-/

namespace Mdx.Text

/-! ### Ranges of code points -/

/-- Whether the code point `n` is in one of the ranges, which are in increasing order. -/
def inSortedRanges (n : Nat) : List (Nat × Nat) → Bool
  | [] => false
  | (lo, hi) :: rest => if n < lo then false else if n ≤ hi then true else inSortedRanges n rest

/-- Whether the character is in one of the ranges, which are in increasing order. -/
def inRanges (table : List (Nat × Nat)) (c : Char) : Bool :=
  inSortedRanges c.toNat table

/-! ### Blank characters -/

/-- A blank character. -/
def isBlank (c : Char) : Bool :=
  let n := c.toNat
  (0x09 ≤ n && n ≤ 0x0d) || (0x1c ≤ n && n ≤ 0x20) || n == 0x85 || n == 0xa0 || n == 0x1680 ||
    (0x2000 ≤ n && n ≤ 0x200a) || n == 0x2028 || n == 0x2029 || n == 0x202f || n == 0x205f ||
    n == 0x3000

/-- A blank character that is no information separator. -/
def isSpace (c : Char) : Bool :=
  isBlank c && !(0x1c ≤ c.toNat && c.toNat ≤ 0x1f)

/-- A space or a tab, the only characters that indent a line. -/
def isIndent (c : Char) : Bool :=
  c == ' ' || c == '\t'

/-- The text without the characters of a class at its end. -/
def dropEndWhile (p : Char → Bool) (s : List Char) : List Char :=
  (s.reverse.dropWhile p).reverse

/-- The text without blank characters at its start. -/
def trimStart (s : List Char) : List Char :=
  s.dropWhile isBlank

/-- The text without blank characters at its end. -/
def trimEnd (s : List Char) : List Char :=
  dropEndWhile isBlank s

/-- The text without blank characters at its ends. -/
def trim (s : List Char) : List Char :=
  trimEnd (trimStart s)

/-- The text without space characters at its ends. -/
def trimSpace (s : List Char) : List Char :=
  dropEndWhile isSpace (s.dropWhile isSpace)

/-- Whether a text has blank characters only. -/
def isBlankText (s : List Char) : Bool :=
  s.all isBlank

/-! ### Digits -/

/-- The digits zero above U+007F. -/
def digitZeros : List Nat :=
  [0x660, 0x6f0, 0x7c0, 0x966, 0x9e6, 0xa66, 0xae6, 0xb66, 0xbe6, 0xc66, 0xce6, 0xd66, 0xde6,
   0xe50, 0xed0, 0xf20, 0x1040, 0x1090, 0x17e0, 0x1810, 0x1946, 0x19d0, 0x1a80, 0x1a90, 0x1b50,
   0x1bb0, 0x1c40, 0x1c50, 0xa620, 0xa8d0, 0xa900, 0xa9d0, 0xa9f0, 0xaa50, 0xabf0, 0xff10,
   0x104a0, 0x10d30, 0x11066, 0x110f0, 0x11136, 0x111d0, 0x112f0, 0x11450, 0x114d0, 0x11650,
   0x116c0, 0x11730, 0x118e0, 0x11950, 0x11c50, 0x11d50, 0x11da0, 0x16a60, 0x16ac0, 0x16b50,
   0x1d7ce, 0x1d7d8, 0x1d7e2, 0x1d7ec, 0x1d7f6, 0x1e140, 0x1e2f0, 0x1e950, 0x1fbf0]

/-- The value of a decimal digit of any script. -/
def digitValue? (c : Char) : Option Nat :=
  let n := c.toNat
  if n < 128 then
    if 0x30 ≤ n && n ≤ 0x39 then some (n - 0x30) else none
  else (digitZeros.find? fun z => z ≤ n && n < z + 10).map (n - ·)

/-- The value of a hexadecimal digit. -/
def hexValue? (c : Char) : Option Nat :=
  let n := c.toNat
  if 0x30 ≤ n && n ≤ 0x39 then some (n - 0x30)
  else if 0x61 ≤ n && n ≤ 0x66 then some (n - 0x57)
  else if 0x41 ≤ n && n ≤ 0x46 then some (n - 0x37)
  else none

end Mdx.Text
