import Mdx.Markdown.Block.Table

/-!
# What ends a block

A block that would go on to the next line ends if another block starts there. Which blocks may do so
depends on the block that they end.
-/

namespace Mdx.Markdown

/-- Whether a line ends the items of a list before it. -/
def interruptsItem (scope : Scope) (l : Line) : Bool :=
  match startText? scope l with
  | none => false
  | some s => (fenceOpening? s).isSome || startsQuote s || isThematicBreak s

/-- Whether a block other than a list starts on a line and ends a quotation or a paragraph. -/
def interruptsText (scope : Scope) (l : Line) : Bool :=
  match startText? scope l with
  | none => false
  | some s =>
      (fenceOpening? s).isSome || startsQuote s || isThematicBreak s || Element.startsHere s ||
        (rawTextEnd? s).isSome || (heading? s).isSome

/-- Whether a line ends the quotation, or the table, before it. -/
def interruptsQuote (scope : Scope) (l : Line) : Bool :=
  interruptsText scope l || (listMark? scope l).isSome

/-- Whether a line ends the paragraph before it. -/
def interruptsParagraph (lines : Array Line) (scope : Scope) (i stop : Nat) : Bool :=
  interruptsText scope (lineAt lines i) || interruptsWithList scope (lineAt lines i) ||
    (tableStart? lines scope i stop).isSome

/-- Whether a line ends the link definition before it. -/
def interruptsDefinition (lines : Array Line) (scope : Scope) (i stop : Nat) : Bool :=
  interruptsQuote scope (lineAt lines i) || (tableStart? lines scope i stop).isSome

/-- The number of the line at which a paragraph ends that goes on at least to the line `next`. -/
def paragraphEnd (lines : Array Line) (scope : Scope) : (room next : Nat) → Nat
  | 0, next => next
  | room + 1, next =>
      let l := lineAt lines next
      if scope.last ≤ next || l.isEmpty then next
      else if isCodeLine scope l || l.indent < 0 then paragraphEnd lines scope room (next + 1)
      else if interruptsParagraph lines scope next scope.last then next
      else paragraphEnd lines scope room (next + 1)

/-- The number of the line that underlines a heading which goes on at least to the line `next`, and
the depth of the heading. -/
def underlineFrom? (lines : Array Line) (scope : Scope) (stop : Nat) :
    (room next : Nat) → Option (Nat × Nat)
  | 0, _ => none
  | room + 1, next =>
      let l := lineAt lines next
      if stop ≤ next || l.isEmpty then none
      else if isCodeLine scope l then underlineFrom? lines scope stop room (next + 1)
      else
        match (if isOutdented scope l then none else underlineDepth? l.content) with
        | some depth => some (next, depth)
        | none =>
            if l.indent < 0 then underlineFrom? lines scope stop room (next + 1)
            else if interruptsParagraph lines scope next stop then none
            else underlineFrom? lines scope stop room (next + 1)

end Mdx.Markdown
