import Mdx.Proofs.Script.Inert
import Mdx.Proofs.Source.Slice

/-!
# The grammar of groups

A group is an opening bracket, contents and the closing bracket of the same kind; contents are
literals, groups and characters that are neither brackets nor the start of a literal, one after another.
`IsGroup src i e` says so of the characters of a text from the offset `i` up to `e`.

The scan for the end of a group works with a stack of awaited brackets instead.  It finds exactly the
groups of the grammar (`groupEnd?_eq_some_iff`).

* From the grammar to the stack: the scan goes through contents with the brackets awaited as before,
  and over a group likewise (`IsContent.scanFrom_eq`, `IsGroup.scanFrom_eq`).
* From the stack to the grammar: `ClosesAll src stack i e` says that from `i` up to `e` there are contents
  and an awaited bracket in turn, until none is awaited.  A scan that ends has read just that
  (`closesAll_of_scanFrom`).
-/

namespace Mdx.Script

mutual

/-- The characters from the first offset up to the second are a group. -/
inductive IsGroup (src : List Char) : Nat → Nat → Prop
  | brackets {i j : Nat} {c closer : Char} (hopen : src[i]? = some c)
      (hcloser : closerOf? c = some closer) (hinner : IsContent src (i + 1) j)
      (hclose : src[j]? = some closer) : IsGroup src i (j + 1)

/-- The characters from the first offset up to the second are the contents of a group. -/
inductive IsContent (src : List Char) : Nat → Nat → Prop
  | nil (a : Nat) : IsContent src a a
  | literal {a b e : Nat} (hitem : skipLiteral src a = .ok (some b)) (hrest : IsContent src b e) :
      IsContent src a e
  | group {a b e : Nat} (hitem : IsGroup src a b) (hrest : IsContent src b e) : IsContent src a e
  | char {a e : Nat} {c : Char} (hc : src[a]? = some c) (hopen : closerOf? c = none)
      (hclose : isCloser c = false) (hlit : skipLiteral src a = .ok none)
      (hrest : IsContent src (a + 1) e) : IsContent src a e

end

variable {src : List Char}

/-! ### One step of the scan -/

/-- The scan for the end of a group from an offset to the end of the text. -/
def scanFrom (src stack : List Char) (i : Nat) : GroupScan :=
  scanGroup (src.length - i) stack (src.drop i)

section Steps

variable {stack : List Char} {i : Nat} {c : Char}

theorem scanFrom_end (h : src[i]? = none) : scanFrom src stack i = .unclosed := by
  rw [scanFrom, List.drop_eq_nil_of_le (List.getElem?_eq_none_iff.mp h), scanGroup_nil]

theorem scanFrom_literal {b : Nat} (h : skipLiteral src i = .ok (some b)) :
    scanFrom src stack i = scanFrom src stack b := by
  obtain ⟨hrest, hlt, hle⟩ := literalRest?_of_skipLiteral h
  have hi : i < src.length := Nat.lt_of_lt_of_le hlt hle
  have hroom : src.length - i = (src.drop (i + 1)).length + 1 := by
    rw [List.length_drop]
    omega
  rw [List.drop_eq_getElem_cons hi] at hrest
  rw [scanFrom, scanFrom, List.drop_eq_getElem_cons hi, hroom, scanGroup_literal hrest]
  -- the window has as much room left as there is text after the literal
  congr 1
  simp only [List.length_drop]
  omega

theorem scanFrom_char (hc : src[i]? = some c) (hlit : literalRest? (src.drop i) = none) :
    scanFrom src stack i =
      match closerOf? c with
      | some closer => scanFrom src (closer :: stack) (i + 1)
      | none =>
          if isCloser c then
            match stack with
            | [] => .mismatched
            | top :: below =>
                if top != c then .mismatched
                else if below.isEmpty then .closed (src.drop (i + 1))
                else scanFrom src below (i + 1)
          else scanFrom src stack (i + 1) := by
  obtain ⟨hi, -⟩ := List.getElem?_eq_some_iff.mp hc
  have hroom : src.length - i = src.length - (i + 1) + 1 := by omega
  rw [drop_of_getElem? hc] at hlit
  rw [scanFrom, drop_of_getElem? hc, hroom, scanGroup_char hlit]
  rfl

theorem scanFrom_open {closer : Char} (hc : src[i]? = some c) (hcloser : closerOf? c = some closer) :
    scanFrom src stack i = scanFrom src (closer :: stack) (i + 1) := by
  have hlit : literalRest? (src.drop i) = none := by
    rw [drop_of_getElem? hc]
    exact (bracket_facts hcloser).1 _
  rw [scanFrom_char hc hlit, hcloser]

theorem scanFrom_close {opening : Char} (hc : src[i]? = some c)
    (hcloser : closerOf? opening = some c) :
    scanFrom src (c :: stack) i =
      if stack.isEmpty then .closed (src.drop (i + 1)) else scanFrom src stack (i + 1) := by
  obtain ⟨-, hlit, hopen, hclose⟩ := bracket_facts hcloser
  have hlit' : literalRest? (src.drop i) = none := by
    rw [drop_of_getElem? hc]
    exact hlit _
  rw [scanFrom_char hc hlit', hopen, hclose]
  simp

theorem scanFrom_plain (hc : src[i]? = some c) (hopen : closerOf? c = none)
    (hclose : isCloser c = false) (hlit : literalRest? (src.drop i) = none) :
    scanFrom src stack i = scanFrom src stack (i + 1) := by
  rw [scanFrom_char hc hlit, hopen, hclose]
  rfl

end Steps

/-! ### From the grammar to the stack -/

mutual

/-- **The scan goes over a group at once**, and is at its end if it awaits nothing else. -/
theorem IsGroup.scanFrom_eq : ∀ {i e : Nat}, IsGroup src i e → ∀ stack : List Char,
    scanFrom src stack i = if stack.isEmpty then .closed (src.drop e) else scanFrom src stack e
  | _, _, .brackets hopen hcloser hinner hclose, stack => by
    rw [scanFrom_open hopen hcloser, hinner.scanFrom_eq, scanFrom_close hclose hcloser]

/-- **The scan goes through contents** with the same brackets awaited. -/
theorem IsContent.scanFrom_eq : ∀ {a e : Nat}, IsContent src a e → ∀ (top : Char) (below : List Char),
    scanFrom src (top :: below) a = scanFrom src (top :: below) e
  | _, _, .nil a, _, _ => rfl
  | _, _, .literal hitem hrest, top, below => by
    rw [scanFrom_literal hitem, hrest.scanFrom_eq]
  | _, _, .group hitem hrest, top, below => by
    rw [hitem.scanFrom_eq, List.isEmpty_cons, if_neg Bool.false_ne_true, hrest.scanFrom_eq]
  | _, _, .char hc hopen hclose hlit hrest, top, below => by
    rw [scanFrom_plain hc hopen hclose (literalRest?_of_skipLiteral_none hlit), hrest.scanFrom_eq]

end

/-! ### From the stack to the grammar -/

/-- From the first offset up to the second there are contents and an awaited bracket in turn. -/
inductive ClosesAll (src : List Char) : List Char → Nat → Nat → Prop
  | nil (e : Nat) : ClosesAll src [] e e
  | cons {closer : Char} {below : List Char} {a j e : Nat} (hinner : IsContent src a j)
      (hclose : src[j]? = some closer) (hrest : ClosesAll src below (j + 1) e) :
      ClosesAll src (closer :: below) a e

theorem ClosesAll.extend {top : Char} {below : List Char} {a b e : Nat}
    (h : ClosesAll src (top :: below) b e)
    (hitem : ∀ j : Nat, IsContent src b j → IsContent src a j) : ClosesAll src (top :: below) a e := by
  cases h with
  | @cons _ _ _ j _ hinner hclose hrest => exact .cons (hitem j hinner) hclose hrest

/-- A bracket that is awaited, closed with what is read before it, makes a group. -/
theorem ClosesAll.isGroup {c closer : Char} {stack : List Char} {i e : Nat} (hc : src[i]? = some c)
    (hcloser : closerOf? c = some closer) (h : ClosesAll src (closer :: stack) (i + 1) e) :
    ∃ b : Nat, IsGroup src i b ∧ ClosesAll src stack b e := by
  cases h with
  | @cons _ _ _ j _ hinner hclose hrest => exact ⟨j + 1, .brackets hc hcloser hinner hclose, hrest⟩

/-- **A scan that ends has read contents and the awaited brackets in turn.** -/
theorem closesAll_of_scanFrom {top : Char} {below : List Char} {i : Nat} {r : List Char}
    (h : scanFrom src (top :: below) i = .closed r) :
    ∃ e : Nat, r = src.drop e ∧ e ≤ src.length ∧ ClosesAll src (top :: below) i e := by
  -- the text left to read gets shorter; the stack may grow
  induction hn : src.length - i using Nat.strong_induction_on generalizing top below i with
  | _ n ih =>
    subst hn
    cases hc : src[i]? with
    | none =>
      rw [scanFrom_end hc] at h
      cases h
    | some c =>
      obtain ⟨hi, -⟩ := List.getElem?_eq_some_iff.mp hc
      have hnext : src.length - (i + 1) < src.length - i := by omega
      have hskip : skipLiteral src i = .ok (literalEnd? src i) := if_pos hi
      cases hend : literalEnd? src i with
      | some b =>
        rw [hend] at hskip
        obtain ⟨-, hlt, hle⟩ := literalRest?_of_skipLiteral hskip
        rw [scanFrom_literal hskip] at h
        obtain ⟨e, hr, he, hcloses⟩ := ih _ (by omega) h rfl
        exact ⟨e, hr, he, hcloses.extend fun j hj => .literal hskip hj⟩
      | none =>
        rw [hend] at hskip
        have hlit := literalRest?_of_skipLiteral_none hskip
        cases hopen : closerOf? c with
        | some closer =>
          rw [scanFrom_open hc hopen] at h
          obtain ⟨e, hr, he, hcloses⟩ := ih _ hnext h rfl
          obtain ⟨b, hgroup, hrest⟩ := hcloses.isGroup hc hopen
          exact ⟨e, hr, he, hrest.extend fun j hj => .group hgroup hj⟩
        | none =>
          rw [scanFrom_char hc hlit, hopen] at h
          dsimp only at h
          split at h
          next hclose =>
            split at h
            · cases h
            next htop =>
              obtain rfl : top = c := by simpa using htop
              cases below with
              | nil =>
                obtain rfl := GroupScan.closed.inj h
                exact ⟨i + 1, rfl, hi, .cons (.nil i) hc (.nil _)⟩
              | cons next below =>
                obtain ⟨e, hr, he, hcloses⟩ := ih _ hnext h rfl
                exact ⟨e, hr, he, .cons (.nil i) hc hcloses⟩
          next hclose =>
            obtain ⟨e, hr, he, hcloses⟩ := ih _ hnext h rfl
            have hplain : isCloser c = false := Bool.eq_false_iff.mpr hclose
            exact ⟨e, hr, he, hcloses.extend fun j hj => .char hc hopen hplain hskip hj⟩

/-! ### Groups -/

theorem IsGroup.le_length {i e : Nat} (h : IsGroup src i e) : e ≤ src.length := by
  cases h with
  | @brackets _ j _ _ hopen hcloser hinner hclose =>
    obtain ⟨hj, -⟩ := List.getElem?_eq_some_iff.mp hclose
    exact hj

theorem groupEnd?_eq (src : List Char) (pos : Nat) :
    groupEnd? src pos src.length =
      match scanFrom src [] pos with
      | .closed rest => .ok (some (src.length - rest.length))
      | _ => .ok none := by
  rw [groupEnd?, scanFrom]
  cases scanGroup (src.length - pos) [] (src.drop pos) with
  | closed rest => rfl
  | mismatched => rfl
  | unclosed =>
    dsimp only
    rw [if_neg (by simp)]

/-- **The scan ends where the group does**, if an opening bracket stands at its start. -/
theorem groupEnd?_eq_some_iff {pos e : Nat} {c closer : Char} (hc : src[pos]? = some c)
    (hcloser : closerOf? c = some closer) :
    groupEnd? src pos src.length = .ok (some e) ↔ IsGroup src pos e := by
  constructor
  · intro h
    rw [groupEnd?_eq] at h
    split at h
    next r hr =>
      rw [scanFrom_open hc hcloser] at hr
      obtain ⟨e', rfl, he', hcloses⟩ := closesAll_of_scanFrom hr
      obtain ⟨b, hgroup, hrest⟩ := hcloses.isGroup hc hcloser
      cases hrest
      have hend : src.length - (src.drop e').length = e' := by
        rw [List.length_drop]
        omega
      rw [hend] at h
      cases h
      exact hgroup
    · cases h
  · intro h
    have hle := h.le_length
    rw [groupEnd?_eq, h.scanFrom_eq []]
    simp only [List.isEmpty_nil, if_true, List.length_drop]
    congr 2
    omega

theorem groupEnd?_isOk (src : List Char) (pos : Nat) :
    ∃ end? : Option Nat, groupEnd? src pos src.length = .ok end? := by
  rw [groupEnd?_eq]
  split <;> exact ⟨_, rfl⟩

/-- **The scan recognises exactly the balanced groups.**  From an opening bracket it stops at an offset if
and only if the characters up to there are a group; there is at most one such offset, and the scan finds
none if and only if there is none. -/
theorem group_scan_is_exact {pos : Nat} {c : Char} (hc : src[pos]? = some c)
    (hopen : (closerOf? c).isSome = true) :
    (∀ e : Nat, groupEnd? src pos src.length = .ok (some e) ↔ IsGroup src pos e) ∧
      (∀ e e' : Nat, IsGroup src pos e → IsGroup src pos e' → e = e') ∧
      (groupEnd? src pos src.length = .ok none ↔ ¬∃ e : Nat, IsGroup src pos e) := by
  obtain ⟨closer, hcloser⟩ := Option.isSome_iff_exists.mp hopen
  have hiff (e : Nat) : groupEnd? src pos src.length = .ok (some e) ↔ IsGroup src pos e :=
    groupEnd?_eq_some_iff hc hcloser
  refine ⟨hiff, ?_, ?_⟩
  · intro e e' he he'
    have heq := ((hiff e).mpr he).symm.trans ((hiff e').mpr he')
    exact Option.some.inj (Except.ok.inj heq)
  · obtain ⟨end?, hend⟩ := groupEnd?_isOk src pos
    constructor
    · rintro hnone ⟨e, he⟩
      rw [(hiff e).mpr he] at hnone
      cases hnone
    · intro hno
      cases end? with
      | none => exact hend
      | some e => exact absurd ⟨e, (hiff e).mp hend⟩ hno

/-- A group with a bracket in each of the five forms of literal, and one that a quote leaves open. -/
def nestedGroup : List Char :=
  "x = \x7b'\x7d' [\"\\\"]\" (\x60\n)\x60) /*]*/ ] // \x7d\n \x7d + \x7b'\x7d".toList

theorem group_scan_is_exact_nested :
    IsGroup nestedGroup 4 38 ∧ (∀ e : Nat, IsGroup nestedGroup 4 e → e = 38) ∧
      ¬∃ e : Nat, IsGroup nestedGroup 41 e := by
  have hbrace : nestedGroup[4]? = some '\x7b' := by decide
  have hloose : nestedGroup[41]? = some '\x7b' := by decide
  have hgroup := group_scan_is_exact hbrace rfl
  have hopen := group_scan_is_exact hloose rfl
  have hend : IsGroup nestedGroup 4 38 := (hgroup.1 38).mp (by decide +kernel)
  exact ⟨hend, fun e he => hgroup.2.1 e 38 he hend, hopen.2.2.mp (by decide +kernel)⟩

end Mdx.Script
