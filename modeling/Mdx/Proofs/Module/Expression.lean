import Mdx.Json.Writer
import Mdx.Module.Render
import Mdx.Proofs.Script.Inert

/-!
# Expressions in generated code

A JSON value is inert as it is written (`inert_write`), and so is a text as a template literal, so each
of them is one group when it stands in braces, whatever the value holds and whatever follows
(`groupRest?_templateGroup`).
-/

namespace Mdx.Json

open Mdx.Script

/-! ### Numbers -/

theorem plain_zeros (k : Nat) : Plain (List.replicate k '0') := by
  intro c hc
  rw [List.eq_of_mem_replicate hc]
  decide

theorem plain_toDigits (n : Nat) : Plain (Nat.toDigits 10 n) := by
  have hmarks : marks.all (fun d => !d.isDigit) = true := by decide
  intro c hc hm
  have hdigit := Nat.isDigit_of_mem_toDigits (by decide) (by decide) hc
  have hno := List.all_eq_true.mp hmarks c hm
  rw [hdigit] at hno
  cases hno

theorem plain_int (n : Int) : Plain (toString n).toList := by
  rw [Int.toString_eq_repr]
  cases n with
  | ofNat k =>
    show Plain (Nat.repr k).toList
    rw [Nat.toList_repr]
    exact plain_toDigits k
  | negSucc k =>
    show Plain ("-" ++ Nat.repr (k + 1)).toList
    rw [String.toList_append, Nat.toList_repr]
    exact Plain.append (by decide) (plain_toDigits (k + 1))

theorem plain_parts (s : Decimal.Scientific) : Plain s.parts.1 := by
  refine (plain_toDigits s.digits).subset fun c hc => ?_
  have hdrop := List.mem_reverse.mp (show c ∈ List.reverse _ from hc)
  exact List.mem_reverse.mp ((List.dropWhile_suffix _).subset hdrop)

theorem plain_positional {digits : List Char} (h : Plain digits) (lead : Int) :
    Plain (Decimal.positional digits lead) := by
  rw [Decimal.positional]
  split
  · exact .cons (by decide) (.cons (by decide) ((plain_zeros _).append h))
  · refine .append (.append (h.subset (List.take_subset _ _)) (plain_zeros _)) ?_
    refine .cons (by decide) ?_
    split
    · decide
    · exact h.subset (List.drop_subset _ _)

theorem plain_exponential {digits : List Char} (h : Plain digits) (lead : Int) :
    Plain (Decimal.exponential digits lead) := by
  have hhead : Plain (digits.take 1) := h.subset (List.take_subset _ _)
  have htail : Plain (if (digits.drop 1).isEmpty then [] else '.' :: digits.drop 1) := by
    split
    · decide
    · exact .cons (by decide) (h.subset (List.drop_subset _ _))
  have hsign : Plain ['e', if lead < 0 then '-' else '+'] := by
    split <;> decide
  exact (((hhead.append htail).append hsign).append (plain_zeros _)).append (plain_toDigits _)

theorem plain_float (x : Float) : Plain (Decimal.floatText writeStyle x).toList := by
  have hsign : Plain (if x.toBits.toNat < 1 <<< 63 then "" else "-").toList := by
    split <;> decide
  rw [Decimal.floatText]
  split
  · decide
  dsimp only
  split
  · rw [String.toList_append]
    exact hsign.append (by decide)
  split
  · rw [String.toList_append]
    exact hsign.append (by decide)
  · rw [String.toList_append, String.toList_ofList]
    refine hsign.append ?_
    split
    · exact plain_positional (plain_parts _) _
    · exact plain_exponential (plain_parts _) _

/-! ### Texts -/

/-- One character of a JSON text does not end the quote, however it is written. -/
theorem quoteRest_escapedChar (c : Char) (rest : List Char) :
    quoteRest '\x22' (escapedChar c ++ rest) = quoteRest '\x22' rest := by
  have hcheck : (List.range 0x20).all (fun n => (Text.hexDigits 4 n).all fun d =>
      d != '\\' && (d != '\x22' && d != '\n')) = true := by decide
  have hhex : ∀ n < 0x20, ∀ d ∈ Text.hexDigits 4 n, d ≠ '\\' ∧ d ≠ '\x22' ∧ d ≠ '\n' := by
    intro n hn d hd
    have hd := List.all_eq_true.mp (List.all_eq_true.mp hcheck n (List.mem_range.mpr hn)) d hd
    simpa using hd
  rw [escapedChar]
  split
  · exact quoteRest_escape _ _ _
  split
  · exact quoteRest_escape _ _ _
  split
  · exact quoteRest_escape _ _ _
  split
  · exact quoteRest_escape _ _ _
  split
  · exact quoteRest_escape _ _ _
  split
  · exact quoteRest_escape _ _ _
  split
  next hlt => exact (quoteRest_escape _ _ _).trans (quoteRest_chars (hhex _ hlt) rest)
  next hspecial hn _ _ _ _ _ =>
    simp only [Bool.or_eq_true, beq_iff_eq, not_or] at hspecial hn
    exact quoteRest_char hspecial.2 hspecial.1 (fun hc => absurd hc hn) rest

theorem inert_writeString (s : String) : Inert (writeString s).toList := by
  rw [writeString, String.toList_ofList]
  refine inert_quote rfl fun u => ?_
  induction s.toList with
  | nil => exact quoteRest_mark (by decide) u
  | cons c cs ih => rw [List.flatMap_cons, List.append_assoc, List.append_assoc, quoteRest_escapedChar,
      ← List.append_assoc, ih]

/-! ### Values -/

mutual

/-- **A JSON value is inert as it is written.** -/
theorem inert_write : ∀ v : Json, Inert v.write.toList
  | .null => Plain.inert (by decide)
  | .bool true => Plain.inert (by decide)
  | .bool false => Plain.inert (by decide)
  | .int n => (plain_int n).inert
  | .float x => (plain_float x).inert
  | .str s => inert_writeString s
  | .arr items => by
    rw [write, String.toList_append, String.toList_append]
    exact (inert_writeItems items).bracketed rfl
  | .obj members => by
    rw [write, String.toList_append, String.toList_append]
    exact (inert_writeMembers members).bracketed rfl

theorem inert_writeItems : ∀ items : List Json, Inert (writeItems items).toList
  | [] => inert_nil
  | [item] => inert_write item
  | item :: next :: rest => by
    rw [writeItems, String.toList_append, String.toList_append]
    · exact ((inert_write item).append (Plain.inert (by decide))).append
        (inert_writeItems (next :: rest))
    · exact List.cons_ne_nil next rest

theorem inert_writeMembers : ∀ members : List (String × Json), Inert (writeMembers members).toList
  | [] => inert_nil
  | [(key, value)] => by
    rw [writeMembers, String.toList_append, String.toList_append]
    exact ((inert_writeString key).append (Plain.inert (by decide))).append (inert_write value)
  | (key, value) :: next :: rest => by
    rw [writeMembers]
    · simp only [String.toList_append]
      exact ((((inert_writeString key).append (Plain.inert (by decide))).append
        (inert_write value)).append (Plain.inert (by decide))).append
          (inert_writeMembers (next :: rest))
    · exact List.cons_ne_nil next rest

end

end Mdx.Json

namespace Mdx.Module

open Mdx.Script

/-! ### Template literals -/

theorem quoteRest_escapeTemplate (v u : List Char) :
    quoteRest '\x60' (escapeTemplate v ++ '\x60' :: u) = u := by
  fun_induction escapeTemplate v with
  | case1 => exact quoteRest_mark (by decide) u
  | case2 rest ih => exact (quoteRest_escape _ _ _).trans ih
  | case3 rest ih => exact (quoteRest_escape _ _ _).trans ih
  | case4 rest ih =>
    exact (quoteRest_escape _ _ _).trans
      ((quoteRest_char (by decide) (by decide) (fun _ => rfl) _).trans ih)
  | case5 c rest hb hm hd ih =>
    exact (quoteRest_char hb hm (fun _ => rfl) _).trans ih

theorem toList_templateGroup (v : String) :
    (templateGroup v).toList =
      '\x7b' :: ('\x60' :: (escapeTemplate v.toList ++ ['\x60']) ++ ['\x7d']) := by
  simp [templateGroup]

theorem inert_template (v : List Char) : Inert ('\x60' :: (escapeTemplate v ++ ['\x60'])) := by
  refine inert_quote rfl fun u => ?_
  rw [List.append_assoc]
  exact quoteRest_escapeTemplate v u

/-- **A text as a template literal in braces is one group**, whatever follows. -/
theorem groupRest?_templateGroup (v : String) (u : List Char) :
    groupRest? ((templateGroup v).toList ++ u) = some u := by
  rw [toList_templateGroup, List.cons_append, List.append_assoc]
  exact groupRest?_braces (inert_template v.toList) u

end Mdx.Module
