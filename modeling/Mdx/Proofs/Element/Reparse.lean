import Mdx.Proofs.Element.Grammar
import Mdx.Proofs.Element.Tokens
import Mdx.Proofs.Node.Order
import Mdx.Proofs.Source.Slice

/-!
# An element is the parse of its own text

The value of an element is a piece of the source, and the tokens of that piece are the tokens of the
element, moved to the start (`tokens_slice`).  So the derivation of the element, taken out of the
derivation that it stands in (`Fragment.exists_construct`), is a derivation of those tokens
(`Fragment.exists_map`), and the value parses to the element and nothing else (`parseFragment_value`).
-/

namespace Mdx.Element

open Mdx.Node (bareList flattenStack mem_flattenStack_cons)

variable {src : List Char} {place : Placement} {ts : List Token}

/-! ### Derivations and positions -/

/-- Without a place, the nodes have no positions and are the same otherwise. -/
theorem Fragment.denote_bare (d : Fragment ts) (place : Placement) :
    d.denote src {} = bareList (d.denote src place) := by
  induction d with
  | nil => rfl
  | text ht rest ih =>
    rw [denote, denote]
    split
    · exact ih
    · rw [Node.bareList_cons, ← ih]
      rfl
  | comment ht rest ih => exact ih
  | selfClosing ht rest ih =>
    rw [denote, denote, Node.bareList_cons, ← ih]
    rfl
  | element hf hl hn body rest ihb ihr =>
    rw [denote, denote, Node.bareList_cons, ← ihr, Node.bare_branch, ← ihb]
    rfl

/-! ### An element within a fragment -/

/-- **Every element of a fragment, at any depth, is all that a run of its tokens stands for**, and its
value is the piece of source of that run. -/
theorem Fragment.exists_construct (d : Fragment ts) {n : Node}
    (hn : n ∈ flattenStack (d.denote src place)) (hk : n.kind = "jsx") :
    ∃ pre mid post : List Token, ts = pre ++ (mid ++ post) ∧
      (∃ d' : Fragment mid, d'.denote src place = [n]) ∧
      ∀ b e : Nat, Tiles b mid e → n.value = some (String.ofList (slice src b e)) := by
  induction d with
  | nil =>
    rw [denote, Node.flattenStack_nil] at hn
    cases hn
  | @text t ts ht rest ih =>
    have hrest : n ∈ flattenStack (rest.denote src place) := by
      rw [denote] at hn
      split at hn
      · exact hn
      · rcases mem_flattenStack_cons.mp hn with rfl | hn | hn
        · simp [Node.kind, Node.head] at hk
        · rw [Node.children, Node.flattenStack_nil] at hn
          cases hn
        · exact hn
    obtain ⟨pre, mid, post, rfl, hd, hv⟩ := ih hrest
    exact ⟨t :: pre, mid, post, rfl, hd, hv⟩
  | @comment t ts ht rest ih =>
    obtain ⟨pre, mid, post, rfl, hd, hv⟩ := ih hn
    exact ⟨t :: pre, mid, post, rfl, hd, hv⟩
  | @selfClosing t ts ht rest ih =>
    rw [denote] at hn
    rcases mem_flattenStack_cons.mp hn with rfl | hn | hn
    · refine ⟨[], [t], ts, rfl, ⟨.selfClosing ht .nil, rfl⟩, fun b e hb => ?_⟩
      cases hb with
      | cons hs hlt hnil =>
        cases hnil
        rw [← hs]
        rfl
    · rw [Node.children, Node.flattenStack_nil] at hn
      cases hn
    · obtain ⟨pre, mid, post, rfl, hd, hv⟩ := ih hn
      exact ⟨t :: pre, mid, post, rfl, hd, hv⟩
  | @element first last inner ts hf hl hname body rest ihb ihr =>
    rw [denote] at hn
    rcases mem_flattenStack_cons.mp hn with rfl | hn | hn
    · refine ⟨[], first :: (inner ++ [last]), ts, by simp,
        ⟨.element hf hl hname body .nil, rfl⟩, fun b e hb => ?_⟩
      cases hb with
      | cons hs hlt hrest =>
        obtain ⟨m, -, hlast⟩ := hrest.of_append
        cases hlast with
        | cons hs' hlt' hnil =>
          cases hnil
          rw [← hs]
          rfl
    · obtain ⟨pre, mid, post, rfl, hd, hv⟩ := ihb hn
      exact ⟨first :: pre, mid, post ++ last :: ts, by simp, hd, hv⟩
    · obtain ⟨pre, mid, post, rfl, hd, hv⟩ := ihr hn
      exact ⟨first :: (inner ++ last :: pre), mid, post, by simp, hd, hv⟩

/-! ### A derivation moved to another text -/

/-- The images of the tokens in one text have the pieces that the tokens have in another. -/
def SamePieces (src src' : List Char) (f : Token → Token) (ts : List Token) : Prop :=
  ∀ t ∈ ts, ∀ u ∈ ts, slice src' (f t).start (f u).stop = slice src t.start u.stop

theorem SamePieces.mono {src' : List Char} {f : Token → Token} {us : List Token}
    (h : SamePieces src src' f ts) (hsub : us ⊆ ts) : SamePieces src src' f us :=
  fun t ht u hu => h t (hsub ht) u (hsub hu)

/-- **A derivation of tokens is one of their images**, for any change of tokens that keeps their kinds
and names, and stands for the same nodes if the pieces are the same. -/
theorem Fragment.exists_map {src' : List Char} {f : Token → Token}
    (hkind : ∀ t : Token, (f t).kind = t.kind) (hname : ∀ t : Token, (f t).name = t.name)
    (d : Fragment ts) (hsame : SamePieces src src' f ts) :
    ∃ d' : Fragment (ts.map f), d'.denote src' {} = d.denote src {} := by
  induction d with
  | nil => exact ⟨.nil, rfl⟩
  | @text t ts ht rest ih =>
    obtain ⟨d', hd'⟩ := ih (hsame.mono (List.subset_cons_self t ts))
    have hs := hsame t List.mem_cons_self t List.mem_cons_self
    refine ⟨.text ((hkind t).trans ht) d', ?_⟩
    rw [denote, denote, hs, hd']
    rfl
  | @comment t ts ht rest ih =>
    obtain ⟨d', hd'⟩ := ih (hsame.mono (List.subset_cons_self t ts))
    exact ⟨.comment ((hkind t).trans ht) d', hd'⟩
  | @selfClosing t ts ht rest ih =>
    obtain ⟨d', hd'⟩ := ih (hsame.mono (List.subset_cons_self t ts))
    have hs := hsame t List.mem_cons_self t List.mem_cons_self
    refine ⟨.selfClosing ((hkind t).trans ht) d', ?_⟩
    rw [denote, denote, hs, hd']
    rfl
  | @element first last inner ts hf hl hn body rest ihb ihr =>
    have hinner : inner ⊆ first :: (inner ++ last :: ts) := by simp
    have hrest : ts ⊆ first :: (inner ++ last :: ts) :=
      fun t ht => by simp [ht]
    obtain ⟨db, hdb⟩ := ihb (hsame.mono hinner)
    obtain ⟨dr, hdr⟩ := ihr (hsame.mono hrest)
    have hs := hsame first List.mem_cons_self last (by simp)
    rw [List.map_cons, List.map_append, List.map_cons]
    refine ⟨.element ((hkind first).trans hf) ((hkind last).trans hl) ?_ db dr, ?_⟩
    · rw [hname, hname, hn]
    · rw [denote, denote, hs, hdb, hdr]
      rfl

/-- The token, `d` characters further back. -/
def Token.unshift (d : Nat) (t : Token) : Token :=
  { t with start := t.start - d, stop := t.stop - d }

theorem map_unshift_map_shift (d : Nat) (ts : List Token) :
    (ts.map (Token.shift d)).map (Token.unshift d) = ts := by
  rw [List.map_map]
  refine List.map_id'' (fun t => ?_) ts
  cases t
  simp [Token.shift, Token.unshift]

/-- **A run of tokens that has a derivation is the parse of its own piece of the source.** -/
theorem parseFragment_slice {xs ys zs : List Token} {b e : Nat}
    (h : (tokens src).1 = xs ++ (ys ++ zs)) (hx : Tiles 0 xs b) (hy : Tiles b ys e)
    (d : Fragment ys) : parseFragment (slice src b e) {} = .ok (d.denote src {}) := by
  obtain ⟨hshift, hnone⟩ := tokens_slice h hx hy
  have hback : ys.map (Token.unshift b) = (tokens (slice src b e)).1 := by
    rw [← hshift, map_unshift_map_shift]
  have hsame : SamePieces src (slice src b e) (Token.unshift b) ys :=
    fun t ht u hu => slice_slice (hy.bounds ht).1 (hy.bounds hu).2.2
  have hmap := d.exists_map (f := Token.unshift b) (fun _ => rfl) (fun _ => rfl) hsame
  rw [hback] at hmap
  exact parseFragment_eq_ok_iff.mpr ⟨hnone, hmap⟩

/-! ### The value of an element -/

/-- **The value of an element, at any depth of a parse, parses to that element alone**, without
positions. -/
theorem parseFragment_value {ns : List Node} (h : parseFragment src place = .ok ns) {n : Node}
    (hn : n ∈ flattenStack ns) (hk : n.kind = "jsx") :
    ∃ v : String, n.value = some v ∧ parseFragment v.toList {} = .ok [n.bare] := by
  obtain ⟨-, d, rfl⟩ := parseFragment_eq_ok_iff.mp h
  obtain ⟨xs, ys, zs, hts, ⟨d', hd'⟩, hv⟩ := d.exists_construct hn hk
  obtain ⟨k, hk, -, -⟩ := tokens_tiles src
  rw [hts] at hk
  obtain ⟨b, hx, hrest⟩ := hk.of_append
  obtain ⟨e, hy, -⟩ := hrest.of_append
  refine ⟨_, hv b e hy, ?_⟩
  rw [String.toList_ofList, parseFragment_slice hts hx hy d', d'.denote_bare place, hd']
  rfl

theorem bare_eq_self {ns : List Node} (h : parseFragment src {} = .ok ns) {n : Node}
    (hn : n ∈ flattenStack ns) (hk : n.kind = "jsx") : n.bare = n := by
  obtain ⟨-, d, rfl⟩ := parseFragment_eq_ok_iff.mp h
  obtain ⟨xs, ys, zs, -, ⟨d', hd'⟩, -⟩ := d.exists_construct hn hk
  have hbare : d'.denote src {} = bareList (d'.denote src {}) := d'.denote_bare {}
  rw [hd'] at hbare
  exact (List.head_eq_of_cons_eq hbare).symm

theorem Fragment.head_of_mem_denote (d : Fragment ts) {n : Node}
    (hn : n ∈ flattenStack (d.denote src place)) :
    (n.kind = "jsx" ∨ n.kind = "text") ∧ ∃ i j : Nat, n.position = place.span i j := by
  induction d with
  | nil =>
    rw [denote, Node.flattenStack_nil] at hn
    cases hn
  | @text t _ ht rest ih =>
    rw [denote] at hn
    split at hn
    · exact ih hn
    · rcases mem_flattenStack_cons.mp hn with rfl | hn | hn
      · exact ⟨.inr rfl, t.start, t.stop, rfl⟩
      · rw [Node.children, Node.flattenStack_nil] at hn
        cases hn
      · exact ih hn
  | comment ht rest ih => exact ih hn
  | @selfClosing t _ ht rest ih =>
    rw [denote] at hn
    rcases mem_flattenStack_cons.mp hn with rfl | hn | hn
    · exact ⟨.inl rfl, t.start, t.stop, rfl⟩
    · rw [Node.children, Node.flattenStack_nil] at hn
      cases hn
    · exact ih hn
  | @element first last _ _ hf hl hname body rest ihb ihr =>
    rw [denote] at hn
    rcases mem_flattenStack_cons.mp hn with rfl | hn | hn
    · exact ⟨.inl rfl, first.start, last.stop, rfl⟩
    · exact ihb hn
    · exact ihr hn

theorem kind_of_mem_parseFragment {ns : List Node} (h : parseFragment src place = .ok ns) {n : Node}
    (hn : n ∈ flattenStack ns) : n.kind = "jsx" ∨ n.kind = "text" := by
  obtain ⟨-, d, rfl⟩ := parseFragment_eq_ok_iff.mp h
  exact (d.head_of_mem_denote hn).1

/-! ### Children -/

/-- What an element built from these nodes has as its children. -/
def contentOf : List Node → List Node
  | [n] => if n.kind = "jsx" then n.children else [n]
  | ns => ns

theorem parseChildren_eq (src : List Char) (place : Placement) :
    parseChildren src place = (parseFragment src place).map contentOf := by
  unfold parseChildren
  split
  next h => rw [h]; rfl
  next h => rw [h]; rfl
  next ns hne h =>
    rw [h, Except.map, contentOf.eq_2 ns hne]

theorem contentOf_bareList (ns : List Node) : contentOf (bareList ns) = bareList (contentOf ns) := by
  rcases ns with _ | ⟨n, _ | ⟨m, ns⟩⟩
  · rfl
  · rw [Node.bareList_cons, Node.bareList_nil, contentOf, contentOf, Node.kind_bare]
    split
    · exact n.children_bare
    · rfl
  · rfl

theorem mem_of_mem_contentOf {ns : List Node} {x : Node} (h : x ∈ flattenStack (contentOf ns)) :
    x ∈ flattenStack ns := by
  unfold contentOf at h
  split at h
  · split at h
    · exact mem_flattenStack_cons.mpr (.inr (.inl h))
    · exact h
  · exact h

theorem exists_parse_of_mem_parseChildren {cs : List Node} (h : parseChildren src place = .ok cs)
    {x : Node} (hx : x ∈ flattenStack cs) :
    ∃ ns : List Node, parseFragment src place = .ok ns ∧ x ∈ flattenStack ns := by
  rw [parseChildren_eq] at h
  cases hp : parseFragment src place with
  | error e =>
    rw [hp] at h
    cases h
  | ok ns =>
    rw [hp] at h
    cases h
    exact ⟨ns, rfl, mem_of_mem_contentOf hx⟩

/-- Without a place, the children have no positions and are the same otherwise. -/
theorem parseChildren_bare {cs : List Node} (h : parseChildren src place = .ok cs) :
    parseChildren src {} = .ok (bareList cs) := by
  rw [parseChildren_eq] at h ⊢
  cases hp : parseFragment src place with
  | error e =>
    rw [hp] at h
    cases h
  | ok ns =>
    rw [hp] at h
    cases h
    obtain ⟨hlex, d, rfl⟩ := parseFragment_eq_ok_iff.mp hp
    rw [parseFragment_eq_ok_iff.mpr ⟨hlex, d, rfl⟩, d.denote_bare place, Except.map,
      contentOf_bareList]

/-- **The value of an element gives back its children.** -/
theorem parseChildren_of_parseFragment {n : Node} (h : parseFragment src place = .ok [n])
    (hk : n.kind = "jsx") : parseChildren src place = .ok n.children := by
  rw [parseChildren_eq, h, Except.map, contentOf, if_pos hk]

end Mdx.Element
