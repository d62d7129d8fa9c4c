import Mdx.Extended.Basic
import Mdx.Proofs.Element.Reparse
import Mdx.Proofs.Extended.Segment
import Mdx.Proofs.Fault.Result

/-!
# The elements of an extended tree

A node of an extended tree has the head of a node of the document, or of a statement, or it lies in the
element made of a piece of raw markup (`exists_origin`).  No node of the document is an element, so
all elements of an extended tree come from raw markup, and the children of each are what its value
parses to.
-/

namespace Mdx.Extended

open Mdx.Element
open Mdx.Node (bareList flatten_eq flattenStack flattenStack_eq_append)

/-! ### Where the nodes come from -/

/-- A node has the head of one of these nodes, or lies in the element made of raw markup among
them. -/
def Origin (doc : Option Document) (sources : List Node) (x : Node) : Prop :=
  (∃ y ∈ sources, x.head = y.head) ∨
    ∃ y ∈ sources, y.kind = "html" ∧ ∃ (nearest : Option Position) (m : Node),
      elementOf doc nearest y.head = .ok m ∧ x ∈ m.flatten

theorem Origin.mono {doc : Option Document} {xs ys : List Node} {x : Node} (hsub : xs ⊆ ys)
    (h : Origin doc xs x) : Origin doc ys x := by
  rcases h with ⟨y, hy, hhead⟩ | ⟨y, hy, hrest⟩
  · exact .inl ⟨y, hsub hy, hhead⟩
  · exact .inr ⟨y, hsub hy, hrest⟩

mutual

/-- **Every node after reclassification has its origin in the tree before.** -/
theorem exists_origin {doc : Option Document} : ∀ (n : Node) (nearest : Option Position) {m x : Node},
    reclassify doc nearest n = .ok m → x ∈ m.flatten → Origin doc n.flatten x
  | .leaf h, nearest, m, x, hm, hx => by
    rw [reclassify] at hm
    split at hm
    next hk => exact .inr ⟨.leaf h, by simp [flatten_eq], hk, nearest, m, hm, hx⟩
    next hk =>
      cases hm
      refine .inl ⟨.leaf h, by simp [flatten_eq], ?_⟩
      simp only [flatten_eq, Node.children, Node.flattenStack_nil, List.mem_singleton] at hx
      rw [hx]
  | .branch h cs, nearest, m, x, hm, hx => by
    rw [reclassify] at hm
    split at hm
    next hk => exact .inr ⟨.branch h cs, by simp [flatten_eq], hk, nearest, m, hm, hx⟩
    next hk =>
      split at hm
      · cases hm
      next cs' hcs =>
        cases hm
        rw [flatten_eq] at hx ⊢
        rcases List.mem_cons.mp hx with rfl | hx
        · exact .inl ⟨.branch h cs, List.mem_cons_self, rfl⟩
        · exact (exists_origin_list cs _ hcs hx).mono (List.subset_cons_self _ _)

theorem exists_origin_list {doc : Option Document} : ∀ (ns : List Node) (nearest : Option Position)
    {ms : List Node} {x : Node}, reclassifyList doc nearest ns = .ok ms → x ∈ flattenStack ms →
      Origin doc (flattenStack ns) x
  | [], nearest, ms, x, hms, hx => by
    rw [reclassifyList] at hms
    cases hms
    rw [Node.flattenStack_nil] at hx
    cases hx
  | n :: rest, nearest, ms, x, hms, hx => by
    rw [reclassifyList] at hms
    split at hms
    · cases hms
    next m hm =>
      split at hms
      · cases hms
      next rest' hrest =>
        cases hms
        rw [flattenStack_eq_append] at hx ⊢
        rcases List.mem_append.mp hx with hx | hx
        · exact (exists_origin n _ hm hx).mono (List.subset_append_left _ _)
        · exact (exists_origin_list rest _ hrest hx).mono (List.subset_append_right _ _)

end

/-! ### Extended trees -/

/-- What an extended tree is: the tree of a valid document, with statements extracted and raw markup
reclassified. -/
theorem ofGeneric_eq_ok {source : Option (List Char)} {tree ext : Node}
    (h : ofGeneric source tree = .ok ext) :
    tree.validate Vocabulary.generic "parse" = .ok () ∧
      ∃ children : List Node,
        extractStatements (source.map Document.ofText) tree.children = .ok children ∧
        reclassify (source.map Document.ofText) none (.branch tree.head children) = .ok ext := by
  rw [ofGeneric] at h
  obtain ⟨⟨⟩, hv, h⟩ := exists_ok_of_bind h
  obtain ⟨children, hc, h⟩ := exists_ok_of_bind h
  obtain ⟨ext', hr, h⟩ := exists_ok_of_bind h
  obtain ⟨-, -, h⟩ := exists_ok_of_bind h
  cases h
  exact ⟨hv, children, hc, hr⟩

/-- Before raw markup is reclassified, a node is the root, a node of the document, or written for a
statement. -/
theorem cases_of_mem_extract {doc : Option Document} {tree : Node} {children : List Node}
    (hc : extractStatements doc tree.children = .ok children) {y : Node}
    (hy : y ∈ (Node.branch tree.head children).flatten) :
    y.head = tree.head ∨ y ∈ tree.flatten ∨ IsWritten doc y := by
  rcases Node.mem_flatten.mp hy with rfl | ⟨m, hm, hym⟩
  · exact .inl rfl
  obtain ⟨segs, hsegs, rfl⟩ := extractStatements_eq_ok_iff.mp hc
  rcases hsegs.mem_written hm with hm | hw
  · exact .inr (.inl (Node.mem_flatten.mpr (.inr ⟨m, hm, hym⟩)))
  · -- nothing is in a statement but itself
    have hself : y = m := by
      obtain ⟨src, position, st, rfl, -⟩ := hw
      rwa [statementNode, flatten_eq, Node.children, Node.flattenStack_nil,
        List.mem_singleton] at hym
    rw [hself]
    exact .inr (.inr hw)

theorem kind_ne_jsx_of_extract {doc : Option Document} {tree : Node} {children : List Node}
    (hv : tree.validate Vocabulary.generic "parse" = .ok ())
    (hc : extractStatements doc tree.children = .ok children) {y : Node}
    (hy : y ∈ (Node.branch tree.head children).flatten) : y.kind ≠ "jsx" := by
  obtain ⟨hroot, hkinds⟩ := Node.validate_eq_ok_iff.mp hv
  rcases cases_of_mem_extract hc hy with hhead | hy | ⟨src, position, st, rfl, -⟩
  · have hkind : y.kind = "root" := (congrArg NodeHead.kind hhead).trans hroot
    rw [hkind]
    decide
  · intro hjsx
    have hgeneric := hkinds y hy
    rw [hjsx] at hgeneric
    exact absurd hgeneric (by decide)
  · show st.kind.keyword ≠ "jsx"
    cases st.kind <;> decide

/-- The children of the element made of raw markup, and of every element in it, are what its value
parses to. -/
theorem parseChildren_of_mem_elementOf {doc : Option Document} {nearest : Option Position}
    {h : NodeHead} {m n : Node} (hm : elementOf doc nearest h = .ok m) (hn : n ∈ m.flatten)
    (hk : n.kind = "jsx") :
    ∃ v : String, n.value = some v ∧ parseChildren v.toList {} = .ok (bareList n.children) := by
  unfold elementOf at hm
  dsimp only at hm
  split at hm
  · cases hm
  next cs hcs =>
    cases hm
    rw [flatten_eq] at hn
    rcases List.mem_cons.mp hn with rfl | hn
    · exact ⟨_, rfl, parseChildren_bare hcs⟩
    · obtain ⟨ns, hns, hin⟩ := exists_parse_of_mem_parseChildren hcs hn
      obtain ⟨v, hv, hparse⟩ := parseFragment_value hns hin hk
      refine ⟨v, hv, ?_⟩
      rw [parseChildren_of_parseFragment hparse (n.kind_bare.trans hk), n.children_bare]

/-- **An element is what its value parses to.**

* Every element of a parse, at any depth, is the only node that its value parses to, and so its
  children are the children that its value parses to.
* The children of every element of an extended tree, at any depth, are the children that its value
  parses to, but for their positions. -/
theorem element_is_parse_of_value :
    (∀ (src : List Char) (ns : List Node), parseFragment src {} = .ok ns →
        ∀ n ∈ flattenStack ns, n.kind = "jsx" →
          ∃ v : String, n.value = some v ∧ parseFragment v.toList {} = .ok [n] ∧
            parseChildren v.toList {} = .ok n.children) ∧
      ∀ (source : Option (List Char)) (tree ext : Node), ofGeneric source tree = .ok ext →
        ∀ n ∈ ext.flatten, n.kind = "jsx" →
          ∃ v : String, n.value = some v ∧
            parseChildren v.toList {} = .ok (bareList n.children) := by
  constructor
  · intro src ns h n hn hk
    obtain ⟨v, hv, hparse⟩ := parseFragment_value h hn hk
    rw [bare_eq_self h hn hk] at hparse
    exact ⟨v, hv, hparse, parseChildren_of_parseFragment hparse hk⟩
  · intro source tree ext h n hn hk
    obtain ⟨hv, children, hc, hr⟩ := ofGeneric_eq_ok h
    rcases exists_origin _ _ hr hn with ⟨y, hy, hhead⟩ | ⟨y, -, -, nearest, m, hm, hnm⟩
    · have hkind : n.kind = y.kind := congrArg NodeHead.kind hhead
      exact absurd (hkind.symm.trans hk) (kind_ne_jsx_of_extract hv hc hy)
    · exact parseChildren_of_mem_elementOf hm hnm hk

/-- A paragraph with a piece of raw markup in it. -/
def rawMarkup : Node :=
  .ofChildren [.branch { kind := "paragraph" } [.leaf { kind := "html", value := "<a><b/></a>" }]]

/-- The inner one of two nested elements, in a parse and in an extended tree. -/
theorem element_is_parse_of_value_nested :
    (∃ ns : List Node, parseFragment "<a>x<b c='>'/></a>".toList {} = .ok ns ∧
        ∃ n ∈ flattenStack ns, n.kind = "jsx" ∧ n.text = "<b c='>'/>" ∧
          ∃ v : String, n.value = some v ∧ parseFragment v.toList {} = .ok [n] ∧
            parseChildren v.toList {} = .ok n.children) ∧
      ∃ ext : Node, ofGeneric none rawMarkup = .ok ext ∧
        ∃ n ∈ ext.flatten, n.kind = "jsx" ∧ n.text = "<b/>" ∧
          ∃ v : String, n.value = some v ∧
            parseChildren v.toList {} = .ok (bareList n.children) := by
  have hnodes : (parseFragment "<a>x<b c='>'/></a>".toList {}).toOption.map
      (fun ns => (flattenStack ns).map fun n => (n.kind, n.text)) =
      some [("jsx", "<a>x<b c='>'/></a>"), ("text", "x"), ("jsx", "<b c='>'/>")] := by
    decide +kernel
  have hext : (ofGeneric none rawMarkup).toOption.map
      (fun ext => ext.flatten.map fun n => (n.kind, n.text)) =
      some [("root", ""), ("paragraph", ""), ("jsx", "<a><b/></a>"), ("jsx", "<b/>")] := by
    decide +kernel
  constructor
  · cases h : parseFragment "<a>x<b c='>'/></a>".toList {} with
    | error e =>
      rw [h] at hnodes
      cases hnodes
    | ok ns =>
      rw [h] at hnodes
      have hmem : ("jsx", "<b c='>'/>") ∈ (flattenStack ns).map fun n => (n.kind, n.text) := by
        have hlist := Option.some.inj hnodes
        dsimp only at hlist
        rw [hlist]
        decide
      obtain ⟨n, hn, heq⟩ := List.mem_map.mp hmem
      obtain ⟨hk, ht⟩ := Prod.mk.inj heq
      exact ⟨ns, rfl, n, hn, hk, ht, element_is_parse_of_value.1 _ ns h n hn hk⟩
  · cases h : ofGeneric none rawMarkup with
    | error e =>
      rw [h] at hext
      cases hext
    | ok ext =>
      rw [h] at hext
      have hmem : ("jsx", "<b/>") ∈ ext.flatten.map fun n => (n.kind, n.text) := by
        have hlist := Option.some.inj hext
        dsimp only at hlist
        rw [hlist]
        decide
      obtain ⟨n, hn, heq⟩ := List.mem_map.mp hmem
      obtain ⟨hk, ht⟩ := Prod.mk.inj heq
      exact ⟨ext, rfl, n, hn, hk, ht, element_is_parse_of_value.2 none rawMarkup ext h n hn hk⟩

end Mdx.Extended
