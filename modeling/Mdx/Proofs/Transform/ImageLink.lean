import Mdx.Proofs.Compiler.Progress
import Mdx.Proofs.Node.Walk
import Mdx.Proofs.Script.Run
import Mdx.Proofs.Text.Runs

/-!
# Image links compose

Making image links for one list of file extensions and then for another is making them for both at once, in
either order (`autolink_autolink`): once an image stands in a paragraph there is no address left in it, and the
address of an image with one of both lists of extensions is that of one with an extension of the first or of the
second list (`isImageAddress_append`).

The transform is a walk that changes paragraphs on its way and does not go into them (`walk_imageVisitor`).  What it
changes is told by paths of child indices: the content of paragraphs that hold the address of an image and
nothing else, and nothing besides (`HasLink`, `shell_at?_autolink`, `at?_autolink_of_hasLink`).
-/

namespace Mdx.Node

/-- The node that a path of child indices leads to. -/
def at? : Node → List Nat → Option Node
  | n, [] => some n
  | n, i :: path => n.children[i]?.bind (·.at? path)

/-- A node apart from what is in its children: what it is itself, and how many children it has if it is no leaf. -/
def shell (n : Node) : NodeHead × Option Nat :=
  (n.head, n.children?.map List.length)

end Mdx.Node

namespace Mdx.Extended

open Mdx.Node (flatten_eq mem_flatten)

/-! ### Addresses of images -/

/-- A web address: a scheme, and then at least one character, none of them blank. -/
def IsWebAddress (url : List Char) : Prop :=
  ∃ rest : List Char, (url = ['h', 't', 't', 'p', ':', '/', '/'] ++ rest ∨
    url = ['h', 't', 't', 'p', 's', ':', '/', '/'] ++ rest) ∧ rest ≠ [] ∧ ∀ c ∈ rest, Text.isBlank c = false

/-- The text is blank around the address of an image: a web address that, before any question mark and whatever the
case of its letters, ends in a dot and one of the file extensions. -/
def HoldsAddress (extensions : List String) (text url : List Char) : Prop :=
  (∃ before after : List Char, text = before ++ (url ++ after) ∧
    (∀ c ∈ before, Text.isBlank c = true) ∧ ∀ c ∈ after, Text.isBlank c = true) ∧
  IsWebAddress url ∧ ∃ ext ∈ extensions, extensionSuffix ext <:+ Text.lower (url.takeWhile (· != '?'))

/-- A paragraph that has nothing in it but the address of an image. -/
def LoneAddress (extensions : List String) (n : Node) (url : List Char) : Prop :=
  n.kind = "paragraph" ∧
    ∃ t : Node, n.children = [t] ∧ t.kind = "text" ∧ HoldsAddress extensions t.text.toList url

/-- At this place of the tree is a paragraph that has nothing in it but the address of an image and is in no other
paragraph. -/
def HasLink (extensions : List String) (tree : Node) (place : List Nat) (url : List Char) : Prop :=
  ∃ p : Node, tree.at? place = some p ∧ LoneAddress extensions p url ∧
    ∀ (q : List Nat) (x : Node), q <+: place → q ≠ place → tree.at? q = some x → x.kind ≠ "paragraph"

theorem afterScheme?_eq_some_iff {url rest : List Char} :
    afterScheme? url = some rest ↔ url = ['h', 't', 't', 'p', ':', '/', '/'] ++ rest ∨
      url = ['h', 't', 't', 'p', 's', ':', '/', '/'] ++ rest := by
  constructor
  · intro h
    unfold afterScheme? at h
    split at h
    · cases h
      exact .inl rfl
    · cases h
      exact .inr rfl
    · cases h
  · rintro (rfl | rfl) <;> rfl

theorem isWebAddress_iff {url : List Char} : isWebAddress url = true ↔ IsWebAddress url := by
  have hrest : ∀ rest : List Char, (!rest.isEmpty && rest.all (!Text.isBlank ·)) = true ↔
      rest ≠ [] ∧ ∀ c ∈ rest, Text.isBlank c = false := by
    intro rest
    simp only [Bool.and_eq_true, Bool.not_eq_true', List.isEmpty_eq_false_iff, List.all_eq_true]
  constructor
  · intro h
    rw [isWebAddress] at h
    cases hscheme : afterScheme? url with
    | none => rw [hscheme] at h; cases h
    | some rest =>
      rw [hscheme] at h
      exact ⟨rest, afterScheme?_eq_some_iff.mp hscheme, (hrest rest).mp h⟩
  · rintro ⟨rest, hscheme, h⟩
    rw [isWebAddress, afterScheme?_eq_some_iff.mpr hscheme]
    exact (hrest rest).mpr h

theorem IsWebAddress.ends {url : List Char} (h : IsWebAddress url) :
    url.head?.any Text.isBlank = false ∧ url.getLast?.any Text.isBlank = false := by
  obtain ⟨rest, hurl, hne, hrest⟩ := h
  have hlast : rest.getLast?.any Text.isBlank = false := by
    rw [List.getLast?_eq_some_getLast hne]
    exact hrest _ (List.getLast_mem hne)
  rcases hurl with rfl | rfl
  · exact ⟨rfl, by rw [List.getLast?_append_of_ne_nil _ hne]; exact hlast⟩
  · exact ⟨rfl, by rw [List.getLast?_append_of_ne_nil _ hne]; exact hlast⟩

/-- A text is trimmed to what stands between blanks, if that does not start in one nor end in one. -/
theorem trim_eq {before x after : List Char} (hbefore : ∀ c ∈ before, Text.isBlank c = true)
    (hafter : ∀ c ∈ after, Text.isBlank c = true) (hfirst : x.head?.any Text.isBlank = false)
    (hlast : x.getLast?.any Text.isBlank = false) (hne : x ≠ []) :
    Text.trim (before ++ (x ++ after)) = x := by
  have hstart : (x ++ after).head?.any Text.isBlank = false := by
    rw [List.head?_append_of_ne_nil _ hne]
    exact hfirst
  rw [Text.trim, Text.trimStart, dropWhile_append_of_head? hbefore hstart, Text.trimEnd, Text.dropEndWhile,
    List.reverse_append, dropWhile_append_of_head?, List.reverse_reverse]
  · exact fun c hc => hafter c (List.mem_reverse.mp hc)
  · rw [List.head?_reverse]
    exact hlast

theorem exists_trim_eq (text : List Char) : ∃ before after : List Char,
    text = before ++ (Text.trim text ++ after) ∧
      (∀ c ∈ before, Text.isBlank c = true) ∧ ∀ c ∈ after, Text.isBlank c = true := by
  obtain ⟨after, hafter, hblank⟩ := Script.exists_trimEnd_append (Text.trimStart text)
  refine ⟨text.takeWhile Text.isBlank, after, ?_, fun c hc => List.mem_takeWhile_imp hc, hblank⟩
  rw [Text.trim, ← hafter, Text.trimStart, List.takeWhile_append_dropWhile]

/-- **A text holds the address of an image** exactly if that is what is left of it between blanks. -/
theorem holdsAddress_iff {extensions : List String} {text url : List Char} :
    HoldsAddress extensions text url ↔
      url = Text.trim text ∧ isImageAddress extensions (Text.trim text) = true := by
  have haddress : ∀ url : List Char, isImageAddress extensions url = true ↔ IsWebAddress url ∧
      ∃ ext ∈ extensions, extensionSuffix ext <:+ Text.lower (url.takeWhile (· != '?')) := by
    intro url
    rw [isImageAddress, Bool.and_eq_true, isWebAddress_iff, List.any_eq_true]
    simp only [List.isSuffixOf_iff_suffix]
  rw [haddress]
  constructor
  · rintro ⟨⟨before, after, rfl, hbefore, hafter⟩, hweb, hext⟩
    have hne : url ≠ [] := by
      obtain ⟨rest, rfl | rfl, -⟩ := hweb <;> exact List.cons_ne_nil _ _
    have htrim := trim_eq hbefore hafter hweb.ends.1 hweb.ends.2 hne
    exact ⟨htrim.symm, htrim.symm ▸ hweb, htrim.symm ▸ hext⟩
  · rintro ⟨rfl, hweb, hext⟩
    exact ⟨exists_trim_eq text, hweb, hext⟩

/-! ### The content of paragraphs -/

theorem isImageAddress_append (xs ys : List String) (url : List Char) :
    isImageAddress (xs ++ ys) url = (isImageAddress xs url || isImageAddress ys url) := by
  simp only [isImageAddress, List.any_append, Bool.and_or_distrib_left]

section LinkImage

variable {extensions : List String}

theorem linkImage_of_isImageAddress {n : Node} (hk : n.kind = "text")
    (h : isImageAddress extensions (Text.trim n.text.toList) = true) :
    linkImage extensions [n] = [imageNode (Text.trim n.text.toList)] := by
  rw [linkImage, hk, h]
  rfl

theorem linkImage_eq_self {cs : List Node} (h : ∀ n : Node, cs = [n] → n.kind = "text" →
    isImageAddress extensions (Text.trim n.text.toList) = false) : linkImage extensions cs = cs := by
  unfold linkImage
  split
  next n =>
    refine if_neg fun hboth => ?_
    rw [Bool.and_eq_true, decide_eq_true_eq] at hboth
    rw [h n rfl hboth.1] at hboth
    cases hboth.2
  next => rfl

/-- **The content of a paragraph** is the address of an image, which becomes the image, or stays as it is. -/
theorem linkImage_cases (extensions : List String) (cs : List Node) :
    (∃ n : Node, cs = [n] ∧ n.kind = "text" ∧
      isImageAddress extensions (Text.trim n.text.toList) = true) ∨
    ∀ n : Node, cs = [n] → n.kind = "text" →
      isImageAddress extensions (Text.trim n.text.toList) = false := by
  by_cases h : ∃ n : Node, cs = [n] ∧ n.kind = "text" ∧
      isImageAddress extensions (Text.trim n.text.toList) = true
  · exact .inl h
  · refine .inr fun n hcs hk => Bool.eq_false_iff.mpr fun hn => h ⟨n, hcs, hk, hn⟩

theorem length_linkImage (cs : List Node) : (linkImage extensions cs).length = cs.length := by
  rcases linkImage_cases extensions cs with ⟨n, rfl, hk, h⟩ | h
  · rw [linkImage_of_isImageAddress hk h]
    rfl
  · rw [linkImage_eq_self h]

theorem linkImage_imageNode (url : List Char) : linkImage extensions [imageNode url] = [imageNode url] :=
  rfl

theorem linkImage_congr {xs ys : List String}
    (h : ∀ url : List Char, isImageAddress xs url = isImageAddress ys url) (cs : List Node) :
    linkImage xs cs = linkImage ys cs := by
  unfold linkImage
  simp only [h]

theorem linkImage_linkImage (xs ys : List String) (cs : List Node) :
    linkImage ys (linkImage xs cs) = linkImage (xs ++ ys) cs := by
  rcases linkImage_cases xs cs with ⟨n, rfl, hk, h⟩ | h
  · have hboth : isImageAddress (xs ++ ys) (Text.trim n.text.toList) = true := by
      rw [isImageAddress_append, h, Bool.true_or]
    rw [linkImage_of_isImageAddress hk h, linkImage_imageNode, linkImage_of_isImageAddress hk hboth]
  · rw [linkImage_eq_self h]
    rcases linkImage_cases ys cs with ⟨n, rfl, hk, hy⟩ | hy
    · have hboth : isImageAddress (xs ++ ys) (Text.trim n.text.toList) = true := by
        rw [isImageAddress_append, hy, Bool.or_true]
      rw [linkImage_of_isImageAddress hk hy, linkImage_of_isImageAddress hk hboth]
    · rw [linkImage_eq_self hy, linkImage_eq_self]
      intro n hcs hk
      rw [isImageAddress_append, h n hcs hk, hy n hcs hk, Bool.or_false]

end LinkImage

/-! ### Trees -/

section Tree

variable {extensions : List String}

theorem autolink_paragraph {h : NodeHead} (hk : h.kind = "paragraph") (cs : List Node) :
    autolink extensions (.branch h cs) = .branch h (linkImage extensions cs) := by
  rw [autolink, if_pos hk]

theorem autolink_other {h : NodeHead} (hk : h.kind ≠ "paragraph") (cs : List Node) :
    autolink extensions (.branch h cs) = .branch h (cs.map (autolink extensions)) := by
  rw [autolink, if_neg hk, autolinkList_eq_map]

/-- Which images are linked depends only on which texts are their addresses. -/
theorem autolink_congr {xs ys : List String}
    (h : ∀ url : List Char, isImageAddress xs url = isImageAddress ys url) (tree : Node) :
    autolink xs tree = autolink ys tree := by
  induction tree using Node.induction with
  | step n ih =>
    cases n with
    | leaf head => rfl
    | branch head cs =>
      by_cases hk : head.kind = "paragraph"
      · rw [autolink_paragraph hk, autolink_paragraph hk, linkImage_congr h]
      · rw [autolink_other hk, autolink_other hk]
        exact congrArg _ (List.map_congr_left ih)

/-- **Links for two lists of extensions, one after the other, are links for both.** -/
theorem autolink_autolink (xs ys : List String) (tree : Node) :
    autolink ys (autolink xs tree) = autolink (xs ++ ys) tree := by
  induction tree using Node.induction with
  | step n ih =>
    cases n with
    | leaf head => rfl
    | branch head cs =>
      by_cases hk : head.kind = "paragraph"
      · rw [autolink_paragraph hk, autolink_paragraph hk, autolink_paragraph hk, linkImage_linkImage]
      · rw [autolink_other hk, autolink_other hk, autolink_other hk, List.map_map]
        exact congrArg _ (List.map_congr_left ih)

theorem autolink_append_comm (xs ys : List String) (tree : Node) :
    autolink (xs ++ ys) tree = autolink (ys ++ xs) tree := by
  refine autolink_congr (fun url => ?_) tree
  rw [isImageAddress_append, isImageAddress_append, Bool.or_comm]

theorem autolink_append_self (xs : List String) (tree : Node) :
    autolink (xs ++ xs) tree = autolink xs tree := by
  refine autolink_congr (fun url => ?_) tree
  rw [isImageAddress_append, Bool.or_self]

/-- **The only kind that comes in is that of images.** -/
theorem kind_of_mem_autolink {tree x : Node} (hx : x ∈ (autolink extensions tree).flatten) :
    x.kind = "image" ∨ ∃ y ∈ tree.flatten, x.kind = y.kind := by
  induction tree using Node.induction generalizing x with
  | step n ih =>
    rcases mem_flatten.mp hx with rfl | ⟨c, hc, hxc⟩
    · exact .inr ⟨n, mem_flatten.mpr (.inl rfl), kind_autolink n⟩
    rcases children_autolink extensions n with ⟨-, hsame | ⟨url, hurl⟩⟩ | ⟨-, hmap⟩
    · rw [hsame] at hc
      exact .inr ⟨x, mem_flatten.mpr (.inr ⟨c, hc, hxc⟩), rfl⟩
    · rw [hurl, List.mem_singleton] at hc
      subst hc
      rw [flatten_eq, imageNode, Node.children, Node.flattenStack_nil, List.mem_singleton] at hxc
      exact .inl (congrArg Node.kind hxc)
    · rw [hmap] at hc
      obtain ⟨b, hb, rfl⟩ := List.mem_map.mp hc
      refine (ih b hb hxc).imp_right ?_
      rintro ⟨y, hy, hkind⟩
      exact ⟨y, mem_flatten.mpr (.inr ⟨b, hb, hy⟩), hkind⟩

theorem validate_autolink {tree : Node} {stage : String}
    (h : tree.validate Vocabulary.extended stage = .ok ()) :
    (autolink extensions tree).validate Vocabulary.extended stage = .ok () := by
  obtain ⟨hroot, hkinds⟩ := Node.validate_eq_ok_iff.mp h
  refine Node.validate_eq_ok_iff.mpr ⟨(kind_autolink tree).trans hroot, fun x hx => ?_⟩
  rcases kind_of_mem_autolink hx with hk | ⟨y, hy, hk⟩
  · rw [hk]
    decide
  · rw [hk]
    exact hkinds y hy

/-! ### The walk -/

/-- The visitor that makes image links: it changes a paragraph and does not go into it. -/
def imageVisitor (extensions : List String) : Visitor Unit := fun s _ n =>
  (s, if n.kind = "paragraph" then
    { move := .skip, node := n.withChildren (linkImage extensions n.children) }
  else { move := .descend, node := n })

theorem imageVisitor_paragraph (extensions : List String) {n : Node} (hk : n.kind = "paragraph") (s : Unit)
    (ancestors : List Node) : (imageVisitor extensions s ancestors n).2 =
      { move := .skip, node := autolink extensions n } := by
  have hlinked : n.withChildren (linkImage extensions n.children) = autolink extensions n := by
    cases n with
    | leaf h => rfl
    | branch h cs => exact (autolink_paragraph (h := h) hk cs).symm
  rw [imageVisitor, if_pos hk, hlinked]

theorem imageVisitor_other (extensions : List String) {n : Node} (hk : n.kind ≠ "paragraph") (s : Unit)
    (ancestors : List Node) : (imageVisitor extensions s ancestors n).2 = { move := .descend, node := n } := by
  rw [imageVisitor, if_neg hk]

theorem withChildren_autolink {n : Node} (hk : n.kind ≠ "paragraph") :
    n.withChildren (n.children.map (autolink extensions)) = autolink extensions n := by
  cases n with
  | leaf h => rfl
  | branch h cs => exact (autolink_other (h := h) hk cs).symm

/-- **A walk of siblings makes the links of each.** -/
theorem siblings_imageVisitor {bound : Nat} {ns : List Node} (hbound : Node.sizeOfList ns ≤ bound) (s : Unit)
    (ancestors done : List Node) :
    Walk.siblings (imageVisitor extensions) bound s ancestors done ns =
      some (s, done.reverse ++ ns.map (autolink extensions)) := by
  induction bound generalizing ns s ancestors done with
  | zero =>
    cases ns with
    | nil => rw [Walk.siblings_nil, List.map_nil, List.append_nil]
    | cons n rest =>
      rw [Node.sizeOfList, Node.size_eq] at hbound
      omega
  | succ bound ih =>
    cases ns with
    | nil => rw [Walk.siblings_nil, List.map_nil, List.append_nil]
    | cons n rest =>
      rw [Node.sizeOfList, Node.size_eq] at hbound
      have hrest : ∀ done : List Node,
          Walk.siblings (imageVisitor extensions) bound s ancestors done rest =
            some (s, done.reverse ++ rest.map (autolink extensions)) :=
        fun done => ih (by omega) s ancestors done
      by_cases hk : n.kind = "paragraph"
      · have hverdict := imageVisitor_paragraph extensions hk s ancestors
        rw [Walk.siblings_skip _ _ _ (congrArg Verdict.move hverdict), hverdict]
        dsimp only
        rw [List.append_nil]
        refine (hrest _).trans ?_
        rw [List.reverse_cons, List.append_assoc, List.map_cons, List.singleton_append]
      · have hverdict := imageVisitor_other extensions hk s ancestors
        rw [Walk.siblings_descend _ _ _ (congrArg Verdict.move hverdict), hverdict]
        dsimp only
        rw [List.append_nil, ih (by omega), Option.bind_some]
        refine (hrest _).trans ?_
        rw [List.reverse_nil, List.nil_append, withChildren_autolink hk, List.reverse_cons,
          List.append_assoc, List.map_cons, List.singleton_append]

/-- **The links are made by a walk.** -/
theorem walk_imageVisitor {bound : Nat} {tree : Node} (hbound : tree.size ≤ bound + 1) :
    tree.walk (imageVisitor extensions) bound () = some ((), .ok (autolink extensions tree)) := by
  by_cases hk : tree.kind = "paragraph"
  · have hverdict := imageVisitor_paragraph extensions hk () []
    rw [Walk.walk_skip _ (congrArg Verdict.move hverdict), hverdict]
  · have hverdict := imageVisitor_other extensions hk () []
    have hchildren : Node.sizeOfList tree.children ≤ bound := by
      rw [Node.size_eq] at hbound
      omega
    rw [Walk.walk_descend _ (congrArg Verdict.move hverdict), hverdict]
    dsimp only
    rw [siblings_imageVisitor hchildren, Option.map_some, List.reverse_nil, List.nil_append,
      withChildren_autolink hk]

/-! ### What is changed -/

theorem loneAddress_iff {h : NodeHead} (hk : h.kind = "paragraph") {cs : List Node} {url : List Char} :
    LoneAddress extensions (.branch h cs) url ↔ ∃ n : Node, cs = [n] ∧ n.kind = "text" ∧
      url = Text.trim n.text.toList ∧ isImageAddress extensions (Text.trim n.text.toList) = true := by
  simp only [LoneAddress, holdsAddress_iff]
  exact and_iff_right hk

theorem shell_autolink (n : Node) : (autolink extensions n).shell = n.shell := by
  cases n with
  | leaf h => rfl
  | branch h cs =>
    by_cases hk : h.kind = "paragraph"
    · rw [autolink_paragraph hk]
      exact congrArg (fun k => (h, some k)) (length_linkImage cs)
    · rw [autolink_other hk]
      exact congrArg (fun k => (h, some k)) (List.length_map _)

theorem hasLink_nil {tree : Node} {url : List Char} :
    HasLink extensions tree [] url ↔ LoneAddress extensions tree url := by
  constructor
  · rintro ⟨p, hp, hlone, -⟩
    cases hp
    exact hlone
  · intro hlone
    exact ⟨tree, rfl, hlone, fun q x hq hne _ => absurd (List.prefix_nil.mp hq) hne⟩

/-- A link further down is one in a child, if the node itself is no paragraph. -/
theorem hasLink_cons {h : NodeHead} {cs : List Node} {i : Nat} {place : List Nat} {url : List Char} :
    HasLink extensions (.branch h cs) (i :: place) url ↔
      h.kind ≠ "paragraph" ∧ ∃ c : Node, cs[i]? = some c ∧ HasLink extensions c place url := by
  constructor
  · rintro ⟨p, hp, hlone, hfree⟩
    obtain ⟨c, hc, hp⟩ := Option.bind_eq_some_iff.mp hp
    refine ⟨hfree [] _ List.nil_prefix (List.cons_ne_nil i place).symm rfl, c, hc, p, hp, hlone, ?_⟩
    intro q x hq hne hx
    refine hfree (i :: q) x (List.cons_prefix_cons.mpr ⟨rfl, hq⟩) (fun heq => hne (List.cons.inj heq).2) ?_
    exact Option.bind_eq_some_iff.mpr ⟨c, hc, hx⟩
  · rintro ⟨hk, c, hc, p, hp, hlone, hfree⟩
    refine ⟨p, Option.bind_eq_some_iff.mpr ⟨c, hc, hp⟩, hlone, ?_⟩
    intro q x hq hne hx
    cases q with
    | nil => cases hx; exact hk
    | cons j q =>
      obtain ⟨rfl, hrest⟩ := List.cons_prefix_cons.mp hq
      obtain ⟨d, hd, hx⟩ := Option.bind_eq_some_iff.mp hx
      obtain rfl : c = d := Option.some.inj (hc.symm.trans hd)
      exact hfree q x hrest (fun heq => hne (congrArg (j :: ·) heq)) hx

/-- **Whatever is not the address of a link is left as it is.** -/
theorem shell_at?_autolink {tree : Node} {path : List Nat}
    (h : ∀ (place below : List Nat) (url : List Char), path = place ++ 0 :: below →
      ¬ HasLink extensions tree place url) :
    ((autolink extensions tree).at? path).map Node.shell = (tree.at? path).map Node.shell := by
  induction path generalizing tree with
  | nil => exact congrArg some (shell_autolink tree)
  | cons i path ih =>
    cases tree with
    | leaf head => rfl
    | branch head cs =>
      by_cases hk : head.kind = "paragraph"
      · rw [autolink_paragraph hk]
        rcases linkImage_cases extensions cs with ⟨n, rfl, hn, haddress⟩ | hself
        · cases i with
          | zero =>
            have hlone := (loneAddress_iff hk).mpr ⟨n, rfl, hn, rfl, haddress⟩
            exact absurd (hasLink_nil.mpr hlone) (h [] path _ rfl)
          | succ i =>
            rw [linkImage_of_isImageAddress hn haddress]
            rfl
        · rw [linkImage_eq_self hself]
      · rw [autolink_other hk, Node.at?, Node.at?, Node.children, Node.children, List.getElem?_map]
        cases hc : cs[i]? with
        | none => rfl
        | some c =>
          refine ih fun place below url hpath hlink => ?_
          exact h (i :: place) below url (congrArg (i :: ·) hpath) (hasLink_cons.mpr ⟨hk, c, hc, hlink⟩)

/-- **The address of a link becomes the image.** -/
theorem at?_autolink_of_hasLink {tree : Node} {place : List Nat} {url : List Char}
    (h : HasLink extensions tree place url) :
    (autolink extensions tree).at? (place ++ [0]) = some (imageNode url) := by
  induction place generalizing tree with
  | nil =>
    have hlone := hasLink_nil.mp h
    cases tree with
    | leaf head =>
      obtain ⟨-, t, hchildren, -⟩ := hlone
      cases hchildren
    | branch head cs =>
      have hk : head.kind = "paragraph" := hlone.1
      obtain ⟨n, rfl, hn, rfl, haddress⟩ := (loneAddress_iff hk).mp hlone
      rw [autolink_paragraph hk, linkImage_of_isImageAddress hn haddress]
      rfl
  | cons i place ih =>
    cases tree with
    | leaf head =>
      obtain ⟨p, hp, -⟩ := h
      cases hp
    | branch head cs =>
      obtain ⟨hk, c, hc, hlink⟩ := hasLink_cons.mp h
      rw [autolink_other hk, List.cons_append, Node.at?, Node.children, List.getElem?_map, hc]
      exact ih hlink

end Tree

/-! ### The transform -/

theorem textList?_map_str (texts : List String) : Config.textList? (texts.map .str) = some texts := by
  induction texts with
  | nil => rfl
  | cons s rest ih => rw [List.map_cons, Config.textList?, ih]; rfl

theorem readExtensions_listed {settings : Json.Members} {extensions : List String}
    (hs : settings.lookup "image_extensions" = some (.arr (extensions.map .str))) :
    readExtensions settings = .ok extensions := by
  have hread : imageSchema.read settings = .ok [("image_extensions", .arr (extensions.map .str))] := by
    simp [imageSchema, Config.Schema.read, Config.Setting.read, Config.SettingType.read?, hs,
      textList?_map_str, bind, Except.bind, pure, Except.pure]
  rw [readExtensions, hread]
  show Except.ok ((Config.textList? (extensions.map .str)).getD []) = _
  rw [textList?_map_str, Option.getD_some]

/-- **Image links compose.**  The transform with a list of extensions in its settings makes the links for these, as
a walk does that changes paragraphs.  For two lists, in either order, it makes the links for both at once; a
second time it changes nothing; and a valid tree stays valid.  The address of a link becomes the image, and whatever
is not the address of a link is left as it is. -/
theorem image_links_compose (xs ys : List String) (tree : Node) :
    (∀ (context : Context) (settings : Json.Members), context.settings = .sound settings →
      settings.lookup "image_extensions" = some (.arr (xs.map .str)) →
      imageAutolink.apply (.ofNode tree) context = ⟨.ofNode (autolink xs tree), context, .nothing⟩) ∧
    (∀ bound : Nat, tree.size ≤ bound + 1 →
      tree.walk (imageVisitor xs) bound () = some ((), .ok (autolink xs tree))) ∧
    autolink ys (autolink xs tree) = autolink (xs ++ ys) tree ∧
    autolink xs (autolink ys tree) = autolink (xs ++ ys) tree ∧
    autolink xs (autolink xs tree) = autolink xs tree ∧
    (∀ stage : String, tree.validate Vocabulary.extended stage = .ok () →
      (autolink xs tree).validate Vocabulary.extended stage = .ok ()) ∧
    (∀ path : List Nat,
      (∀ (place below : List Nat) (url : List Char), path = place ++ 0 :: below →
        ¬ HasLink xs tree place url) →
      ((autolink xs tree).at? path).map Node.shell = (tree.at? path).map Node.shell) ∧
    (∀ (place : List Nat) (url : List Char), HasLink xs tree place url →
      (autolink xs tree).at? (place ++ [0]) = some (imageNode url)) := by
  refine ⟨fun context settings hc hs => ?_, fun bound => walk_imageVisitor, autolink_autolink xs ys tree, ?_, ?_,
    fun stage => validate_autolink, fun path => shell_at?_autolink,
    fun place url => at?_autolink_of_hasLink⟩
  · exact Compiler.apply_imageAutolink hc (readExtensions_listed hs)
  · rw [autolink_autolink, autolink_append_comm]
  · rw [autolink_autolink, autolink_append_self]

/-- A quotation with the address of an image, and a paragraph with one among other things. -/
def quotedAddress : Node :=
  .ofChildren
    [.branch { kind := "blockquote" }
      [.branch { kind := "paragraph" } [.ofText " https://x.org/Y.PNG?v=2\n" none]],
     .branch { kind := "paragraph" } [.ofText "https://x.org/y.png" none, .leaf { kind := "break" }]]

theorem hasLink_quotedAddress :
    HasLink [".png"] quotedAddress [0, 0] "https://x.org/Y.PNG?v=2".toList := by
  refine hasLink_cons.mpr ⟨by decide, _, rfl, hasLink_cons.mpr ⟨by decide, _, rfl, hasLink_nil.mpr ?_⟩⟩
  refine ⟨rfl, _, rfl, rfl, holdsAddress_iff.mpr ?_⟩
  decide +kernel

/-- The address in the quotation becomes an image, and the other paragraph keeps its text. -/
theorem image_links_compose_quoted :
    quotedAddress.validate Vocabulary.extended "stage1" = .ok () ∧
    HasLink [".png"] quotedAddress [0, 0] "https://x.org/Y.PNG?v=2".toList ∧
    (autolink [".png"] quotedAddress).validate Vocabulary.extended "stage1" = .ok () ∧
    (autolink [".png"] quotedAddress).at? [0, 0, 0] = some (imageNode "https://x.org/Y.PNG?v=2".toList) ∧
    ((autolink [".png"] quotedAddress).at? [1, 0]).map Node.shell =
      some ({ kind := "text", value := some "https://x.org/y.png" }, none) ∧
    autolink ["gif"] (autolink [".png"] quotedAddress) = autolink [".png", "gif"] quotedAddress := by
  obtain ⟨-, -, hboth, -, -, hvalid, hkept, hlinked⟩ := image_links_compose [".png"] ["gif"] quotedAddress
  have hstart : quotedAddress.validate Vocabulary.extended "stage1" = .ok () :=
    eq_ok_of_toOption (by decide +kernel)
  refine ⟨hstart, hasLink_quotedAddress, hvalid "stage1" hstart, hlinked [0, 0] _ hasLink_quotedAddress,
    hkept [1, 0] ?_, hboth⟩
  intro place below url hpath hlink
  -- the path leads to the first of two children of the last paragraph
  obtain rfl : place = [1] := by
    cases place with
    | nil => cases hpath
    | cons i place =>
      cases place with
      | nil => cases hpath; rfl
      | cons j place =>
        have hrest := (List.cons.inj (List.cons.inj hpath).2).2
        exact absurd hrest.symm (List.append_ne_nil_of_right_ne_nil _ (List.cons_ne_nil 0 below))
  obtain ⟨-, c, hc, hlink⟩ := hasLink_cons.mp hlink
  cases hc
  obtain ⟨-, t, hchildren, -⟩ := hasLink_nil.mp hlink
  cases hchildren

end Mdx.Extended
