import Mdx.Proofs.Markup.Derivation

/-!
# Markup keeps what a document says

What a document says is in its texts and its pieces of code, and in the embedded elements and
statements that it keeps whole.  `read rule n` lists these from left to right, where `rule` tells how
the nodes of each kind are read: `extendedReading` for the tree of a document, `markupReading` for a
tree of markup.

The two readings give the same list (`Maps.readAll_eq`).  Reading is additive on lists of nodes
(`readAll_append`) and looks through elements (`read_elementFor`), so neither the paragraphs that a
tight item gives up nor the sections of a table, nor the two elements around a piece of code, change
what is read.
-/

namespace Mdx.Markup

/-- A piece of what a document says. -/
inductive Payload where
  /-- A text of some kind.  A value that is no text counts as it is written. -/
  | text (kind : String) (value : Json)
  /-- A node as it stands, with all that is in it. -/
  | whole (n : Node)

/-- How a node is read. -/
inductive Reading where
  /-- As a text of this kind. -/
  | text (kind : String)
  /-- As it stands. -/
  | whole
  /-- Not at all. -/
  | nothing
  /-- Through its children. -/
  | inside
deriving DecidableEq

/-- The text of a node, an empty one if there is none. -/
def textOf (h : NodeHead) : Json :=
  h.misfit?.getD (.str (h.value.getD ""))

mutual

/-- What a tree says, from left to right. -/
def read (rule : String → Reading) : Node → List Payload
  | .leaf h =>
      match rule h.kind with
      | .text kind => [.text kind (textOf h)]
      | .whole => [.whole (.leaf h)]
      | .nothing => []
      | .inside => []
  | .branch h cs =>
      match rule h.kind with
      | .text kind => [.text kind (textOf h)]
      | .whole => [.whole (.branch h cs)]
      | .nothing => []
      | .inside => readAll rule cs

/-- What trees say, one after another. -/
def readAll (rule : String → Reading) : List Node → List Payload
  | [] => []
  | n :: rest => read rule n ++ readAll rule rest

end

/-- The tree of a document: texts and code, what is kept whole, nothing of images, and the children of
all else. -/
def extendedReading (kind : String) : Reading :=
  match kind with
  | "text" => .text "text"
  | "inlineCode" => .text "inlineCode"
  | "code" => .text "text"
  | "jsx" => .whole
  | "import" => .whole
  | "export" => .whole
  | "image" => .nothing
  | _ => .inside

/-- A tree of markup: texts, what is kept whole, and the children of elements. -/
def markupReading (kind : String) : Reading :=
  match kind with
  | "text" => .text "text"
  | "inlineCode" => .text "inlineCode"
  | "jsx" => .whole
  | "import" => .whole
  | "export" => .whole
  | "root" => .inside
  | "element" => .inside
  | _ => .nothing

/-! ### Reading nodes -/

section Read

variable {rule : String → Reading} {n : Node}

theorem read_text {kind : String} (h : rule n.kind = .text kind) :
    read rule n = [.text kind (textOf n.head)] := by
  cases n with
  | leaf head =>
    have h' : rule head.kind = .text kind := h
    rw [read, h']
    rfl
  | branch head cs =>
    have h' : rule head.kind = .text kind := h
    rw [read, h']
    rfl

theorem read_whole (h : rule n.kind = .whole) : read rule n = [.whole n] := by
  cases n with
  | leaf head =>
    have h' : rule head.kind = .whole := h
    rw [read, h']
  | branch head cs =>
    have h' : rule head.kind = .whole := h
    rw [read, h']

theorem read_nothing (h : rule n.kind = .nothing) : read rule n = [] := by
  cases n with
  | leaf head =>
    have h' : rule head.kind = .nothing := h
    rw [read, h']
  | branch head cs =>
    have h' : rule head.kind = .nothing := h
    rw [read, h']

theorem read_inside (h : rule n.kind = .inside) : read rule n = readAll rule n.children := by
  cases n with
  | leaf head =>
    have h' : rule head.kind = .inside := h
    rw [read, h', Node.children, readAll]
  | branch head cs =>
    have h' : rule head.kind = .inside := h
    rw [read, h', Node.children]

theorem readAll_cons (rule : String → Reading) (n : Node) (rest : List Node) :
    readAll rule (n :: rest) = read rule n ++ readAll rule rest := by
  rw [readAll]

theorem readAll_singleton (rule : String → Reading) (n : Node) : readAll rule [n] = read rule n := by
  rw [readAll, readAll, List.append_nil]

theorem readAll_append (rule : String → Reading) (xs ys : List Node) :
    readAll rule (xs ++ ys) = readAll rule xs ++ readAll rule ys := by
  induction xs with
  | nil => rw [readAll, List.nil_append, List.nil_append]
  | cons n rest ih => rw [List.cons_append, readAll_cons, readAll_cons, ih, List.append_assoc]

end Read

/-! ### Reading the tree of a document -/

theorem reading_special {kind : String} (h : kind ∈ Vocabulary.special) :
    extendedReading kind = .whole ∧ markupReading kind = .whole := by
  have hall : ∀ kind ∈ Vocabulary.special,
      extendedReading kind = .whole ∧ markupReading kind = .whole := by decide
  exact hall kind h

theorem extendedReading_inside {kind : String} {s : Shape} {role : Role} (hf : s.Fits kind)
    (hn : s.role? = some role) : extendedReading kind = .inside := by
  have hwrapped : ∀ kind ∈ wrappedKinds, extendedReading kind = .inside := by decide
  cases s with
  | kept | text | code | image => cases hn
  | wrapped tag properties => exact hwrapped kind hf.1
  | list tag properties tight =>
    rw [show kind = "list" from hf.1]
    rfl
  | item tight =>
    rw [show kind = "listItem" from hf]
    rfl
  | table aligns =>
    rw [show kind = "table" from hf]
    rfl
  | row =>
    rw [show kind = "tableRow" from hf]
    rfl

/-! ### Reading markup -/

theorem read_elementFor (h : NodeHead) (tag : String) (properties : Json.Members)
    (cs : List Node) :
    read markupReading (elementFor h tag properties cs) = readAll markupReading cs :=
  read_inside rfl

theorem read_element (tag : String) (properties : Json.Members) (position : Option Position)
    (cs : List Node) :
    read markupReading (Node.element tag properties position cs) = readAll markupReading cs :=
  read_inside rfl

theorem readAll_tableSections (rows : List Node) :
    readAll markupReading (tableSections rows) = readAll markupReading rows := by
  rcases rows with _ | ⟨first, _ | ⟨second, rest⟩⟩
  · rfl
  · rw [tableSections, readAll_singleton, read_element]
  · rw [tableSections, readAll_cons, readAll_singleton, read_element, read_element,
      readAll_singleton, ← readAll_cons]
    · intro h
      cases h

theorem textOf_textLeaf (kind : String) (position : Option Position) (h : NodeHead) :
    textOf (textLeaf kind position h).head = textOf h := by
  rw [textLeaf]
  cases hm : h.misfit? with
  | none =>
    show Json.str (h.value.getD "") = textOf h
    rw [textOf, hm]
    rfl
  | some v =>
    have hkeep : (some v).filter (fun v : Json => !v.isEmpty) = some v := by
      unfold NodeHead.misfit? at hm
      split at hm
      · cases hm
      · exact Option.filter_eq_some_iff.mpr ⟨rfl, (Option.filter_eq_some_iff.mp hm).2⟩
    rw [textOf, textOf, hm]
    show ((some v).filter fun v : Json => !v.isEmpty).getD _ = v
    rw [hkeep]
    rfl

theorem read_textLeaf {kind : String} (hk : kind = "text" ∨ kind = "inlineCode")
    (position : Option Position) (h : NodeHead) :
    read markupReading (textLeaf kind position h) = [.text kind (textOf h)] := by
  have hkind : (textLeaf kind position h).kind = kind := by
    rw [textLeaf]
    split <;> rfl
  have hrule : markupReading (textLeaf kind position h).kind = .text kind := by
    rw [hkind]
    rcases hk with rfl | rfl <;> rfl
  rw [read_text hrule, textOf_textLeaf]

theorem read_assemble {s : Shape} {role : Role} (hn : s.role? = some role) (h : NodeHead)
    (cs : List Node) : read markupReading (assemble h cs s) = readAll markupReading cs := by
  cases s with
  | kept | text | code | image => cases hn
  | wrapped tag properties => exact read_elementFor h tag properties cs
  | list tag properties tight => exact read_elementFor h tag properties cs
  | item tight => exact read_elementFor h "li" [] cs
  | table aligns =>
    show read markupReading (elementFor h "table" [] (tableSections cs)) = _
    rw [read_elementFor, readAll_tableSections]
  | row => exact read_elementFor h "tr" [] cs

theorem read_assemble_leaf {n : Node} {s : Shape} (hf : s.Fits n.kind) (hk : s ≠ .kept)
    (hn : s.role? = none) :
    read extendedReading n = read markupReading (assemble n.head [] s) := by
  cases s with
  | kept => exact absurd rfl hk
  | wrapped _ _ | list _ _ _ | item _ | table _ | row => cases hn
  | text =>
    have hkind : n.kind = "text" ∨ n.kind = "inlineCode" := hf
    have hrule : extendedReading n.kind = .text n.kind := by
      rcases hkind with h | h <;> rw [h] <;> rfl
    show _ = read markupReading (textLeaf n.kind n.position n.head)
    rw [read_text hrule, read_textLeaf hkind]
  | code =>
    have hrule : extendedReading n.kind = .text "text" := by
      rw [show n.kind = "code" from hf]
      rfl
    show _ = read markupReading (codeNode n.head)
    rw [read_text hrule, codeNode, read_elementFor, readAll_singleton, read_element,
      readAll_singleton, read_textLeaf (.inl rfl)]
  | image =>
    have hrule : extendedReading n.kind = .nothing := by
      rw [show n.kind = "image" from hf]
      rfl
    show _ = read markupReading (elementFor n.head "img" (imageProperties n.head) [])
    rw [read_nothing hrule, read_elementFor, readAll]

/-! ### The markup of a document -/

/-- **Nodes and their markup say the same, in the same order.** -/
theorem Maps.readAll_eq {role : Role} {cs ms : List Node} (h : Maps role cs ms) :
    readAll extendedReading cs = readAll markupReading ms := by
  induction h with
  | nil => rfl
  | @kept role n rest ms hp hs hr ih =>
    obtain ⟨hbefore, hafter⟩ := reading_special (fits_of_shapeOf hs)
    rw [readAll_cons, readAll_cons, ih, read_whole hbefore, read_whole hafter]
  | @leaf role n s rest ms hp hs hk hn hr ih =>
    rw [readAll_cons, readAll_cons, ih, read_assemble_leaf (fits_of_shapeOf hs) hk hn]
  | @node role inner n s rest cs ms hp hs hn hc hr ihc ihr =>
    have hrule : extendedReading n.kind = .inside := extendedReading_inside (fits_of_shapeOf hs) hn
    rw [readAll_cons, readAll_cons, ihr, read_inside hrule, ihc, read_assemble hn]
  | @item tight n rest cs ms hk hc hr ihc ihr =>
    have hrule : extendedReading n.kind = .inside := by rw [hk]; rfl
    rw [readAll_cons, readAll_cons, ihr, read_inside hrule, ihc, read_elementFor]
  | @paragraph n rest cs ms hk hc hr ihc ihr =>
    have hrule : extendedReading n.kind = .inside := by rw [hk]; rfl
    rw [readAll_cons, readAll_append, ihr, read_inside hrule, ihc]
  | @row tag aligns n rest cs ms hk hc hr ihc ihr =>
    have hrule : extendedReading n.kind = .inside := by rw [hk]; rfl
    rw [readAll_cons, readAll_cons, ihr, read_inside hrule, ihc, read_elementFor]
  | @cell tag aligns n rest cs ms hk hc hr ihc ihr =>
    have hrule : extendedReading n.kind = .inside := by rw [hk]; rfl
    rw [readAll_cons, readAll_cons, ihr, read_inside hrule, ihc, read_elementFor]

/-- **The markup of a document says what the document says**, from left to right: every text, every
piece of code and every node that is kept whole, once each and in the same order. -/
theorem markup_keeps_payload (tree m : Node) (h : ofExtended tree = .ok m) :
    read extendedReading tree = read markupReading m := by
  obtain ⟨hv, ms, hms, rfl, -⟩ := ofExtended_eq_ok_iff.mp h
  have hroot : tree.kind = "root" := (Node.validate_eq_ok_iff.mp hv).1
  have hmaps : Maps .nodes tree.children ms := map_eq_ok_iff.mp hms
  have hbefore : extendedReading tree.kind = .inside := by rw [hroot]; rfl
  have hafter : markupReading (rootFor tree ms).kind = .inside := rfl
  rw [read_inside hbefore, read_inside hafter, hmaps.readAll_eq]
  rfl

/-- A text leaf of a kind. -/
def leafOf (kind value : String) : Node :=
  .leaf { kind := kind, value := some value }

/-- A tight list with a piece of code in its item, a table of two rows, an image and an element. -/
def listAndTable : Node :=
  .ofChildren
    [.branch { kind := "list" }
      [.branch { kind := "listItem" }
        [.branch { kind := "paragraph" } [leafOf "text" "a", leafOf "inlineCode" "b"],
         leafOf "code" "c", .leaf { kind := "text" }]],
     .branch { kind := "table" }
      [.branch { kind := "tableRow" } [.branch { kind := "tableCell" } [leafOf "text" "d"]],
       .branch { kind := "tableRow" } [.branch { kind := "tableCell" } [leafOf "text" "e"]]],
     .branch { kind := "image" } [leafOf "text" "f"],
     leafOf "jsx" "<g/>"]

theorem markup_keeps_payload_list_table :
    ∃ m : Node, ofExtended listAndTable = .ok m ∧
      read extendedReading listAndTable = read markupReading m ∧
      read markupReading m =
        [.text "text" (.str "a"), .text "inlineCode" (.str "b"), .text "text" (.str "c"),
         .text "text" (.str ""), .text "text" (.str "d"), .text "text" (.str "e"),
         .whole (leafOf "jsx" "<g/>")] := by
  have hok : (ofExtended listAndTable).isOk = true := by decide +kernel
  obtain ⟨m, hm⟩ := isOk_iff.mp hok
  have hread := markup_keeps_payload listAndTable m hm
  exact ⟨m, hm, hread, hread.symm.trans rfl⟩

end Mdx.Markup
