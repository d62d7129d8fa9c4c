import Mdx.Compiler.Basic
import Mdx.Proofs.Extended.Regular
import Mdx.Proofs.Generic.Regular

/-!
# Accepted documents are compiled

Once the extended tree of a document is there, the default compiler fails in one way only: the document
has two default exports.

The top level of a tree is `Ready` if each of its nodes is a statement, or maps to markup that can be
rendered.  An extended tree is ready (`ready_ofGeneric`), image links keep it so (`Ready.autolink`), and
a ready tree passes the checks, maps to markup (`exists_markup`), and is rendered.
-/

namespace Mdx.Compiler

open Mdx.Extended
open Mdx.Markdown (Syntax)
open Mdx.Markup (Outer Regular)
open Mdx.Module (DefaultExport Renderable plainKinds isContent)
open Mdx.Node (flatten_eq flattenStack mem_flatten mem_flattenStack)

/-! ### Drafts without stray values -/

theorem toNode_ofNode (tree : Node) : (Draft.ofNode tree).toNode = tree := by
  have hnodes : ∀ cs : List Node, Draft.nodes (cs.map .node) = cs := by
    intro cs
    rw [Draft.nodes, List.filterMap_map]
    exact List.filterMap_some
  cases tree with
  | leaf h => rfl
  | branch h cs =>
    show Node.branch h (Draft.nodes (cs.map .node)) = Node.branch h cs
    rw [hnodes]

theorem tree_ofNode (tree : Node) : (Draft.ofNode tree).tree = .ok tree := by
  have hstrays : (Draft.ofNode tree).strays = [] := by
    cases tree with
    | leaf h => rfl
    | branch h cs =>
      show (cs.map DraftItem.node).filterMap _ = []
      rw [List.filterMap_map]
      exact List.filterMap_eq_nil_iff.mpr fun c _ => rfl
  rw [Draft.tree, hstrays, toNode_ofNode]

theorem checkItems_map {vocabulary : List String} {stage : String} {cs : List Node}
    (h : ∀ x ∈ flattenStack cs, x.kind ∈ vocabulary) :
    checkItems vocabulary stage (cs.map .node) = .ok () := by
  induction cs with
  | nil => rfl
  | cons c rest ih =>
    rw [Node.flattenStack_eq_append] at h
    obtain ⟨hc, hrest⟩ := List.forall_mem_append.mp h
    rw [List.map_cons, checkItems, Node.checkKinds_eq_ok_iff.mpr hc]
    exact ih hrest

theorem validate_ofNode {tree : Node} {vocabulary : List String} {stage stage' : String}
    (h : tree.validate vocabulary stage = .ok ()) :
    (Draft.ofNode tree).validate vocabulary stage' = .ok () := by
  obtain ⟨hroot, hkinds⟩ := Node.validate_eq_ok_iff.mp h
  have hhead : checkKind vocabulary stage' tree.head = .ok () := by
    have hmem : tree.head.kind ∈ vocabulary := hkinds tree (mem_flatten.mpr (.inl rfl))
    rw [checkKind, List.contains_iff_mem.mpr hmem, if_pos rfl]
  have hroot' : (Draft.ofNode tree).head.kind = "root" := hroot
  have hhead' : checkKind vocabulary stage' (Draft.ofNode tree).head = .ok () := hhead
  rw [Draft.validate, if_pos hroot', hhead']
  have hitems : (Draft.ofNode tree).items.getD [] = tree.children.map .node := by
    cases tree <;> rfl
  rw [hitems]
  refine checkItems_map fun x hx => hkinds x ?_
  rw [flatten_eq]
  exact List.mem_cons_of_mem tree hx

/-! ### Trees that are ready for markup -/

/-- The kinds in an embedded element. -/
def Embedded (n : Node) : Prop :=
  ∀ x ∈ n.flatten, x.kind ∈ plainKinds

/-- A top-level node that is a statement, or maps to what can be rendered. -/
def Ready (c : Node) : Prop :=
  IsStatement c ∨ Outer Embedded c ∧ ∀ x ∈ c.flatten, Regular x ∧ x.kind ≠ "html"

/-- **The top level of an extended tree is ready.** -/
theorem ready_ofGeneric {source : Option (List Char)} {generic ext : Node}
    (hr : ∀ x ∈ flattenStack generic.children, Regular x)
    (he : ofGeneric source generic = .ok ext) : ∀ c ∈ ext.children, Ready c := by
  intro c hc
  refine (exists_reclassified he hc).imp_right ?_
  rintro ⟨n, hn, hm, hkinds⟩
  refine ⟨hm.outer hkinds fun y _ _ near w hw x hx => ?_,
    hm.regular fun y hy => hr y (mem_flattenStack.mpr ⟨n, hn, hy⟩)⟩
  rcases kind_of_mem_elementOf hw hx with hk | hk <;> rw [hk] <;> decide

theorem Ready.autolink {extensions : List String} {c : Node} (h : Ready c) :
    Ready (autolink extensions c) := by
  rcases h with ⟨head, rfl, hk⟩ | ⟨ho, hr⟩
  · exact .inl ⟨head, rfl, hk⟩
  · refine .inr ⟨outer_autolink (fun w hw x hx heq => ?_) ho, regular_autolink hr⟩
    have hplain := hw x hx
    rw [heq] at hplain
    exact absurd hplain (by decide)

theorem Ready.kind_mem {c x : Node} (h : Ready c) (hx : x ∈ c.flatten) :
    x.kind ∈ Vocabulary.extended := by
  rcases h with ⟨head, rfl, hk⟩ | ⟨-, hr⟩
  · simp only [flatten_eq, Node.children, Node.flattenStack_nil, List.mem_singleton] at hx
    subst hx
    show head.kind ∈ Vocabulary.extended
    rcases hk with hk | hk <;> rw [hk] <;> decide
  · obtain ⟨⟨hshape, -⟩, hne⟩ := hr x hx
    obtain ⟨s, hs⟩ := hshape.resolve_left hne
    exact Markup.kind_mem_extended hs

theorem validate_of_ready {tree : Node} (hroot : tree.kind = "root")
    (h : ∀ c ∈ tree.children, Ready c) (stage : String) :
    tree.validate Vocabulary.extended stage = .ok () := by
  refine Node.validate_eq_ok_iff.mpr ⟨hroot, fun x hx => ?_⟩
  rcases mem_flatten.mp hx with rfl | ⟨c, hc, hxc⟩
  · rw [hroot]
    decide
  · exact (h c hc).kind_mem hxc

/-! ### The markup of a ready tree -/

/-- The markup of a ready node: a statement stays, and all else becomes what can be rendered. -/
def Image (c m : Node) : Prop :=
  IsStatement c ∧ m = c ∨ Outer Embedded c ∧ Renderable Embedded m

theorem Ready.exists_image {c : Node} (h : Ready c) :
    ∃ m : Node, Markup.ofNode c = .ok m ∧ Image c m := by
  rcases h with hs | ⟨ho, hr⟩
  · exact ⟨c, hs.ofNode_eq, .inl ⟨hs, rfl⟩⟩
  · obtain ⟨m, hm⟩ := isOk_iff.mp (Markup.isOk_of_regular hr)
    have hleaf : ∀ head : NodeHead, head.kind = "text" ∨ head.kind = "inlineCode" →
        Embedded (.leaf head) := by
      intro head hk x hx
      simp only [flatten_eq, Node.children, Node.flattenStack_nil, List.mem_singleton] at hx
      subst hx
      show head.kind ∈ plainKinds
      rcases hk with hk | hk <;> rw [hk] <;> decide
    exact ⟨m, hm, .inr ⟨ho, ho.renderable hleaf m hm⟩⟩

theorem exists_images {cs : List Node} (h : ∀ c ∈ cs, Ready c) :
    ∃ ms : List Node, Markup.ofNodes cs = .ok ms ∧ List.Forall₂ Image cs ms := by
  simp only [Markup.ofNodes_eq_ok_iff]
  induction cs with
  | nil => exact ⟨[], .nil, .nil⟩
  | cons c rest ih =>
    obtain ⟨hc, hrest⟩ := List.forall_mem_cons.mp h
    obtain ⟨m, hm, himage⟩ := hc.exists_image
    obtain ⟨ms, hms, himages⟩ := ih hrest
    exact ⟨m :: ms, .cons hm hms, .cons himage himages⟩

theorem kind_mem_markup {m x : Node} (h : Renderable Embedded m) (hx : x ∈ m.flatten) :
    x.kind ∈ Vocabulary.markup := by
  induction h with
  | @plain n hk hp =>
    have hall : ∀ kind ∈ plainKinds, kind ∈ Vocabulary.markup := by decide
    exact hall x.kind (hp x hx)
  | @element n tag hk ht hs hc ih =>
    rcases mem_flatten.mp hx with rfl | ⟨c, hcm, hxc⟩
    · rw [hk]
      decide
    · exact ih c hcm hxc

theorem Image.kind_mem {c m x : Node} (h : Image c m) (hx : x ∈ m.flatten) :
    x.kind ∈ Vocabulary.markup := by
  rcases h with ⟨⟨head, rfl, hk⟩, rfl⟩ | ⟨-, hm⟩
  · simp only [flatten_eq, Node.children, Node.flattenStack_nil, List.mem_singleton] at hx
    subst hx
    show head.kind ∈ Vocabulary.markup
    rcases hk with hk | hk <;> rw [hk] <;> decide
  · exact kind_mem_markup hm hx

theorem Image.exists_render {c m : Node} (h : Image c m) (hm : isContent m = true) :
    ∃ r : String, Module.render none m = .ok r := by
  rcases h with ⟨hs, rfl⟩ | ⟨-, hr⟩
  · rw [hs.isContent_eq] at hm
    cases hm
  · exact hr.exists_render none

theorem Image.defaultExport_iff {c m : Node} (h : Image c m) : DefaultExport m ↔ DefaultExport c := by
  rcases h with ⟨-, rfl⟩ | ⟨ho, hr⟩
  · exact Iff.rfl
  · have hm : m.kind ≠ "export" := by
      cases hr with
      | plain hk _ =>
        intro heq
        rw [heq] at hk
        exact absurd hk (by decide)
      | element hk _ _ _ => rw [hk]; decide
    have hc : c.kind ≠ "export" := by
      cases ho with
      | stop hk _ => rw [hk]; decide
      | go hk _ =>
        intro heq
        rw [heq] at hk
        exact absurd (by decide) hk
    exact ⟨fun hd => absurd hd.1 hm, fun hd => absurd hd.1 hc⟩

theorem countP_defaultExport {cs ms : List Node} (h : List.Forall₂ Image cs ms) :
    ms.countP (DefaultExport ·) = cs.countP (DefaultExport ·) := by
  induction h with
  | nil => rfl
  | cons himage _ ih =>
    rw [List.countP_cons, List.countP_cons, ih]
    simp only [himage.defaultExport_iff]

/-- **A ready tree maps to markup**, which passes the check and in which all that is rendered has a
rendering. -/
theorem exists_markup {tree : Node} (hroot : tree.kind = "root")
    (h : ∀ c ∈ tree.children, Ready c) :
    ∃ markup : Node, Markup.ofExtended tree = .ok markup ∧
      markup.validate Vocabulary.markup "stage2" = .ok () ∧
      List.Forall₂ Image tree.children markup.children := by
  obtain ⟨ms, hms, himages⟩ := exists_images h
  have hvalid : (Markup.rootFor tree ms).validate Vocabulary.markup "stage2" = .ok () := by
    refine Node.validate_eq_ok_iff.mpr ⟨rfl, fun x hx => ?_⟩
    rcases mem_flatten.mp hx with rfl | ⟨m, hm, hxm⟩
    · show "root" ∈ Vocabulary.markup
      decide
    · obtain ⟨c, -, himage⟩ := exists_of_mem_right himages hm
      exact himage.kind_mem hxm
  refine ⟨Markup.rootFor tree ms, ?_, hvalid, himages⟩
  exact Markup.ofExtended_eq_ok_iff.mpr ⟨validate_of_ready hroot h _, ms, hms, rfl, hvalid⟩

/-! ### Transforms -/

theorem run_get_bind {α : Type} (f : Context → Session α) (context : Context) :
    (get >>= f : Session α).run.run context = (f context).run.run context :=
  rfl

theorem transformed_eq_ok {stage stage' : String} {transforms : List Transform}
    {vocabulary : List String} {tree changed : Node} {context : Context} {run : Run}
    (hrun : runTransforms .shared stage transforms (.ofNode tree) context = (run, none))
    (hcurrent : run.current = .ofNode changed)
    (hvalid : changed.validate vocabulary stage' = .ok ()) :
    (Session.transformed stage transforms vocabulary tree).run.run context =
      (.ok changed, run.context) := by
  have hcheck : run.current.validate vocabulary (stage ++ " transforms") = .ok () := by
    rw [hcurrent]
    exact validate_ofNode hvalid
  have htree : run.current.toNode = changed := by
    rw [hcurrent, toNode_ofNode]
  rw [Session.transformed, run_get_bind, hrun]
  dsimp only
  rw [hcheck, htree]
  rfl

theorem transformed_nil {stage stage' : String} {vocabulary : List String} {tree : Node}
    (hvalid : tree.validate vocabulary stage' = .ok ()) (context : Context) :
    (Session.transformed stage [] vocabulary tree).run.run context =
      (.ok tree, { context with stage := some stage }) := by
  have hrun : runTransforms .shared stage [] (.ofNode tree) context =
      (Run.start .shared stage (.ofNode tree) context, none) := rfl
  exact transformed_eq_ok hrun rfl hvalid

theorem runTransforms_single {stage : String} {t : Transform} {tree changed : Draft}
    {context after : Context}
    (h : t.apply tree { context with stage := some stage, current := some t.name } =
      ⟨changed, after, .nothing⟩) :
    ∃ run : Run, runTransforms .shared stage [t] tree context = (run, none) ∧ run.current = changed := by
  let left : Run :=
    { given := changed, context := { after with current := none }, tracer := .shared }
  refine ⟨left.noteApplied stage 0 t.name false, ?_, rfl⟩
  have hstep : Run.step stage 0 t (Run.start .shared stage tree context) =
      (left.noteApplied stage 0 t.name false, none) := by
    unfold Run.step Run.start
    dsimp only [Run.current, Option.getD_none]
    rw [h]
    rfl
  rw [runTransforms, Run.steps, hstep]
  rfl

theorem readExtensions_default {settings : Json.Members}
    (hs : settings.lookup "image_extensions" = none) :
    readExtensions settings = .ok imageExtensions := by
  have hread : imageSchema.read settings =
      .ok [("image_extensions", .arr (imageExtensions.map .str))] := by
    simp [imageSchema, Config.Schema.read, Config.Setting.read, hs, bind, Except.bind, pure,
      Except.pure]
  rw [readExtensions, hread]
  rfl

theorem apply_imageAutolink {tree : Node} {context : Context} {settings : Json.Members}
    {extensions : List String} (hc : context.settings = .sound settings)
    (hread : readExtensions settings = .ok extensions) :
    imageAutolink.apply (.ofNode tree) context =
      ⟨.ofNode (autolink extensions tree), context, .nothing⟩ := by
  have hlinked : imageAutolinked (.ofNode tree) context =
      .ok (.ofNode (autolink extensions tree)) := by
    rw [imageAutolinked, hc, Config.Field.members]
    show (readExtensions settings >>= _) = _
    rw [hread]
    show ((Draft.ofNode tree).tree >>= _) = _
    rw [tree_ofNode]
    rfl
  unfold imageAutolink
  dsimp only
  rw [hlinked]

/-- The tree that the default transforms of the first stage make, with image links or without. -/
theorem exists_transformed {transforms : List Transform} {context : Context}
    {settings : Json.Members} (ext : Node) (ht : transforms = [] ∨ transforms = [imageAutolink])
    (hc : context.settings = .sound settings)
    (hs : settings.lookup "image_extensions" = none) :
    ∃ (run : Run) (changed : Node),
      runTransforms .shared "stage1" transforms (.ofNode ext) context = (run, none) ∧
      run.current = .ofNode changed ∧ (changed = ext ∨ changed = autolink imageExtensions ext) := by
  rcases ht with rfl | rfl
  · exact ⟨_, ext, rfl, rfl, .inl rfl⟩
  · have happly : imageAutolink.apply (.ofNode ext)
        { context with stage := some "stage1", current := some imageAutolink.name } = _ :=
      apply_imageAutolink hc (readExtensions_default hs)
    obtain ⟨run, hrun, hcurrent⟩ := runTransforms_single happly
    exact ⟨run, _, hrun, hcurrent, .inr rfl⟩

/-- Image links below a root leave it ready, and leave its default exports. -/
theorem ready_autolink {extensions : List String} {tree : Node} (hroot : tree.kind = "root")
    (h : ∀ c ∈ tree.children, Ready c) :
    (autolink extensions tree).kind = "root" ∧
      (∀ c ∈ (autolink extensions tree).children, Ready c) ∧
      (autolink extensions tree).children.countP (DefaultExport ·) =
        tree.children.countP (DefaultExport ·) := by
  have hchildren : (autolink extensions tree).children = tree.children.map (autolink extensions) := by
    rcases children_autolink extensions tree with ⟨hk, -⟩ | ⟨-, hmap⟩
    · exact absurd (hroot.symm.trans hk) (by decide)
    · exact hmap
  have hexport : ∀ c : Node, DefaultExport (autolink extensions c) ↔ DefaultExport c := by
    intro c
    rw [DefaultExport, DefaultExport, kind_autolink, Node.text, Node.text, head_autolink]
  refine ⟨(kind_autolink tree).trans hroot, fun c hc => ?_, ?_⟩
  · rw [hchildren] at hc
    obtain ⟨b, hb, rfl⟩ := List.mem_map.mp hc
    exact (h b hb).autolink
  · rw [hchildren, List.countP_map]
    refine List.countP_congr fun c _ => ?_
    simp only [Function.comp_apply, hexport]

/-! ### The default pipeline -/

/-- **Once a document has an extended tree, the default compiler fails only on a second default
export.**  The transforms of the first stage run to their end and leave a valid tree, which maps to
markup; the markup is valid too; and a module is generated unless two of the top-level exports are
default exports. -/
theorem fails_only_on_second_default (text : List Char) (pieces : List Syntax) (generic ext : Node)
    (transforms : List Transform) (context : Context) (settings : Json.Members)
    (runtime : Option String) (hh : Generic.SoundHeadings pieces)
    (hg : Generic.ofSyntax text pieces = .ok generic)
    (he : Extended.ofGeneric (some text) generic = .ok ext)
    (ht : transforms = [] ∨ transforms = [imageAutolink])
    (hc : context.settings = .sound settings)
    (hs : settings.lookup "image_extensions" = none) :
    ∃ (extended markup : Node) (after : Context),
      (Session.transformed "stage1" transforms Vocabulary.extended ext).run.run context =
        (.ok extended, after) ∧
      Markup.ofExtended extended = .ok markup ∧
      (∀ before : Context, ∃ after : Context,
        (Session.transformed "stage2" [] Vocabulary.markup markup).run.run before =
          (.ok markup, after)) ∧
      ((∃ code : String, Module.generate runtime markup = .ok code) ∨
        Module.generate runtime markup = .error (.generation ⟨.secondDefault, none⟩)) ∧
      (Module.generate runtime markup = .error (.generation ⟨.secondDefault, none⟩) ↔
        2 ≤ markup.children.countP (DefaultExport ·)) ∧
      markup.children.countP (DefaultExport ·) = ext.children.countP (DefaultExport ·) := by
  have hready := ready_ofGeneric (Generic.regular_ofSyntax hg hh) he
  have hroot : ext.kind = "root" := by
    obtain ⟨hv, _, hx, hr⟩ := ofGeneric_eq_ok he
    exact (Node.validate_eq_ok_iff.mp (validate_extended hv hx hr)).1
  obtain ⟨run, changed, hrun, hcurrent, hchanged⟩ := exists_transformed ext ht hc hs
  -- With image links or without, the tree after the transforms is ready.
  obtain ⟨hroot', hready', hcount⟩ : changed.kind = "root" ∧ (∀ c ∈ changed.children, Ready c) ∧
      changed.children.countP (DefaultExport ·) = ext.children.countP (DefaultExport ·) := by
    rcases hchanged with rfl | rfl
    · exact ⟨hroot, hready, rfl⟩
    · exact ready_autolink hroot hready
  obtain ⟨markup, hmarkup, hvalid, himages⟩ := exists_markup hroot' hready'
  have hmroot : markup.kind = "root" := (Node.validate_eq_ok_iff.mp hvalid).1
  have hrender : ∀ m ∈ markup.children, isContent m = true →
      ∃ r : String, Module.render none m = .ok r := by
    intro m hm hcontent
    obtain ⟨c, -, himage⟩ := exists_of_mem_right himages hm
    exact himage.exists_render hcontent
  have hcount' := (countP_defaultExport himages).trans hcount
  refine ⟨changed, markup, run.context, ?_, hmarkup, fun before => ?_, ?_, ?_, hcount'⟩
  · exact transformed_eq_ok hrun hcurrent (validate_of_ready hroot' hready' "stage1 transforms")
  · exact ⟨_, transformed_nil hvalid before⟩
  · by_cases hfew : markup.children.countP (DefaultExport ·) ≤ 1
    · exact .inl (Module.exists_generate runtime hmroot hfew hrender)
    · exact .inr (Module.generate_second hmroot (by omega))
  · constructor
    · intro herror
      by_contra hfew
      obtain ⟨code, hcode⟩ := Module.exists_generate runtime hmroot (by omega) hrender
      rw [hcode] at herror
      cases herror
    · exact Module.generate_second hmroot

/-- A heading and two default exports. -/
def twoLayouts : List Syntax :=
  [.node { kind := "heading", tag := "h2", lines := some (0, 1) }
     [.node { kind := "inline" } [.node { kind := "text", content := "t" } []]],
   .node { kind := "paragraph", lines := some (2, 3) }
     [.node { kind := "inline" } [.node { kind := "text", content := "export default a" } []]],
   .node { kind := "paragraph", lines := some (4, 5) }
     [.node { kind := "inline" } [.node { kind := "text", content := "export default b" } []]]]

/-- The text of a heading and two default exports. -/
def twoLayoutsText : List Char :=
  "## t\n\nexport default a\n\nexport default b\n".toList

/-- A document on which the default compiler fails. -/
theorem fails_only_on_second_default_two_layouts :
    ∃ generic ext extended markup : Node,
      Generic.SoundHeadings twoLayouts ∧
      Generic.ofSyntax twoLayoutsText twoLayouts = .ok generic ∧
      Extended.ofGeneric (some twoLayoutsText) generic = .ok ext ∧
      ext.children.countP (DefaultExport ·) = 2 ∧
      (∃ after : Context,
        (Session.transformed "stage1" [imageAutolink] Vocabulary.extended ext).run.run {} =
          (.ok extended, after)) ∧
      Markup.ofExtended extended = .ok markup ∧
      Module.generate none markup = .error (.generation ⟨.secondDefault, none⟩) := by
  have hh : Generic.SoundHeadings twoLayouts := by
    simp [twoLayouts, Generic.soundHeadings_cons, Generic.soundHeadings_nil, Syntax.children,
      Syntax.kind, Syntax.head, Generic.headingTags]
  have hcount : ((Generic.ofSyntax twoLayoutsText twoLayouts).toOption.bind fun generic =>
      (Extended.ofGeneric (some twoLayoutsText) generic).toOption.map fun ext =>
        ext.children.countP (DefaultExport ·)) = some 2 := by
    decide +kernel
  obtain ⟨generic, hgeneric, hcount⟩ := Option.bind_eq_some_iff.mp hcount
  obtain ⟨ext, hext, hcount⟩ := Option.map_eq_some_iff.mp hcount
  have hg := eq_ok_of_toOption hgeneric
  have he := eq_ok_of_toOption hext
  obtain ⟨extended, markup, after, htransformed, hmarkup, -, -, hiff, hsame⟩ :=
    fails_only_on_second_default twoLayoutsText twoLayouts generic ext [imageAutolink] {} [] none hh hg
      he (.inr rfl) rfl rfl
  refine ⟨generic, ext, extended, markup, hh, hg, he, hcount, ⟨after, htransformed⟩, hmarkup, ?_⟩
  exact hiff.mpr (by rw [hsame, hcount])

end Mdx.Compiler
