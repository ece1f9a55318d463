import Mathlib.Data.List.Forall2
import Sitewright.Document.Tree
import Sitewright.Markup.Render
import Sitewright.Proofs.Document.Distinct
import Sitewright.Proofs.Markup.Lines
import Sitewright.Proofs.Markup.Props

/-!
What the markup of a tree shows. A relation between nodes and what stands for them says it without
the markup, and the markup, read again, is in that relation with the tree.
-/

namespace Sitewright

namespace Markup

open Reading

/-! ### What is prescribed -/

/-- An item is shown around its text, and around a list of the same kind if there are items
below it. -/
inductive ShowsItem (tag : String) : ListItem → Jsx → Prop
  | single (text : String) : ShowsItem tag ⟨text, []⟩ (.element "li" [] (shownText text))
  | nested (text : String) {items : List ListItem} {shown : List Jsx} (nonempty : items ≠ [])
      (below : List.Forall₂ (ShowsItem tag) items shown) :
      ShowsItem tag ⟨text, items⟩ (.element "li" [] (shownText text ++ [.element tag [] shown]))

/-- A field is shown as its label, if it has one, before the control. -/
def shownField (field : FormField) : Jsx :=
  let label :=
    if field.label = "" then []
    else [.element "label" [("htmlFor", .str field.name)] [.value (.str field.label)]]
  let type := if field.type = "textarea" then [] else [("type", .str field.type)]
  let placeholder :=
    if field.placeholder = "" then [] else [("placeholder", .str field.placeholder)]
  let required := if field.required then [("required", .bool true)] else []
  let control := if field.type = "textarea" then "textarea" else "input"
  .element "div" [] (label ++ [.element control
    ([("id", .str field.name), ("name", .str field.name)] ++ type ++ placeholder ++ required) []])

def linkAttributes (href : String) (newTab : Bool) : Fields Json :=
  ("href", .str href) ::
    if newTab then [("target", .str "_blank"), ("rel", .str "noopener noreferrer")] else []

/-- What stands for a node. Its children are shown by a grid, by a form between its fields and its
button, and by a container; they are not shown by the others. -/
inductive Shows : Node → Jsx → Prop
  | text {node : Node} {text tag : String} (h : Describes node (.text text tag)) :
      Shows node (.element tag (styled [] node.styles) (shownText text))
  | image {node : Node} {src alt : String} (h : Describes node (.image src alt)) :
      Shows node (.element "img" (styled [("src", .str src), ("alt", .str alt)] node.styles) [])
  | button {node : Node} {text : String} {kind target : Option String} {newTab : Bool}
      (h : Describes node (.button text kind target newTab))
      (unlinked : kind = none ∨ target = none) :
      Shows node (.element "button" (styled [("type", .str "button")] node.styles)
        (shownText text))
  | linkedButton {node : Node} {text kind target : String} {newTab : Bool}
      (h : Describes node (.button text (some kind) (some target) newTab)) :
      Shows node (.element "a"
        (linkAttributes (if kind = "anchor" then "#" ++ target else target) newTab)
        [.element "button" (styled [("type", .str "button")] node.styles) (shownText text)])
  | link {node : Node} {href text : String} {newTab : Bool}
      (h : Describes node (.link href text newTab)) :
      Shows node (.element "a" (styled (linkAttributes href newTab) node.styles) (shownText text))
  | list {node : Node} {kind tag : String} {items : List ListItem} {shown : List Jsx}
      (h : Describes node (.list kind items)) (named : tag = if kind = "ordered" then "ol" else "ul")
      (each : List.Forall₂ (ShowsItem tag) items shown) :
      Shows node (.element tag
        (styled [] (if kind = "none"
          then Fields.merge [("listStyleType", "none"), ("paddingLeft", "0")] node.styles
          else node.styles)) shown)
  | grid {node : Node} {rows cols gap : Int} {shown : List Jsx}
      (h : Describes node (.grid rows cols gap))
      (below : List.Forall₂ Shows node.children shown) :
      Shows node (.element "div"
        (styled [] (Fields.merge
          [("display", "grid"),
           ("gridTemplateRows", "repeat(" ++ toString rows ++ ", 1fr)"),
           ("gridTemplateColumns", "repeat(" ++ toString cols ++ ", 1fr)"),
           ("gap", toString gap ++ "px")] node.styles)) shown)
  | form {node : Node} {fields : List FormField} {submit success : String} {shown : List Jsx}
      (h : Describes node (.form fields submit success))
      (below : List.Forall₂ Shows node.children shown) :
      Shows node (.element "form" (styled [] node.styles)
        (fields.map shownField ++ shown ++
          [.element "button" [("type", .str "submit")] (shownText submit)]))
  | body {node : Node} {attributes : Fields String} {shown : List Jsx}
      (h : Describes node (.container attributes)) (isBody : node.type = "Body")
      (below : List.Forall₂ Shows node.children shown) :
      Shows node (.element "div"
        (styled (("className", .str "builder-body-root") ::
          Json.texts (attributes.filter (·.1 ≠ "className")))
          (Fields.merge [("minHeight", "100vh"), ("width", "100%")] node.styles)) shown)
  | container {node : Node} {attributes : Fields String} {shown : List Jsx}
      (h : Describes node (.container attributes)) (notBody : node.type ≠ "Body")
      (below : List.Forall₂ Shows node.children shown) :
      Shows node (.element (if node.type = "Section" then "section" else "div")
        (styled (Json.texts attributes) node.styles) shown)

/-! ### The elements -/

theorem sound_tag {name : String} {attributes : Fields Json} {style : Fields String}
    (keys : List String) (same : attributes.map Prod.fst = keys)
    (words : IsWord name ∧ (∀ key ∈ keys, IsWord key) ∧ ("style" :: keys).Nodup)
    (settings : (attributes.all fun a => isSetting a.2) = true)
    (styles : (style.map Prod.fst).Nodup) : Tag.Sound ⟨name, attributes, style⟩ := by
  subst same
  exact ⟨words.1, words.2.1, List.all_eq_true.mp settings, words.2.2, styles⟩

theorem sound_bare {name : String} (h : IsWord name) {style : Fields String}
    (styles : (style.map Prod.fst).Nodup) : Tag.Sound ⟨name, [], style⟩ :=
  sound_tag [] rfl ⟨h, by decide, by decide⟩ rfl styles

theorem sound_unstyled {name : String} (h : IsWord name) : Tag.Sound ⟨name, [], []⟩ :=
  sound_bare h nodup_unstyled

theorem given_eq {tag : Tag} (h : ∀ a ∈ tag.attributes, a.2 ≠ .bool false) :
    tag.given = styled tag.attributes tag.style := by
  rw [Tag.given, List.filter_eq_self.mpr fun a ha => by simpa using h a ha]

mutual

theorem shows_itemElement {tag : String} (word : IsWord tag) : ∀ item : ListItem,
    (itemElement tag item).Sound ∧ ShowsItem tag item (itemElement tag item).shown
  | ⟨text, []⟩ =>
    ⟨.inline (sound_unstyled (by decide)) text, .single text⟩
  | ⟨text, first :: rest⟩ => by
    obtain ⟨sound, shows⟩ := shows_itemElements word (first :: rest)
    have inner : Element.Sound (.block ⟨tag, [], []⟩ "" (itemElements tag (first :: rest))) :=
      .block (sound_unstyled word) "" sound
    refine ⟨.block (sound_unstyled (by decide)) text fun child hChild => ?_, ?_⟩
    · rwa [List.mem_singleton.mp hChild]
    · exact .nested text (List.cons_ne_nil first rest) shows

theorem shows_itemElements {tag : String} (word : IsWord tag) : ∀ items : List ListItem,
    (∀ element ∈ itemElements tag items, element.Sound) ∧
      List.Forall₂ (ShowsItem tag) items (Element.shownList (itemElements tag items))
  | [] => ⟨by simp [itemElements], .nil⟩
  | item :: rest => by
    obtain ⟨first, shows⟩ := shows_itemElement word item
    obtain ⟨others, showRest⟩ := shows_itemElements word rest
    refine ⟨fun element hElement => ?_, .cons shows showRest⟩
    rcases List.mem_cons.mp hElement with rfl | hElement
    · exact first
    · exact others element hElement

end

theorem sound_fieldElement (field : FormField) : (fieldElement field).Sound := by
  refine .block (sound_unstyled (by decide)) "" fun child hChild => ?_
  rcases List.mem_append.mp hChild with hLabel | hControl
  · split at hLabel
    · cases hLabel
    · rw [List.mem_singleton.mp hLabel]
      exact .inline (sound_tag ["htmlFor"] rfl (by decide) rfl nodup_unstyled) _
  · rw [List.mem_singleton.mp hControl]
    refine .closed ?_
    by_cases area : field.type = "textarea" <;> by_cases empty : field.placeholder = "" <;>
      simp only [area, empty, if_true, if_false, List.append_nil, List.cons_append, List.nil_append]
    · exact sound_tag ["id", "name", "required"] rfl (by decide) rfl nodup_unstyled
    · exact sound_tag ["id", "name", "placeholder", "required"] rfl (by decide) rfl nodup_unstyled
    · exact sound_tag ["id", "name", "type", "required"] rfl (by decide) rfl nodup_unstyled
    · exact sound_tag ["id", "name", "type", "placeholder", "required"] rfl (by decide) rfl
        nodup_unstyled

theorem shown_fieldElement (field : FormField) : (fieldElement field).shown = shownField field := by
  have label : ∀ rest, Element.shownList
      ((if field.label = "" then []
        else [.inline ⟨"label", [("htmlFor", .str field.name)], []⟩ field.label]) ++ rest) =
      (if field.label = "" then []
        else [.element "label" [("htmlFor", .str field.name)] [.value (.str field.label)]]) ++
        Element.shownList rest := by
    intro rest
    by_cases empty : field.label = ""
    · simp [empty]
    · simp [empty, Element.shownList, Element.shown, Tag.given, styled, shownText]
  by_cases area : field.type = "textarea" <;> by_cases empty : field.placeholder = "" <;>
    cases required : field.required <;>
    simp [fieldElement, shownField, Element.shown, label, Element.shownList, Tag.given, styled,
      shownText, area, empty, required]

section Form

variable (fields : List FormField) (submit : String) {inner : List Element}

theorem sound_formContent (sound : ∀ child ∈ inner, child.Sound) :
    ∀ child ∈ fields.map fieldElement ++ inner ++
      [.inline ⟨"button", [("type", .str "submit")], []⟩ submit], child.Sound := by
  intro child hChild
  rcases List.mem_append.mp hChild with hChild | hSubmit
  · rcases List.mem_append.mp hChild with hField | hInner
    · obtain ⟨field, -, rfl⟩ := List.mem_map.mp hField
      exact sound_fieldElement field
    · exact sound child hInner
  · rw [List.mem_singleton.mp hSubmit]
    exact .inline (sound_tag ["type"] rfl (by decide) rfl nodup_unstyled) submit

theorem shownList_formContent :
    Element.shownList (fields.map fieldElement ++ inner ++
      [.inline ⟨"button", [("type", .str "submit")], []⟩ submit]) =
      fields.map shownField ++ Element.shownList inner ++
        [.element "button" [("type", .str "submit")] (shownText submit)] := by
  simp only [Element.shownList_eq_map, List.map_append, List.map_map, Function.comp_def,
    shown_fieldElement]
  rfl

end Form

theorem sound_around {tag : Tag} (h : tag.Sound) {children : List Element}
    (below : ∀ child ∈ children, child.Sound) : (around tag children).Sound := by
  unfold around
  split
  · exact .closed h
  · exact .block h "" below

theorem shown_around (tag : Tag) (children : List Element) :
    (around tag children).shown = .element tag.name tag.given (Element.shownList children) := by
  cases children <;> rfl

theorem listElement_eq (tag : String) (style : Fields String) (items : List ListItem) :
    listElement tag style items = around ⟨tag, [], style⟩ (itemElements tag items) := by
  cases items <;> rfl

theorem sound_link (href : String) (newTab : Bool) {style : Fields String}
    (styles : (style.map Prod.fst).Nodup) :
    Tag.Sound ⟨"a", ("href", .str href) :: newTabAttributes newTab, style⟩ := by
  cases newTab with
  | true => exact sound_tag ["href", "target", "rel"] rfl (by decide) rfl styles
  | false => exact sound_tag ["href"] rfl (by decide) rfl styles

theorem given_link (href : String) (newTab : Bool) (style : Fields String) :
    Tag.given ⟨"a", ("href", .str href) :: newTabAttributes newTab, style⟩ =
      styled (linkAttributes href newTab) style := by
  cases newTab <;> rfl

theorem isWord_listTag (type : String) : IsWord (Props.listTag type) := by
  unfold Props.listTag
  split <;> decide

theorem isWord_containerTag (type : String) : IsWord (containerTag type) := by
  unfold containerTag
  split <;> decide

theorem all_isSetting_texts (attributes : Fields String) :
    ((Json.texts attributes).all fun a => isSetting a.2) = true := by
  simp [Json.texts, isSetting]

theorem map_fst_texts (attributes : Fields String) :
    (Json.texts attributes).map Prod.fst = attributes.map Prod.fst := by
  simp [Json.texts, Function.comp_def]

theorem ne_unset_of_mem_texts {attributes : Fields String} :
    ∀ a ∈ Json.texts attributes, a.2 ≠ .bool false := by
  intro a ha
  obtain ⟨entry, -, rfl⟩ := List.mem_map.mp ha
  exact nofun

theorem sound_texts {name : String} (h : IsWord name) {attributes style : Fields String}
    (words : ∀ key ∈ attributes.map Prod.fst, IsWord key)
    (once : ("style" :: attributes.map Prod.fst).Nodup) (styles : (style.map Prod.fst).Nodup) :
    Tag.Sound ⟨name, Json.texts attributes, style⟩ :=
  sound_tag (attributes.map Prod.fst) (map_fst_texts attributes) ⟨h, words, once⟩
    (all_isSetting_texts attributes) styles

theorem sound_plainTag {attributes styles : Fields String} (type : String)
    (words : ∀ key ∈ attributes.map Prod.fst, IsWord key)
    (once : ("style" :: attributes.map Prod.fst).Nodup)
    (hStyles : (styles.map Prod.fst).Nodup) : (plainTag type attributes styles).Sound := by
  unfold plainTag
  split
  · have kept : ((attributes.filter (·.1 ≠ "className")).map Prod.fst).Sublist
        (attributes.map Prod.fst) := List.filter_sublist.map Prod.fst
    have unlike : "className" ∉ (attributes.filter (·.1 ≠ "className")).map Prod.fst := by
      simp
    generalize attributes.filter (·.1 ≠ "className") = others at kept unlike ⊢
    obtain ⟨noStyle, distinct⟩ := List.nodup_cons.mp (once.sublist (kept.cons_cons "style"))
    have words : ∀ key ∈ (("className", "builder-body-root") :: others).map Prod.fst,
        IsWord key := by
      intro key hKey
      rcases List.mem_cons.mp hKey with rfl | hKey
      · decide
      · exact words key (kept.subset hKey)
    have once : ("style" :: (("className", "builder-body-root") :: others).map Prod.fst).Nodup := by
      simp only [List.map_cons, List.nodup_cons, List.mem_cons, not_or]
      exact ⟨⟨by decide, noStyle⟩, unlike, distinct⟩
    exact sound_texts (by decide) words once (Fields.nodup_merge (by decide) styles)
  · exact sound_texts (isWord_containerTag type) words once hStyles

theorem given_plainTag_body {type : String} (h : type = ComponentType.body.name)
    (attributes styles : Fields String) :
    (plainTag type attributes styles).given =
      styled (("className", .str "builder-body-root") ::
        Json.texts (attributes.filter (·.1 ≠ "className"))) (bodyStyle.merge styles) := by
  rw [plainTag, if_pos h]
  refine given_eq fun a ha => ?_
  rcases List.mem_cons.mp ha with rfl | ha
  · exact nofun
  · exact ne_unset_of_mem_texts a ha

theorem given_plainTag {type : String} (h : type ≠ ComponentType.body.name)
    (attributes styles : Fields String) :
    (plainTag type attributes styles).given = styled (Json.texts attributes) styles := by
  rw [plainTag, if_neg h]
  exact given_eq ne_unset_of_mem_texts

theorem shows_assemble {node : Node} (distinct : node.Distinct) {found : Props}
    (h : Props.ofNode node = .ok found) {inner : List Element}
    (sound : ∀ child ∈ inner, child.Sound)
    (below : found.holdsChildren = true →
      List.Forall₂ Shows node.children (Element.shownList inner)) :
    (assemble node.type node.styles inner found).Sound ∧
      Shows node (assemble node.type node.styles inner found).shown := by
  have styles := distinct.styles
  have named := wellNamed_ofNode distinct.props h
  have described := describes_ofNode distinct.props h
  cases found with
  | text text tag =>
    have words : ∀ tag ∈ Props.textTags, IsWord tag := by decide
    exact ⟨.inline (sound_bare (words tag named) styles) text, .text described⟩
  | image src alt =>
    exact ⟨.closed (sound_tag ["src", "alt"] rfl (by decide) rfl styles), .image described⟩
  | button text type target newTab =>
    have button : Element.Sound (.inline ⟨"button", [("type", .str "button")], node.styles⟩ text) :=
      .inline (sound_tag ["type"] rfl (by decide) rfl styles) text
    cases href : Props.buttonHref type target with
    | none =>
      simp only [assemble, buttonElement, href]
      refine ⟨button, .button described ?_⟩
      cases type <;> cases target <;> simp_all [Props.buttonHref]
    | some link =>
      simp only [assemble, buttonElement, href, Element.shown, given_link, styled_nil]
      refine ⟨.block (sound_link link newTab nodup_unstyled) "" fun child hChild => ?_, ?_⟩
      · rwa [List.mem_singleton.mp hChild]
      · cases type <;> cases target <;> cases href
        exact .linkedButton described
  | link href text newTab =>
    refine ⟨.inline (sound_link href newTab styles) text, ?_⟩
    simp only [assemble, Element.shown, given_link]
    exact .link described
  | list type items =>
    obtain ⟨elements, shows⟩ := shows_itemElements (isWord_listTag type) items
    have merged : ((if type = "none" then bareListStyle.merge node.styles else node.styles).map
        Prod.fst).Nodup := by
      split
      · exact Fields.nodup_merge (by decide) node.styles
      · exact styles
    simp only [assemble, listElement_eq, shown_around]
    exact ⟨sound_around (sound_bare (isWord_listTag type) merged) elements,
      .list described rfl shows⟩
  | grid rows cols gap =>
    have merged : (((gridStyle rows cols gap).merge node.styles).map Prod.fst).Nodup := by
      refine Fields.nodup_merge ?_ node.styles
      show ["display", "gridTemplateRows", "gridTemplateColumns", "gap"].Nodup
      decide
    simp only [assemble, shown_around]
    exact ⟨sound_around (sound_bare (by decide) merged) sound, .grid described (below rfl)⟩
  | form fields submit success =>
    simp only [assemble, shown_around, shownList_formContent]
    exact ⟨sound_around (sound_bare (by decide) styles) (sound_formContent fields submit sound),
      .form described (below rfl)⟩
  | container attributes =>
    obtain ⟨words, once⟩ := named
    have tag := sound_plainTag node.type words once styles
    simp only [assemble, shown_around]
    refine ⟨sound_around tag sound, ?_⟩
    by_cases isBody : node.type = ComponentType.body.name
    · rw [given_plainTag_body isBody, plainTag, if_pos isBody]
      exact .body described isBody (below rfl)
    · rw [given_plainTag isBody, plainTag, if_neg isBody]
      exact .container described isBody (below rfl)

mutual

theorem exists_element : ∀ {node : Node},
    (∀ found ∈ node.walk, found.Distinct ∧ FiniteGrid found) →
    ∃ shown, element node = .ok shown ∧ shown.Sound ∧ Shows node shown.shown
  | ⟨id, type, props, styles, metadata, children⟩, h => by
    obtain ⟨distinct, finite⟩ := h _ (by rw [Node.walk_eq]; exact List.mem_cons_self)
    obtain ⟨inner, made, sound, shows⟩ := exists_elements fun found hFound =>
      h found (by rw [Node.walk_eq]; exact List.mem_cons_of_mem _ hFound)
    obtain ⟨found, read⟩ := exists_ofNode finite
    have props : Props.ofNode ⟨id, type, props, styles, metadata, []⟩ = .ok found := read
    rw [element, props, ok_bind]
    split
    -- the elements below are there in both cases, but the markup may leave them out
    · obtain ⟨sound, shows⟩ := shows_assemble distinct read sound fun _ => shows
      rw [made]
      exact ⟨_, rfl, sound, shows⟩
    · next leaf =>
      have none : ∀ child ∈ ([] : List Element), child.Sound := nofun
      obtain ⟨sound, shows⟩ := shows_assemble distinct read none fun holds => absurd holds leaf
      exact ⟨_, rfl, sound, shows⟩

theorem exists_elements : ∀ {nodes : List Node},
    (∀ found ∈ Node.walkList nodes, found.Distinct ∧ FiniteGrid found) →
    ∃ shown, elements nodes = .ok shown ∧ (∀ element ∈ shown, element.Sound) ∧
      List.Forall₂ Shows nodes (Element.shownList shown)
  | [], _ => ⟨[], rfl, nofun, .nil⟩
  | node :: rest, h => by
    rw [Node.walkList] at h
    obtain ⟨first, made, sound, shows⟩ := exists_element fun found hFound =>
      h found (List.mem_append_left _ hFound)
    obtain ⟨others, madeRest, soundRest, showsRest⟩ := exists_elements fun found hFound =>
      h found (List.mem_append_right _ hFound)
    refine ⟨first :: others, ?_, ?_, .cons shows showsRest⟩
    · rw [elements, made, madeRest]
      rfl
    · intro element hElement
      rcases List.mem_cons.mp hElement with rfl | hElement
      · exact sound
      · exact soundRest element hElement

end

/-- The markup of a tree that is read from JSON is read back as one element for each node of the top
level, and each element shows its node: whatever the texts, names and values in the tree are, they
change nothing but what they stand for. Only an infinite number in a grid cannot be written. -/
theorem read_render [Machine] {place : Place} {data : List Json} {tree : List Node}
    (once : Json.areDistinct data = true) (read : Shape.items place Node.read data = .ok tree)
    (finite : ∀ node ∈ Node.walkList tree, FiniteGrid node) (depth : Int) :
    ∃ text shown, render depth tree = .ok text ∧ Jsx.read text = some shown ∧
      List.Forall₂ Shows tree shown ∧ ∀ jsx ∈ shown, jsx.Distinct := by
  have distinct : ∀ node ∈ Node.walkList tree, node.Distinct := by
    intro node hNode
    rw [Node.walkList_eq_flatMap] at hNode
    obtain ⟨root, hRoot, hNode⟩ := List.mem_flatMap.mp hNode
    obtain ⟨_, value, mem, hRead⟩ := Shape.exists_read_of_items read hRoot
    exact Node.distinct_of_ofJson (Json.isDistinct_of_mem once mem) hRead node hNode
  obtain ⟨made, written, sound, shows⟩ :=
    exists_elements fun node hNode => ⟨distinct node hNode, finite node hNode⟩
  refine ⟨_, _, ?_, read_linesList sound depth, shows, fun jsx hJsx => ?_⟩
  · rw [render, written]
    rfl
  · rw [Element.shownList_eq_map] at hJsx
    obtain ⟨element, hElement, rfl⟩ := List.mem_map.mp hJsx
    exact (sound element hElement).distinct_shown

/-- A text that ends an element, a value that ends an attribute, a name that starts another, and a
style that ends an expression. -/
def unruly : List Json :=
  [.obj [("id", .str "b"), ("type", .str "Body"),
    ("props", .obj [("role", .str "\" \x7b>"), ("=\"", .str "x")]),
    ("children", .arr [
      .obj [("id", .str "t"), ("type", .str "Text"), ("props", .obj [("text", .str "</p>\n\x7d")])],
      .obj [("id", .str "g"), ("type", .str "Grid"),
        ("props", .obj [("gridConfig", .obj [("cols", .int 3)])]),
        ("styles", .obj [("\\\"\x7d", .str "\x7d\x7d />")])]])]]

def unrulyTree : List Node :=
  [⟨"b", "Body", [("role", .str "\" \x7b>"), ("=\"", .str "x")], [], [],
    [⟨"t", "Text", [("text", .str "</p>\n\x7d")], [], [], []⟩,
     ⟨"g", "Grid", [("gridConfig", .obj [("cols", .int 3)])], [("\\\"\x7d", "\x7d\x7d />")], [],
      []⟩]⟩]

theorem read_render_unruly :
    Json.areDistinct unruly = true ∧
      Shape.items (.named "tree") Node.read unruly = .ok unrulyTree ∧
      (Tree.check unrulyTree).isOk = true ∧
      (∀ node ∈ Node.walkList unrulyTree, FiniteGrid node) ∧
      ∃ text shown, render 3 unrulyTree = .ok text ∧ Jsx.read text = some shown ∧
        List.Forall₂ Shows unrulyTree shown ∧ ∀ jsx ∈ shown, jsx.Distinct := by
  have once : Json.areDistinct unruly = true := by decide +kernel
  have read : Shape.items (.named "tree") Node.read unruly = .ok unrulyTree := rfl
  have valid : (Tree.check unrulyTree).isOk = true := by decide +kernel
  have finite : ∀ node ∈ Node.walkList unrulyTree, FiniteGrid node := by decide +kernel
  exact ⟨once, read, valid, finite, read_render once read finite 3⟩

end Markup

end Sitewright
