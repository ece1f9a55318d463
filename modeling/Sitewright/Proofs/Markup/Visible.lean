import Sitewright.Proofs.Document.Uniqueness
import Sitewright.Proofs.Markup.Props
import Sitewright.Site.Generate

namespace Sitewright

namespace ComponentType

def childless : List ComponentType := [text, image, button, link, list]

end ComponentType

def Node.childless : List String := ComponentType.childless.map ComponentType.name

theorem Node.mem_childless_iff {type : String} :
    type ∈ childless ↔
      ∃ kind ∈ ComponentType.childless, ComponentType.ofName? type = some kind := by
  rw [childless, List.mem_map]
  refine exists_congr fun kind => and_congr_right fun _ => ⟨?_, ComponentType.name_of_ofName?⟩
  rintro rfl
  exact ComponentType.ofName?_name kind

namespace Props

theorem holdsChildren_iff {node : Node} {found : Props} (h : ofNode node = .ok found) :
    found.holdsChildren = true ↔ node.type ∉ Node.childless := by
  rw [Node.mem_childless_iff]
  unfold ofNode at h
  split at h
  case h_6 grid =>
    obtain ⟨rows, -, h⟩ := bind_eq_ok.mp h
    obtain ⟨cols, -, h⟩ := bind_eq_ok.mp h
    obtain ⟨gap, -, h⟩ := bind_eq_ok.mp h
    cases h
    simp [grid, holdsChildren, ComponentType.childless]
  case h_8 text image button link list _ _ =>
    cases h
    refine iff_of_true rfl ?_
    simpa [ComponentType.childless] using ⟨text, image, button, link, list⟩
  all_goals
    cases h
    simp [*, holdsChildren, ComponentType.childless]

theorem ofNode_congr {a b : Node} (type : a.type = b.type) (props : a.props = b.props) :
    ofNode a = ofNode b := by
  simp only [ofNode, type, props]

end Props

namespace Node

mutual

/-- What can be seen of a node: neither identifiers nor metadata, nor what is below a component that
shows no children. -/
def visible : Node → Node
  | ⟨_, type, props, styles, _, children⟩ =>
    ⟨"", type, props, styles, [], if type ∈ childless then [] else visibleList children⟩

def visibleList : List Node → List Node
  | [] => []
  | node :: rest => node.visible :: visibleList rest

end

mutual

@[simp] theorem visible_withoutIds : ∀ node : Node, node.withoutIds.visible = node.visible
  | ⟨id, type, props, styles, metadata, children⟩ => by
    simp only [withoutIds, visible, visibleList_withoutIdsList children]

@[simp] theorem visibleList_withoutIdsList : ∀ nodes : List Node,
    visibleList (withoutIdsList nodes) = visibleList nodes
  | [] => rfl
  | node :: rest => by
    simp only [withoutIdsList, visibleList, visible_withoutIds node,
      visibleList_withoutIdsList rest]

end

end Node

namespace Markup

mutual

@[simp] theorem element_visible : ∀ node : Node, element node.visible = element node
  | ⟨id, type, props, styles, metadata, children⟩ => by
    have same : Props.ofNode ⟨"", type, props, styles, [], []⟩ =
        Props.ofNode ⟨id, type, props, styles, metadata, []⟩ := Props.ofNode_congr rfl rfl
    rw [Node.visible, element, element, same]
    cases read : Props.ofNode ⟨id, type, props, styles, metadata, []⟩ with
    | error error => rfl
    | ok found =>
      rw [ok_bind, ok_bind]
      by_cases holds : found.holdsChildren = true
      · rw [if_neg ((Props.holdsChildren_iff read).mp holds), elements_visibleList children]
      · rw [if_neg holds, if_neg holds]

@[simp] theorem elements_visibleList : ∀ nodes : List Node,
    elements (Node.visibleList nodes) = elements nodes
  | [] => rfl
  | node :: rest => by
    rw [Node.visibleList, elements, elements, element_visible node, elements_visibleList rest]

end

@[simp] theorem render_visibleList (depth : Int) (tree : List Node) :
    render depth (Node.visibleList tree) = render depth tree := by
  rw [render, render, elements_visibleList]

theorem render_congr {a b : List Node} (h : Node.visibleList a = Node.visibleList b) (depth : Int) :
    render depth a = render depth b := by
  rw [← render_visibleList, h, render_visibleList]

end Markup

def Page.visible (page : Page) : Page :=
  { page with id := "", tree := Node.visibleList page.tree, metadata := [] }

@[simp] theorem Page.visible_withoutIds (page : Page) : page.withoutIds.visible = page.visible := by
  simp only [visible, withoutIds, Node.visibleList_withoutIdsList]

namespace Site

@[simp] theorem pageSource_visible (page : Page) : pageSource page.visible = pageSource page := by
  rw [pageSource, pageSource]
  simp only [Page.visible, Markup.render_visibleList]
  rfl

theorem pageFiles_visible (seen : List String) (pages : List Page) :
    pageFiles seen (pages.map Page.visible) = pageFiles seen pages := by
  induction pages generalizing seen with
  | nil => rfl
  | cons first rest ih =>
    simp only [List.map_cons, pageFiles, pageSource_visible, ih]
    rfl

theorem map_pageSource_congr {as bs : List Page} (h : as.map Page.visible = bs.map Page.visible) :
    as.map pageSource = bs.map pageSource := by
  have visible (pages : List Page) :
      (pages.map Page.visible).map pageSource = pages.map pageSource := by
    rw [List.map_map]
    exact List.map_congr_left fun page _ => pageSource_visible page
  rw [← visible as, h, visible bs]

end Site

theorem Project.map_visible_repairIds (prior enhanced : Project) (millis : Int) (random : Random) :
    (prior.repairIds enhanced millis random).1.pages.map Page.visible =
      enhanced.pages.map Page.visible := by
  have same := congrArg Project.pages (withoutIds_repairIds prior enhanced millis random)
  have visible := congrArg (List.map Page.visible) same
  simpa only [withoutIds, List.map_map, Function.comp_def, Page.visible_withoutIds] using visible

namespace Site

/-- Trees of which the same can be seen are written the same at every depth, and so are the files of
such pages; in particular putting identifiers in order leaves the source of every page as it is. -/
theorem render_of_visible :
    (∀ a b : List Node, Node.visibleList a = Node.visibleList b →
      ∀ depth, Markup.render depth a = Markup.render depth b) ∧
    (∀ as bs : List Page, as.map Page.visible = bs.map Page.visible →
      ∀ seen, pageFiles seen as = pageFiles seen bs) ∧
    ∀ (prior enhanced : Project) (millis : Int) (random : Random),
      (prior.repairIds enhanced millis random).1.pages.map pageSource =
        enhanced.pages.map pageSource := by
  refine ⟨fun a b same depth => Markup.render_congr same depth, fun as bs same seen => ?_,
    fun prior enhanced millis random => map_pageSource_congr ?_⟩
  · rw [← pageFiles_visible, same, pageFiles_visible]
  · exact prior.map_visible_repairIds enhanced millis random

def annotated : Page :=
  ⟨"g1", "Home", "/", [⟨"b1", "Body", [], [], [],
    [⟨"t1", "Text", [("text", .str "Welcome"), ("id", .str "hero")], [("color", "red")],
      [("note", .str "to be checked")], [{ id := "i1", type := "Image" }]⟩]⟩], []⟩

def cleaned : Page :=
  ⟨"g9", "Home", "/", [⟨"b9", "Body", [], [], [],
    [⟨"t9", "Text", [("text", .str "Welcome"), ("id", .str "hero")], [("color", "red")], [], []⟩]⟩],
    [("reviewed", .bool true)]⟩

theorem render_of_visible_cleaned :
    (Node.visibleList annotated.tree = Node.visibleList cleaned.tree ∧
      Node.ids annotated.tree ≠ Node.ids cleaned.tree ∧
      ∀ depth, Markup.render depth annotated.tree = Markup.render depth cleaned.tree) ∧
    [annotated].map Page.visible = [cleaned].map Page.visible ∧
      ∀ seen, pageFiles seen [annotated] = pageFiles seen [cleaned] :=
  ⟨⟨rfl, by decide, render_of_visible.1 annotated.tree cleaned.tree rfl⟩, rfl,
    render_of_visible.2.1 [annotated] [cleaned] rfl⟩

end Site

end Sitewright
