import Sitewright.Proofs.Document.Uniqueness

/-!
Which node keeps an identifier when the identifiers of a page are put in order. An identifier that
is known stays on the first node of the page that carries it with its known type, whatever stands
before that node; every other identifier stays on the first node that carries it. The known type of
an identifier is the one under which it is first met, and a later page does not change it.
-/

namespace Sitewright

namespace Page

def idAt? (page : Page) (place : Nat) : Option String := page.nodes[place]?.map Node.id

def firstPlace? (page : Page) (id : String) (test : Node → Bool) : Option Nat :=
  page.nodes.findIdx? fun node => node.id == id && test node

theorem idAt?_eq_getElem? (page : Page) (place : Nat) :
    page.idAt? place = (Node.ids page.tree)[place]? := by
  simp [idAt?, Node.ids, nodes]

end Page

namespace Project

def typeOf? (project : Project) (id : String) : Option String :=
  (project.nodes.find? (·.id == id)).map Node.type

/-- The node has the type under which its identifier is first met. -/
def hasKnownType (project : Project) (node : Node) : Bool :=
  project.typeOf? node.id == some node.type

/-- The identifier of the node is met on some node of its type. -/
def hasMet (project : Project) (node : Node) : Bool :=
  project.nodes.any fun old => old.id == node.id && old.type == node.type

end Project

namespace Repair

@[simp] theorem get?_knownTypes (prior : Project) (id : String) :
    (knownTypes prior).get? id = prior.typeOf? id := by
  rw [knownTypes, Project.typeOf?]
  induction prior.nodes with
  | nil => rfl
  | cons node rest ih => by_cases same : node.id = id <;> simp [Fields.get?, same, ih]

def owns (known : Fields String) (id : String) (node : Node) : Bool :=
  node.id == id && known.get? id == some node.type

variable {known : Fields String} {millis : Int} {seen : List String} {random : Random}
variable {id : String} {place : Nat}

theorem claims_of_first {nodes : List Node} (there : id ≠ "") (free : id ∉ seen)
    (first : nodes.findIdx? (owns known id) = some place) :
    (claims known seen nodes)[place]? = some true := by
  induction nodes generalizing seen place with
  | nil => cases first
  | cons node rest ih =>
    rw [List.findIdx?_cons] at first
    split at first
    · next mine =>
      cases first
      simp only [owns, Bool.and_eq_true, beq_iff_eq] at mine
      obtain ⟨rfl, type⟩ := mine
      simp [claims, isKnown, there, free, type]
    · next other =>
      obtain ⟨later, found, rfl⟩ := Option.map_eq_some_iff.mp first
      simp only [claims]
      split
      · next mine =>
        simp only [isKnown, Bool.and_eq_true, beq_iff_eq] at mine
        rw [List.getElem?_cons_succ]
        refine ih (List.not_mem_cons_of_ne_of_not_mem ?_ free) found
        rintro rfl
        exact other (by simp [owns, mine.2])
      · rw [List.getElem?_cons_succ]
        exact ih free found

theorem owns_of_claimed {nodes : List Node} {node : Node}
    (h : (node, true) ∈ nodes.zip (claims known seen nodes)) : owns known node.id node = true := by
  induction nodes generalizing seen with
  | nil => cases h
  | cons first rest ih =>
    simp only [claims] at h
    split at h
    · next mine =>
      rcases List.mem_cons.mp h with same | h
      · cases same
        simp only [isKnown, Bool.and_eq_true, beq_iff_eq] at mine
        simp [owns, mine.2]
      · exact ih h
    · rcases List.mem_cons.mp h with same | h
      · cases same
      · exact ih h

theorem not_mem_idsInUse {page : Page} (h : page.nodes.findIdx? (owns known id) = none) :
    id ∉ idsInUse known page := by
  intro used
  obtain ⟨node, claimed, rfl⟩ := mem_claimedIds.mp used
  have mine := owns_of_claimed claimed
  rw [List.findIdx?_eq_none_iff] at h
  rw [h node (List.of_mem_zip claimed).1] at mine
  cases mine

theorem assign_of_claimed {nodes : List (Node × Bool)} {node : Node}
    (h : nodes[place]? = some (node, true)) :
    (assign known millis seen random nodes).1[place]? = some node.id := by
  induction nodes generalizing seen random place with
  | nil => cases h
  | cons first rest ih =>
    obtain ⟨other, claim⟩ := first
    have step := assigned known millis seen random other claim rest
    generalize assign known millis seen random ((other, claim) :: rest) = result at step ⊢
    generalize draws known millis seen random ((other, claim) :: rest) = made at step
    cases place with
    | zero =>
      cases h
      cases step
      rfl
    | succ place => cases step <;> exact ih h

/-- An identifier that is not in use stays on the first node that carries it, unless it has been
drawn for a node before. -/
theorem assign_of_first {nodes : List (Node × Bool)} (there : id ≠ "") (free : id ∉ seen)
    (first : nodes.findIdx? (fun p => p.1.id == id) = some place)
    (apart : ∀ earlier < place,
      (assign known millis seen random nodes).1[earlier]? ≠ some id) :
    (assign known millis seen random nodes).1[place]? = some id := by
  induction nodes generalizing seen random place with
  | nil => cases first
  | cons head rest ih =>
    obtain ⟨node, claim⟩ := head
    have step := assigned known millis seen random node claim rest
    generalize assign known millis seen random ((node, claim) :: rest) = result at step apart ⊢
    generalize draws known millis seen random ((node, claim) :: rest) = made at step
    rw [List.findIdx?_cons] at first
    split at first
    · next same =>
      cases first
      obtain rfl : node.id = id := by simpa using same
      cases step with
      | claimed => rfl
      | drawn redrawn => exact (redrawn.elim there free).elim
      | kept => rfl
    · next other =>
      have differs : node.id ≠ id := by simpa using other
      obtain ⟨later, found, rfl⟩ := Option.map_eq_some_iff.mp first
      -- What follows the first node is assigned with one identifier more in use, and not this one.
      have head : result.1[0]? ≠ some id := apart 0 (Nat.succ_pos later)
      have tail (earlier : Nat) (before : earlier < later) : result.1[earlier + 1]? ≠ some id :=
        apart (earlier + 1) (Nat.succ_lt_succ before)
      cases step with
      | claimed => exact ih free found tail
      | drawn =>
        have fresh : id ≠ _ := fun same => head (by rw [same]; rfl)
        exact ih (List.not_mem_cons_of_ne_of_not_mem fresh free) found tail
      | kept => exact ih (List.not_mem_cons_of_ne_of_not_mem (Ne.symm differs) free) found tail

/-- Where an identifier is new, it is none that the page has had. -/
def Unmixed (before after : Page) : Prop :=
  ∀ place id, after.idAt? place = some id →
    before.idAt? place = some id ∨ id ∉ Node.ids before.tree

variable {before : Page}

theorem page_of_owner (there : id ≠ "")
    (first : before.nodes.findIdx? (owns known id) = some place) :
    (page known millis before random).1.idAt? place = some id := by
  have claim := claims_of_first there List.not_mem_nil first
  obtain ⟨bound, mine, -⟩ := List.findIdx?_eq_some_iff_getElem.mp first
  have carries : before.nodes[place].id = id := by
    simp only [owns, Bool.and_eq_true, beq_iff_eq] at mine
    exact mine.1
  have both : (claimants known before)[place]? = some (before.nodes[place], true) :=
    List.getElem?_zip_eq_some.mpr ⟨List.getElem?_eq_getElem bound, claim⟩
  rw [Page.idAt?_eq_getElem?, ids_page, assign_of_claimed both, carries]

theorem page_of_first (there : id ≠ "")
    (unowned : before.nodes.findIdx? (owns known id) = none)
    (unmixed : Unmixed before (page known millis before random).1)
    (first : before.nodes.findIdx? (·.id == id) = some place) :
    (page known millis before random).1.idAt? place = some id := by
  obtain ⟨bound, carries, earlier⟩ := List.findIdx?_eq_some_iff_getElem.mp first
  rw [Page.idAt?_eq_getElem?, ids_page]
  refine assign_of_first there (not_mem_idsInUse unowned) ?_ fun other before' again => ?_
  · rw [← map_fst_claimants known before, List.findIdx?_map] at first
    exact first
  · rw [← ids_page, ← Page.idAt?_eq_getElem?] at again
    rcases unmixed other id again with same | new
    · have within : other < before.nodes.length := Nat.lt_trans before' bound
      rw [Page.idAt?, List.getElem?_eq_getElem within, Option.map_some, Option.some.injEq] at same
      exact earlier other before' (by simpa using same)
    · refine new (List.mem_map.mpr ⟨_, List.getElem_mem bound, ?_⟩)
      simpa using carries

structure Keeps (prior : Project) (id : String) (before after : Page) : Prop where
  /-- A known one stays on the first node that carries it with its known type. -/
  known : ∀ place, before.firstPlace? id prior.hasKnownType = some place →
    after.idAt? place = some id
  /-- Where it has been met under one type only, that is the first node that carries it with a type
  under which it has been met. -/
  single : (∀ old ∈ prior.nodes, old.id = id → prior.typeOf? id = some old.type) →
    ∀ place, before.firstPlace? id prior.hasMet = some place → after.idAt? place = some id
  /-- Any other one stays on the first node that carries it. -/
  other : before.firstPlace? id prior.hasKnownType = none → Unmixed before after →
    ∀ place, before.firstPlace? id (fun _ => true) = some place → after.idAt? place = some id

theorem owns_knownTypes (prior : Project) (id : String) :
    owns (knownTypes prior) id = fun node => node.id == id && prior.hasKnownType node := by
  funext node
  simp only [owns, get?_knownTypes, Project.hasKnownType]
  by_cases same : node.id = id
  · rw [same]
  · rw [beq_false_of_ne same, Bool.false_and, Bool.false_and]

theorem hasMet_eq_hasKnownType {prior : Project} {node : Node}
    (single : ∀ old ∈ prior.nodes, old.id = node.id → prior.typeOf? node.id = some old.type) :
    prior.hasMet node = prior.hasKnownType node := by
  rw [Bool.eq_iff_iff, Project.hasMet, Project.hasKnownType, List.any_eq_true, beq_iff_eq]
  simp only [Bool.and_eq_true, beq_iff_eq]
  constructor
  · rintro ⟨old, met, same, type⟩
    rw [single old met same, type]
  · intro known
    obtain ⟨old, found, type⟩ := Option.map_eq_some_iff.mp known
    have same := List.find?_some found
    exact ⟨old, List.mem_of_find?_eq_some found, by simpa using same, type⟩

theorem keeps_page (prior : Project) (there : id ≠ "") (before : Page) :
    Keeps prior id before (page (knownTypes prior) millis before random).1 where
  known := fun place first => by
    refine page_of_owner there ?_
    rwa [owns_knownTypes]
  single := fun single place first => by
    have same : before.firstPlace? id prior.hasMet = before.firstPlace? id prior.hasKnownType := by
      rw [Page.firstPlace?, Page.firstPlace?]
      congr 1
      funext node
      by_cases carries : node.id = id
      · subst carries
        rw [hasMet_eq_hasKnownType single]
      · rw [beq_false_of_ne carries, Bool.false_and, Bool.false_and]
    refine page_of_owner there ?_
    rw [owns_knownTypes, ← first, same]
    rfl
  other := fun unknown unmixed place first => by
    refine page_of_first there ?_ unmixed ?_
    · rwa [owns_knownTypes]
    · simpa [Page.firstPlace?] using first

theorem keeps_pages (prior : Project) (there : id ≠ "") (before : List Page) :
    List.Forall₂ (Keeps prior id) before
      (pages (knownTypes prior) millis before random).1 := by
  induction before generalizing random with
  | nil => exact .nil
  | cons first rest ih => exact .cons (keeps_page prior there first) ih

end Repair

namespace Project

/-- Putting identifiers in order takes no identifier from the first node of a page that carries it
with its known type, and none that is not known from the first node that carries it. -/
theorem repairIds_keeps (prior enhanced : Project) (millis : Int) (random : Random) {id : String}
    (there : id ≠ "") :
    List.Forall₂ (Repair.Keeps prior id) enhanced.pages
      (prior.repairIds enhanced millis random).1.pages :=
  Repair.keeps_pages prior there enhanced.pages

def namesakes : Project where
  id := "p1"
  name := "P"
  pages := [
    ⟨"g1", "A", "/", [{ id := "x", type := "Body" }], []⟩,
    ⟨"g2", "B", "/b", [⟨"b", "Body", [], [], [], [{ id := "x", type := "Text" }]⟩], []⟩]

def namesakesWithImage : Project :=
  { namesakes with
    pages := [
      ⟨"g1", "A", "/", [{ id := "x", type := "Body" }], []⟩,
      ⟨"g2", "B", "/b", [⟨"b", "Body", [], [], [],
        [{ id := "x", type := "Image" }, { id := "x", type := "Text" }]⟩], []⟩] }

/-- The identifier is known as that of a body. It stays on the body of the first page, but on the
second page the image has it and the text, which had it before, does not. -/
theorem repairIds_keeps_namesakes :
    "x" ≠ "" ∧
    List.Forall₂ (Repair.Keeps namesakes "x") namesakesWithImage.pages
      (namesakes.repairIds namesakesWithImage 1704067200000 default).1.pages ∧
    namesakesWithImage.pages.map (·.firstPlace? "x" namesakes.hasKnownType) = [some 0, none] ∧
    namesakesWithImage.pages.map (·.firstPlace? "x" namesakes.hasMet) = [some 0, some 2] ∧
    (namesakes.repairIds namesakesWithImage 1704067200000 default).1.pages.map
        (fun page => Node.ids page.tree) =
      [["x"], ["b", "x", "text-1704067200000-000000000"]] := by
  refine ⟨by decide, ?_, by decide +kernel, by decide +kernel, ?_⟩
  · exact repairIds_keeps namesakes namesakesWithImage 1704067200000 default (by decide)
  · let taken id := Repair.isTaken (Repair.knownTypes namesakes) ["x", "b"] id
    have drawn : Identifier.freshOutside taken "Text" 1704067200000 default =
        ("text-1704067200000-000000000", default) :=
      Identifier.freshOutside_of_free (by decide +kernel)
    have ids : (namesakes.repairIds namesakesWithImage 1704067200000 default).1.pages.map
        (fun page => Node.ids page.tree) = [["x"], ["b", "x",
          (Identifier.freshOutside taken "Text" 1704067200000 default).1]] := rfl
    rw [ids, drawn]

end Project

end Sitewright
