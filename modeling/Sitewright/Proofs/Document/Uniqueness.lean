import Sitewright.Document.Repair
import Sitewright.Proofs.Document.Draw

namespace Sitewright

namespace Node

mutual

def withoutIds : Node → Node
  | ⟨_, type, props, styles, metadata, children⟩ =>
    ⟨"", type, props, styles, metadata, withoutIdsList children⟩

def withoutIdsList : List Node → List Node
  | [] => []
  | node :: rest => node.withoutIds :: withoutIdsList rest

end

def ids (tree : List Node) : List String := (walkList tree).map Node.id

@[simp] theorem ids_nil : ids [] = [] := rfl

@[simp] theorem ids_cons (node : Node) (rest : List Node) :
    ids (node :: rest) = node.id :: (ids node.children ++ ids rest) := by
  simp [ids, walkList, walk_eq]

@[simp] theorem ids_append (as bs : List Node) : ids (as ++ bs) = ids as ++ ids bs := by
  rw [ids, walkList_append, List.map_append]
  rfl

end Node

structure Page.HasDistinctIds (page : Page) : Prop where
  there : "" ∉ Node.ids page.tree
  distinct : (Node.ids page.tree).Nodup

def Page.withoutIds (page : Page) : Page := { page with tree := Node.withoutIdsList page.tree }

def Project.withoutIds (project : Project) : Project :=
  { project with pages := project.pages.map Page.withoutIds }

namespace Repair

/-! Which nodes claim their identifiers -/

variable {known : Fields String} {millis : Int} {seen : List String} {random : Random}

@[simp] theorem length_claims (known : Fields String) (seen : List String) (nodes : List Node) :
    (claims known seen nodes).length = nodes.length := by
  induction nodes generalizing seen with
  | nil => rfl
  | cons node rest ih =>
    simp only [claims]
    split <;> simp [ih]

@[simp] theorem claimedIds_cons (node : Node) (nodes : List Node) (claim : Bool) (claimed : List Bool) :
    claimedIds (node :: nodes) (claim :: claimed) =
      if claim then node.id :: claimedIds nodes claimed else claimedIds nodes claimed := by
  cases claim <;> simp [claimedIds]

theorem mem_claimedIds {nodes : List Node} {claimed : List Bool} {id : String} :
    id ∈ claimedIds nodes claimed ↔ ∃ node, (node, true) ∈ nodes.zip claimed ∧ node.id = id := by
  simp [claimedIds]

theorem distinct_claimedIds (nodes : List Node) :
    (claimedIds nodes (claims known seen nodes)).Nodup ∧
      ∀ id ∈ claimedIds nodes (claims known seen nodes), id ≠ "" ∧ id ∉ seen := by
  induction nodes generalizing seen with
  | nil => simp [claimedIds]
  | cons node rest ih =>
    simp only [claims]
    split
    · next mine =>
      simp only [isKnown, Bool.and_eq_true, decide_eq_true_eq, Bool.not_eq_true',
        List.contains_eq_mem, decide_eq_false_iff_not] at mine
      obtain ⟨⟨there, new⟩, -⟩ := mine
      obtain ⟨distinct, later⟩ := @ih (node.id :: seen)
      rw [claimedIds_cons, if_pos rfl, List.nodup_cons, List.forall_mem_cons]
      refine ⟨⟨fun again => ?_, distinct⟩, ⟨there, new⟩, fun id claimed => ?_⟩
      · exact (later _ again).2 List.mem_cons_self
      · obtain ⟨idThere, idNew⟩ := later id claimed
        exact ⟨idThere, fun old => idNew (List.mem_cons_of_mem _ old)⟩
    · rw [claimedIds_cons, if_neg Bool.false_ne_true]
      exact ih

/-! Where identifiers are drawn -/

def isTaken (known : Fields String) (seen : List String) (id : String) : Bool :=
  seen.contains id || known.contains id

def drawFor (known : Fields String) (seen : List String) (node : Node) (random : Random) : Draw :=
  ⟨isTaken known seen, node.type, random⟩

/-- The draws that are made while the identifiers of a page are assigned. -/
def draws (known : Fields String) (millis : Int) :
    List String → Random → List (Node × Bool) → List Draw
  | _, _, [] => []
  | seen, random, (node, claimed) :: rest =>
    if claimed then draws known millis seen random rest
    else if node.id = "" || seen.contains node.id then
      let draw := drawFor known seen node random
      let (id, random) := draw.result millis
      draw :: draws known millis (id :: seen) random rest
    else draws known millis (node.id :: seen) random rest

/-- How the identifier of one node is assigned, given the ones in use: it is claimed, it is drawn, or
it is kept. -/
inductive Assigned (known : Fields String) (millis : Int) (seen : List String) (random : Random)
    (node : Node) (rest : List (Node × Bool)) : Bool → List String × Random → List Draw → Prop
  | claimed :
    Assigned known millis seen random node rest true
      (node.id :: (assign known millis seen random rest).1,
        (assign known millis seen random rest).2)
      (draws known millis seen random rest)
  | drawn {id : String} {next : Random} : node.id = "" ∨ node.id ∈ seen →
    (drawFor known seen node random).result millis = (id, next) →
    Assigned known millis seen random node rest false
      (id :: (assign known millis (id :: seen) next rest).1,
        (assign known millis (id :: seen) next rest).2)
      (drawFor known seen node random :: draws known millis (id :: seen) next rest)
  | kept : node.id ≠ "" → node.id ∉ seen →
    Assigned known millis seen random node rest false
      (node.id :: (assign known millis (node.id :: seen) random rest).1,
        (assign known millis (node.id :: seen) random rest).2)
      (draws known millis (node.id :: seen) random rest)

theorem assigned (known : Fields String) (millis : Int) (seen : List String) (random : Random)
    (node : Node) (claim : Bool) (rest : List (Node × Bool)) :
    Assigned known millis seen random node rest claim
      (assign known millis seen random ((node, claim) :: rest))
      (draws known millis seen random ((node, claim) :: rest)) := by
  cases claim with
  | true => exact .claimed
  | false =>
    simp only [assign, draws, Bool.false_eq_true, if_false]
    split
    · next redrawn =>
      have redrawn : node.id = "" ∨ node.id ∈ seen := by simpa using redrawn
      rcases result : (drawFor known seen node random).result millis with ⟨id, next⟩
      have same : Identifier.freshOutside (fun id => seen.contains id || known.contains id)
          node.type millis random = (id, next) := result
      rw [same]
      exact .drawn redrawn result
    · next kept =>
      have kept : node.id ≠ "" ∧ node.id ∉ seen := by simpa using kept
      exact .kept kept.1 kept.2

@[simp] theorem length_assign (known : Fields String) (millis : Int) (seen : List String) (random : Random)
    (nodes : List (Node × Bool)) :
    (assign known millis seen random nodes).1.length = nodes.length := by
  induction nodes generalizing seen random with
  | nil => rfl
  | cons first rest ih =>
    obtain ⟨node, claim⟩ := first
    have step := assigned known millis seen random node claim rest
    generalize assign known millis seen random ((node, claim) :: rest) = result at step ⊢
    generalize draws known millis seen random ((node, claim) :: rest) = made at step
    cases step <;> simp [ih]

/-- What a node is assigned: its own identifier if it has claimed it, and otherwise one that was not
in use; its own identifier or one that is not known. -/
structure Fits (known : Fields String) (seen : List String) (p : Node × Bool) (id : String) :
    Prop where
  claimed : p.2 = true → id = p.1.id
  unclaimed : p.2 = false → id ≠ "" ∧ id ∉ seen
  fresh : id = p.1.id ∨ known.contains id = false

theorem Fits.of_cons {id other : String} {p : Node × Bool} (h : Fits known (other :: seen) p id) :
    Fits known seen p id :=
  { h with unclaimed := fun free =>
    ⟨(h.unclaimed free).1, fun used => (h.unclaimed free).2 (List.mem_cons_of_mem _ used)⟩ }

theorem free_of_succeeds {node : Node} {id : String} {next : Random}
    (h : (drawFor known seen node random).Succeeds millis)
    (result : (drawFor known seen node random).result millis = (id, next)) :
    id ≠ "" ∧ id ∉ seen ∧ known.contains id = false := by
  have there := Draw.result_ne_empty h
  obtain ⟨_, ends⟩ := Draw.exists_endsAfter h
  have free := ends.free
  rw [result] at there free
  have free : id ∉ seen ∧ known.contains id = false := by simpa [drawFor, isTaken] using free
  exact ⟨there, free⟩

theorem succeeds_draws (endless : random.IsEndless millis) (nodes : List (Node × Bool)) :
    (∀ draw ∈ draws known millis seen random nodes, draw.Succeeds millis) ∧
      Random.IsEndless millis (assign known millis seen random nodes).2 := by
  induction nodes generalizing seen random with
  | nil => exact ⟨List.forall_mem_nil _, endless⟩
  | cons first rest ih =>
    obtain ⟨node, claim⟩ := first
    have step := assigned known millis seen random node claim rest
    generalize assign known millis seen random ((node, claim) :: rest) = result at step ⊢
    generalize draws known millis seen random ((node, claim) :: rest) = made at step ⊢
    cases step with
    | claimed => exact ih endless
    | kept => exact ih endless
    | drawn _ result =>
      have succeeds : (drawFor known seen node random).Succeeds millis := by
        obtain ⟨n, free⟩ := endless node.type (seen ++ known.map Prod.fst)
        rw [List.mem_append, not_or, ← Fields.contains_eq_false_iff] at free
        exact ⟨n, by simpa [drawFor, isTaken] using free⟩
      obtain ⟨n, ends⟩ := Draw.exists_endsAfter succeeds
      rw [ends.result_eq] at result
      obtain ⟨others, left⟩ := ih ((Prod.mk.inj result).2 ▸ endless.drop (n + 1))
      exact ⟨List.forall_mem_cons.mpr ⟨succeeds, others⟩, left⟩

theorem fits_assign {nodes : List (Node × Bool)}
    (supplied : ∀ draw ∈ draws known millis seen random nodes, draw.Succeeds millis) :
    List.Forall₂ (Fits known seen) nodes (assign known millis seen random nodes).1 := by
  induction nodes generalizing seen random with
  | nil => exact .nil
  | cons first rest ih =>
    obtain ⟨node, claim⟩ := first
    have step := assigned known millis seen random node claim rest
    generalize assign known millis seen random ((node, claim) :: rest) = result at step
    generalize draws known millis seen random ((node, claim) :: rest) = made at step supplied
    cases step with
    | claimed => exact .cons ⟨fun _ => rfl, nofun, .inl rfl⟩ (ih supplied)
    | drawn redrawn result =>
      rw [List.forall_mem_cons] at supplied
      obtain ⟨there, new, unknown⟩ := free_of_succeeds supplied.1 result
      refine .cons ⟨nofun, fun _ => ⟨there, new⟩, .inr unknown⟩ ?_
      exact (ih supplied.2).imp fun _ _ => Fits.of_cons
    | kept there new =>
      refine .cons ⟨nofun, fun _ => ⟨there, new⟩, .inl rfl⟩ ?_
      exact (ih supplied).imp fun _ _ => Fits.of_cons

structure Claimed (seen : List String) (nodes : List (Node × Bool)) : Prop where
  there : "" ∉ seen
  used : ∀ p ∈ nodes, p.2 = true → p.1.id ∈ seen
  distinct : ((nodes.filter (·.2)).map fun p => p.1.id).Nodup

theorem mem_of_fits {nodes : List (Node × Bool)} {ids : List String}
    (h : List.Forall₂ (Fits known seen) nodes ids) {id : String} (there : id ∈ ids) :
    (∃ p ∈ nodes, p.2 = true ∧ p.1.id = id) ∨ id ≠ "" ∧ id ∉ seen := by
  induction h with
  | nil => cases there
  | @cons p other nodes ids first _ ih =>
    rcases List.mem_cons.mp there with rfl | there
    · rcases claim : p.2 with _ | _
      · exact .inr (first.unclaimed claim)
      · exact .inl ⟨p, List.mem_cons_self, claim, (first.claimed claim).symm⟩
    · refine (ih there).imp_left ?_
      rintro ⟨q, later, claim, same⟩
      exact ⟨q, List.mem_cons_of_mem _ later, claim, same⟩

theorem Claimed.tail {p : Node × Bool} {nodes : List (Node × Bool)}
    (h : Claimed seen (p :: nodes)) :
    Claimed seen nodes where
  there := h.there
  used := fun q later => h.used q (List.mem_cons_of_mem _ later)
  distinct := h.distinct.sublist (((List.sublist_cons_self p nodes).filter _).map _)

theorem Claimed.cons {nodes : List (Node × Bool)} (h : Claimed seen nodes) {id : String}
    (there : id ≠ "") : Claimed (id :: seen) nodes where
  there := List.not_mem_cons_of_ne_of_not_mem there.symm h.there
  used := fun p hp claim => List.mem_cons_of_mem _ (h.used p hp claim)
  distinct := h.distinct

theorem distinct_assign {nodes : List (Node × Bool)}
    (supplied : ∀ draw ∈ draws known millis seen random nodes, draw.Succeeds millis)
    (h : Claimed seen nodes) :
    (assign known millis seen random nodes).1.Nodup ∧
      "" ∉ (assign known millis seen random nodes).1 := by
  induction nodes generalizing seen random with
  | nil => exact ⟨.nil, List.not_mem_nil⟩
  | cons first rest ih =>
    obtain ⟨node, claim⟩ := first
    have step := assigned known millis seen random node claim rest
    generalize assign known millis seen random ((node, claim) :: rest) = result at step
    generalize draws known millis seen random ((node, claim) :: rest) = made at step supplied
    -- An identifier that was not in use is in use for the nodes that follow.
    have new {id : String} {next : Random}
        (supplied : ∀ draw ∈ draws known millis (id :: seen) next rest, draw.Succeeds millis)
        (there : id ≠ "") (new : id ∉ seen) :
        (id :: (assign known millis (id :: seen) next rest).1).Nodup ∧
          "" ∉ id :: (assign known millis (id :: seen) next rest).1 := by
      obtain ⟨distinct, filled⟩ := ih supplied (h.tail.cons there)
      refine ⟨List.nodup_cons.mpr ⟨fun again => ?_, distinct⟩,
        List.not_mem_cons_of_ne_of_not_mem there.symm filled⟩
      obtain ⟨p, later, claim, rfl⟩ | ⟨-, other⟩ := mem_of_fits (fits_assign supplied) again
      · exact new (h.tail.used p later claim)
      · exact other List.mem_cons_self
    cases step with
    | claimed =>
      have used : node.id ∈ seen := h.used (node, true) List.mem_cons_self rfl
      have there : node.id ≠ "" := fun empty => h.there (empty ▸ used)
      obtain ⟨distinct, filled⟩ := ih supplied h.tail
      refine ⟨List.nodup_cons.mpr ⟨fun again => ?_, distinct⟩,
        List.not_mem_cons_of_ne_of_not_mem there.symm filled⟩
      obtain ⟨p, later, claim, same⟩ | ⟨-, other⟩ := mem_of_fits (fits_assign supplied) again
      · have once := h.distinct
        rw [List.filter_cons_of_pos rfl, List.map_cons, List.nodup_cons] at once
        exact once.1 (List.mem_map.mpr ⟨p, List.mem_filter.mpr ⟨later, claim⟩, same⟩)
      · exact other used
    | drawn redrawn result =>
      rw [List.forall_mem_cons] at supplied
      obtain ⟨there, free, -⟩ := free_of_succeeds supplied.1 result
      exact new supplied.2 there free
    | kept there free => exact new supplied there free

theorem assign_of_distinct {nodes : List (Node × Bool)} (there : ∀ p ∈ nodes, p.1.id ≠ "")
    (distinct : (nodes.map fun p => p.1.id).Nodup)
    (free : ∀ p ∈ nodes, p.2 = false → p.1.id ∉ seen) :
    assign known millis seen random nodes = (nodes.map fun p => p.1.id, random) ∧
      draws known millis seen random nodes = [] := by
  induction nodes generalizing seen with
  | nil => exact ⟨rfl, rfl⟩
  | cons first rest ih =>
    obtain ⟨node, claim⟩ := first
    rw [List.forall_mem_cons] at there free
    rw [List.map_cons, List.nodup_cons] at distinct
    have step := assigned known millis seen random node claim rest
    generalize assign known millis seen random ((node, claim) :: rest) = result at step ⊢
    generalize draws known millis seen random ((node, claim) :: rest) = made at step ⊢
    cases step with
    | claimed =>
      obtain ⟨ids, none⟩ := ih there.2 distinct.2 free.2
      rw [ids, none]
      exact ⟨rfl, rfl⟩
    | drawn redrawn =>
      rcases redrawn with empty | used
      · exact absurd empty there.1
      · exact absurd used (free.1 rfl)
    | kept =>
      have free : ∀ p ∈ rest, p.2 = false → p.1.id ∉ node.id :: seen := by
        intro p later claim
        refine List.not_mem_cons_of_ne_of_not_mem (fun same => distinct.1 ?_) (free.2 p later claim)
        exact List.mem_map.mpr ⟨p, later, same⟩
      obtain ⟨ids, none⟩ := ih there.2 distinct.2 free
      rw [ids, none]
      exact ⟨rfl, rfl⟩

/-! Nodes with new identifiers -/

mutual

theorem withoutIds_relabel : ∀ (node : Node) (ids : List String),
    (relabel node ids).1.withoutIds = node.withoutIds
  | ⟨id, type, props, styles, metadata, children⟩, ids => by
    simp only [relabel, Node.withoutIds, withoutIds_relabelList children (ids.drop 1)]

theorem withoutIds_relabelList : ∀ (nodes : List Node) (ids : List String),
    Node.withoutIdsList (relabelList nodes ids).1 = Node.withoutIdsList nodes
  | [], _ => rfl
  | first :: rest, ids => by
    simp only [relabelList, Node.withoutIdsList, withoutIds_relabel first,
      withoutIds_relabelList rest]

end

mutual

theorem ids_relabel : ∀ (node : Node) (ids : List String), node.walk.length ≤ ids.length →
    Node.ids [(relabel node ids).1] ++ (relabel node ids).2 = ids ∧
      (relabel node ids).2.length + node.walk.length = ids.length
  | ⟨id, type, props, styles, metadata, children⟩, ids, enough => by
    cases ids with
    | nil => simp [Node.walk] at enough
    | cons first ids =>
      simp only [Node.walk, List.length_cons, Nat.add_le_add_iff_right] at enough
      obtain ⟨same, length⟩ := ids_relabelList children ids enough
      simp only [relabel, List.headD_cons, List.drop_succ_cons, List.drop_zero, Node.ids_cons,
        Node.ids_nil, List.append_nil, List.cons_append, same, Node.walk, List.length_cons, true_and]
      omega

theorem ids_relabelList : ∀ (nodes : List Node) (ids : List String),
    (Node.walkList nodes).length ≤ ids.length →
      Node.ids (relabelList nodes ids).1 ++ (relabelList nodes ids).2 = ids ∧
        (relabelList nodes ids).2.length + (Node.walkList nodes).length = ids.length
  | [], ids, _ => ⟨rfl, rfl⟩
  | node :: rest, ids, enough => by
    simp only [Node.walkList, List.length_append] at enough
    obtain ⟨same, length⟩ := ids_relabel node ids (by omega)
    obtain ⟨same', length'⟩ := ids_relabelList rest (relabel node ids).2 (by omega)
    simp only [relabelList, Node.walkList, List.length_append]
    refine ⟨?_, by omega⟩
    rw [← List.singleton_append, Node.ids_append, List.append_assoc, same', same]

end

mutual

theorem relabel_ids : ∀ (node : Node) (more : List String),
    relabel node (Node.ids [node] ++ more) = (node, more)
  | ⟨id, type, props, styles, metadata, children⟩, more => by
    simp [relabel, relabelList_ids children more]

theorem relabelList_ids : ∀ (nodes : List Node) (more : List String),
    relabelList nodes (Node.ids nodes ++ more) = (nodes, more)
  | [], _ => rfl
  | node :: rest, more => by
    rw [← List.singleton_append, Node.ids_append, List.append_assoc, List.singleton_append]
    simp only [relabelList, relabel_ids node, relabelList_ids rest more]

end

/-! Pages -/

def claimants (known : Fields String) (page : Page) : List (Node × Bool) :=
  page.nodes.zip (claims known [] page.nodes)

def idsInUse (known : Fields String) (page : Page) : List String :=
  claimedIds page.nodes (claims known [] page.nodes)

def pageDraws (known : Fields String) (millis : Int) (page : Page) (random : Random) : List Draw :=
  draws known millis (idsInUse known page) random (claimants known page)

def pagesDraws (known : Fields String) (millis : Int) : List Page → Random → List Draw
  | [], _ => []
  | first :: rest, random =>
    pageDraws known millis first random ++
      pagesDraws known millis rest (page known millis first random).2

variable {before : Page}

@[simp] theorem map_fst_claimants (known : Fields String) (page : Page) :
    (claimants known page).map Prod.fst = page.nodes :=
  List.map_fst_zip (length_claims known [] page.nodes).ge

theorem claimed_claimants (known : Fields String) (page : Page) :
    Claimed (idsInUse known page) (claimants known page) := by
  obtain ⟨distinct, there⟩ := @distinct_claimedIds known [] page.nodes
  have same : idsInUse known page =
      ((claimants known page).filter (·.2)).map fun p => p.1.id := by
    rw [idsInUse, claimedIds, claimants, ← List.filterMap_eq_map, List.filterMap_filter]
    rfl
  exact {
    there := fun empty => (there "" empty).1 rfl
    used := fun p hp claim => same ▸ List.mem_map.mpr ⟨p, List.mem_filter.mpr ⟨hp, claim⟩, rfl⟩
    distinct := same ▸ distinct }

theorem ids_page (known : Fields String) (millis : Int) (before : Page) (random : Random) :
    Node.ids (page known millis before random).1.tree =
      (assign known millis (idsInUse known before) random (claimants known before)).1 := by
  have length :=
    length_assign known millis (idsInUse known before) random (claimants known before)
  rw [← List.length_map Prod.fst, map_fst_claimants] at length
  obtain ⟨same, all⟩ := ids_relabelList before.tree _ length.ge
  have none : (relabelList before.tree _).2 = [] :=
    List.eq_nil_of_length_eq_zero (Nat.add_eq_right.mp (all.trans length))
  rw [none, List.append_nil] at same
  exact same

@[simp] theorem withoutIds_page (known : Fields String) (millis : Int) (before : Page) (random : Random) :
    (page known millis before random).1.withoutIds = before.withoutIds := by
  simp only [page, Page.withoutIds, withoutIds_relabelList]

@[simp] theorem withoutIds_pages (known : Fields String) (millis : Int) (before : List Page)
    (random : Random) :
    (pages known millis before random).1.map Page.withoutIds = before.map Page.withoutIds := by
  induction before generalizing random with
  | nil => rfl
  | cons first rest ih => simp only [pages, List.map_cons, withoutIds_page, ih]

/-- A node keeps its identifier or gets one that is not known. -/
def Renamed (known : Fields String) (old new : Node) : Prop :=
  new.id = old.id ∨ known.contains new.id = false

/-- A page whose identifiers have been put in order. -/
structure Ordered (known : Fields String) (before after : Page) : Prop where
  ids : after.HasDistinctIds
  same : after.withoutIds = before.withoutIds
  renamed : List.Forall₂ (Renamed known) before.nodes after.nodes

theorem ordered_page
    (supplied : ∀ draw ∈ pageDraws known millis before random, draw.Succeeds millis) :
    Ordered known before (page known millis before random).1 := by
  have ids := ids_page known millis before random
  obtain ⟨distinct, there⟩ := distinct_assign supplied (claimed_claimants known before)
  refine ⟨⟨ids ▸ there, ids ▸ distinct⟩, withoutIds_page known millis before random, ?_⟩
  have renamed : List.Forall₂ (fun old id => id = old.id ∨ known.contains id = false)
      before.nodes (Node.ids (page known millis before random).1.tree) := by
    rw [ids, ← map_fst_claimants known before, List.forall₂_map_left_iff]
    exact (fits_assign supplied).imp fun _ _ fits => fits.fresh
  rw [Node.ids, List.forall₂_map_right_iff] at renamed
  exact renamed

theorem ordered_pages {before : List Page}
    (supplied : ∀ draw ∈ pagesDraws known millis before random, draw.Succeeds millis) :
    List.Forall₂ (Ordered known) before (pages known millis before random).1 := by
  induction before generalizing random with
  | nil => exact .nil
  | cons first rest ih =>
    rw [pagesDraws, List.forall_mem_append] at supplied
    exact .cons (ordered_page supplied.1) (ih supplied.2)

theorem succeeds_pagesDraws (endless : random.IsEndless millis) (before : List Page) :
    ∀ draw ∈ pagesDraws known millis before random, draw.Succeeds millis := by
  induction before generalizing random with
  | nil => exact List.forall_mem_nil _
  | cons first rest ih =>
    obtain ⟨supplied, left⟩ := succeeds_draws endless (claimants known first)
    exact List.forall_mem_append.mpr ⟨supplied, ih left⟩

section Ordered

variable {before after : List Page} (h : List.Forall₂ (Ordered known) before after)

include h

theorem distinct_of_ordered : ∀ page ∈ after, page.HasDistinctIds := by
  induction h with
  | nil => exact List.forall_mem_nil _
  | cons first _ rest => exact List.forall_mem_cons.mpr ⟨first.ids, rest⟩

theorem withoutIds_of_ordered : after.map Page.withoutIds = before.map Page.withoutIds := by
  induction h with
  | nil => rfl
  | cons first _ rest => rw [List.map_cons, List.map_cons, first.same, rest]

theorem renamed_of_ordered :
    List.Forall₂ (Renamed known) (before.flatMap Page.nodes) (after.flatMap Page.nodes) :=
  List.rel_flatMap h fun _ _ ordered => ordered.renamed

end Ordered

theorem page_of_distinct (known : Fields String) (millis : Int) (random : Random)
    (h : before.HasDistinctIds) :
    page known millis before random = (before, random) ∧
      pageDraws known millis before random = [] := by
  have all : (claimants known before).map (fun p => p.1.id) = Node.ids before.tree := by
    rw [← Function.comp_def Node.id, ← List.map_map, map_fst_claimants]
    rfl
  have there : ∀ p ∈ claimants known before, p.1.id ≠ "" := fun p hp empty =>
    h.there (all ▸ List.mem_map.mpr ⟨p, hp, empty⟩)
  have distinct := h.distinct
  rw [← all] at distinct
  have free : ∀ p ∈ claimants known before, p.2 = false → p.1.id ∉ idsInUse known before := by
    intro p hp unclaimed used
    obtain ⟨node, claimed, same⟩ := mem_claimedIds.mp used
    have one := List.inj_on_of_nodup_map distinct hp claimed same.symm
    rw [one] at unclaimed
    cases unclaimed
  obtain ⟨assigned, none⟩ := @assign_of_distinct known millis _ random _ there distinct free
  refine ⟨?_, none⟩
  have relabelled := relabelList_ids before.tree []
  rw [List.append_nil, ← all] at relabelled
  simp only [page]
  rw [← claimants, ← idsInUse, assigned]
  simp only [relabelled]

theorem pages_of_distinct (known : Fields String) (millis : Int) (random : Random)
    {before : List Page} (h : ∀ page ∈ before, page.HasDistinctIds) :
    pages known millis before random = (before, random) ∧
      pagesDraws known millis before random = [] := by
  induction before with
  | nil => exact ⟨rfl, rfl⟩
  | cons first rest ih =>
    rw [List.forall_mem_cons] at h
    obtain ⟨same, none⟩ := page_of_distinct known millis random h.1
    obtain ⟨others, no⟩ := ih h.2
    simp only [pages, pagesDraws, same, none, others, no, List.append_nil, and_self]

theorem contains_knownTypes {prior : Project} {id : String} :
    (knownTypes prior).contains id = false ↔ ∀ node ∈ prior.nodes, node.id ≠ id := by
  rw [Fields.contains_eq_false_iff, knownTypes]
  simp

end Repair

namespace Project

/-- The draws that are made while the identifiers of a project are put in order. -/
def repairDraws (prior enhanced : Project) (millis : Int) (random : Random) : List Draw :=
  Repair.pagesDraws (Repair.knownTypes prior) millis enhanced.pages random

variable {prior enhanced : Project} {millis : Int} {random : Random}

theorem ordered_repairIds
    (supplied : ∀ draw ∈ prior.repairDraws enhanced millis random, draw.Succeeds millis) :
    List.Forall₂ (Repair.Ordered (Repair.knownTypes prior)) enhanced.pages
      (prior.repairIds enhanced millis random).1.pages :=
  Repair.ordered_pages supplied

theorem withoutIds_repairIds (prior enhanced : Project) (millis : Int) (random : Random) :
    (prior.repairIds enhanced millis random).1.withoutIds = enhanced.withoutIds := by
  rw [withoutIds, repairIds]
  simp only [Repair.withoutIds_pages]
  rfl

theorem repairIds_of_distinct (prior : Project) (millis : Int) (random : Random)
    (h : ∀ page ∈ enhanced.pages, page.HasDistinctIds) :
    prior.repairIds enhanced millis random = (enhanced, random) ∧
      prior.repairDraws enhanced millis random = [] := by
  obtain ⟨same, none⟩ := Repair.pages_of_distinct (Repair.knownTypes prior) millis random h
  exact ⟨by simp only [repairIds, same], none⟩

end Project

end Sitewright
