import Sitewright.Proofs.Api.Exchange
import Sitewright.Proofs.Api.Oversights

namespace Sitewright

namespace Store

def listing (store : Store) : List Entry :=
  if store.backing = .database then store.tables.catalogue.mergeSort isListedBefore
  else store.tables.catalogue

theorem perm_listing (store : Store) : store.listing.Perm store.tables.catalogue := by
  unfold listing
  split
  · exact List.mergeSort_perm _ _
  · exact .refl _

/-- A store that can be read without a note to be written first. -/
structure Readable (store : Store) : Prop where
  queued : store.backing = .database → store.queued = []
  present : store.lost = false

theorem perform_listing {world : World} (readable : world.store.Readable) :
    Operation.listProjects.perform world = (.ok world.store.listing, world) := by
  have read := perform_readTables readable.queued fun _ => readable.present
  rw [Operation.listProjects, catalogue, Action.perform_bind_of_ok read]
  rfl

end Store

namespace Api

/-! What a client reads in a response -/

namespace Response

def field (response : Response) (name : String) : Json :=
  match response.body with
  | .json (.obj fields) => Fields.value fields name
  | _ => .null

def rows (response : Response) : List Json := (response.field "projects").asArray?.getD []

def pageCount (response : Response) : Json :=
  Fields.value ((response.field "pagination").asObject?.getD []) "total_pages"

end Response

structure AsksForPage (settings : Settings) (page size : Int) (request : Request) : Prop where
  method : request.method = .get
  path : request.target.path = "api/v1/projects".toList
  noSocket : request.asksForSocket = false
  sender : ∃ name?, sender settings request = .ok name?
  args : Listing.pageArgs (argsIn request) (.int Listing.defaultPageSize) = .ok (page, size)

variable {settings : Settings} (transform : Operation.Transform) {page size : Int}

theorem perform_listProjects {request : Request} {world : World} (readable : world.store.Readable)
    (asked : Listing.pageArgs (argsIn request) (.int Listing.defaultPageSize) = .ok (page, size))
    {info : Fields Json}
    (told : Listing.pageInfo (.int page) (.int size) (.int world.store.listing.length) = .ok info) :
    (listProjects request).perform world =
      (.ok (.ofFields (Listing.response "projects"
        (Listing.pageItems (world.store.listing.map Listing.rowOfEntry) page size) (some info))),
        world) := by
  have rows : (Listing.pageItems world.store.listing page size).mapM
      (fun entry => Listing.entryRow entry.toFields) =
        .ok (Listing.pageItems (world.store.listing.map Listing.rowOfEntry) page size) := by
    simp only [Listing.entryRow_toFields, Listing.pageItems, List.length_map, ← List.map_drop,
      ← List.map_take]
    exact List.mapM_pure
  rw [listProjects, asked, Action.ofExcept_ok_bind]
  dsimp only
  rw [Action.perform_bind_of_ok (Store.perform_listing readable), rows, Action.ofExcept_ok_bind,
    told, Action.ofExcept_ok_bind]
  rfl

theorem respond_of_asksForPage [Machine] {request : Request} {world : World}
    (asks : AsksForPage settings page size request) (readable : world.store.Readable)
    {info : Fields Json}
    (told : Listing.pageInfo (.int page) (.int size) (.int world.store.listing.length) = .ok info) :
    (respond settings transform request).run world =
      (.ofFields (Listing.response "projects"
        (Listing.pageItems (world.store.listing.map Listing.rowOfEntry) page size) (some info)),
        world) := by
  obtain ⟨sender, sent⟩ := asks.sender
  have sent : senderFor settings request .projects = .ok sender := sent
  have routed : Routing.ofRequest request = .found .projects := by
    rw [Routing.ofRequest, asks.noSocket, asks.method, asks.path]
    rfl
  rw [respond_of_found routed (by simp [asks.method])]
  exact serve_of_ok sent (perform_listProjects readable asks.args told)

/-- A client asks for one page after the other, beginning with the first one, and the store stays as
it is. -/
inductive Browses (settings : Settings) (store : Store) (size : Int) : List Visit → Prop
  | start : Browses settings store size []
  | next {visits : List Visit} {visit : Visit} : Browses settings store size visits →
    visit.world.store = store → AsksForPage settings (visits.length + 1) size visit.request →
    Browses settings store size (visits ++ [visit])

/-- As long as the store stays as it is, each page that is asked for is a page of one list, and is
told with the number of the pages of that list. -/
theorem response_of_browses [Machine] {store : Store} (readable : store.Readable) {count : Nat}
    (told : ∀ page : Int, ∃ info, Listing.pageInfo (.int page) (.int size)
      (.int store.listing.length) = .ok info ∧ info.value "total_pages" = .int count)
    {visit : Visit} (still : visit.world.store = store)
    (asks : AsksForPage settings page size visit.request) :
    (visit.response settings transform).status = 200 ∧
      (visit.response settings transform).pageCount = .int count ∧
      (visit.response settings transform).rows =
        Listing.pageItems (store.listing.map Listing.rowOfEntry) page size ∧
      visit.after settings transform = visit.world := by
  subst still
  obtain ⟨info, same, pages⟩ := told page
  have answered := respond_of_asksForPage transform asks readable same
  rw [Visit.response, Visit.after, answered]
  exact ⟨rfl, pages, rfl, rfl⟩

theorem Browses.of_mem {store : Store} {visits : List Visit}
    (browses : Browses settings store size visits) {visit : Visit} (there : visit ∈ visits) :
    visit.world.store = store ∧ ∃ page, AsksForPage settings page size visit.request := by
  induction browses with
  | start => cases there
  | next _ still asks ih =>
    rcases List.mem_append.mp there with before | last
    · exact ih before
    · rw [List.mem_singleton.mp last]
      exact ⟨still, _, asks⟩

theorem Browses.rows_eq [Machine] {store : Store} {visits : List Visit}
    (browses : Browses settings store size visits) {items : List Json}
    (shows : ∀ (visit : Visit) (page : Int), visit.world.store = store →
      AsksForPage settings page size visit.request →
        (visit.response settings transform).rows = Listing.pageItems items page size) :
    visits.flatMap (fun visit => (visit.response settings transform).rows) =
      ((List.range visits.length).map fun k : Nat =>
        Listing.pageItems items (k + 1) size).flatten := by
  -- the visits so far have shown as many pages as there were visits
  induction browses with
  | start => rfl
  | next _ still asks ih =>
    rw [List.flatMap_append, ih, List.flatMap_singleton, shows _ _ still asks, List.length_append,
      List.length_singleton, List.range_succ, List.map_append, List.flatten_append,
      List.map_singleton, List.flatten_singleton]

/-- What can be asked for is any page, of any size up to the greatest. A list of any length is cut
into as many pages as are told for it, in order: all but the last one are full, the last one is not
empty, and after it there is nothing. A client that asks the service for one page after the other,
until it has all that it is told of, is shown the rows of all entries, each of them once. -/
theorem rows_of_browses [Machine] :
    (∀ (fallback : Json) (page size : Int),
      (∃ args, Listing.pageArgs args fallback = .ok (page, size)) ↔
        1 ≤ page ∧ 1 ≤ size ∧ size ≤ Listing.maxPageSize) ∧
    ∀ size : Int, 1 ≤ size → size ≤ Listing.maxPageSize →
      (∀ {α : Type} (items : List α), ∃ count : Nat,
        (∀ page : Json, ∃ info, Listing.pageInfo page (.int size) (.int items.length) = .ok info ∧
          info.value "total_pages" = .int count) ∧
        Listing.Paged items size
          ((List.range count).map fun k : Nat => Listing.pageItems items (k + 1) size) ∧
        ∀ page : Int, count < page → Listing.pageItems items page size = []) ∧
      ∀ (settings : Settings) (transform : Operation.Transform) (store : Store), store.Readable →
        ∃ (entries : List Store.Entry) (count : Nat), entries.Perm store.tables.catalogue ∧
          ∀ visits : List Visit, Browses settings store size visits →
            (∀ visit ∈ visits, (visit.response settings transform).status = 200 ∧
              (visit.response settings transform).pageCount = .int count ∧
              visit.after settings transform = visit.world) ∧
            (count ≤ visits.length →
              visits.flatMap (fun visit => (visit.response settings transform).rows) =
                entries.map Listing.rowOfEntry) := by
  refine ⟨fun _ _ _ => Listing.exists_pageArgs_iff, fun size positive _ => ⟨fun items => ?_, ?_⟩⟩
  · obtain ⟨count, told, paged, none⟩ := Listing.paged_of_pageInfo items positive
    exact ⟨count, fun page => ⟨_, told page, rfl⟩, paged, none⟩
  · intro settings transform store readable
    obtain ⟨count, told, paged, none⟩ :=
      Listing.paged_of_pageInfo (store.listing.map Listing.rowOfEntry) positive
    rw [List.length_map] at told
    have shown (visit : Visit) (page : Int) (still : visit.world.store = store)
        (asks : AsksForPage settings page size visit.request) :=
      response_of_browses transform readable
        (fun page => ⟨_, told (.int page), rfl⟩) still asks
    refine ⟨store.listing, count, store.perm_listing, fun visits browses =>
      ⟨fun visit there => ?_, fun done => ?_⟩⟩
    · obtain ⟨still, page, asks⟩ := browses.of_mem there
      obtain ⟨status, pages, -, same⟩ := shown visit page still asks
      exact ⟨status, pages, same⟩
    · have pages := browses.rows_eq transform fun visit page still asks =>
        (shown visit page still asks).2.2.1
      rw [pages]
      exact Listing.flatten_pages_of_le paged none done

def pairWorld : World where
  store := {
    backing := .memory
    tables := {
      catalogue := [
        ⟨"p1", "Home", [("environment", .str "builder")], 0⟩,
        ⟨"p2", "Shop", [("deploymentHistory", .arr [.obj [("id", .str "d1")]])], 5⟩] } }
  clock := 5
  random := default

def turn (page : String) : Visit where
  request := {
    method := .get
    target := {
      path := "api/v1/projects".toList
      args := [("page", page), ("per_page", "1")] } }
  world := pairWorld

theorem rows_of_browses_pair :
    Browses {} pairWorld.store 1 [turn "1", turn " 2"] ∧
    ∃ entries : List Store.Entry, entries.Perm pairWorld.store.tables.catalogue ∧
      [turn "1", turn " 2"].flatMap (fun visit => (visit.response {} noTransform).rows) =
        entries.map Listing.rowOfEntry := by
  have readable : pairWorld.store.Readable := ⟨fun _ => rfl, rfl⟩
  have first : AsksForPage {} 1 1 (turn "1").request := ⟨rfl, rfl, rfl, ⟨none, rfl⟩, rfl⟩
  have second : AsksForPage {} 2 1 (turn " 2").request := ⟨rfl, rfl, rfl, ⟨none, rfl⟩, rfl⟩
  have browses : Browses {} pairWorld.store 1 [turn "1", turn " 2"] :=
    .next (.next .start rfl first) rfl second
  obtain ⟨entries, count, same, all⟩ :=
    (rows_of_browses.2 1 le_rfl (by decide)).2 {} noTransform pairWorld.store readable
  obtain ⟨told, whole⟩ := all _ browses
  have pages : (Visit.response {} noTransform (turn "1")).pageCount = .int 2 := rfl
  rw [(told _ List.mem_cons_self).2.1] at pages
  exact ⟨browses, entries, same, whole (by simpa using (Json.int.inj pages).le)⟩

end Api

end Sitewright
