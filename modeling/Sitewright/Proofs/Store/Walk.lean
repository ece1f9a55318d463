import Mathlib.Data.List.Nodup
import Sitewright.Proofs.Store.Paging

namespace Sitewright.Store

/-- A database whose audit trail can be read: its rows have distinct identifiers and the times of a
wall clock, as the column of a database gives them back. -/
structure Trail (world : World) : Prop where
  database : world.store.backing = .database
  queued : world.store.queued = []
  present : world.store.lost = false
  distinct : (world.store.tables.audit.map AuditRow.id).Nodup
  times : ∀ row ∈ world.store.tables.audit, row.createdAt.Valid ∧ row.createdAt.offset = none

variable {filter : AuditFilter} {limit : Int} {start world : World}

theorem perform_auditPage (trail : Trail world) (positive : 1 ≤ limit) (small : limit < maxRowCount)
    {text : Option String} {cursor : Option Cursor} (place : placeOf text = .ok cursor) :
    (auditPage filter text limit).perform world =
      (.ok ((AuditPage.ofRows (world.store.tables.audit.filter filter.holds) cursor
        limit.toNat).response text), world) := by
  have some : ¬limit ≤ 0 := by omega
  have countable : ¬maxRowCount ≤ limit := by omega
  rw [auditPage_eq, Action.perform_bind_of_ok (Action.perform_refuseIf_of_not _ some world), place,
    Action.ofExcept_ok_bind,
    Action.perform_bind_of_ok (perform_access (fun _ => trail.queued) fun _ => trail.present),
    Action.perform_bind_of_ok (Action.perform_refuseIf_of_not _ countable world)]
  rfl

/-! The client -/

def rowsOf (response : Fields Json) : List Json :=
  ((response.get? "data").bind Json.asArray?).getD []

/-- What a client asks for the next page with. There is none unless the response says so. -/
def nextOf (response : Fields Json) : Option (Option String) :=
  let pagination := ((response.get? "pagination").bind Json.asObject?).getD []
  if pagination.get? "has_more" = some (.bool true) then
    some ((pagination.get? "next_cursor").bind Json.asText?)
  else none

@[simp] theorem rowsOf_response (page : AuditPage) (text : Option String) :
    rowsOf (page.response text) = page.rows.map AuditRow.toJson := rfl

@[simp] theorem nextOf_response (page : AuditPage) (text : Option String) :
    nextOf (page.response text) = page.next.map fun cursor => some cursor.toText := by
  rcases page with ⟨rows, _ | next⟩ <;> rfl

/-- A client with the rows that it has been shown and what it asks for the next page with, if there
is one: nothing at first, and then the cursor of the page before. -/
abbrev Client := List Json × Option (Option String)

inductive Fetch (filter : AuditFilter) (limit : Int) (world : World) : Client → Client → Prop
  | page {shown : List Json} {text : Option String} {response : Fields Json} :
    (auditPage filter text limit).perform world = (.ok response, world) →
    Fetch filter limit world (shown, some text) (shown ++ rowsOf response, nextOf response)

/-- Pages are fetched, one after the other, from a trail that keeps its rows and is given more. -/
inductive Walk (filter : AuditFilter) (limit : Int) (start : World) : World → Client → Prop
  | start : Walk filter limit start start ([], some none)
  | grown {world other : World} {client : Client} : Walk filter limit start world client →
    world.store.tables.audit ⊆ other.store.tables.audit → Trail other →
    Walk filter limit start other client
  | fetched {world : World} {client next : Client} : Walk filter limit start world client →
    Fetch filter limit world client next → Walk filter limit start world next

theorem trail_of_walk {client : Client} (trail : Trail start)
    (walk : Walk filter limit start world client) : Trail world := by
  induction walk with
  | start => exact trail
  | grown _ _ trail _ => exact trail
  | fetched _ _ ih => exact ih

def isPending (next : Option (Option Cursor)) (row : AuditRow) : Prop :=
  ∃ cursor, next = some cursor ∧ isWanted cursor row

structure Shown (filter : AuditFilter) (start world : World) (rows : List AuditRow)
    (next : Option (Option Cursor)) : Prop where
  descending : Descending rows
  held : ∀ row ∈ rows, row ∈ world.store.tables.audit ∧ filter.holds row
  complete : ∀ row ∈ start.store.tables.audit, filter.holds row → row ∈ rows ∨ isPending next row
  pending : ∀ row, isPending next row → ∀ other ∈ rows, isEarlier row.place other.place

theorem shown_start (filter : AuditFilter) (start : World) :
    Shown filter start start [] (some none) where
  descending := .nil
  held := fun _ h => (List.not_mem_nil h).elim
  complete := fun _ _ _ => .inr ⟨none, rfl, rfl⟩
  pending := fun _ _ _ h => (List.not_mem_nil h).elim

theorem Shown.step {rows : List AuditRow} {cursor : Option Cursor} {page : AuditPage}
    (h : Shown filter start world rows (some cursor))
    (kept : start.store.tables.audit ⊆ world.store.tables.audit)
    (shows : Shows (world.store.tables.audit.filter filter.holds) cursor page) :
    Shown filter start world (rows ++ page.rows) (page.next.map some) where
  descending := by
    refine List.pairwise_append.mpr ⟨h.descending, shows.descending, fun a before b shown => ?_⟩
    exact h.pending b ⟨cursor, rfl, (shows.wanted b shown).2⟩ a before
  held := by
    intro row there
    obtain before | shown := List.mem_append.mp there
    · exact h.held row before
    · exact List.mem_filter.mp (shows.wanted row shown).1
  complete := by
    intro row there holds
    obtain before | ⟨_, same, wanted⟩ := h.complete row there holds
    · exact .inl (List.mem_append_left _ before)
    · cases same
      obtain shown | ⟨next, more, later⟩ :=
        shows.complete row (List.mem_filter.mpr ⟨kept there, holds⟩) wanted
      · exact .inl (List.mem_append_right _ shown)
      · exact .inr ⟨some next, by rw [more, Option.map_some], later⟩
  pending := by
    rintro row ⟨_, mapped, wanted⟩ other there
    obtain ⟨next, more, rfl⟩ := Option.map_eq_some_iff.mp mapped
    obtain ⟨last, shown, rfl, before⟩ := shows.last next more
    have earlier : isEarlier row.place last.place := wanted
    obtain old | new := List.mem_append.mp there
    · exact isEarlier_trans earlier
        (h.pending last ⟨cursor, rfl, (shows.wanted last shown).2⟩ other old)
    · obtain rfl | between := before other new
      · exact earlier
      · exact isEarlier_trans earlier between

/-! Cursors as the client has them -/

def IsStored (cursor : Option Cursor) : Prop :=
  ∀ c ∈ cursor, c.time.Valid ∧ c.time.offset = none

@[simp] theorem placeOf_toText {cursor : Option Cursor} (stored : IsStored cursor) :
    placeOf (cursor.map Cursor.toText) = .ok cursor := by
  cases cursor with
  | none => rfl
  | some cursor =>
    obtain ⟨valid, naive⟩ := stored cursor rfl
    rw [Option.map_some, placeOf_of_ne cursor.toText_ne_empty,
      Cursor.ofText_toText valid (by simp [naive])]
    rfl

def pageOf (filter : AuditFilter) (limit : Int) (world : World) (cursor : Option Cursor) :
    AuditPage :=
  .ofRows (world.store.tables.audit.filter filter.holds) cursor limit.toNat

theorem shows_pageOf (trail : Trail world) (positive : 1 ≤ limit) (cursor : Option Cursor) :
    Shows (world.store.tables.audit.filter filter.holds) cursor
      (pageOf filter limit world cursor) := by
  have sublist : (world.store.tables.audit.filter filter.holds).Sublist world.store.tables.audit :=
    List.filter_sublist
  exact shows_ofRows (trail.distinct.sublist (sublist.map AuditRow.id)) (by omega)

theorem isStored_next {cursor : Option Cursor} {page : AuditPage} (trail : Trail world)
    (shows : Shows (world.store.tables.audit.filter filter.holds) cursor page) {next : Cursor}
    (more : page.next = some next) : IsStored (some next) := by
  intro c same
  cases same
  obtain ⟨row, shown, rfl, -⟩ := shows.last next more
  exact trail.times row (List.mem_filter.mp (shows.wanted row shown).1).1

theorem fetch_pageOf (trail : Trail world) (positive : 1 ≤ limit) (small : limit < maxRowCount)
    {cursor : Option Cursor} (stored : IsStored cursor) (shown : List Json) :
    Fetch filter limit world (shown, some (cursor.map Cursor.toText))
      (shown ++ (pageOf filter limit world cursor).rows.map AuditRow.toJson,
        (pageOf filter limit world cursor).next.map fun c => some c.toText) := by
  have performed := @perform_auditPage filter limit world trail positive small _ _
    (placeOf_toText stored)
  have fetched := @Fetch.page filter limit world shown _ _ performed
  rw [rowsOf_response, nextOf_response] at fetched
  exact fetched

structure Knows (client : Client) (rows : List AuditRow) (next : Option (Option Cursor)) :
    Prop where
  shown : client.1 = rows.map AuditRow.toJson
  goesOn : client.2 = next.map (Option.map Cursor.toText)
  stored : ∀ cursor, next = some cursor → IsStored cursor

theorem exists_shown_of_walk {client : Client} (trail : Trail start) (positive : 1 ≤ limit)
    (small : limit < maxRowCount) (walk : Walk filter limit start world client) :
    start.store.tables.audit ⊆ world.store.tables.audit ∧
      ∃ rows next, Knows client rows next ∧ Shown filter start world rows next := by
  induction walk with
  | start =>
    refine ⟨List.Subset.refl _, [], some none, ⟨rfl, rfl, ?_⟩, shown_start filter start⟩
    intro cursor same c there
    cases same
    cases there
  | grown _ grows _ ih =>
    obtain ⟨kept, rows, next, knows, shown⟩ := ih
    exact ⟨List.Subset.trans kept grows, rows, next, knows, { shown with
      held := fun row there => ⟨grows (shown.held row there).1, (shown.held row there).2⟩ }⟩
  | @fetched world client other walk fetch ih =>
    obtain ⟨kept, rows, next, knows, shown⟩ := ih
    have trail' := trail_of_walk trail walk
    cases fetch with
    | @page before text response performed =>
      obtain ⟨cursor, rfl, rfl⟩ : ∃ cursor, next = some cursor ∧
          cursor.map Cursor.toText = text := Option.map_eq_some_iff.mp knows.goesOn.symm
      have stored := knows.stored cursor rfl
      have shows := @shows_pageOf filter limit world trail' positive cursor
      rw [perform_auditPage trail' positive small (placeOf_toText stored)] at performed
      obtain rfl := Except.ok.inj (Prod.mk.inj performed).1
      refine ⟨kept, _, _, ⟨?_, ?_, ?_⟩, shown.step kept shows⟩
      · rw [rowsOf_response, List.map_append, ← knows.shown]
        rfl
      · rw [nextOf_response, Option.map_map]
        rfl
      · intro cursor mapped
        obtain ⟨next, more, rfl⟩ := Option.map_eq_some_iff.mp mapped
        exact isStored_next trail' shows more

/-! The end -/

theorem isWanted_of_isEarlier {cursor : Option Cursor} {row last : AuditRow}
    (h : isEarlier row.place last.place) (wanted : isWanted cursor last) : isWanted cursor row := by
  cases cursor with
  | none => rfl
  | some cursor => exact isEarlier_trans h wanted

theorem length_wanted_lt {rows : List AuditRow} {cursor : Option Cursor} {page : AuditPage}
    (shows : Shows rows cursor page) {next : Cursor} (more : page.next = some next) :
    (rows.filter (isWanted (some next))).length < (rows.filter (isWanted cursor)).length := by
  obtain ⟨last, shown, rfl, -⟩ := shows.last next more
  obtain ⟨there, wanted⟩ := shows.wanted last shown
  have fewer : rows.filter (isWanted (some (cursorOf last))) =
      (rows.filter (isWanted cursor)).filter (isWanted (some (cursorOf last))) := by
    rw [List.filter_filter]
    refine List.filter_congr fun row _ => ?_
    rw [Bool.eq_iff_iff, Bool.and_eq_true]
    exact ⟨fun earlier => ⟨earlier, isWanted_of_isEarlier earlier wanted⟩, And.left⟩
  rw [fewer, List.length_filter_lt_length_iff_exists]
  exact ⟨last, List.mem_filter.mpr ⟨there, wanted⟩, not_isEarlier_self last.place⟩

theorem exists_end (trail : Trail world) (positive : 1 ≤ limit) (small : limit < maxRowCount)
    {cursor : Option Cursor} (stored : IsStored cursor) (shown : List Json) :
    ∃ all, Relation.ReflTransGen (Fetch filter limit world)
      (shown, some (cursor.map Cursor.toText)) (all, none) := by
  generalize left : ((world.store.tables.audit.filter filter.holds).filter
    (isWanted cursor)).length = n
  induction n using Nat.strong_induction_on generalizing cursor shown with
  | _ n ih =>
    have shows := @shows_pageOf filter limit world trail positive cursor
    have fetch := @fetch_pageOf filter limit world trail positive small cursor stored shown
    rcases more : (pageOf filter limit world cursor).next with _ | next
    · rw [more] at fetch
      exact ⟨_, .single fetch⟩
    · rw [more] at fetch
      obtain ⟨all, rest⟩ := ih _ (left ▸ length_wanted_lt shows more)
        (isStored_next trail shows more) _ rfl
      exact ⟨all, .head fetch rest⟩

/-- For every filter and every limit that a database can count to, and however many rows are added
between two pages: the client is shown no row twice and only rows that the filter lets through, the
newest first, and at the end it has been shown every one of those that were there at the beginning
exactly once. Each page that it asks for is given to it, and it comes to an end as soon as no more
rows are added. -/
theorem shown_of_walk {client : Client} (trail : Trail start) (positive : 1 ≤ limit)
    (small : limit < maxRowCount) (walk : Walk filter limit start world client) :
    (∃ rows : List AuditRow, client.1 = rows.map AuditRow.toJson ∧
      (rows.map AuditRow.id).Nodup ∧ Descending rows ∧
      (∀ row ∈ rows, row ∈ world.store.tables.audit ∧ filter.holds row) ∧
      (client.2 = none →
        ∀ row ∈ start.store.tables.audit, filter.holds row → rows.count row = 1)) ∧
    ∀ text, client.2 = some text →
      (∃ response, (auditPage filter text limit).perform world = (.ok response, world)) ∧
      ∃ all, Relation.ReflTransGen (Fetch filter limit world) client (all, none) := by
  obtain ⟨-, rows, next, knows, shown⟩ := exists_shown_of_walk trail positive small walk
  have trail' := trail_of_walk trail walk
  have unlike : rows.Nodup := by
    refine List.Pairwise.imp ?_ shown.descending
    rintro row _ earlier rfl
    exact not_isEarlier_self row.place earlier
  refine ⟨⟨rows, knows.shown, ?_, shown.descending, shown.held, fun ended row there holds => ?_⟩,
    fun text asks => ?_⟩
  · exact unlike.map_on fun a there b there' same => List.inj_on_of_nodup_map trail'.distinct
      (shown.held a there).1 (shown.held b there').1 same
  · have none : next = none := Option.map_eq_none_iff.mp (knows.goesOn.symm.trans ended)
    obtain seen | ⟨cursor, more, -⟩ := shown.complete row there holds
    · exact List.count_eq_one_of_mem unlike seen
    · rw [none] at more
      cases more
  · obtain ⟨cursor, rfl, rfl⟩ : ∃ cursor, next = some cursor ∧
        cursor.map Cursor.toText = text :=
      Option.map_eq_some_iff.mp (knows.goesOn.symm.trans asks)
    have stored := knows.stored cursor rfl
    obtain ⟨all, ends⟩ := @exists_end filter limit world trail' positive small _ stored client.1
    refine ⟨⟨_, perform_auditPage trail' positive small (placeOf_toText stored)⟩, all, ?_⟩
    rw [← asks] at ends
    exact ends

theorem Walk.fetches {client other : Client} (walk : Walk filter limit start world client)
    (fetches : Relation.ReflTransGen (Fetch filter limit world) client other) :
    Walk filter limit start world other := by
  induction fetches with
  | refl => exact walk
  | tail _ fetch ih => exact ih.fetched fetch

def noted (projectId : String) (number : Nat) : AuditRow where
  number := number
  note := { action := .save, projectId, actor := .null }
  createdAt := { year := 1970, month := 1, day := 1 }

def noting (rows : List AuditRow) : World where
  store := { backing := .database, tables := { audit := rows } }
  clock := 0
  random := default

theorem shown_of_walk_twoPages :
    let start := noting [noted "p1" 1, noted "p2" 2]
    Trail start ∧ ∃ all : List Json, Walk {} 1 start start (all, none) ∧
      ∃ rows : List AuditRow, all = rows.map AuditRow.toJson ∧ Descending rows ∧
        rows.count (noted "p1" 1) = 1 ∧ rows.count (noted "p2" 2) = 1 := by
  intro start
  have trail : Trail start := ⟨rfl, rfl, rfl, by decide +kernel, by decide +kernel⟩
  have small : (1 : Int) < maxRowCount := by decide
  obtain ⟨-, goesOn⟩ := @shown_of_walk {} 1 start start _ trail (by decide) small .start
  obtain ⟨-, all, fetches⟩ := goesOn none rfl
  have walk := Walk.start.fetches fetches
  obtain ⟨⟨rows, shown, -, descending, -, complete⟩, -⟩ :=
    shown_of_walk trail (by decide) small walk
  exact ⟨trail, all, walk, rows, shown, descending,
    complete rfl _ (by decide +kernel) rfl, complete rfl _ (by decide +kernel) rfl⟩

theorem limit_lt_of_auditPage_eq_ok {text : Option String} {response : Fields Json} {after : World}
    (h : (auditPage filter text limit).perform world = (.ok response, after)) :
    limit < maxRowCount := by
  rw [auditPage_eq] at h
  obtain ⟨_, _, -, h⟩ := Action.perform_bind_eq_ok.mp h
  obtain ⟨_, -, h⟩ := Action.perform_ofExcept_bind_eq_ok.mp h
  obtain ⟨_, _, -, h⟩ := Action.perform_bind_eq_ok.mp h
  obtain ⟨_, _, countable, -⟩ := Action.perform_bind_eq_ok.mp h
  exact Int.not_le.mp (Action.perform_refuseIf_eq_ok.mp countable).1

/-- A limit that a database cannot count to is refused, so that the client never comes to an end. -/
theorem walk_uncountable :
    let limit : Int := 9223372036854775807
    let start := noting [noted "p1" 1]
    Trail start ∧ 1 ≤ limit ∧
      (auditPage {} none limit).perform start = (.error .numberTooLarge, start) ∧
      ∀ world client, Walk {} limit start world client → client.2 ≠ none := by
  intro limit start
  have trail : Trail start := ⟨rfl, rfl, rfl, by decide +kernel, by decide +kernel⟩
  refine ⟨trail, by decide, rfl, fun world client walk => ?_⟩
  have asks : client = ([], some none) := by
    induction walk with
    | start => rfl
    | grown _ _ _ ih => exact ih
    | fetched _ fetch ih =>
      cases fetch with
      | page performed => exact absurd (limit_lt_of_auditPage_eq_ok performed) (by decide)
  rw [asks]
  exact Option.some_ne_none _

end Sitewright.Store
