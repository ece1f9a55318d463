import Sitewright.Proofs.Api.Copies
import Sitewright.Proofs.Listing.Page
import Sitewright.Proofs.Operation.Faults
import Sitewright.Proofs.Site.Faults
import Sitewright.Proofs.Store.Paging
import Sitewright.Proofs.Text.Split
import Sitewright.Proofs.Time.Faults

/-!
What the service does with whatever it is sent. As long as the store does not fail, it answers every
request as one that it knows, or it says what is wrong with it and leaves the store as it was. What
has been overlooked is listed, and nothing else is ever answered as unexpected. One oversight is a
body that is no object where a body may be left out.
-/

namespace Sitewright

namespace Api

variable {settings : Settings} {transform : Operation.Transform} {request : Request}
  {world : World} {cause : Prop}

/-! What has been overlooked -/

def Request.authorization (request : Request) : List Char :=
  fieldsText (match request.token with
    | some _ => Text.join ", " (request.values "Authorization" ++ [""])
    | none => (request.header? "Authorization").getD "")

def Request.HasBlankField (request : Request) : Prop :=
  ∃ piece ∈ pieces request.authorization, piece ≠ [] ∧ ∀ c ∈ piece, Text.isBlank c = true

namespace Route

def readsBody : Route → Bool
  | createProject | exportProject | deploy _ | saveCopy .. | enhance => true
  | _ => false

def mayLackBody : Route → Bool
  | deploy _ | enhance => true
  | _ => false

end Route

/-- A body that is nested too deep to be read, or one that counts and is no object, where a body may
be left out. -/
def IsBrokenBy [Machine] (request : Request) (route : Route) : Prop :=
  (route.readsBody = true ∧ request.data = .error .textNested) ∨
    (route.mayLackBody = true ∧ ∃ data, request.data = .ok (some data) ∧ data.isTruthy = true ∧
      data.asObject? = none)

inductive HandsIn [Machine] (request : Request) : Route → Json → Prop
  | created {fields : Fields Json} : objectBody request = .ok fields →
    HandsIn request .createProject (.obj fields)
  | exported {fields : Fields Json} : objectBody request = .ok fields →
    HandsIn request .exportProject (projectIn fields)
  | saved {fields : Fields Json} {id environment : String} : objectBody request = .ok fields →
    HandsIn request (.saveCopy id environment) (projectIn fields)
  | enhanced {fields : Fields Json} : optionalBody request = .ok fields →
    HandsIn request .enhance (Fields.value fields "project")

/-- All that is answered as unexpected though no write has failed. -/
inductive Oversight [Machine] (settings : Settings) (transform : Operation.Transform)
    (request : Request) :
    Route → Prop
  | authorization {route : Route} : route.isPublic = false → request.HasBlankField →
    Oversight settings transform request route
  | body {route : Route} : IsBrokenBy request route → Oversight settings transform request route
  /-- A text with half of a surrogate pair. What becomes of it depends on where it is taken to. -/
  | torn {route : Route} : route.readsBody = true → request.data = .error .textTorn →
    Oversight settings transform request route
  | document {route : Route} {data : Json} : HandsIn request route data → IsUnwieldy data →
    Oversight settings transform request route
  | grid {data : Json} : HandsIn request .exportProject data → Site.HasEndlessGrid data →
    Oversight settings transform request .exportProject
  | snapshot {data : Json} : HandsIn request .exportProject data → Site.IsUnfit data →
    Oversight settings transform request .exportProject
  /-- A number with so many digits that it has no fraction. -/
  | date {id environment text : String} : request.header? "If-Unmodified-Since" = some text →
    Time.DateText.HasOverlong (Time.DateText.tokens text) →
    Oversight settings transform request (.saveCopy id environment)
  /-- A zone that is a day or more away from universal time. -/
  | zone {id environment : String} {time : Time.DateTime} :
    request.knownTime settings = .ok (some time) → ¬time.HasZone →
    Oversight settings transform request (.saveCopy id environment)
  | condition {name text : String} : name ∈ ["If-Modified-Since", "If-Range"] →
    request.header? name = some text → Time.MailDate.Overflows text →
    Oversight settings transform request .description
  | transform {project : Project} {fields : Fields Json} {text : String} :
    optionalBody request = .ok fields →
    Project.ofJson (Fields.value fields "project") = .ok project →
    Fields.value fields "enhancementPrompt" = .str text →
    Operation.IsLetDownBy transform project.toJson text →
    Oversight settings transform request .enhance

/-! Who sends a request -/

theorem exists_blank_of_fieldsOf {pieces : List (List Char)} {refusal : Refusal}
    (h : fieldsOf pieces = .error refusal) :
    ∃ piece ∈ pieces, piece ≠ [] ∧ ∀ c ∈ piece, Text.isBlank c = true := by
  simp only [fieldsOf] at h
  split at h
  · next empty =>
    obtain ⟨piece, there, blank⟩ := List.mem_map.mp (List.contains_iff_mem.mp empty)
    obtain ⟨there, full⟩ := List.mem_filter.mp there
    refine ⟨piece, there, by simpa using full, fun c among => ?_⟩
    simpa using Text.not_of_words_eq_nil blank c among
  · cases h

theorem exists_blank_of_subjectOf {before : List String} {subject : Json}
    (h : subjectOf before subject = .error .headerBroken) :
    ∃ piece ∈ pieces (fieldsText (Text.join ", " (before ++ [""]))), piece ≠ [] ∧
      ∀ c ∈ piece, Text.isBlank c = true := by
  unfold subjectOf at h
  dsimp only at h
  rcases found : fieldsOf (pieces (fieldsText (Text.join ", " (before ++ [""])))).dropLast with
    refusal | fields
  · obtain ⟨piece, there, blank⟩ := exists_blank_of_fieldsOf found
    exact ⟨piece, (List.dropLast_sublist _).subset there, blank⟩
  · rw [found, ok_bind] at h
    split at h
    · cases h
    · cases subject <;> cases h

theorem exists_blank_of_refusalOf {header : String} (h : refusalOf header = .headerBroken) :
    ∃ piece ∈ pieces (fieldsText header), piece ≠ [] ∧ ∀ c ∈ piece, Text.isBlank c = true := by
  simp only [refusalOf] at h
  split at h
  · cases h
  · split at h
    · next refusal found => exact exists_blank_of_fieldsOf found
    · split at h <;> cases h

theorem hasBlankField_of_senderFor {route : Route}
    (h : senderFor settings request route = .error .headerBroken) :
    route.isPublic = false ∧ request.HasBlankField := by
  have settled {refusal : Refusal} (same : sender.settle settings refusal = .error .headerBroken) :
      refusal = .headerBroken := by
    unfold sender.settle at same
    split at same
    · cases same
    · exact Except.error.inj same
  unfold senderFor at h
  split at h
  · cases h
  · next asked =>
    refine ⟨Bool.eq_false_iff.mpr asked, ?_⟩
    unfold sender at h
    rcases token : request.token with _ | subject
    · simp only [token] at h
      simp only [Request.HasBlankField, Request.authorization, token]
      exact exists_blank_of_refusalOf (settled h)
    · simp only [token] at h
      simp only [Request.HasBlankField, Request.authorization, token]
      split at h
      · cases h
      · next refusal found =>
        rw [settled h] at found
        exact exists_blank_of_subjectOf found

/-! What is sent -/

theorem Content.dataOf_eq_error [Machine] {body : String} {error : Error}
    (h : dataOf body = .error error) : error = .textNested ∨ error = .textTorn := by
  unfold dataOf at h
  split at h
  · cases h
  · exact .inr (Except.error.inj h).symm
  · split at h
    · cases h
    · exact .inl (Except.error.inj h).symm
    · exact .inr (Except.error.inj h).symm
    · cases h

theorem data_eq_error [Machine] {error : Error} (h : request.data = .error error) :
    error = .textNested ∨ error = .textTorn := by
  unfold Request.data at h
  split at h
  · cases h
  · unfold Content.data at h
    split at h
    · cases h
    · cases h
    · split at h
      · exact Content.dataOf_eq_error h
      · cases h

theorem foreseen_data [Machine] {route : Route} (reads : route.readsBody = true) :
    ForeseenUnless (Oversight settings transform request route) request.data := by
  intro error failed
  obtain rfl | rfl := data_eq_error failed
  · exact .inr (.body (.inl ⟨reads, failed⟩))
  · exact .inr (.torn reads failed)

theorem foreseen_objectBody [Machine] {route : Route} (reads : route.readsBody = true) :
    ForeseenUnless (Oversight settings transform request route) (objectBody request) := by
  refine (foreseen_data reads).bind fun data _ => ?_
  split
  · exact .ok _
  · exact .error trivial

theorem foreseen_optionalBody [Machine] {route : Route} (reads : route.readsBody = true)
    (mayLack : route.mayLackBody = true) :
    ForeseenUnless (Oversight settings transform request route) (optionalBody request) := by
  refine (foreseen_data reads).bind fun data? found => ?_
  split
  · exact .ok _
  · next data other =>
    split
    · next counts =>
      refine .of_cause (.body (.inr ⟨mayLack, data, found, counts, ?_⟩)) _
      cases data with
      | obj fields => exact absurd rfl (other fields)
      | _ => rfl
    · exact .ok _
  · exact .ok _

theorem foreseen_messageIn (body : Fields Json) : ForeseenUnless cause (messageIn body) := by
  unfold messageIn
  split
  · exact .ok _
  · exact .ok _
  · exact .error trivial

/-! Conditions -/

theorem foreseen_mailDate [Machine] {name : String}
    (known : name ∈ ["If-Modified-Since", "If-Range"]) :
    ForeseenUnless (Oversight settings transform request .description)
      (Time.MailDate.read ((request.header? name).getD "")) := by
  rcases there : request.header? name with _ | text
  · exact .ok none
  · exact (Time.MailDate.foreseen_read text).imp (.condition known there)

theorem foreseen_knows [Machine] (modified : Time.DateTime) (part : Option PartCondition) :
    ForeseenUnless (Oversight settings transform request .description)
      (request.knows modified part) := by
  unfold Request.knows
  extract_lets answer
  have answered (since : Option Time.DateTime) :
      ForeseenUnless (Oversight settings transform request .description) (answer since) := by
    simp only [answer]
    split
    · exact .ok _
    · split
      · exact .ok _
      · split
        · exact .ok _
        · exact .ok _
  split
  · exact answered _
  · exact (foreseen_mailDate (by decide)).bind fun since _ => answered since

theorem foreseen_partCondition [Machine] :
    ForeseenUnless (Oversight settings transform request .description)
      request.partCondition := by
  unfold Request.partCondition
  dsimp only
  split
  · exact .ok _
  · refine (foreseen_mailDate (by decide)).bind fun time? _ => ?_
    split
    · exact .ok _
    · exact .ok _

theorem foreseen_deliver [Machine] (size : Int) (modified : Time.DateTime) :
    ForeseenUnless (Oversight settings transform request .description)
      (deliver request size modified) := by
  unfold deliver
  extract_lets answer
  have answered (mayDivide : Bool) :
      ForeseenUnless (Oversight settings transform request .description) (answer mayDivide) := by
    simp only [answer]
    split
    · exact .ok _
    · refine (foreseen_knows modified none).bind fun known _ => ?_
      split
      · exact .ok _
      · exact .ok _
  split
  · exact answered true
  · exact foreseen_partCondition.bind fun _ _ => (foreseen_knows _ _).bind fun _ _ => answered _

theorem foreseen_description [Machine] :
    ForeseenUnless (Oversight settings transform request .description)
      (Description.response settings.description request) := by
  refine (foreseen_deliver _ _).bind fun delivery _ => ?_
  cases delivery <;> exact .ok _

/-! Lists -/

theorem str_of_argsIn {name : String} {value : Json} (h : (argsIn request).get? name = some value) :
    ∃ s, value = .str s := by
  rw [argsIn] at h
  generalize request.target.args = args at h
  induction args with
  | nil => cases h
  | cons arg rest ih =>
    rw [List.map_cons, Fields.get?] at h
    split at h
    · exact ⟨arg.2, (Option.some.inj h).symm⟩
    · exact ih h

/-- Arguments are texts, and no text is an infinite number. -/
theorem foreseen_positive (name : String) (fallback : Int) :
    ForeseenUnless cause (Listing.positive (argsIn request) name (.int fallback)) := by
  have number : ForeseenUnless cause
      (((argsIn request).get? name).getD (.int fallback)).toInteger := by
    refine (Json.foreseen_toInteger _).imp ?_
    rintro ⟨negative, endless⟩
    rcases found : (argsIn request).get? name with _ | value
    · rw [found] at endless
      cases endless
    · obtain ⟨s, rfl⟩ := str_of_argsIn found
      rw [found] at endless
      cases endless
  refine number.bind fun n? _ => ?_
  split
  · exact .error trivial
  · split
    · exact .error trivial
    · exact .ok _

theorem foreseen_pageArgs (fallback : Int) :
    ForeseenUnless cause (Listing.pageArgs (argsIn request) (.int fallback)) :=
  (foreseen_positive "page" 1).bind fun _ _ =>
    (foreseen_positive "per_page" fallback).bind fun _ _ => .ok _

theorem foreseen_entryRow (entry : Store.Entry) :
    ForeseenUnless cause (Listing.entryRow entry.toFields) := by
  rw [Listing.entryRow_toFields]
  exact .ok _

theorem foreseen_pageInfo (page : Int) {size : Int} (positive : 0 < size) (total : Int) :
    ForeseenUnless cause (Listing.pageInfo (.int page) (.int size) (.int total)) := by
  rw [Listing.pageInfo, Listing.pageCountOf_int total size (Int.ne_of_gt positive)]
  exact .ok _

theorem foreseen_cursor (text : String) : ForeseenUnless cause (Cursor.ofText text) := by
  unfold Cursor.ofText
  split
  · exact .error trivial
  · split
    · exact .error trivial
    · exact .ok _

section

variable [Machine] (h : world.Unfailing)

include h

theorem foreseen_listProjects : ForeseenUnless cause ((listProjects request).perform world).1 := by
  refine Action.foreseen_ofExcept_bind (foreseen_pageArgs _) fun (page, size) asked => ?_
  obtain ⟨entries, -, listed⟩ := Store.perform_catalogue h.working.queued h.working.present
  have listed : Operation.listProjects.perform world = (.ok entries, world) := listed
  dsimp only
  rw [Action.perform_bind_of_ok listed]
  refine Action.foreseen_ofExcept_bind (.mapM fun entry _ => foreseen_entryRow entry)
    fun rows _ => ?_
  exact Action.foreseen_ofExcept_bind (foreseen_pageInfo page (Listing.bounds_of_pageArgs asked).2.1 _)
    fun _ _ => .ok _

/-- No page is so long that its rows cannot be counted. -/
theorem foreseen_auditPage (filter : Store.AuditFilter) (text : Option String) {limit : Int}
    (small : limit ≤ Listing.maxPageSize) :
    ForeseenUnless cause ((Store.auditPage filter text limit).perform world).1 := by
  have place : ForeseenUnless cause (Store.placeOf text) := by
    unfold Store.placeOf
    split
    · exact .ok _
    · exact .ok _
    · next text _ =>
      exact (foreseen_cursor text).map some
  have countable : ¬Store.maxRowCount ≤ limit := fun long => absurd (long.trans small) (by decide)
  rw [Store.auditPage_eq]
  by_cases positive : 0 < limit
  · rw [Action.perform_bind_of_ok (Action.perform_refuseIf_of_not _ (Int.not_le.mpr positive) world)]
    refine Action.foreseen_ofExcept_bind place fun cursor _ => ?_
    rw [Action.perform_bind_of_ok
        (Store.perform_access h.working.queued fun _ => h.working.present),
      Action.perform_bind_of_ok (Action.perform_refuseIf_of_not _ countable world)]
    exact .ok _
  · rw [Action.perform_bind_of_error
      (Action.perform_refuseIf_of _ (Int.not_lt.mp positive) world)]
    exact .error trivial

theorem foreseen_audit : ForeseenUnless cause ((audit request).perform world).1 := by
  unfold audit
  rw [Action.perform_get_bind]
  split
  · exact .error trivial
  · refine Action.foreseen_ofExcept_bind ((foreseen_positive "limit" _).bind fun _ _ => .ok _)
      fun limit asked => ?_
    obtain ⟨positive, -, same⟩ := bind_eq_ok.mp asked
    refine Action.foreseen_bind (foreseen_auditPage h _ _ ?_) fun _ _ _ => .ok _
    cases same
    exact min_le_right _ _

end

end Api

end Sitewright
