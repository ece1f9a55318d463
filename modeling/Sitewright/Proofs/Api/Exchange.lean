import Sitewright.Proofs.Api.Copies

/-!
Clients that read a copy and replace it, any number of them and in any order, each with the date of
the copy that it has read. The date tells the second in which that copy was written: what is written
in a later second is never replaced by a client that has not read it.
-/

namespace Sitewright

open Time (DateTime Instant secondOf)

namespace Api

structure Visit where
  request : Request
  world : World

namespace Visit

variable (settings : Settings) (transform : Operation.Transform) (id environment : String)

def response [Machine] (visit : Visit) : Response :=
  ((respond settings transform visit.request).run visit.world).1

def after [Machine] (visit : Visit) :
    World := ((respond settings transform visit.request).run visit.world).2

def IsAccepted [Machine] (visit : Visit) : Prop := (visit.response settings transform).status = 200

def Writes [Machine] (visit : Visit) : Prop :=
  IsSend id environment visit.request ∧ visit.IsAccepted settings transform

end Visit

variable {settings : Settings} {transform : Operation.Transform} {id environment : String}

/-- A store between two requests. The clock shows a date, and no copy is younger than it. -/
structure Steady (id environment : String) (world : World) : Prop where
  settled : world.store.Settled
  present : world.store.lost = false
  dated : (DateTime.ofInstant? world.clock).isSome
  copy : ∀ copy ∈ world.store.tables.copy? id environment, copy.writtenAt.Valid ∧
    copy.writtenAt.offset.getD 0 = 0 ∧ copy.writtenAt.instant ≤ world.clock

/-- What may happen between two requests: time passes, and all may change but the one copy. -/
structure Elsewhere (id environment : String) (before after : World) : Prop where
  settled : after.store.Settled
  present : after.store.lost = false
  dated : (DateTime.ofInstant? after.clock).isSome
  clock : before.clock ≤ after.clock
  copy : after.store.tables.copy? id environment = before.store.tables.copy? id environment

/-- Requests for a copy, and requests that send a new one, whoever sends them. -/
inductive Exchange [Machine] (settings : Settings) (transform : Operation.Transform)
    (id environment : String) : World → List Visit → World → Prop
  | done (world : World) : Exchange settings transform id environment world [] world
  | elsewhere {world other last : World} {visits : List Visit} :
    Elsewhere id environment world other →
    Exchange settings transform id environment other visits last →
    Exchange settings transform id environment world visits last
  | visit {visit : Visit} {last : World} {visits : List Visit} :
    IsFetch id environment visit.request ∨ IsSend id environment visit.request →
    Exchange settings transform id environment (visit.after settings transform) visits last →
    Exchange settings transform id environment visit.world (visit :: visits) last

/-! One step -/

theorem writeTime_spec {world : World} (dated : (DateTime.ofInstant? world.clock).isSome) :
    (Store.writeTime world).Valid ∧ (Store.writeTime world).offset.getD 0 = 0 ∧
      (Store.writeTime world).instant = world.clock := by
  obtain ⟨t, shown⟩ := Option.isSome_iff_exists.mp dated
  obtain ⟨valid, universal, same⟩ := DateTime.ofInstant?_eq_some shown
  have now : world.now = t := by
    rw [World.now, DateTime.ofInstant, shown, Option.getD_some]
  simp only [Store.writeTime, now]
  split
  · obtain ⟨year, year', month, month', first, last, hour, minute, second, micro, -⟩ := valid
    refine ⟨⟨year, year', month, month', first, last, hour, minute, second, micro, ?_⟩, rfl, ?_⟩
    · rintro _ ⟨⟩
    · rw [← same]
      simp only [DateTime.instant, DateTime.naive, DateTime.timeOfDay, universal,
        Option.getD_none, Option.getD_some]
  · exact ⟨valid, by rw [universal, Option.getD_some], same⟩

theorem Steady.elsewhere {world other : World} (steady : Steady id environment world)
    (moved : Elsewhere id environment world other) : Steady id environment other where
  settled := moved.settled
  present := moved.present
  dated := moved.dated
  copy := by
    rw [moved.copy]
    intro copy there
    obtain ⟨valid, universal, before⟩ := steady.copy copy there
    exact ⟨valid, universal, Int.le_trans before moved.clock⟩

theorem Steady.of_frame {world after : World} (steady : Steady id environment world)
    (frame : World.Frame world after) (settled : after.store.Settled)
    (same : after.store.tables = world.store.tables) : Steady id environment after :=
  steady.elsewhere {
    settled
    present := frame.lost.trans steady.present
    dated := by
      rw [frame.clock]
      exact steady.dated
    clock := Int.le_of_eq frame.clock.symm
    copy := by rw [same] }

/-- How a request ends: it leaves the copies as they are, or it has sent a new one, which bears the
time of the clock. -/
inductive Ended [Machine] (settings : Settings) (transform : Operation.Transform)
    (id environment : String) (visit : Visit) : Prop
  | kept : ¬visit.Writes settings transform id environment →
    (visit.after settings transform).store.tables = visit.world.store.tables →
    Ended settings transform id environment visit
  | written {copy : Store.Copy} : visit.Writes settings transform id environment →
    (visit.after settings transform).store.tables.copy? id environment = some copy →
    copy.writtenAt.instant = visit.world.clock →
    Saved settings visit.request id environment visit.world (visit.after settings transform) →
    Ended settings transform id environment visit

theorem Visit.answers_of_isFetch [Machine] {visit : Visit} (settled : visit.world.store.Settled)
    (present : visit.world.store.lost = false) (fetch : IsFetch id environment visit.request) :
    World.Frame visit.world (visit.after settings transform) ∧
      (visit.after settings transform).store = visit.world.store ∧
      ∀ text, (visit.response settings transform).lastModified = some text →
        ∃ copy, visit.world.store.tables.copy? id environment = some copy ∧
          Time.HttpDate.ofDateTime? copy.writtenAt = some text := by
  have answers := @respond_of_isFetch settings transform visit.request id environment visit.world _
    settled present fetch
  rcases answered : (respond settings transform visit.request).run visit.world with
    ⟨response, after⟩
  rw [answered] at answers
  rw [Visit.after, Visit.response, answered]
  exact answers

theorem Steady.fetch [Machine] {visit : Visit} (steady : Steady id environment visit.world)
    (fetch : IsFetch id environment visit.request) :
    Steady id environment (visit.after settings transform) ∧
      (visit.after settings transform).clock = visit.world.clock ∧
      (visit.after settings transform).store = visit.world.store ∧
      ∀ text, (visit.response settings transform).lastModified = some text →
        ∃ copy, visit.world.store.tables.copy? id environment = some copy ∧
          Time.HttpDate.ofDateTime? copy.writtenAt = some text := by
  obtain ⟨frame, same, dates⟩ := @Visit.answers_of_isFetch settings transform id environment _ visit
    steady.settled steady.present fetch
  have settled : (visit.after settings transform).store.Settled := by
    rw [same]
    exact steady.settled
  exact ⟨steady.of_frame frame settled (by rw [same]), frame.clock, same, dates⟩

theorem Steady.send [Machine] {visit : Visit} (steady : Steady id environment visit.world)
    (send : IsSend id environment visit.request) :
    Steady id environment (visit.after settings transform) ∧
      (visit.after settings transform).clock = visit.world.clock ∧
      Ended settings transform id environment visit := by
  have sent := @sent_of_serve settings transform visit.request id environment visit.world _
    steady.settled steady.present
  rw [← respond_of_isSend send] at sent
  rcases answered : (respond settings transform visit.request).run visit.world with
    ⟨response, after⟩
  have accepted : visit.IsAccepted settings transform ↔ response.status = 200 := by
    rw [Visit.IsAccepted, Visit.response, answered]
  have left : visit.after settings transform = after := by rw [Visit.after, answered]
  rw [left]
  rw [answered] at sent
  cases sent with
  | refused status frame settled same =>
    exact ⟨steady.of_frame frame settled same, frame.clock,
      .kept (fun writes => status (accepted.mp writes.2)) (left ▸ same)⟩
  | saved status frame settled saved =>
    obtain ⟨copy, found, time⟩ := saved.copy
    obtain ⟨valid, universal, now⟩ := writeTime_spec steady.dated
    rw [← time] at valid universal now
    refine ⟨?_, frame.clock, .written ⟨send, accepted.mpr status⟩ (left ▸ found) now
      (left ▸ saved)⟩
    exact {
      settled
      present := frame.lost.trans steady.present
      dated := by
        rw [frame.clock]
        exact steady.dated
      copy := by
        rw [found]
        rintro _ ⟨⟩
        exact ⟨valid, universal, by rw [now, frame.clock]⟩ }

theorem Steady.visit [Machine] {visit : Visit} (steady : Steady id environment visit.world)
    (about : IsFetch id environment visit.request ∨ IsSend id environment visit.request) :
    Steady id environment (visit.after settings transform) ∧
      (visit.after settings transform).clock = visit.world.clock ∧
      Ended settings transform id environment visit := by
  obtain fetch | send := about
  · obtain ⟨steady', clock, same, -⟩ := @Steady.fetch settings transform _ _ _ visit steady fetch
    refine ⟨steady', clock, .kept ?_ (by rw [same])⟩
    rintro ⟨⟨put, -⟩, -⟩
    rw [fetch.1] at put
    cases put
  · exact steady.send send

/-! A whole exchange -/

theorem steady_of_exchange [Machine] {world other : World} {visits : List Visit}
    (steady : Steady id environment world)
    (run : Exchange settings transform id environment world visits other) :
    Steady id environment other := by
  induction run with
  | done => exact steady
  | elsewhere moved _ ih => exact ih (steady.elsewhere moved)
  | visit about _ ih => exact ih (steady.visit about).1

/-- The copy is at first of one time and at last of another one, and what is written meanwhile is
written between the two. The last of it is the copy that is there at last. -/
structure Spans [Machine] (settings : Settings) (transform : Operation.Transform)
    (id environment : String) (visits : List Visit) (first last : Instant) : Prop where
  forward : first ≤ last
  within : ∀ visit ∈ visits, visit.Writes settings transform id environment →
    first ≤ visit.world.clock ∧ visit.world.clock ≤ last
  latest : last = first ∨
    ∃ visit ∈ visits, visit.Writes settings transform id environment ∧ visit.world.clock = last

theorem Spans.kept [Machine] {visit : Visit} {visits : List Visit} {first last : Instant}
    (spans : Spans settings transform id environment visits first last)
    (kept : ¬visit.Writes settings transform id environment) :
    Spans settings transform id environment (visit :: visits) first last where
  forward := spans.forward
  within := by
    intro other there writes
    obtain rfl | later := List.mem_cons.mp there
    · exact absurd writes kept
    · exact spans.within other later writes
  latest := spans.latest.imp_right fun ⟨other, later, writes⟩ =>
    ⟨other, List.mem_cons_of_mem _ later, writes⟩

theorem Spans.written [Machine] {visit : Visit} {visits : List Visit} {first last : Instant}
    (spans : Spans settings transform id environment visits visit.world.clock last)
    (writes : visit.Writes settings transform id environment)
    (before : first ≤ visit.world.clock) :
    Spans settings transform id environment (visit :: visits) first last where
  forward := Int.le_trans before spans.forward
  within := by
    intro other there later
    obtain rfl | later' := List.mem_cons.mp there
    · exact ⟨before, spans.forward⟩
    · obtain ⟨low, high⟩ := spans.within other later' later
      exact ⟨Int.le_trans before low, high⟩
  latest := by
    obtain same | ⟨other, later, writes'⟩ := spans.latest
    · exact .inr ⟨visit, List.mem_cons_self, writes, same.symm⟩
    · exact .inr ⟨other, List.mem_cons_of_mem _ later, writes'⟩

theorem spans_of_exchange [Machine] {world other : World} {visits : List Visit} {copy : Store.Copy}
    (steady : Steady id environment world)
    (found : world.store.tables.copy? id environment = some copy)
    (run : Exchange settings transform id environment world visits other) :
    ∃ last, other.store.tables.copy? id environment = some last ∧
      Spans settings transform id environment visits copy.writtenAt.instant
        last.writtenAt.instant := by
  induction run generalizing copy with
  | done =>
    refine ⟨copy, found, ⟨Int.le_refl _, ?_, .inl rfl⟩⟩
    exact fun visit there => (List.not_mem_nil there).elim
  | elsewhere moved _ ih =>
    obtain ⟨last, there, spans⟩ := ih (steady.elsewhere moved) (moved.copy.trans found)
    exact ⟨last, there, spans⟩
  | @visit visit other visits about _ ih =>
    obtain ⟨steady', clock, ended⟩ := @Steady.visit settings transform id environment _ visit steady
      about
    cases ended with
    | kept unwritten same =>
      obtain ⟨last, there, spans⟩ := ih steady' (by rw [same, found])
      exact ⟨last, there, spans.kept unwritten⟩
    | @written new writes stored now =>
      obtain ⟨last, there, spans⟩ := ih steady' stored
      rw [now] at spans
      exact ⟨last, there, spans.written writes (steady.copy copy found).2.2⟩

/-! Two clients and one copy: one reads it and sends a new one, and meanwhile the other one does -/

def later (clock : Instant) (world : World) : World := { world with clock }

theorem Steady.later {world : World} {clock : Instant} (steady : Steady id environment world)
    (dated : (DateTime.ofInstant? clock).isSome) (forward : world.clock ≤ clock) :
    Elsewhere id environment world (later clock world) where
  settled := steady.settled
  present := steady.present
  dated := dated
  clock := forward
  copy := rfl

theorem steady_empty {backing : Store.Backing} {clock : Instant} (random : Random)
    (guarded : backing ≠ .unguarded) (dated : (DateTime.ofInstant? clock).isSome) :
    Steady id environment { store := { backing }, clock, random } where
  settled := Operation.settled_empty guarded
  present := rfl
  dated := dated
  copy := by rintro _ ⟨⟩

def aboutStaging (method : Method) (headers : List Header) : Request where
  method := method
  target := { path := "api/v1/projects/p1/environments/staging".toList, args := [] }
  headers := headers
  content := .json "application/json" (.obj [("id", .str "p1"), ("name", .str "Home")])

def datedRequest : Request :=
  aboutStaging .put [{ name := "If-Unmodified-Since", value := "Thu, 01 Jan 1970 00:00:00 GMT" }]

def noTransform : Operation.Transform := fun _ _ => .error .projectRequired

def firstVisit : Visit :=
  ⟨aboutStaging .put [], { store := { backing := .memory }, clock := 0, random := default }⟩

def readingVisit : Visit :=
  ⟨aboutStaging .get [], later 500000 (firstVisit.after {} noTransform)⟩

def otherVisit [Machine] (clock : Instant) : Visit :=
  ⟨aboutStaging .put [], later clock (readingVisit.after {} noTransform)⟩

def ownVisit [Machine] (clock : Instant) : Visit :=
  ⟨datedRequest, (otherVisit clock).after {} noTransform⟩

theorem isSend_aboutStaging : IsSend "p1" "staging" (aboutStaging .put []) := ⟨rfl, rfl⟩

theorem isFetch_aboutStaging : IsFetch "p1" "staging" (aboutStaging .get []) := ⟨rfl, rfl⟩

theorem isSend_datedRequest : IsSend "p1" "staging" datedRequest := ⟨rfl, rfl⟩

theorem header?_datedRequest :
    datedRequest.header? "If-Unmodified-Since" = some "Thu, 01 Jan 1970 00:00:00 GMT" := rfl

theorem steady_firstVisit : Steady "p1" "staging" firstVisit.world :=
  steady_empty _ (by decide) rfl

theorem exchange_firstVisit :
    Exchange {} noTransform "p1" "staging" firstVisit.world [firstVisit] readingVisit.world := by
  obtain ⟨steady, clock, -⟩ := @Steady.visit {} noTransform _ _ _ firstVisit steady_firstVisit
    (.inr isSend_aboutStaging)
  refine .visit (.inr isSend_aboutStaging)
    (.elsewhere (steady.later rfl ?_) (.done _))
  rw [clock]
  decide

theorem lastModified_readingVisit : (readingVisit.response {} noTransform).lastModified =
    some "Thu, 01 Jan 1970 00:00:00 GMT" := by
  decide +kernel

theorem exchange_otherVisit {clock : Instant} (dated : (DateTime.ofInstant? clock).isSome)
    (forward : 500000 ≤ clock) :
    Exchange {} noTransform "p1" "staging" (readingVisit.after {} noTransform) [otherVisit clock]
      (ownVisit clock).world := by
  have read := steady_of_exchange steady_firstVisit exchange_firstVisit
  obtain ⟨steady, same, -⟩ :=
    @Steady.fetch {} noTransform _ _ _ readingVisit read isFetch_aboutStaging
  have moved : Elsewhere "p1" "staging" (readingVisit.after {} noTransform)
      (otherVisit clock).world := by
    refine steady.later dated ?_
    rw [same, readingVisit, later]
    exact forward
  have last : (ownVisit clock).world = (otherVisit clock).after {} noTransform := by
    rw [ownVisit]
  rw [last]
  exact .elsewhere moved (.visit (.inr isSend_aboutStaging) (.done _))

theorem readsBack_readingVisit [Machine] {copy : Store.Copy}
    (found : readingVisit.world.store.tables.copy? "p1" "staging" = some copy) (today : DateTime) :
    secondOf copy.writtenAt.instant = 0 ∧ Time.DateText.ReadsBack today copy.writtenAt := by
  have time : (readingVisit.world.store.tables.copy? "p1" "staging").map Store.Copy.writtenAt =
      some { year := 1970, month := 1, day := 1, offset := some 0 } := by decide +kernel
  rw [found, Option.map_some] at time
  rw [Option.some.inj time]
  exact ⟨by decide +kernel, Time.DateText.readsBack_of_era today (by rfl) (by decide)⟩

/-! A client that sends back the date that it was shown -/

theorem unmodified_of_legible {tables : Store.Tables} {copy : Store.Copy} {known : DateTime}
    {second : Int} (found : tables.copy? id environment = some copy)
    (legible : copy.writtenAt.Legible) (zone : known.HasZone)
    (knows : known.toSecond.instant = second * 1000000) :
    Operation.unmodified tables id environment (some known) =
      if second < secondOf copy.writtenAt.instant then .error .modifiedSince else .ok () := by
  have modified := DateTime.isModifiedSince_iff legible knows
  have checked : known.checkZone = .ok () := if_pos zone
  simp only [Operation.unmodified, found, checked, modified]
  rfl

theorem unmodified_of_names {tables : Store.Tables} {copy : Store.Copy} {known : DateTime}
    {second : Int} (found : tables.copy? id environment = some copy) (valid : copy.writtenAt.Valid)
    (universal : copy.writtenAt.offset.getD 0 = 0) (zone : known.HasZone)
    (knows : known.toSecond.instant = second * 1000000) :
    Operation.unmodified tables id environment (some known) =
      if second < secondOf copy.writtenAt.instant then .error .modifiedSince else .ok () :=
  unmodified_of_legible found (DateTime.legible_of_valid valid universal) zone knows

end Api

end Sitewright
