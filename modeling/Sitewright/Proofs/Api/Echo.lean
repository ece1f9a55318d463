import Sitewright.Proofs.Api.Calls
import Sitewright.Proofs.Operation.Sparing
import Sitewright.Proofs.Operation.Totality

namespace Sitewright

open Time (DateTime Instant secondOf)

/-! Saving a copy that is as the client knows it -/

namespace Operation

variable {world : World} {place : Environment} {date? : Option DateTime} {project : Project}

theorem perform_writeNoted_of_unmodified (settled : world.store.Settled)
    (present : world.store.lost = false) (note : Store.AuditNote)
    (same : unmodified world.store.tables project.id place.name date? = .ok ()) :
    (writeNoted project.id place date? project note).perform world =
      (writeNoted project.id place none project note).perform world := by
  let inside := Store.withDepth (world.store.depth + 1) world
  have passed {known : Option DateTime}
      (same : unmodified inside.store.tables project.id place.name known = .ok ()) :
      (checkUnmodified project.id place.name known).perform inside = (.ok (), inside) := by
    rw [@perform_checkUnmodified inside settled.queued present, same]
  rw [writeNoted, writeNoted, Store.perform_transaction, Store.perform_transaction, noteCopy,
    noteCopy, Action.perform_bind_of_ok (passed same),
    Action.perform_bind_of_ok (@passed none rfl)]

variable [Machine] {id : String} {data actor : Json} (storable : Storable actor)
  (valid : replacement id place data world.now = .ok project)
  (same : unmodified world.store.tables id place.name date? = .ok ())

include storable valid same

theorem known_of_saveCopy {known : Error → Prop} {error : Error} (usual : Error.Usual known)
    (settled : world.store.Settled) (present : world.store.lost = false)
    (due : world.Explained known)
    (failed : ((saveCopy id (.str place.name) data actor none date?).perform world).1 =
      .error error) : known error := by
  obtain rfl := (storedAs_of_replacement valid).id
  rw [perform_saveCopy_of_valid valid, Action.perform_bind,
    perform_writeNoted_of_unmodified settled present _ same, ← Action.perform_bind] at failed
  obtain ⟨stored, storable⟩ := storable
  have writing : Action.Explained known (writeNoted project.id place none project
      (saveNote project project.id place.name actor) >>= fun _ => pure project) :=
    (explained_writeNoted usual _ _ _ fun error refused => by
      rw [saveNote, storable] at refused
      cases refused).bind fun _ => Action.explained_pure _
  exact (writing world due).2 error failed

theorem exists_saveCopy (working : world.store.Working) :
    ∃ after, (saveCopy id (.str place.name) data actor none date?).perform world =
      (.ok project, after) := by
  obtain rfl := (storedAs_of_replacement valid).id
  let note := saveNote project project.id place.name actor
  have storable : Storable note.actor := storable
  obtain ⟨mid, noted, -⟩ := perform_noteCopy_of_ok (working.withDepth (world.store.depth + 1))
    (fun _ => Nat.succ_ne_zero _) storable same
  obtain ⟨after, written, -⟩ := Store.perform_transaction_of_ok
    (frame_noteCopy project.id place date? project _) working.toReady noted
  refine ⟨after, ?_⟩
  rw [perform_saveCopy_of_valid valid, writeNoted, Action.perform_bind_of_ok written]
  rfl

end Operation

namespace Api

variable {settings : Settings} {transform : Operation.Transform} {request : Request} {id : String}
  {place : Environment} {world : World}

/-! Sending a copy -/

theorem kind_of_status {error : Error} (h : (Response.ofError error).status = 409) :
    error.kind = some .conflict := by
  unfold Response.ofError at h
  split at h
  · next kind reported =>
    rw [reported]
    cases kind with
    | conflict => rfl
    | _ => cases h
  · cases h

section

variable [Machine] {date? : Option DateTime} (standing : world.Standing)
  (send : IsSend id place.name request)
  (proper : IsProper settings request id place.name world.now)
  (knows : request.knownTime settings = .ok date?)
  (same : Operation.unmodified world.store.tables id place.name date? = .ok ())

include standing send proper knows same

/-- What is sent for a copy that is as the client knows it is no conflict, but for a write that was
going to fail with one. -/
theorem fault_of_conflict
    (conflict : ((respond settings transform request).run world).1.status = 409) :
    ∃ fault, world.store.fault = some fault ∧ fault.cause.kind = some .conflict := by
  by_contra otherwise
  have due : world.Explained fun error => error.kind ≠ some .conflict :=
    fun fault due bad => otherwise ⟨fault, due, bad⟩
  obtain ⟨data, actor, other, project, label, storable, valid, answers⟩ :=
    @exists_saveCopy_of_isProper settings transform _ _ _ _ _ _ standing.settled
      standing.sound.present proper knows
  obtain rfl := Environment.name_injective label.symm
  rw [respond_of_isSend send] at conflict
  rcases saved : (Operation.saveCopy id (.str place.name) data actor none date?).perform world with
    ⟨error | made, after⟩
  · rw [answers _ _ saved] at conflict
    exact Operation.known_of_saveCopy storable valid same ⟨nofun, nofun⟩ standing.settled
      standing.sound.present due (congrArg Prod.fst saved) (kind_of_status conflict)
  · have accepted := answers _ _ saved
    dsimp only at accepted
    omega

theorem accepted_of_unmodified (faultless : world.store.fault = none)
    (room : world.store.full = none) :
    ((respond settings transform request).run world).1.status = 200 := by
  obtain ⟨data, actor, other, project, label, storable, valid, answers⟩ :=
    @exists_saveCopy_of_isProper settings transform _ _ _ _ _ _ standing.settled
      standing.sound.present proper knows
  obtain rfl := Environment.name_injective label.symm
  rw [respond_of_isSend send]
  obtain ⟨after, saved⟩ := Operation.exists_saveCopy storable valid same
    { queued := standing.settled.queued, present := standing.sound.present, faultless, room }
  exact answers _ _ saved

end

/-! What happens meanwhile -/

/-- What happens between two requests of a client while nobody writes one copy: the clock is set to
any time, forward or back, writes begin to fail or to succeed again, and there are calls and
requests of anybody. -/
inductive Meanwhile [Machine] (id : String) (place : Environment) (start : World) : World → Prop
  | start : Meanwhile id place start start
  | between {world : World} (clock : Instant) (random : Random) (full : Option String)
    (fault : Option Store.Fault) : Meanwhile id place start world →
      Meanwhile id place start
        { world with clock, random, store := { world.store with full, fault } }
  | call {world : World} (call : Operation.Call) : call.HasReadPrior →
    ¬call.Writes world id place → Meanwhile id place start world →
      Meanwhile id place start (call.perform.perform world).2
  | request {world : World} (settings : Settings) (transform : Operation.Transform)
    (request : Request) :
    (∀ call, request.call? settings transform = some call → ¬call.Writes world id place) →
    Meanwhile id place start world →
      Meanwhile id place start ((respond settings transform request).run world).2

/-- A copy is as it was, or it is gone. -/
def Lasts (id : String) (place : Environment) (before after : World) : Prop :=
  ∀ copy, after.store.tables.copy? id place.name = some copy →
    before.store.tables.copy? id place.name = some copy

theorem lasts_perform [Machine] {call : Operation.Call} (h : world.Standing)
    (prior : call.HasReadPrior) (spared : ¬call.Writes world id place) :
    Lasts id place world (call.perform.perform world).2 := by
  intro copy found
  rw [Operation.copy?_perform h prior spared] at found
  split at found
  · cases found
  · exact found

theorem standing_respond [Machine] (h : world.Standing) :
    ((respond settings transform request).run world).2.Standing := by
  have same := @store_respond settings transform request world _ h.settled
  rcases asked : request.call? settings transform with _ | call
  · rw [asked] at same
    exact h.of_store same
  · rw [asked] at same
    exact (Operation.standing_perform h (hasReadPrior_of_call? asked)).of_store same

theorem lasts_respond [Machine] (h : world.Standing)
    (spared : ∀ call, request.call? settings transform = some call → ¬call.Writes world id place) :
    Lasts id place world ((respond settings transform request).run world).2 := by
  intro copy
  rw [store_respond h.settled]
  rcases asked : request.call? settings transform with _ | call
  · exact fun found => found
  · exact lasts_perform h (hasReadPrior_of_call? asked) (spared call asked) copy

theorem standing_of_meanwhile [Machine] {start : World} (h : start.Standing)
    (meanwhile : Meanwhile id place start world) : world.Standing ∧ Lasts id place start world := by
  induction meanwhile with
  | start => exact ⟨h, fun _ found => found⟩
  | between clock random full fault _ ih =>
    obtain ⟨standing, lasts⟩ := ih
    exact ⟨standing.between clock random full fault, lasts⟩
  | call call prior spared _ ih =>
    obtain ⟨standing, lasts⟩ := ih
    exact ⟨Operation.standing_perform standing prior,
      fun copy found => lasts copy (lasts_perform standing prior spared copy found)⟩
  | request settings transform request spared _ ih =>
    obtain ⟨standing, lasts⟩ := ih
    exact ⟨standing_respond standing,
      fun copy found => lasts copy (lasts_respond standing spared copy found)⟩

/-- A client reads a copy, whenever that was written, and later sends a new one with the date that
it was shown. If nobody has written the copy meanwhile, whatever else was done and whatever the
clock shows, the copy counts as unmodified: what the client sends, if it is proper, is no conflict,
but for a write that was going to fail with one, and it is accepted if no write is going to fail.
Every store that calls lead to is one that this is true of. -/
theorem unmodified_of_meanwhile [Machine] {settings settings' : Settings}
    {transform transform' : Operation.Transform} {get put : Visit} {copy : Store.Copy}
    {text : String} (standing : get.world.Standing) (fetch : IsFetch id place.name get.request)
    (found : get.world.store.tables.copy? id place.name = some copy)
    (shown : (get.response settings transform).lastModified = some text)
    (meanwhile : Meanwhile id place (get.after settings transform) put.world)
    (send : IsSend id place.name put.request)
    (echo : put.request.header? "If-Unmodified-Since" = some text)
    (exact : Time.DateText.ReadsBack settings'.today copy.writtenAt) :
    (∃ known, put.request.knownTime settings' = .ok (some known) ∧
      Operation.unmodified put.world.store.tables id place.name (some known) = .ok ()) ∧
    (IsProper settings' put.request id place.name put.world.now →
      ((put.response settings' transform').status = 409 →
        ∃ fault, put.world.store.fault = some fault ∧ fault.cause.kind = some .conflict) ∧
      (put.world.store.fault = none → put.world.store.full = none →
        put.IsAccepted settings' transform')) ∧
    ∀ world, Operation.Reachable world → world.Standing := by
  obtain ⟨-, kept, dates⟩ := @Visit.answers_of_isFetch settings transform id place.name _ get
    standing.settled standing.sound.present fetch
  obtain ⟨copy', found', dated⟩ := dates text shown
  obtain rfl := Option.some.inj (found.symm.trans found')
  obtain ⟨known, knows, zone, instant⟩ := exact text dated
  obtain ⟨standing', lasts⟩ := standing_of_meanwhile (standing.of_store kept) meanwhile
  have knownTime : put.request.knownTime settings' = .ok (some known) := by
    rw [Request.knownTime, echo, knows]
  have unmodified : Operation.unmodified put.world.store.tables id place.name (some known) =
      .ok () := by
    rcases there : put.world.store.tables.copy? id place.name with _ | copy'
    · simp only [Operation.unmodified, there]
    · have same := lasts copy' there
      rw [kept, found] at same
      obtain rfl := Option.some.inj same
      have legible := standing.legible copy (Store.Tables.mem_of_copy? found)
      rw [unmodified_of_legible there legible zone instant, if_neg (Int.lt_irrefl _)]
  refine ⟨⟨known, knownTime, unmodified⟩, fun proper => ?_,
    fun world => Operation.standing_of_reachable⟩
  refine ⟨fun conflict => ?_, fun faultless room => ?_⟩
  · rw [Visit.response] at conflict
    exact fault_of_conflict standing' send proper knownTime unmodified conflict
  · rw [Visit.IsAccepted, Visit.response]
    exact accepted_of_unmodified standing' send proper knownTime unmodified faultless room

/-! A copy that is read, and then replaced after the clock was put back and another was saved -/

theorem standing_later [Machine] {clock : Instant} (h : world.Standing) :
    (later clock world).Standing :=
  h.of_store rfl

theorem Meanwhile.later [Machine] {start : World} {clock : Instant}
    (h : Meanwhile id place start world) :
    Meanwhile id place start (later clock world) :=
  .between clock world.random world.store.full world.store.fault h

theorem call?_of_isSend [Machine] {environment : String} {call : Operation.Call}
    (send : IsSend id environment request) (asked : request.call? settings transform = some call) :
    ∃ data actor known, call = .save id (.str environment) data actor none known := by
  rw [Request.call?, send.2] at asked
  dsimp only at asked
  split at asked
  · obtain ⟨body, -, asked⟩ := Option.bind_eq_some_iff.mp asked
    obtain ⟨known, -, ⟨⟩⟩ := Option.bind_eq_some_iff.mp asked
    exact ⟨_, _, _, rfl⟩
  · cases asked

def asideVisit : Visit where
  request := { aboutStaging .put [] with
    target := { path := "api/v1/projects/p1/environments/builder".toList, args := [] } }
  world := later (-1000000) (readingVisit.after {} noTransform)

def echoVisit : Visit := ⟨datedRequest, later 0 (asideVisit.after {} noTransform)⟩

theorem unmodified_of_meanwhile_aside :
    asideVisit.IsAccepted {} noTransform ∧ echoVisit.IsAccepted {} noTransform := by
  obtain ⟨copy, found⟩ := Option.isSome_iff_exists.mp
    (by decide +kernel : (readingVisit.world.store.tables.copy? "p1" "staging").isSome)
  have standing : readingVisit.world.Standing :=
    standing_later (standing_respond (Operation.standing_of_reachable (.empty 0 _ (by decide))))
  have standing' : asideVisit.world.Standing := standing_later (standing_respond standing)
  have spared (call : Operation.Call)
      (asked : asideVisit.request.call? {} noTransform = some call) :
      ¬call.Writes asideVisit.world "p1" .staging := by
    intro writes
    have sends : IsSend "p1" "builder" asideVisit.request := ⟨rfl, rfl⟩
    obtain ⟨data, actor, known, rfl⟩ := call?_of_isSend sends asked
    obtain ⟨-, label⟩ := writes.mayWrite standing'.settled
    cases label
  have meanwhile : Meanwhile "p1" .staging (readingVisit.after {} noTransform) echoVisit.world :=
    .later (.request {} noTransform _ spared (.later .start))
  have proper : IsProper {} datedRequest "p1" "staging" echoVisit.world.now := by
    let fields : Fields Json := [("id", .str "p1"), ("name", .str "Home")]
    have valid : (Operation.replacement "p1" .staging (projectIn fields)
        echoVisit.world.now).isOk = true := by decide +kernel
    rcases made : Operation.replacement "p1" .staging (projectIn fields)
        echoVisit.world.now with _ | project
    · rw [made] at valid
      cases valid
    · exact ⟨⟨none, by decide +kernel⟩, fields, .staging, project, by decide +kernel, rfl, made⟩
  obtain ⟨-, answered, -⟩ := @unmodified_of_meanwhile "p1" .staging _ {} {} noTransform noTransform
    readingVisit echoVisit copy _ standing isFetch_aboutStaging found lastModified_readingVisit
    meanwhile isSend_datedRequest header?_datedRequest (readsBack_readingVisit found _).2
  refine ⟨?_, (answered proper).2 (by decide +kernel) (by decide +kernel)⟩
  rw [Visit.IsAccepted]
  decide +kernel

end Api

end Sitewright
