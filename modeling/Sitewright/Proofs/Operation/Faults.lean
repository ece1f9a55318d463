import Sitewright.Proofs.Document.Faults
import Sitewright.Proofs.Operation.Promotion
import Sitewright.Proofs.Time.Calendar

/-!
What can go wrong in an operation while no write fails. Whatever is asked for, it is foreseen, but
for a document that is unwieldy, a time in a zone that there is not, and a transform that lets one
down.
-/

namespace Sitewright

open Time (DateTime)

variable {α β : Type} {cause : Prop} {world : World}

namespace Action

theorem foreseen_bind {first : Action α} {second : α → Action β}
    (h : ForeseenUnless cause (first.perform world).1)
    (k : ∀ a mid, first.perform world = (.ok a, mid) →
      ForeseenUnless cause ((second a).perform mid).1) :
    ForeseenUnless cause ((first >>= second).perform world).1 := by
  rcases performed : first.perform world with ⟨error | a, mid⟩
  · rw [performed] at h
    rw [perform_bind_of_error performed]
    exact h.fault rfl
  · rw [perform_bind_of_ok performed]
    exact k a mid performed

theorem foreseen_ofExcept_bind {result : Except Error α} {second : α → Action β}
    (h : ForeseenUnless cause result)
    (k : ∀ a, result = .ok a → ForeseenUnless cause ((second a).perform world).1) :
    ForeseenUnless cause ((ofExcept result >>= second).perform world).1 := by
  refine foreseen_bind (by rwa [perform_ofExcept]) fun a mid found => ?_
  rw [perform_ofExcept] at found
  cases found
  exact k a rfl

theorem foreseen_map {action : Action α} (h : ForeseenUnless cause (action.perform world).1)
    (f : α → β) : ForeseenUnless cause ((f <$> action).perform world).1 := by
  rw [perform_map]
  exact h.map f

end Action

/-- A store that operations have written, of which no write is going to fail, under a clock that
shows a date. -/
structure World.Unfailing [Machine] (world : World) : Prop where
  settled : world.store.Settled
  sound : world.Sound
  copyable : world.store.tables.Copyable
  working : world.store.Working
  dated : (DateTime.ofInstant? world.clock).isSome

namespace World.Unfailing

theorem stampOf_now [Machine] (h : world.Unfailing) : ∃ stamp, stampOf world.now = .ok stamp := by
  obtain ⟨time, shown⟩ := Option.isSome_iff_exists.mp h.dated
  obtain ⟨-, -, same⟩ := DateTime.ofInstant?_eq_some shown
  have now : world.now = time := by rw [World.now, DateTime.ofInstant, shown, Option.getD_some]
  simp only [now, stampOf, DateTime.stamp?, DateTime.toUniversal?, same, shown, Option.map_some]
  exact ⟨_, rfl⟩

theorem ask [Machine] (h : world.Unfailing) (asked : List String) (random : Random) :
    { world with asked, random }.Unfailing where
  settled := h.settled
  sound := ⟨h.sound.tables, h.sound.present⟩
  copyable := h.copyable
  working := h.working
  dated := h.dated

end World.Unfailing

theorem Operation.unfailing_of_reachable [Machine] (h : Reachable world)
    (faultless : world.store.fault = none)
    (room : world.store.full = none) (dated : (DateTime.ofInstant? world.clock).isSome) :
    world.Unfailing where
  settled := settled_of_reachable h
  sound := sound_of_reachable h
  copyable := copyable_of_reachable h
  working := {
    queued := (settled_of_reachable h).queued
    present := (sound_of_reachable h).present
    faultless
    room }
  dated

namespace Enhancement.Reply

/-- A reply that cannot be dealt with. -/
inductive IsUnwieldy [Machine] (reply : Reply) : Prop
  | overlong : reply.toValue = .error .replyOverlong → IsUnwieldy reply
  | nested : reply.toValue = .error .textNested → IsUnwieldy reply
  | torn : reply.toValue = .error .textTorn → IsUnwieldy reply
  | data {data : Json} : reply.toValue = .ok data → Sitewright.IsUnwieldy data → IsUnwieldy reply

theorem foreseen_toValue [Machine] (reply : Reply) :
    ForeseenUnless reply.IsUnwieldy reply.toValue := by
  have text {s : String} (same : reply.toValue = toValue.ofText s) :
      ForeseenUnless reply.IsUnwieldy (toValue.ofText s) := by
    rw [toValue.ofText]
    split
    · exact .ok _
    · exact .error trivial
    · next overlong => exact .of_cause (.overlong (by rw [same, toValue.ofText, overlong])) _
    · next nested => exact .of_cause (.nested (by rw [same, toValue.ofText, nested])) _
    · next torn => exact .of_cause (.torn (by rw [same, toValue.ofText, torn])) _
  cases reply with
  | bytes content => exact text rfl
  | value data =>
    cases data with
    | str s => exact text rfl
    | _ => exact .ok _

theorem foreseen_toProject [Machine] (reply : Reply) :
    ForeseenUnless reply.IsUnwieldy reply.toProject := by
  refine reply.foreseen_toValue.bind fun data _ => ?_
  split
  · split
    · exact .ok _
    · exact .error trivial
  · exact .error trivial

theorem isUnwieldy_of_toProject [Machine] {reply : Reply} {fields : Fields Json}
    (h : reply.toProject = .ok fields) (unwieldy : Sitewright.IsUnwieldy (.obj fields)) :
    reply.IsUnwieldy := by
  obtain ⟨data, read, found⟩ := bind_eq_ok.mp h
  split at found
  · split at found
    · cases found
      exact .data read unwieldy
    · cases found
  · cases found

end Enhancement.Reply

namespace Operation

theorem foreseen_unmodified (tables : Store.Tables) (projectId environment : String)
    (known : Option DateTime) :
    ForeseenUnless (∃ time, known = some time ∧ ¬time.HasZone)
      (unmodified tables projectId environment known) := by
  unfold unmodified
  split
  · next time copy _ =>
    have zone : ForeseenUnless (∃ other, some time = some other ∧ ¬other.HasZone)
        time.checkZone := by
      unfold DateTime.checkZone
      split
      · exact .ok _
      · next none => exact .of_cause ⟨time, rfl, none⟩ _
    refine zone.bind fun _ _ => ?_
    split
    · exact .error trivial
    · exact .ok _
  · exact .ok _

theorem foreseen_instructionOf (instruction : Json) :
    ForeseenUnless cause (instructionOf instruction) := by
  unfold instructionOf
  split
  · split
    · exact .error trivial
    · exact .ok _
  · exact .error trivial

theorem foreseen_environmentOf (value : Json) : ForeseenUnless cause (environmentOf value) := by
  unfold environmentOf
  split
  · exact .ok _
  · exact (Environment.foreseen_ofJson value).map some

theorem foreseen_asReplyFault {error : Error} (foreseen : error.Foreseen) :
    (asReplyFault error).Foreseen := by
  rw [asReplyFault]
  split
  · trivial
  · exact foreseen

@[simp] theorem perform_ask (transform : Transform) (project : Project) (instruction : String) :
    (ask transform project instruction).perform world =
      ((transform project.toJson instruction).mapError asTransformFault,
        { world with asked := world.asked ++ [instruction] }) := rfl

variable [Machine] (h : world.Unfailing)

include h

/-! Reading -/

theorem foreseen_load (projectId environment : String) :
    ForeseenUnless cause ((Store.load projectId environment).perform world).1 := by
  rcases found : world.store.tables.copy? projectId environment with _ | copy
  · rw [Store.perform_load_of_none h.settled h.sound.present found]
    exact .error trivial
  · obtain ⟨project, written, stored⟩ := h.sound.tables copy (Store.Tables.mem_of_copy? found)
    have read : Project.ofJson copy.document = .ok project :=
      written ▸ Project.ofJson_toJson stored.readable
    rw [Store.perform_load h.settled h.sound.present found read]
    exact .ok _

theorem foreseen_load_mapError (projectId environment : String) {other : Error}
    (foreseen : other.Foreseen) :
    ForeseenUnless cause
      (((Store.load projectId environment).mapError (insteadOfNotFound other)).perform world).1 := by
  refine (foreseen_load h projectId environment).mapError fun error known => ?_
  rw [insteadOfNotFound]
  split
  · exact foreseen
  · exact known

theorem foreseen_getProject (projectId : String) :
    ForeseenUnless cause ((getProject projectId).perform world).1 :=
  foreseen_load_mapError h projectId _ trivial

theorem foreseen_loadCopy (projectId : String) (environment : Json) :
    ForeseenUnless cause ((loadCopy projectId environment).perform world).1 :=
  Action.foreseen_ofExcept_bind (Environment.foreseen_ofJson _) fun _ _ => foreseen_load h _ _

theorem foreseen_deployments (projectId : String) :
    ForeseenUnless cause ((deployments projectId).perform world).1 :=
  Action.foreseen_bind (foreseen_getProject h projectId) fun _ _ _ => .ok _

/-! Writing -/

theorem foreseen_stamped {project : Project} {change : String → Metadata → Metadata}
    (copyable : ¬cause → project.Copyable) :
    ForeseenUnless cause (stamped project world.now change) := by
  obtain ⟨stamp, there⟩ := h.stampOf_now
  rw [stamped, there, ok_bind]
  exact (Project.foreseen_withMetadata copyable _).bind fun _ _ =>
    (Project.foreseen_check _).bind fun _ _ => .ok _

theorem foreseen_created (data : Json) :
    ForeseenUnless (IsUnwieldy data) (created data world.now) := by
  unfold created
  split
  · exact (Project.foreseen_ofJson data).bind fun project read =>
      foreseen_stamped h (Project.copyable_of_not_isUnwieldy read)
  · exact .error trivial

theorem foreseen_replacement (projectId : String) (environment : Environment) (data : Json) :
    ForeseenUnless (IsUnwieldy data) (replacement projectId environment data world.now) := by
  unfold replacement
  split
  · exact .error trivial
  split
  · exact .error trivial
  · exact (Project.foreseen_ofJson data).bind fun project read =>
      foreseen_stamped h (Project.copyable_of_not_isUnwieldy read)

theorem foreseen_writeNoted (environment : Environment) (known : Option DateTime)
    (project : Project) {note : Store.AuditNote} (storable : Storable note.actor) :
    ForeseenUnless (∃ time, known = some time ∧ ¬time.HasZone)
      ((writeNoted project.id environment known project note).perform world).1 := by
  have working := h.working.withDepth (world.store.depth + 1)
  have checked := foreseen_unmodified world.store.tables project.id environment.name known
  rcases same : unmodified world.store.tables project.id environment.name known with error | _
  · rw [writeNoted, Store.perform_transaction_of_error
      (perform_noteCopy_of_error working.queued working.present note same)]
    exact checked.fault same
  · obtain ⟨mid, performed, -⟩ :=
      perform_noteCopy_of_ok working (fun _ => Nat.succ_ne_zero _) storable same
    obtain ⟨after, written, -⟩ := Store.perform_transaction_of_ok
      (frame_noteCopy project.id environment known project note) h.working.toReady performed
    rw [writeNoted, written]
    exact .ok _

section

variable {actor : Json} (storable : Storable actor)

include storable

theorem foreseen_createProject (data : Json) :
    ForeseenUnless (IsUnwieldy data) ((createProject data actor none).perform world).1 := by
  rw [createProject, perform_currentTime_bind]
  refine Action.foreseen_ofExcept_bind (foreseen_created h data) fun project _ =>
    Action.foreseen_bind ((foreseen_writeNoted h _ none project storable).imp ?_) fun _ _ _ => .ok _
  rintro ⟨_, ⟨⟩, _⟩

theorem foreseen_saveCopy (projectId : String) (environment data : Json)
    (known : Option DateTime) :
    ForeseenUnless (IsUnwieldy data ∨ ∃ time, known = some time ∧ ¬time.HasZone)
      ((saveCopy projectId environment data actor none known).perform world).1 := by
  refine Action.foreseen_ofExcept_bind (Environment.foreseen_ofJson _) fun place _ => ?_
  rw [perform_currentTime_bind]
  refine Action.foreseen_ofExcept_bind ((foreseen_replacement h _ _ data).imp .inl)
    fun project made => Action.foreseen_bind ?_ fun _ _ _ => .ok _
  obtain rfl := (storedAs_of_replacement made).id
  exact (foreseen_writeNoted h place known project storable).imp .inr

theorem foreseen_deleteProject (projectId : String) :
    ForeseenUnless cause ((deleteProject projectId actor).perform world).1 := by
  have ready := h.working.toReady.withDepth (world.store.depth + 1)
  have inside : world.store.backing = .database → world.store.depth + 1 ≠ 0 :=
    fun _ => Nat.succ_ne_zero _
  by_cases none : (world.store.tables.entryOf? projectId).isNone
  · rw [deleteProject, Store.perform_transaction_of_error
      (perform_noteDeletion_of_none ready inside actor none)]
    exact .error trivial
  · obtain ⟨mid, performed, -⟩ := perform_noteDeletion_of_some ready inside storable none
    obtain ⟨after, deleted, -⟩ := Store.perform_transaction_of_ok
      (frame_noteDeletion projectId actor) h.working.toReady performed
    rw [deleteProject, deleted]
    exact .ok _

end

theorem foreseen_promote {actor message : Json} (storable : Storable actor)
    (plain : actor.nesting = 1) (plain' : message.nesting = 1) (projectId : String) (target : Json)
    {limit : Int} (limited : checkHistoryLimit limit = .ok ()) :
    ForeseenUnless cause
      ((promote projectId target message actor none limit).perform world).1 := by
  obtain ⟨error, refuses⟩ | ⟨goal, builder, promotable⟩ :=
    refuses_or_promotable h.sound.tables projectId target limit
  · rw [perform_promote_of_refuses h.settled h.sound refuses]
    refine .error ?_
    cases refuses with
    | limit low =>
      rw [checkHistoryLimit, if_pos low] at limited
      cases limited
    | target | copy | pages => trivial
  · obtain ⟨stamp, now⟩ := h.stampOf_now
    obtain ⟨id, after, performed⟩ := @perform_promote_of_promotable _ _ _ _ _ _ _ h.settled h.sound
      h.copyable h.working promotable _ _ storable plain plain' none _ now
    rw [performed]
    exact .ok _

/-! Enhancing -/

omit h in
theorem foreseen_repaired (prior : Project) (reply : Enhancement.Reply) (millis : Int) :
    ForeseenUnless reply.IsUnwieldy ((answered prior reply).bind (prior.repair · millis)) := by
  have reading : ForeseenUnless reply.IsUnwieldy (answered prior reply) := by
    refine reply.foreseen_toProject.bind fun fields found => ?_
    dsimp only
    split
    · exact .error trivial
    · exact ((Project.foreseen_ofJson (.obj fields)).imp
        (Enhancement.Reply.isUnwieldy_of_toProject found)).mapError fun _ => foreseen_asReplyFault
  refine reading.bind fun project answering => ?_
  obtain ⟨fields, found, -, read⟩ := answered_eq_ok.mp answering
  rcases repairing : prior.repair project millis with error | next
  · obtain ⟨deep, -⟩ := Project.repair_eq_error.mp repairing
    exact .of_cause (Enhancement.Reply.isUnwieldy_of_toProject found (.inr ⟨_, read, deep⟩)) _
  · exact .ok next

omit h in
theorem foreseen_completed {prior repaired : Project} (copyable : repaired.Copyable) :
    ForeseenUnless cause (completed prior repaired) :=
  (Project.foreseen_withMetadata (fun _ => copyable) _).bind fun _ _ =>
    (Project.foreseen_check _).bind fun _ _ => .ok _

/-- The transform answers with what cannot be dealt with, or with a fault of a store. -/
def IsLetDownBy (transform : Transform) (data : Json) (instruction : String) : Prop :=
  (∃ reply, transform data instruction = .ok reply ∧ reply.IsUnwieldy) ∨
    ∃ error, transform data instruction = .error error ∧ error.kind = some .storage

omit h in
theorem foreseen_transform (transform : Transform) (data : Json) (instruction : String) :
    ForeseenUnless (IsLetDownBy transform data instruction)
      ((transform data instruction).mapError asTransformFault) := by
  rcases answered : transform data instruction with error | reply
  · rintro _ ⟨⟩
    rw [asTransformFault]
    split
    · next kind =>
      obtain ⟨kind, reported⟩ := Option.isSome_iff_exists.mp kind
      by_cases storage : kind = .storage
      · exact .inr (.inr ⟨error, answered, storage ▸ reported⟩)
      · exact .inl (Error.foreseen_of_kind reported storage)
    · exact .inl trivial
  · exact .ok _

omit h in
theorem foreseen_rewritten (prior : Project) (instruction : String) (transform : Transform) :
    ForeseenUnless (IsLetDownBy transform prior.toJson instruction)
      ((rewritten prior instruction transform).perform world).1 := by
  refine Action.foreseen_bind ?_ fun reply mid replied => ?_
  · rw [perform_ask]
    exact foreseen_transform _ _ _
  · rw [perform_ask] at replied
    have answered := mapError_eq_ok.mp (Prod.mk.inj replied).1
    rw [Action.perform_get_bind]
    refine Action.foreseen_ofExcept_bind ((foreseen_repaired prior reply _).imp fun unwieldy =>
      .inl ⟨reply, answered, unwieldy⟩) fun next repairing => ?_
    obtain ⟨parsed, -, copyable, rfl⟩ := repaired_eq_ok.mp repairing
    rw [Action.perform_draw_bind, Action.perform_ofExcept]
    exact foreseen_completed (Project.copyable_repairIds.mpr copyable)

omit h in
theorem exists_of_rewritten {prior project : Project} {instruction : String}
    {transform : Transform} {after : World}
    (rewriting : (rewritten prior instruction transform).perform world = (.ok project, after)) :
    (∃ asked random, after = { world with asked, random }) ∧
      ∃ enhanced : Project, enhanced.Copyable ∧ project = keepingRecords prior enhanced := by
  obtain ⟨reply, mid, replied, answering⟩ := Action.perform_bind_eq_ok.mp rewriting
  rw [perform_ask] at replied
  obtain ⟨-, rfl⟩ := Prod.mk.inj replied
  rw [Action.perform_get_bind] at answering
  obtain ⟨next, repairing, drawing⟩ := Action.perform_ofExcept_bind_eq_ok.mp answering
  rw [Action.perform_draw_bind, Action.perform_ofExcept] at drawing
  obtain ⟨completing, rfl⟩ := Prod.mk.inj drawing
  obtain ⟨copyable, rfl, -⟩ := completed_eq_ok.mp completing
  exact ⟨⟨_, _, rfl⟩, _, copyable, rfl⟩

theorem foreseen_saveRewritten {project : Project} (environment : Environment)
    (instruction : String) {actor : Json} (storable : Storable actor)
    (copyable : ¬cause → project.Copyable) :
    ForeseenUnless cause
      ((saveRewritten project environment instruction actor none).perform world).1 := by
  obtain ⟨stamp, now⟩ := h.stampOf_now
  rw [saveRewritten, perform_currentTime_bind, Option.getD_none, now, Action.ofExcept_ok_bind]
  refine Action.foreseen_ofExcept_bind (Project.foreseen_withMetadata copyable _) fun copy _ => ?_
  have written := @foreseen_writeNoted _ _ h environment none copy
    (enhanceNote copy environment instruction actor) storable
  refine Action.foreseen_bind (written.imp ?_) fun _ _ _ => .ok _
  rintro ⟨_, ⟨⟩, _⟩

/-- What is kept of the project before has been read with it. -/
theorem foreseen_enhance {data : Json} {prior : Project} (read : Project.ofJson data = .ok prior)
    (instruction : Json) (transform : Transform) (saves : Bool) (environment : Json) {actor : Json}
    (storable : Storable actor) :
    ForeseenUnless (IsUnwieldy data ∨ ∃ text, instruction = .str text ∧
        IsLetDownBy transform prior.toJson text)
      ((enhance prior instruction transform saves environment actor none).perform world).1 := by
  refine Action.foreseen_ofExcept_bind (foreseen_instructionOf _) fun text said =>
    Action.foreseen_ofExcept_bind (foreseen_environmentOf _) fun place? _ =>
      Action.foreseen_bind ((foreseen_rewritten prior text transform).imp fun letDown =>
        .inr ⟨text, ?_, letDown⟩) fun project mid rewriting => ?_
  · unfold instructionOf at said
    split at said
    · split at said
      · cases said
      · rw [Except.ok.inj said]
    · cases said
  · obtain ⟨⟨asked, random, rfl⟩, enhanced, copyable, rfl⟩ := exists_of_rewritten rewriting
    split
    · refine foreseen_saveRewritten (h.ask asked random) _ _ storable fun handy => ?_
      have before := (Project.copyable_of_not_isUnwieldy read fun unwieldy =>
        handy (.inl unwieldy)).shallow
      exact copyable.withMetadata { copyable.shallow with
        createdAt := before.createdAt
        lastDeployment := before.lastDeployment
        history := before.history }
    · exact .ok _

end Operation

end Sitewright
