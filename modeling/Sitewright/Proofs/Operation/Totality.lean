import Sitewright.Proofs.Document.Mistakes
import Sitewright.Proofs.Operation.Faults
import Sitewright.Proofs.Store.Failing

namespace Sitewright

open Time (DateTime)

theorem Error.Foreseen.kind_isSome {error : Error} (h : error.Foreseen) : error.kind.isSome := by
  unfold Foreseen at h
  split at h
  · exact h.elim
  · next none => exact h.elim
  · next kind _ there => rw [there]; rfl

theorem ForeseenUnless.kind_isSome {α : Type} {result : Except Error α} {error : Error}
    (h : ForeseenUnless False result) (failed : result = .error error) : error.kind.isSome :=
  ((h error failed).resolve_right id).kind_isSome

namespace Enhancement.Reply

variable {reply : Reply} {error : Error}

def IsTorn [Machine] (reply : Enhancement.Reply) : Prop := reply.toValue = .error .textTorn

theorem toValue_eq_error [Machine] (h : reply.toValue = .error error) (none : error.kind = none) :
    error = .replyOverlong ∨ error = .textNested ∨ error = .textTorn := by
  have text (s : String) (failed : toValue.ofText s = .error error) :
      error = .replyOverlong ∨ error = .textNested ∨ error = .textTorn := by
    unfold toValue.ofText at failed
    split at failed
    · cases failed
    · cases failed
      cases none
    · cases failed
      exact .inl rfl
    · cases failed
      exact .inr (.inl rfl)
    · cases failed
      exact .inr (.inr rfl)
  cases reply with
  | bytes content => exact text _ h
  | value data =>
    cases data with
    | str s => exact text _ h
    | _ => cases h

theorem toProject_eq_error [Machine] (h : reply.toProject = .error error)
    (none : error.kind = none) :
    reply.toValue = .error error := by
  rcases bind_eq_error.mp h with failed | ⟨data, -, failed⟩
  · exact failed
  · split at failed
    · split at failed
      · cases failed
      · cases failed
        cases none
    · cases failed
      cases none

end Enhancement.Reply

namespace Operation

/-! Replies -/

/-- What is wrong with a reply that the enhancement of a project fails for without a kind. -/
inductive Defeats [Machine] (prior : Project) (reply : Enhancement.Reply) : Error → Prop
  | overlong : reply.toValue = .error .replyOverlong → Defeats prior reply .replyOverlong
  | nested : reply.toValue = .error .textNested → Defeats prior reply .textNested
  | document {fields : Fields Json} {error : Error} : reply.toProject = .ok fields →
      Fields.value fields "id" = .str prior.id → Earliest (Project.Mistake (.obj fields)) error →
      error.kind = none → Defeats prior reply error
  | copy {fields : Fields Json} {project : Project} : reply.toProject = .ok fields →
      Fields.value fields "id" = .str prior.id → Project.ofJson (.obj fields) = .ok project →
      ¬ project.Copyable → Defeats prior reply .valueNested

variable {prior : Project} {reply : Enhancement.Reply} {error : Error}

theorem Defeats.kind [Machine] (h : Defeats prior reply error) : error.kind = none := by
  cases h with
  | document _ _ _ none => exact none
  | _ => rfl

theorem asReplyFault_eq_of_none (h : (asReplyFault error).kind = none) :
    asReplyFault error = error := by
  unfold asReplyFault at h ⊢
  split
  · next validation =>
    rw [if_pos validation] at h
    cases h
  · rfl

theorem repaired_eq_error_iff [Machine] (millis : Int) :
    ((answered prior reply).bind (prior.repair · millis) = .error error ∧ error.kind = none) ↔
      Defeats prior reply error ∨ reply.IsTorn ∧ error = .textTorn := by
  constructor
  · rintro ⟨failed, none⟩
    rcases bind_eq_error.mp failed with failed | ⟨project, answering, failed⟩
    · rcases bind_eq_error.mp failed with failed | ⟨fields, found, failed⟩
      · have value := Enhancement.Reply.toProject_eq_error failed none
        rcases Enhancement.Reply.toValue_eq_error value none with rfl | rfl | rfl
        · exact .inl (.overlong value)
        · exact .inl (.nested value)
        · exact .inr ⟨value, rfl⟩
      · dsimp only at failed
        split at failed
        · cases failed
          cases none
        · next same =>
          rcases read : Project.ofJson (.obj fields) with cause | project
          · rw [read] at failed
            obtain rfl : asReplyFault cause = error := Except.error.inj failed
            have plain := asReplyFault_eq_of_none none
            rw [plain] at none ⊢
            exact .inl
              (.document found (not_not.mp same) (Project.ofJson_eq_error_iff.mp read) none)
          · rw [read] at failed
            cases failed
    · obtain ⟨fields, found, same, read⟩ := answered_eq_ok.mp answering
      obtain ⟨deep, rfl⟩ := Project.repair_eq_error.mp failed
      exact .inl (.copy found same read deep)
  · have unread {error : Error} (value : reply.toValue = .error error) :
        (answered prior reply).bind (prior.repair · millis) = .error error := by
      have failed : reply.toProject = .error error := bind_eq_error.mpr (.inl value)
      exact bind_eq_error.mpr (.inl (bind_eq_error.mpr (.inl failed)))
    rintro (defeats | ⟨torn, rfl⟩)
    swap
    · exact ⟨unread torn, rfl⟩
    refine ⟨?_, defeats.kind⟩
    cases defeats with
    | overlong value | nested value => exact unread value
    | @document fields _ found same mistake none =>
      have read := Project.ofJson_eq_error_iff.mpr mistake
      have plain : asReplyFault error = error := by
        rw [asReplyFault, if_neg]
        rw [none]
        rintro ⟨⟩
      refine bind_eq_error.mpr (.inl (bind_eq_error.mpr (.inr ⟨fields, found, ?_⟩)))
      dsimp only
      rw [if_neg (not_not.mpr same), read]
      exact congrArg Except.error plain
    | @copy fields project found same read deep =>
      exact bind_eq_error.mpr (.inr ⟨project, answered_eq_ok.mpr ⟨fields, found, same, read⟩,
        Project.repair_eq_error.mpr ⟨deep, rfl⟩⟩)

variable {world : World} {transform : Transform}

theorem kind_asTransformFault : (asTransformFault error).kind.isSome := by
  unfold asTransformFault
  split
  · next there => exact there
  · rfl

theorem rewritten_eq_error_iff [Machine] {instruction : String} :
    (((rewritten prior instruction transform).perform world).1 = .error error ∧
        error.kind = none) ↔
      ∃ reply, transform prior.toJson instruction = .ok reply ∧
        (Defeats prior reply error ∨ reply.IsTorn ∧ error = .textTorn) := by
  rw [rewritten, Action.perform_bind_eq_error, perform_ask]
  constructor
  · rintro ⟨failed | ⟨reply, mid, replied, failed⟩, none⟩
    · rcases answers : transform prior.toJson instruction with cause | reply
      · rw [answers] at failed
        obtain rfl : asTransformFault cause = error := Except.error.inj failed
        have there := @kind_asTransformFault cause
        rw [none] at there
        cases there
      · rw [answers] at failed
        cases failed
    · have answering := mapError_eq_ok.mp (Prod.mk.inj replied).1
      refine ⟨reply, answering, (repaired_eq_error_iff mid.millis).mp ⟨?_, none⟩⟩
      rw [Action.perform_get_bind] at failed
      rcases Action.perform_ofExcept_bind_eq_error.mp failed with failed | ⟨next, repairing, failed⟩
      · exact failed
      · obtain ⟨parsed, -, copyable, rfl⟩ := repaired_eq_ok.mp repairing
        rw [Action.perform_draw_bind, Action.perform_ofExcept] at failed
        have there := (foreseen_completed (Project.copyable_repairIds.mpr copyable)).kind_isSome
          failed
        rw [none] at there
        cases there
  · rintro ⟨reply, answering, defeats⟩
    obtain ⟨failed, none⟩ := (repaired_eq_error_iff world.millis).mpr defeats
    refine ⟨.inr ⟨reply, _, by rw [answering]; rfl, ?_⟩, none⟩
    rw [Action.perform_get_bind]
    exact Action.perform_ofExcept_bind_eq_error.mpr (.inl failed)

/-! Saving -/

def recordsKept (prior : Project) : Metadata where
  createdAt := prior.metadata.createdAt
  lastDeployment := prior.metadata.lastDeployment
  history := prior.metadata.history

/-- What keeps an enhanced project from being saved, whatever the reply is. -/
inductive Hinders [Machine] (world : World) (prior : Project) (actor : Json)
    (at? : Option DateTime) :
    Error → Prop
  | time {error : Error} : stampOf (at?.getD world.now) = .error error →
      Hinders world prior actor at? error
  | records : ¬ (recordsKept prior).Shallow → Hinders world prior actor at? .valueNested
  | actor {error : Error} : Store.columnValue actor = .error error →
      Hinders world prior actor at? error
  | write {fault : Store.Fault} : world.store.fault = some fault →
      Hinders world prior actor at? fault.cause

theorem copyable_keepingRecords [Machine] {enhanced : Project} (copyable : enhanced.Copyable)
    (records : (recordsKept prior).Shallow) : (keepingRecords prior enhanced).Copyable :=
  copyable.withMetadata { copyable.shallow with
    createdAt := records.createdAt
    lastDeployment := records.lastDeployment
    history := records.history }

theorem explained_writeNoted {known : Error → Prop} (usual : Error.Usual known) (projectId : String)
    (environment : Environment) (project : Project) {note : Store.AuditNote}
    (h : ∀ error, Store.columnValue note.actor = .error error → known error) :
    Action.Explained known (writeNoted projectId environment none project note) := by
  refine Store.explained_transaction usual ((Action.explained_pure ()).bind fun _ =>
    Action.Explained.bind ?_ fun _ => Store.explained_note h)
  exact (Store.explained_save usual _ _ _).bind fun _ =>
    Action.explained_ite (Store.explained_putEntry usual _) (Action.explained_pure ())

theorem explained_saveRewritten [Machine] {project : Project} {environment : Environment}
    {instruction : String} {actor : Json} {at? : Option DateTime} {cause : Error → Prop}
    (copied : ¬ project.Copyable → cause .valueNested)
    (known : world.Explained (Error.Explained cause))
    (time : ∀ error, stampOf (at?.getD world.now) = .error error → cause error)
    (stored : ∀ error, Store.columnValue actor = .error error → cause error)
    (failed : ((saveRewritten project environment instruction actor at?).perform world).1 =
      .error error) : error.Explained cause := by
  rw [saveRewritten, perform_currentTime_bind] at failed
  have saving : Action.Explained (Error.Explained cause) (do
      let stamp ← Action.ofExcept (stampOf (at?.getD world.now))
      let project ← Action.ofExcept
        (project.withMetadata fun metadata => .ok (labelled environment stamp metadata))
      writeNoted project.id environment none project
        (enhanceNote project environment instruction actor)
      return project) :=
    (Action.explained_ofExcept fun error failed => .inr (time error failed)).bind fun stamp =>
      (Action.explained_ofExcept fun error failed => by
        obtain ⟨deep, rfl⟩ := Project.withMetadata_ok_eq_error.mp failed
        exact .inr (copied deep)).bind fun copy =>
          (explained_writeNoted (Error.usual_explained cause) _ _ _
            fun error refused => .inr (stored error refused)).bind fun _ => Action.explained_pure _
  exact (saving world known).2 error failed

/-! Enhancing -/

variable {instruction environment actor : Json} {saves : Bool} {at? : Option DateTime}

theorem enhance_of_defeats [Machine] {text : String} {place? : Option Environment}
    (said : instructionOf instruction = .ok text)
    (label : environmentOf environment = .ok place?)
    (answers : transform prior.toJson text = .ok reply) (defeats : Defeats prior reply error) :
    ((enhance prior instruction transform saves environment actor at?).perform world).1 =
      .error error := by
  rw [enhance, said, Action.ofExcept_ok_bind, label, Action.ofExcept_ok_bind]
  exact Action.perform_bind_eq_error.mpr
    (.inl (rewritten_eq_error_iff.mpr ⟨reply, answers, .inl defeats⟩).1)

theorem defeats_or_hinders [Machine]
    (failed : ((enhance prior instruction transform saves environment actor at?).perform world).1 =
      .error error) (none : error.kind = none) :
    (∃ text reply, instructionOf instruction = .ok text ∧
        transform prior.toJson text = .ok reply ∧ (Defeats prior reply error ∨ reply.IsTorn)) ∨
      saves = true ∧ environment ≠ .null ∧ Hinders world prior actor at? error := by
  have unkinded : ¬ error.kind.isSome := by simp [none]
  rcases Action.perform_ofExcept_bind_eq_error.mp failed with failed | ⟨text, said, failed⟩
  · exact absurd ((foreseen_instructionOf _).kind_isSome failed) unkinded
  rcases Action.perform_ofExcept_bind_eq_error.mp failed with failed | ⟨place?, label, failed⟩
  · exact absurd ((foreseen_environmentOf _).kind_isSome failed) unkinded
  rcases Action.perform_bind_eq_error.mp failed with failed | ⟨project, mid, rewriting, failed⟩
  · obtain ⟨reply, answers, defeats⟩ := rewritten_eq_error_iff.mp ⟨failed, none⟩
    exact .inl ⟨text, reply, said, answers, defeats.imp_right And.left⟩
  · obtain ⟨⟨asked, random, rfl⟩, enhanced, copyable, rfl⟩ := exists_of_rewritten rewriting
    split at failed
    · next place =>
      refine .inr ⟨rfl, ?_, ?_⟩
      · rintro rfl
        cases label
      · have explained : error.Explained (Hinders world prior actor at?) := by
          refine explained_saveRewritten ?_ ?_ ?_ (fun _ refused => .actor refused) failed
          · exact fun deep => .records fun records =>
              deep (copyable_keepingRecords copyable records)
          · exact fun fault due => .inr (.write due)
          · exact fun error late => .time late
        exact explained.resolve_left unkinded
    · cases failed

def listedStatus : Json :=
  .obj [("id", .str "p1"), ("name", .str "P"), ("pages", .arr []),
    ("metadata", .obj [("deploymentHistory", .arr [.obj [("id", .str "d1"),
      ("environment", .str "staging"), ("deployedAt", .str "2024-01-01T00:00:00.000Z"),
      ("status", .arr [])]])])]

def listing : Transform := fun _ _ => .ok (.value listedStatus)

end Operation

end Sitewright
