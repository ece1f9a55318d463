import Sitewright.Proofs.Store.Frame

/-!
Why actions on a store fail. Whatever is done, and whatever state the store is in, the error is one
that is accounted for beforehand: by the store that has no room or no tables, by the write that is
going to fail, or by what the action itself refuses.
-/

namespace Sitewright

variable {α β : Type} {known : Error → Prop}

/-- An error that has a kind, or is one of the causes. -/
def Error.Explained (cause : Error → Prop) (error : Error) : Prop :=
  error.kind.isSome ∨ cause error

/-- Of errors among which are those of any store. -/
structure Error.Usual (known : Error → Prop) : Prop where
  full : known .diskFull
  lost : known .tablesGone

theorem Error.usual_explained (cause : Error → Prop) : Error.Usual (Error.Explained cause) :=
  ⟨.inl rfl, .inl rfl⟩

def World.Explained (known : Error → Prop) (world : World) : Prop :=
  ∀ fault, world.store.fault = some fault → known fault.cause

namespace Action

/-- Every failure is known, if that of the write that is going to fail is. -/
def Explained (known : Error → Prop) (action : Action α) : Prop :=
  ∀ world, world.Explained known → (action.perform world).2.Explained known ∧
    ∀ error, (action.perform world).1 = .error error → known error

theorem explained_pure (value : α) : Explained known (pure value : Action α) :=
  fun _ due => ⟨due, fun _ failed => by cases failed⟩

theorem explained_throw {error : Error} (h : known error) :
    Explained known (throw error : Action α) :=
  fun _ due => ⟨due, fun _ failed => Except.error.inj failed ▸ h⟩

theorem explained_ofExcept {result : Except Error α}
    (h : ∀ error, result = .error error → known error) :
    Explained known (ofExcept result) := fun _ due => ⟨due, h⟩

theorem explained_get : Explained known (get : Action World) :=
  fun _ due => ⟨due, fun _ failed => by cases failed⟩

theorem explained_modify {change : World → World}
    (h : ∀ world, (change world).store.fault = world.store.fault) :
    Explained known (modify change : Action Unit) := by
  intro world due
  refine ⟨fun fault there => ?_, fun _ failed => by cases failed⟩
  exact due fault (h world ▸ there)

theorem explained_ite {condition : Prop} [Decidable condition] {first second : Action α}
    (h : Explained known first) (k : Explained known second) :
    Explained known (if condition then first else second) := by
  split
  · exact h
  · exact k

theorem explained_refuseIf (condition : Prop) [Decidable condition] {error : Error}
    (h : known error) : Explained known (refuseIf condition error) :=
  explained_ite (explained_throw h) (explained_pure ())

theorem Explained.bind {first : Action α} {second : α → Action β} (h : Explained known first)
    (k : ∀ a, Explained known (second a)) : Explained known (first >>= second) := by
  intro world due
  have step := h world due
  rcases performed : first.perform world with ⟨error | a, mid⟩
  · rw [perform_bind_of_error performed]
    rw [performed] at step
    refine ⟨step.1, ?_⟩
    rintro _ ⟨⟩
    exact step.2 error rfl
  · rw [perform_bind_of_ok performed]
    rw [performed] at step
    exact k a mid step.1

end Action

namespace Store

open Sitewright.Action (Explained explained_pure explained_get explained_modify explained_ite
  explained_refuseIf)

theorem explained_spend : Explained known spend := by
  intro world due
  rw [perform_spend]
  split
  · exact ⟨due, fun _ failed => by cases failed⟩
  · next now =>
    refine ⟨fun fault there => ?_, ?_⟩
    · cases there
    · rintro _ ⟨⟩
      exact due _ now
  · next after cause later =>
    refine ⟨?_, fun _ failed => by cases failed⟩
    rintro _ ⟨⟩
    exact due ⟨after + 1, cause⟩ later

theorem explained_writeTables (tables : Tables) : Explained known (writeTables tables) :=
  explained_spend.bind fun _ => explained_modify fun _ => rfl

theorem explained_undone {before after : World} (h : after.Explained known) :
    (undone before after).Explained known := by
  simp only [undone]
  split
  · exact h
  · exact h

theorem explained_note {note : AuditNote}
    (h : ∀ error, columnValue note.actor = .error error → known error) :
    Explained known (Store.note note) := by
  refine explained_get.bind fun world => ?_
  split
  · split
    · exact explained_modify fun _ => rfl
    · next error refused =>
      exact Explained.bind (explained_modify fun _ => rfl) fun _ =>
        Action.explained_throw (h error refused)
  · exact explained_pure ()

section

variable (usual : Error.Usual known)

include usual

theorem explained_access : Explained known access :=
  explained_get.bind fun _ => explained_ite
    ((explained_refuseIf _ usual.lost).bind fun _ => explained_ite
      (explained_spend.bind fun _ => explained_modify fun _ => rfl) (explained_pure ()))
    (explained_pure ())

theorem explained_readTables : Explained known readTables :=
  (explained_access usual).bind fun _ => explained_get.bind fun _ => explained_pure _

theorem explained_commit : Explained known commit :=
  explained_get.bind fun _ => explained_ite (explained_access usual) (explained_pure ())

/-- What a transaction takes back is not what its writes are going to fail for. -/
theorem explained_transaction {block : Action α} (h : Explained known block) :
    Explained known (transaction block) := by
  intro before due
  have inner := h (withDepth (before.store.depth + 1) before) due
  have ends := ends_transaction block before
  generalize (transaction block).perform before = result at ends
  cases ends with
  | @failed error mid performed =>
    rw [performed] at inner
    refine ⟨explained_undone inner.1, ?_⟩
    rintro _ ⟨⟩
    exact inner.2 error rfl
  | @unfinished _ mid error _ performed ended =>
    rw [performed] at inner
    have last := explained_commit usual (withDepth before.store.depth mid) inner.1
    rw [ended] at last
    refine ⟨explained_undone last.1, ?_⟩
    rintro _ ⟨⟩
    exact last.2 error rfl
  | @finished _ mid _ performed ended =>
    rw [performed] at inner
    have last := explained_commit usual (withDepth before.store.depth mid) inner.1
    rw [ended] at last
    exact ⟨last.1, fun _ failed => by cases failed⟩

theorem explained_change {block : Action α} (h : Explained known block) :
    Explained known (change block) :=
  explained_get.bind fun _ => explained_ite (explained_transaction usual h) h

theorem explained_save (projectId environment : String) (project : Project) :
    Explained known (save projectId environment project) :=
  explained_get.bind fun _ => (explained_refuseIf _ usual.full).bind fun _ =>
    explained_change usual <| (explained_readTables usual).bind fun _ => explained_get.bind fun _ =>
      (explained_writeTables _).bind fun _ =>
        explained_ite (explained_writeTables _) (explained_pure ())

theorem explained_putEntry (project : Project) : Explained known (putEntry project) :=
  explained_change usual <| (explained_readTables usual).bind fun _ => explained_get.bind fun _ =>
    explained_writeTables _

end

end Store

end Sitewright
