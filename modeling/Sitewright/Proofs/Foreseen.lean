import Sitewright.Store.World

/-!
Faults that are foreseen: they have a kind, and it is not that of a store which fails. Whoever sends
a request is told of such a fault; any other one is a fault of the service itself.
-/

namespace Sitewright

def Error.Foreseen (error : Error) : Prop :=
  match error.kind with
  | none | some .storage => False
  | some _ => True

theorem Error.foreseen_of_kind {error : Error} {kind : ErrorKind} (h : error.kind = some kind)
    (other : kind ≠ .storage) : error.Foreseen := by
  rw [Foreseen, h]
  cases kind with
  | storage => exact absurd rfl other
  | _ => trivial

/-- What goes wrong is foreseen, unless there is the given cause. -/
def ForeseenUnless {α : Type} (cause : Prop) (result : Except Error α) : Prop :=
  ∀ error, result = .error error → error.Foreseen ∨ cause

namespace ForeseenUnless

variable {α β : Type} {cause other : Prop}

theorem ok (a : α) : ForeseenUnless cause (.ok a) := fun _ failed => by cases failed

theorem error {error : Error} (h : error.Foreseen) :
    ForeseenUnless cause (.error error : Except Error α) := by
  rintro _ ⟨⟩
  exact .inl h

theorem of_cause (h : cause) (result : Except Error α) : ForeseenUnless cause result :=
  fun _ _ => .inr h

theorem fault {result : Except Error α} {error : Error} (h : ForeseenUnless cause result)
    (failed : result = .error error) : ForeseenUnless cause (.error error : Except Error β) := by
  rintro _ ⟨⟩
  exact h error failed

theorem imp {result : Except Error α} (h : ForeseenUnless cause result) (k : cause → other) :
    ForeseenUnless other result := fun error failed => (h error failed).imp_right k

theorem bind {x : Except Error α} {f : α → Except Error β} (h : ForeseenUnless cause x)
    (k : ∀ a, x = .ok a → ForeseenUnless cause (f a)) : ForeseenUnless cause (x >>= f) := by
  cases x with
  | ok a => exact k a rfl
  | error cause' => exact h.fault rfl

theorem map {x : Except Error α} (h : ForeseenUnless cause x) (f : α → β) :
    ForeseenUnless cause (x.map f) := by
  cases x with
  | ok a => exact ok (f a)
  | error cause' => exact h.fault rfl

theorem mapError {x : Except Error α} {change : Error → Error} (h : ForeseenUnless cause x)
    (k : ∀ error, error.Foreseen → (change error).Foreseen) :
    ForeseenUnless cause (x.mapError change) := by
  cases x with
  | ok a => exact ok a
  | error cause' =>
    rintro _ ⟨⟩
    exact (h cause' rfl).imp_left (k cause')

theorem mapM {f : α → Except Error β} {xs : List α}
    (h : ∀ x ∈ xs, ForeseenUnless cause (f x)) : ForeseenUnless cause (xs.mapM f) := by
  induction xs with
  | nil => exact ok []
  | cons x xs ih =>
    rw [List.mapM_cons]
    exact (h x List.mem_cons_self).bind fun _ _ =>
      (ih fun other there => h other (List.mem_cons_of_mem x there)).bind fun _ _ => ok _

end ForeseenUnless

end Sitewright
