import Mathlib.Order.Defs.Unbundled
import Sitewright.Operation.Call

/-!
What an action leaves as it was, whether it succeeds or fails: a relation between the world before
and the world after that holds of every step and composes. No action on a store changes the clock,
the source of random characters, or what the store is.
-/

namespace Sitewright

namespace Action

variable {α β : Type} {relation : World → World → Prop}

def Within (relation : World → World → Prop) (action : Action α) : Prop :=
  ∀ world, relation world (action.perform world).2

theorem perform_bind_of_ok {first : Action α} {second : α → Action β} {world mid : World}
    {value : α} (h : first.perform world = (.ok value, mid)) :
    (first >>= second).perform world = (second value).perform mid := by
  rw [perform_bind, h]

theorem perform_bind_of_error {first : Action α} {second : α → Action β} {world mid : World}
    {error : Error} (h : first.perform world = (.error error, mid)) :
    (first >>= second).perform world = (.error error, mid) := by
  rw [perform_bind, h]

@[simp] theorem perform_get_bind (second : World → Action β) (world : World) :
    (get >>= second).perform world = (second world).perform world := rfl

theorem perform_bind_eq_ok {first : Action α} {second : α → Action β} {world after : World}
    {b : β} : (first >>= second).perform world = (.ok b, after) ↔
      ∃ a mid, first.perform world = (.ok a, mid) ∧ (second a).perform mid = (.ok b, after) := by
  rw [perform_bind]
  rcases first.perform world with ⟨_ | a, mid⟩ <;> simp [and_assoc]

theorem perform_bind_eq_error {first : Action α} {second : α → Action β} {world : World}
    {error : Error} : ((first >>= second).perform world).1 = .error error ↔
      (first.perform world).1 = .error error ∨
        ∃ a mid, first.perform world = (.ok a, mid) ∧
          ((second a).perform mid).1 = .error error := by
  rw [perform_bind]
  rcases first.perform world with ⟨_ | a, mid⟩ <;> simp [and_assoc]

theorem perform_ofExcept_bind_eq_error {result : Except Error α} {second : α → Action β}
    {world : World} {error : Error} :
    ((ofExcept result >>= second).perform world).1 = .error error ↔
      result = .error error ∨ ∃ a, result = .ok a ∧ ((second a).perform world).1 = .error error := by
  rw [perform_bind, perform_ofExcept]
  cases result <;> simp

@[simp] theorem perform_map (f : α → β) (action : Action α) (world : World) :
    (f <$> action).perform world =
      ((action.perform world).1.map f, (action.perform world).2) := by
  rw [← bind_pure_comp, perform_bind]
  rcases action.perform world with ⟨_ | a, after⟩ <;> rfl

theorem perform_refuseIf_of {condition : Prop} [Decidable condition] (error : Error)
    (h : condition) (world : World) :
    (refuseIf condition error).perform world = (.error error, world) := by
  rw [refuseIf, if_pos h, perform_throw]

theorem perform_refuseIf_of_not {condition : Prop} [Decidable condition] (error : Error)
    (h : ¬condition) (world : World) :
    (refuseIf condition error).perform world = (.ok (), world) := by
  rw [refuseIf, if_neg h, perform_pure]

theorem perform_refuseIf_eq_ok {condition : Prop} [Decidable condition] {error : Error}
    {world after : World} : (refuseIf condition error).perform world = (.ok (), after) ↔
      ¬condition ∧ after = world := by
  simp only [refuseIf]
  split
  · next refused => simp [refused]
  · next accepted => simp [accepted, eq_comm]

variable [IsPreorder World relation]

theorem within_pure (value : α) : Within relation (pure value : Action α) :=
  fun world => refl world

theorem within_throw (error : Error) : Within relation (throw error : Action α) :=
  fun world => refl world

theorem within_ofExcept (result : Except Error α) : Within relation (ofExcept result) :=
  fun world => refl world

theorem within_get : Within relation (get : Action World) := fun world => refl world

omit [IsPreorder World relation] in
theorem within_modify {change : World → World} (h : ∀ world, relation world (change world)) :
    Within relation (modify change : Action Unit) := h

theorem within_refuseIf (condition : Prop) [Decidable condition] (error : Error) :
    Within relation (refuseIf condition error) := by
  simp only [refuseIf]
  split
  · exact within_throw error
  · exact within_pure ()

omit [IsPreorder World relation] in
theorem within_ite {condition : Prop} [Decidable condition] {first second : Action α}
    (h : first.Within relation) (k : second.Within relation) :
    Within relation (if condition then first else second) := by
  split
  · exact h
  · exact k

theorem Within.bind {first : Action α} {second : α → Action β} (h : first.Within relation)
    (k : ∀ a, (second a).Within relation) : (first >>= second).Within relation := by
  intro world
  have step := h world
  rcases performed : first.perform world with ⟨_ | a, mid⟩
  · rw [perform_bind_of_error performed]
    rwa [performed] at step
  · rw [perform_bind_of_ok performed]
    rw [performed] at step
    exact IsTrans.trans _ _ _ step (k a mid)

omit [IsPreorder World relation] in
theorem Within.map {action : Action α} (h : action.Within relation) (f : α → β) :
    (f <$> action).Within relation := by
  intro world
  rw [perform_map]
  exact h world

end Action

structure World.Frame (before after : World) : Prop where
  clock : after.clock = before.clock
  random : after.random = before.random
  backing : after.store.backing = before.store.backing
  depth : after.store.depth = before.store.depth
  full : after.store.full = before.store.full
  lost : after.store.lost = before.store.lost
  fault : before.store.fault = none → after.store.fault = none

namespace Store

open World (Frame)

variable {α : Type}

instance : IsPreorder World Frame where
  refl _ := ⟨rfl, rfl, rfl, rfl, rfl, rfl, id⟩
  trans _ _ _ first second := {
    clock := second.clock.trans first.clock
    random := second.random.trans first.random
    backing := second.backing.trans first.backing
    depth := second.depth.trans first.depth
    full := second.full.trans first.full
    lost := second.lost.trans first.lost
    fault := fun none => second.fault (first.fault none) }

theorem perform_spend (world : World) :
    spend.perform world =
      match world.store.fault with
      | none => (.ok (), world)
      | some ⟨0, cause⟩ =>
        (.error cause, { world with store := { world.store with fault := none } })
      | some ⟨after + 1, cause⟩ =>
        (.ok (), { world with store := { world.store with fault := some ⟨after, cause⟩ } }) := by
  unfold spend
  rw [Action.perform_get_bind]
  rcases world.store.fault with _ | ⟨_ | after, cause⟩ <;> rfl

theorem frame_spend : Action.Within Frame spend := by
  intro world
  rw [perform_spend]
  split
  · exact Std.Refl.refl world
  · exact ⟨rfl, rfl, rfl, rfl, rfl, rfl, fun _ => rfl⟩
  · next fault =>
    exact ⟨rfl, rfl, rfl, rfl, rfl, rfl, fun none => by simp [none] at fault⟩

theorem frame_writeQueued : Action.Within Frame writeQueued :=
  frame_spend.bind fun _ => Action.within_modify fun _ =>
    ⟨rfl, rfl, rfl, rfl, rfl, rfl, id⟩

theorem frame_access : Action.Within Frame access :=
  Action.within_get.bind fun _ => Action.within_ite
    ((Action.within_refuseIf _ _).bind fun _ =>
      Action.within_ite frame_writeQueued (Action.within_pure ()))
    (Action.within_pure ())

theorem frame_readTables : Action.Within Frame readTables :=
  frame_access.bind fun _ => Action.within_get.bind fun _ => Action.within_pure _

theorem within_load [Machine] {relation : World → World → Prop} [IsPreorder World relation]
    (h : Action.Within relation readTables) (projectId environment : String) :
    Action.Within relation (load projectId environment) := by
  refine Action.Within.bind ?_ fun document? => ?_
  · exact (h.bind fun _ => Action.within_pure _).bind fun _ =>
      Action.within_get.bind fun _ => Action.within_pure _
  · cases document? with
    | none => exact Action.within_throw _
    | some document => exact Action.within_get.bind fun _ => Action.within_ofExcept _

theorem frame_load [Machine] (projectId environment : String) :
    Action.Within Frame (load projectId environment) :=
  within_load frame_readTables projectId environment

theorem frame_writeTables (tables : Tables) : Action.Within Frame (writeTables tables) :=
  frame_spend.bind fun _ => Action.within_modify fun _ =>
    ⟨rfl, rfl, rfl, rfl, rfl, rfl, id⟩

theorem frame_commit : Action.Within Frame commit :=
  Action.within_get.bind fun _ => Action.within_ite frame_access (Action.within_pure ())

theorem frame_note (note : AuditNote) : Action.Within Frame (Store.note note) := by
  intro world
  unfold Store.note
  rw [Action.perform_get_bind]
  split
  · split
    · exact ⟨rfl, rfl, rfl, rfl, rfl, rfl, id⟩
    · exact ⟨rfl, rfl, rfl, rfl, rfl, rfl, id⟩
  · exact Std.Refl.refl world

theorem frame_withDepth {depth : Nat} {before after : World}
    (h : Frame (withDepth depth before) after) :
    Frame before (withDepth before.store.depth after) :=
  { h with depth := rfl }

theorem frame_undone {before after : World} (h : Frame before after) :
    Frame before (undone before after) := by
  simp only [undone]
  split
  · exact { h with }
  · exact h

theorem perform_transaction (block : Action α) (before : World) :
    (transaction block).perform before =
      match block.perform (withDepth (before.store.depth + 1) before) with
      | (.error error, after) => (.error error, undone before (withDepth before.store.depth after))
      | (.ok value, after) =>
        match commit.perform (withDepth before.store.depth after) with
        | (.error error, after) => (.error error, undone before after)
        | (.ok (), after) => (.ok value, after) := rfl

/-- How a transaction can end: its block fails, its notes are not written, or all is written. -/
inductive Ends (block : Action α) (before : World) : Except Error α × World → Prop
  | failed {error : Error} {mid : World} :
    block.perform (withDepth (before.store.depth + 1) before) = (.error error, mid) →
    Ends block before (.error error, undone before (withDepth before.store.depth mid))
  | unfinished {value : α} {mid : World} {error : Error} {after : World} :
    block.perform (withDepth (before.store.depth + 1) before) = (.ok value, mid) →
    commit.perform (withDepth before.store.depth mid) = (.error error, after) →
    Ends block before (.error error, undone before after)
  | finished {value : α} {mid after : World} :
    block.perform (withDepth (before.store.depth + 1) before) = (.ok value, mid) →
    commit.perform (withDepth before.store.depth mid) = (.ok (), after) →
    Ends block before (.ok value, after)

theorem ends_transaction (block : Action α) (before : World) :
    Ends block before ((transaction block).perform before) := by
  rw [perform_transaction]
  rcases performed : block.perform (withDepth (before.store.depth + 1) before) with ⟨_ | value, mid⟩
  · exact .failed performed
  · rcases ended : commit.perform (withDepth before.store.depth mid) with ⟨error | _, after⟩
    · simpa only [ended] using Ends.unfinished performed ended
    · simpa only [ended] using Ends.finished performed ended

theorem frame_transaction {block : Action α} (h : block.Within Frame) :
    Action.Within Frame (transaction block) := by
  intro before
  have inner := frame_withDepth (h (withDepth (before.store.depth + 1) before))
  have ends := ends_transaction block before
  generalize (transaction block).perform before = result at ends
  cases ends with
  | failed performed =>
    rw [performed] at inner
    exact frame_undone inner
  | @unfinished _ mid _ _ performed ended =>
    have last := frame_commit (withDepth before.store.depth mid)
    rw [performed] at inner
    rw [ended] at last
    exact frame_undone (IsTrans.trans _ _ _ inner last)
  | @finished _ mid _ performed ended =>
    have last := frame_commit (withDepth before.store.depth mid)
    rw [performed] at inner
    rw [ended] at last
    exact IsTrans.trans _ _ _ inner last

theorem frame_change {block : Action α} (h : block.Within Frame) :
    Action.Within Frame (change block) :=
  Action.within_get.bind fun _ => Action.within_ite (frame_transaction h) h

theorem frame_save (projectId environment : String) (project : Project) :
    Action.Within Frame (save projectId environment project) :=
  Action.within_get.bind fun _ => (Action.within_refuseIf _ _).bind fun _ =>
    frame_change <| frame_readTables.bind fun _ => Action.within_get.bind fun _ =>
      (frame_writeTables _).bind fun _ =>
        Action.within_ite (frame_writeTables _) (Action.within_pure ())

theorem frame_putEntry (project : Project) : Action.Within Frame (putEntry project) :=
  frame_change <| frame_readTables.bind fun _ => Action.within_get.bind fun _ =>
    frame_writeTables _

theorem frame_delete (projectId : String) : Action.Within Frame (delete projectId) :=
  frame_change <| frame_readTables.bind fun _ => (Action.within_refuseIf _ _).bind fun _ =>
    frame_writeTables _

theorem frame_writtenAt (projectId environment : String) :
    Action.Within Frame (writtenAt projectId environment) :=
  (frame_readTables.bind fun _ => Action.within_pure _).bind fun _ => Action.within_pure _

end Store

end Sitewright
