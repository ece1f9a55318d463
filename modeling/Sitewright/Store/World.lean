import Sitewright.Document.Identifier
import Sitewright.Store.Tables
import Sitewright.Time.Iso

/-!
The store together with the clock and the source of random characters, and actions on them. An
action that fails says why and leaves behind what it has changed so far; transactions take such
changes back.
-/

namespace Sitewright

open Time (DateTime Instant)

namespace Store

/-- Where a store keeps its tables. In memory every transaction can be taken back, in a database the
outermost one. An unguarded store takes nothing back. -/
inductive Backing
  | memory
  | unguarded
  | database
  deriving DecidableEq, Repr

/-- A write that is going to fail: how many succeed before it, and why it fails. -/
structure Fault where
  after : Nat
  cause : Error
  deriving DecidableEq, Repr

end Store

structure Store where
  backing : Store.Backing
  tables : Store.Tables := {}
  /-- Notes of the open transaction that are not yet written. -/
  queued : List Store.AuditNote := []
  /-- The rows of the audit trail written so far, those taken back included. -/
  rowsWritten : Nat := 0
  depth : Nat := 0
  /-- An environment that cannot be written, for want of room. -/
  full : Option String := none
  fault : Option Store.Fault := none
  lost : Bool := false
  deriving DecidableEq, Repr

structure World where
  store : Store
  clock : Instant
  random : Random
  /-- The instructions that the enhancement transform was given. -/
  asked : List String := []

abbrev Action := ExceptT Error (StateM World)

namespace Action

variable {α : Type}

def perform (action : Action α) (world : World) : Except Error α × World := action.run.run world

def ofExcept (result : Except Error α) : Action α := ExceptT.mk (pure result)

def refuseIf (condition : Prop) [Decidable condition] (error : Error) : Action Unit :=
  if condition then throw error else pure ()

def changeStore (change : Store → Store) : Action Unit :=
  modify fun world => { world with store := change world.store }

def draw (next : Random → α × Random) : Action α := do
  let random := (← get).random
  modify fun world => { world with random := (next random).2 }
  return (next random).1

def mapError (change : Error → Error) (action : Action α) : Action α :=
  ExceptT.mk do return (← action.run).mapError change

variable {β : Type}

@[simp] theorem perform_pure (value : α) (world : World) :
    perform (pure value) world = (.ok value, world) := rfl

@[simp] theorem perform_throw (error : Error) (world : World) :
    perform (throw error : Action α) world = (.error error, world) := rfl

@[simp] theorem ofExcept_ok_bind (a : α) (next : α → Action β) :
    (ofExcept (.ok a) >>= next) = next a := rfl

@[simp] theorem perform_ofExcept (result : Except Error α) (world : World) :
    perform (ofExcept result) world = (result, world) := rfl

@[simp] theorem perform_get (world : World) : perform get world = (.ok world, world) := rfl

@[simp] theorem perform_draw (next : Random → α × Random) (world : World) :
    perform (draw next) world =
      (.ok (next world.random).1, { world with random := (next world.random).2 }) := rfl

@[simp] theorem perform_changeStore (change : Store → Store) (world : World) :
    perform (changeStore change) world = (.ok (), { world with store := change world.store }) := rfl

@[simp] theorem perform_modify (change : World → World) (world : World) :
    perform (modify change) world = (.ok (), change world) := rfl

theorem perform_bind (first : Action α) (second : α → Action β) (world : World) :
    perform (first >>= second) world =
      match perform first world with
      | (.ok value, after) => perform (second value) after
      | (.error error, after) => (.error error, after) := by
  rcases h : first.run.run world with ⟨result, after⟩
  simp only [perform, ExceptT.run_bind, StateT.run_bind, h]
  cases result <;> rfl

@[simp] theorem perform_mapError (change : Error → Error) (action : Action α) (world : World) :
    perform (mapError change action) world =
      ((perform action world).1.mapError change, (perform action world).2) := rfl

end Action

namespace World

def millis (world : World) : Int := world.clock / 1000

def now (world : World) : DateTime := DateTime.ofInstant world.clock

end World

def currentTime (given : Option DateTime) : Action DateTime := do
  return given.getD (← get).now

def stampOf (time : DateTime) : Except Error String :=
  match time.stamp? with
  | some s => .ok s
  | none => .error .dateOutOfRange

theorem ne_empty_of_stampOf {time : DateTime} {stamp : String} (h : stampOf time = .ok stamp) :
    stamp ≠ "" := by
  simp only [stampOf] at h
  split at h
  · next found =>
    cases h
    exact DateTime.ne_empty_of_stamp? found
  · cases h

end Sitewright
