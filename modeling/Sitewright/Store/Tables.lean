import Sitewright.Document.Project
import Sitewright.Time.DateTime

/-!
What a store holds: a copy of a project for each environment that it has been saved to, a catalogue
with one entry for each project, and the rows of the audit trail.
-/

namespace Sitewright.Store

open Time (DateTime Instant)

structure Copy where
  projectId : String
  environment : String
  document : Json
  writtenAt : DateTime
  deriving DecidableEq, Repr

structure Entry where
  id : String
  name : String
  metadata : Fields Json
  since : Instant
  deriving DecidableEq, Repr

def Entry.toFields (entry : Entry) : Fields Json :=
  [("id", .str entry.id), ("name", .str entry.name), ("metadata", .obj entry.metadata)]

inductive AuditAction
  | save
  | promote
  | enhance
  | delete
  deriving DecidableEq, Repr

def AuditAction.name : AuditAction → String
  | save => "project.save"
  | promote => "project.promote"
  | enhance => "project.enhance"
  | delete => "project.delete"

/-- What is to be recorded about a change. The actor may be any value, and null is none. -/
structure AuditNote where
  action : AuditAction
  projectId : String
  actor : Json
  payload : Fields Json := []
  deriving DecidableEq, Repr

structure AuditRow where
  number : Nat
  note : AuditNote
  createdAt : DateTime
  deriving DecidableEq, Repr

structure Tables where
  copies : List Copy := []
  catalogue : List Entry := []
  audit : List AuditRow := []
  deriving DecidableEq, Repr

namespace Copy

def isOf (projectId environment : String) (copy : Copy) : Bool :=
  copy.projectId == projectId && copy.environment == environment

theorem eq_of_isOf {copy : Copy} {projectId environment : String}
    (h : copy.isOf projectId environment) :
    copy.projectId = projectId ∧ copy.environment = environment := by
  simpa [Copy.isOf] using h

end Copy

namespace Tables

def copy? (tables : Tables) (projectId environment : String) : Option Copy :=
  tables.copies.find? (Copy.isOf projectId environment)

def entryOf? (tables : Tables) (id : String) : Option Entry :=
  tables.catalogue.find? (·.id == id)

def putCopy (copies : List Copy) (new : Copy) : List Copy :=
  match copies with
  | [] => [new]
  | copy :: rest =>
    if copy.isOf new.projectId new.environment then new :: rest else copy :: putCopy rest new

/-- The entry at its old place and with its old time, or at the end. -/
def putEntry (entries : List Entry) (new : Entry) : List Entry :=
  match entries with
  | [] => [new]
  | entry :: rest =>
    if entry.id = new.id then { new with since := entry.since } :: rest
    else entry :: putEntry rest new

def withCopy (tables : Tables) (copy : Copy) : Tables :=
  { tables with copies := putCopy tables.copies copy }

def withEntry (tables : Tables) (entry : Entry) : Tables :=
  { tables with catalogue := putEntry tables.catalogue entry }

def without (tables : Tables) (projectId : String) : Tables :=
  { tables with
    copies := tables.copies.filter (·.projectId != projectId)
    catalogue := tables.catalogue.filter (·.id != projectId) }

def withDocument (tables : Tables) (projectId environment : String) (document : Json) : Tables :=
  { tables with
    copies := tables.copies.map fun copy =>
      if copy.isOf projectId environment then { copy with document } else copy }

theorem find?_putCopy (copies : List Copy) (new : Copy) (projectId environment : String) :
    (putCopy copies new).find? (Copy.isOf projectId environment) =
      if new.isOf projectId environment then some new
      else copies.find? (Copy.isOf projectId environment) := by
  induction copies with
  | nil => by_cases h : new.isOf projectId environment <;> simp [putCopy, h]
  | cons copy rest ih =>
    simp only [putCopy]
    split
    · next same =>
      simp only [Copy.isOf, Bool.and_eq_true, beq_iff_eq] at same
      obtain ⟨hp, he⟩ := same
      by_cases h : new.isOf projectId environment <;>
        simp_all [Copy.isOf]
    · by_cases h : copy.isOf projectId environment <;>
        by_cases hn : new.isOf projectId environment <;>
        simp_all [Copy.isOf]

@[simp] theorem copy?_withCopy (tables : Tables) (new : Copy) (projectId environment : String) :
    (tables.withCopy new).copy? projectId environment =
      if new.isOf projectId environment then some new else tables.copy? projectId environment :=
  find?_putCopy tables.copies new projectId environment

@[simp] theorem entryOf?_withCopy (tables : Tables) (new : Copy) (id : String) :
    (tables.withCopy new).entryOf? id = tables.entryOf? id := rfl

@[simp] theorem copy?_withEntry (tables : Tables) (new : Entry) (projectId environment : String) :
    (tables.withEntry new).copy? projectId environment = tables.copy? projectId environment := rfl

theorem find?_putEntry (entries : List Entry) (new : Entry) (id : String) :
    (putEntry entries new).find? (·.id == id) =
      if new.id = id then
        some { new with since := ((entries.find? (·.id == id)).map Entry.since).getD new.since }
      else entries.find? (·.id == id) := by
  induction entries with
  | nil =>
    by_cases h : new.id = id
    · subst h
      simp [putEntry]
    · simp [putEntry, h]
  | cons entry rest ih =>
    simp only [putEntry]
    split
    · next same => by_cases h : new.id = id <;> simp_all
    · by_cases h : entry.id = id <;> by_cases hn : new.id = id <;> simp_all

@[simp] theorem entryOf?_withEntry (tables : Tables) (new : Entry) (id : String) :
    (tables.withEntry new).entryOf? id =
      if new.id = id then
        some { new with since := ((tables.entryOf? id).map Entry.since).getD new.since }
      else tables.entryOf? id :=
  find?_putEntry tables.catalogue new id

@[simp] theorem copy?_without (tables : Tables) (projectId id environment : String) :
    (tables.without projectId).copy? id environment =
      if id = projectId then none else tables.copy? id environment := by
  by_cases h : id = projectId
  · simp only [copy?, without, h, if_true, List.find?_eq_none]
    intro copy hmem
    simp_all [Copy.isOf]
  · simp only [copy?, without, h, if_false, List.find?_filter]
    congr 1
    funext copy
    rw [Bool.eq_iff_iff]
    by_cases hc : copy.projectId = id <;> simp [Copy.isOf, hc, h]

@[simp] theorem entryOf?_without (tables : Tables) (projectId id : String) :
    (tables.without projectId).entryOf? id =
      if id = projectId then none else tables.entryOf? id := by
  by_cases h : id = projectId
  · simp only [entryOf?, without, h, if_true, List.find?_eq_none]
    intro entry hmem
    simp_all
  · simp only [entryOf?, without, h, if_false, List.find?_filter]
    congr 1
    funext entry
    by_cases hc : entry.id = id <;> simp [hc, h]

theorem mem_of_copy? {tables : Tables} {projectId environment : String} {copy : Copy}
    (h : tables.copy? projectId environment = some copy) : copy ∈ tables.copies :=
  List.mem_of_find?_eq_some h

theorem isOf_of_copy? {tables : Tables} {projectId environment : String} {copy : Copy}
    (h : tables.copy? projectId environment = some copy) :
    copy.projectId = projectId ∧ copy.environment = environment :=
  Copy.eq_of_isOf (List.find?_some h)

theorem mem_putCopy {copies : List Copy} {new copy : Copy} (h : copy ∈ putCopy copies new) :
    copy = new ∨ copy ∈ copies := by
  induction copies with
  | nil => exact .inl (List.mem_singleton.mp h)
  | cons first rest ih =>
    simp only [putCopy] at h
    split at h
    · rcases List.mem_cons.mp h with rfl | later
      · exact .inl rfl
      · exact .inr (List.mem_cons_of_mem _ later)
    · rcases List.mem_cons.mp h with rfl | later
      · exact .inr List.mem_cons_self
      · exact (ih later).imp_right (List.mem_cons_of_mem _)

end Tables

end Sitewright.Store
