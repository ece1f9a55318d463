import Sitewright.Proofs.Document.Uniqueness
import Sitewright.Proofs.Operation.Catalogue
import Sitewright.Proofs.Store.Loading

namespace Sitewright.Operation

open Store (Tables)
open Time (DateTime)

variable {world after : World} {prior result : Project} {transform : Transform}
  {instruction environment actor : Json} {saves : Bool} {at? : Option DateTime}

/-! What is answered -/

/-- A transform replies to the document of a project, and its reply is read as another one. -/
def Replies [Machine] (prior : Project) (instruction : Json) (transform : Transform)
    (parsed : Project) :
    Prop :=
  ∃ text reply fields, instructionOf instruction = .ok text ∧
    transform prior.toJson text = .ok reply ∧ Enhancement.Reply.toProject reply = .ok fields ∧
    Project.ofJson (.obj fields) = .ok parsed

structure Continues (prior result : Project) : Prop where
  id : result.id = prior.id
  createdAt : result.metadata.createdAt = prior.metadata.createdAt
  lastDeployment : result.metadata.lastDeployment = prior.metadata.lastDeployment
  history : result.metadata.history = prior.metadata.history
  valid : ∃ warnings, result.check = .ok warnings

theorem continues_of_rewritten [Machine] {text : String}
    (h : (rewritten prior text transform).perform world = (.ok result, after)) :
    Continues prior result := by
  have id := id_of_rewritten h
  obtain ⟨reply, parsed, -, -, made, valid, -⟩ := perform_rewritten_eq_ok h
  exact {
    id, valid
    createdAt := by rw [made, keepingRecords, withRecords]
    lastDeployment := by rw [made, keepingRecords, withRecords]
    history := by rw [made, keepingRecords, withRecords] }

theorem withoutIds_keepingRecords (prior parsed : Project) (millis : Int) (random : Random) :
    (keepingRecords prior (prior.repairIds parsed millis random).1).withoutIds =
      keepingRecords prior parsed.withoutIds := by
  rw [← Project.withoutIds_repairIds prior parsed millis random]
  rfl

theorem Continues.labelled (h : Continues prior result) (place : Environment) (stamp : String) :
    Continues prior { result with metadata := labelled place stamp result.metadata } :=
  { h with }

theorem withoutIds_labelled (project : Project) (place : Environment) (stamp : String) :
    Project.withoutIds { project with metadata := labelled place stamp project.metadata } =
      { project.withoutIds with
        metadata := labelled place stamp project.withoutIds.metadata } := rfl

/-! What is saved -/

/-- What a store is like after a project has been saved to an environment: the project is loaded
from there unless a database keeps another one in its place, no other copy is changed, and no entry
that was there is, but for that of a builder copy. -/
structure Lands [Machine] (before : Store) (after : World) (place : Environment)
    (project : Project) :
    Prop where
  loaded : (loadCopy project.id (.str place.name)).perform after = (.ok project, after) ↔
    Project.ofJson project.toJson = .ok project ∧
      ¬Store.Obscures before.backing (before.tables.document? project.id place.name) project
  copies (id environment : String) : ¬(id = project.id ∧ environment = place.name) →
    after.store.tables.copy? id environment = before.tables.copy? id environment
  entries (id : String) :
    id ≠ project.id ∨ place ≠ .builder ∧ (before.tables.entryOf? id).isSome →
    after.store.tables.entryOf? id = before.tables.entryOf? id

theorem lands_of_writeNoted [Machine] {project : Project} {place : Environment}
    {known : Option DateTime} {note : Store.AuditNote} (settled : world.store.Settled)
    (written : (writeNoted project.id place known project note).perform world = (.ok (), after)) :
    Lands world.store after place project := by
  have matching := match_writeNoted settled written
  have settled' := (atomic_writeNoted project.id place known project note world settled).1
  have stands := stands_writeNoted project.id place known project note world
  rw [written] at settled' stands
  have present (database : after.store.backing = .database) : after.store.lost = false := by
    rw [stands.lost, present_of_writeNoted settled (stands.backing.symm.trans database) written]
  have found := matching.document?_eq project.id place.name
  rw [document?_writtenCopy, if_pos ⟨rfl, rfl⟩] at found
  refine ⟨?_, fun id environment other => ?_, fun id other => ?_⟩
  · rw [perform_loadCopy, Store.perform_load_of_kept settled' present found, Prod.mk.injEq,
      and_iff_left rfl, mapError_eq_ok, Store.ofJson_kept_eq_ok_iff]
  · rw [matching.copy?_eq, copy?_writtenCopy_of_ne]
    rintro ⟨rfl, rfl⟩
    exact other ⟨rfl, rfl⟩
  · rw [Tables.entryOf?, matching.catalogue, ← Tables.entryOf?]
    exact entryOf?_writtenCopy (other.imp_right fun both => ⟨both.1, Tables.mem_listed.mpr both.2⟩)

/-! What an enhancement does -/

/-- What an enhancement answers with goes on from the project before, and identifiers apart it is
otherwise what the transform has replied with. It is saved if there is an environment to save it to,
with the label of the environment and the time. What is loaded from there is then the answer exactly
if the answer is read as itself, as it is if the project before has been read from a document, and
no document that is alike is kept in its place. No other copy is changed, and an entry that was
there only along with a builder copy. -/
theorem enhance_outcome [Machine] (settled : world.store.Settled)
    (performed : (enhance prior instruction transform saves environment actor at?).perform world =
      (.ok result, after)) :
    Continues prior result ∧
    ((∃ data, Project.ofJson data = .ok prior) → Project.ofJson result.toJson = .ok result) ∧
    ∃ parsed, Replies prior instruction transform parsed ∧
      ((¬(saves = true ∧ environment ≠ .null) ∧
          result.withoutIds = { parsed.withoutIds with
            metadata := { parsed.metadata with
              createdAt := prior.metadata.createdAt
              lastDeployment := prior.metadata.lastDeployment
              history := prior.metadata.history } } ∧
          after.store = world.store) ∨
        ∃ place stamp, saves = true ∧ environment = .str place.name ∧
          stampOf (at?.getD world.now) = .ok stamp ∧
          result.withoutIds = { parsed.withoutIds with
            metadata := { parsed.metadata with
              createdAt := prior.metadata.createdAt
              lastDeployment := prior.metadata.lastDeployment
              history := prior.metadata.history
              environment := .str place.name
              updatedAt := .str stamp } } ∧
          Lands world.store after place result) := by
  obtain ⟨text, made, mid, instructed, rewriting, outcome⟩ := perform_enhance_eq_ok performed
  have continues := continues_of_rewritten rewriting
  have rereads : (∃ data, Project.ofJson data = .ok prior) →
      Project.ofJson result.toJson = .ok result := by
    rintro ⟨data, read⟩
    exact Project.ofJson_toJson (readable_of_enhance (Project.readable_of_ofJson read) performed)
  obtain ⟨reply, parsed, replied, read, made, -, random, asked, rfl⟩ :=
    perform_rewritten_eq_ok rewriting
  obtain ⟨fields, carried, -, read⟩ := answered_eq_ok.mp read
  have replies : Replies prior instruction transform parsed :=
    ⟨text, reply, fields, instructed, replied, carried, read⟩
  have same := withoutIds_keepingRecords prior parsed world.millis world.random
  rw [← made] at same
  obtain ⟨idle, rfl, rfl⟩ | ⟨place, saving, label, writing⟩ := outcome
  · exact ⟨continues, rereads, parsed, replies, .inl ⟨idle, same, rfl⟩⟩
  · obtain ⟨stamp, note, stamped, rfl, written⟩ := perform_saveRewritten_eq_ok writing
    refine ⟨continues.labelled place stamp, rereads, parsed, replies,
      .inr ⟨place, stamp, saving, environmentOf_eq_some.mp label, stamped, ?_, ?_⟩⟩
    · rw [withoutIds_labelled, same]
      rfl
    · exact @lands_of_writeNoted { world with random, asked } _ _ _ _ _ _ settled written

def annotated (note : Json) : Fields Json :=
  [("id", .str "p1"), ("name", .str "P"), ("pages", .arr []), ("metadata", .obj [("note", note)])]

def annotatedDocument (note : Json) : Json :=
  .obj [("id", .str "p1"), ("name", .str "P"), ("pages", .arr []), ("metadata", .obj [
    ("note", note), ("environment", .str "builder"),
    ("createdAt", .str "1970-01-01T00:00:00.000Z"),
    ("updatedAt", .str "1970-01-01T00:00:00.000Z")])]

def annotatedWorld (backing : Store.Backing) : World where
  store := {
    backing
    tables := {
      copies := [⟨"p1", "builder", annotatedDocument (.int 1), DateTime.ofInstant 0⟩]
      catalogue := [⟨"p1", "P", [], 0⟩] } }
  clock := 0
  random := default

def unannotated : Project where
  id := "p1"
  name := "P"
  metadata := { createdAt := .str "1970-01-01T00:00:00.000Z" }

/-- The note `1` of a project gives way to the note `true`. -/
def annotating [Machine] (backing : Store.Backing) : Except Error Project × World :=
  (enhance unannotated (.str "Note it.")
    (fun _ _ => .ok (.value (.obj (annotated (.bool true))))) true (.str "builder") .null
    none).perform (annotatedWorld backing)

/-- In memory the new note is loaded, and from a database the old one. -/
theorem enhance_outcome_annotated :
    (∃ result after, annotating .memory = (.ok result, after) ∧
      (loadCopy result.id (.str "builder")).perform after = (.ok result, after)) ∧
    ∃ result after, annotating .database = (.ok result, after) ∧
      (loadCopy result.id (.str "builder")).perform after ≠ (.ok result, after) := by
  have lands {backing : Store.Backing} {result : Project} {after : World}
      (guarded : Store.isGuarded { backing } = true)
      (performed : annotating backing = (.ok result, after)) :
      result.id = "p1" ∧ Project.ofJson result.toJson = .ok result ∧
        Lands (annotatedWorld backing).store after .builder result := by
    have settled : (annotatedWorld backing).store.Settled := ⟨guarded, fun _ => rfl⟩
    obtain ⟨continues, rereads, parsed, -, ⟨idle, -⟩ | ⟨place, stamp, -, label, -, -, lands⟩⟩ :=
      enhance_outcome settled performed
    · exact absurd ⟨rfl, nofun⟩ idle
    · obtain rfl : Environment.builder = place := Environment.name_injective (Json.str.inj label)
      exact ⟨continues.id, rereads ⟨unannotated.toJson, rfl⟩, lands⟩
  constructor
  · obtain ⟨result, performed⟩ := Action.exists_of_isOk
      (by decide +kernel : (annotating .memory).1.isOk = true)
    obtain ⟨-, rereads, lands⟩ := lands rfl performed
    exact ⟨result, _, performed, lands.loaded.mpr ⟨rereads, fun obscures => nomatch obscures.1⟩⟩
  · obtain ⟨result, performed⟩ := Action.exists_of_isOk
      (by decide +kernel : (annotating .database).1.isOk = true)
    obtain ⟨id, -, lands⟩ := lands rfl performed
    refine ⟨result, _, performed, fun loaded => (lands.loaded.mp loaded).2 ⟨rfl, ?_⟩⟩
    have document : (annotating .database).1.map Project.toJson =
        .ok (annotatedDocument (.bool true)) := rfl
    rw [performed] at document
    have document : result.toJson = annotatedDocument (.bool true) := Except.ok.inj document
    rw [id, document]
    refine ⟨annotatedDocument (.int 1), rfl, Json.alike_obj_of_canonicalFields rfl, fun read => ?_⟩
    have old : (Project.ofJson (annotatedDocument (.int 1))).map Project.toJson =
        .ok (annotatedDocument (.int 1)) := rfl
    rw [read] at old
    exact absurd (document.symm.trans (Except.ok.inj old)) (by decide)

end Sitewright.Operation
