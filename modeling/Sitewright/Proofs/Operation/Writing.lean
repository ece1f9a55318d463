import Sitewright.Proofs.Operation.Soundness
import Sitewright.Proofs.Store.Agreement

namespace Sitewright.Operation

open Sitewright.Action (Agrees)
open Store (Tables Working withTables saved entered kept)
open Time (DateTime)

/-! Writing a copy -/

def writtenCopy (world : World) (environment : Environment) (project : Project) : Tables :=
  let tables := saved world project.id environment.name project
  if environment = .builder then entered (withTables tables world) project else tables

section

variable {world : World}

theorem perform_writeCopy (h : world.store.Working)
    (inside : world.store.backing = .database → world.store.depth ≠ 0)
    (environment : Environment) (project : Project) :
    (writeCopy project.id environment project).perform world =
      (.ok (), withTables (writtenCopy world environment project) world) := by
  rw [writeCopy, Action.perform_bind_of_ok (Store.perform_save h inside _ _ _)]
  simp only [writtenCopy]
  split
  · have written := h.withTables (saved world project.id environment.name project)
    exact Store.perform_putEntry written inside project
  · rfl

theorem document?_writtenCopy (environment : Environment) (project : Project)
    (projectId place : String) :
    (writtenCopy world environment project).document? projectId place =
      if project.id = projectId ∧ environment.name = place then
        some (kept world.store.backing (world.store.tables.document? projectId place)
          project.toJson)
      else world.store.tables.document? projectId place := by
  rw [← Store.document?_saved]
  simp only [writtenCopy]
  split <;> rfl

theorem copy?_writtenCopy_of_ne {environment : Environment} {project : Project}
    {projectId place : String} (h : ¬(project.id = projectId ∧ environment.name = place)) :
    (writtenCopy world environment project).copy? projectId place =
      world.store.tables.copy? projectId place := by
  rw [← Store.copy?_saved_of_ne project h]
  simp only [writtenCopy]
  split <;> rfl

theorem metadata?_writtenCopy_builder (project : Project) (id : String) :
    (writtenCopy world .builder project).metadata? id =
      if project.id = id then
        some (kept world.store.backing (world.store.tables.metadata? id) project.metadata.toJson)
      else world.store.tables.metadata? id := by
  have entry := @Store.metadata?_entered
    (withTables (saved world project.id Environment.builder.name project) world) project id
  simp only [withTables, Store.metadata?_saved] at entry
  simp only [writtenCopy, if_true, withTables]
  rw [entry]
  by_cases here : project.id = id
  · rw [if_pos here, if_pos here]
    by_cases new : world.store.tables.metadata? id = none
    · simp [here, new, kept, Json.Alike.refl]
    · simp [new]
  · rw [if_neg here, if_neg here, if_neg fun both => here both.1]

theorem metadata?_writtenCopy {environment : Environment} (other : environment ≠ .builder)
    (project : Project) (id : String) :
    (writtenCopy world environment project).metadata? id =
      if project.id = id ∧ world.store.tables.metadata? id = none then some project.metadata.toJson
      else world.store.tables.metadata? id := by
  rw [← Store.metadata?_saved environment.name]
  simp only [writtenCopy, if_neg other]

theorem indexed_writtenCopy (h : world.store.tables.Indexed) (environment : Environment)
    (project : Project) : (writtenCopy world environment project).Indexed := by
  have indexed := Store.indexed_saved h environment.name project
  simp only [writtenCopy]
  split
  · exact @Store.indexed_entered (withTables _ world) indexed project
  · exact indexed

theorem not_blurs_writtenCopy (database : world.store.backing = .database)
    (environment : Environment) (project : Project) :
    ¬world.store.tables.Blurs (writtenCopy world environment project) := by
  rintro (⟨projectId, place, blurred⟩ | ⟨id, blurred⟩)
  · rw [document?_writtenCopy, database] at blurred
    split at blurred
    · exact Store.not_blurred_kept _ _ blurred
    · exact Json.not_blurred_self _ blurred
  · by_cases builder : environment = .builder
    · subst builder
      rw [metadata?_writtenCopy_builder, database] at blurred
      split at blurred
      · exact Store.not_blurred_kept _ _ blurred
      · exact Json.not_blurred_self _ blurred
    · rw [metadata?_writtenCopy builder] at blurred
      split at blurred
      · next new =>
        obtain ⟨old, _, found, -⟩ := blurred
        rw [new.2] at found
        cases found
      · exact Json.not_blurred_self _ blurred

end

variable {exact : Prop} {m d : World} {p q : Project}

theorem twin_writtenCopy [Machine] (memory : m.store.backing = .memory)
    (database : d.store.backing = .database) (clock : m.clock = d.clock)
    (tables : m.store.tables.Twin exact d.store.tables) (h : p.Twin exact q)
    (environment : Environment)
    (document : exact →
      Json.Sharp (m.store.tables.document? p.id environment.name) p.toJson)
    (metadata : exact → environment = .builder →
      Json.Sharp (m.store.tables.metadata? p.id) p.metadata.toJson) :
    (writtenCopy m environment p).Twin exact (writtenCopy d environment q) := by
  have saved := Store.twin_saved memory database clock tables h environment.name document
  simp only [writtenCopy, ← h.id]
  split
  · next builder =>
    refine @Store.twin_entered exact (withTables _ m) (withTables _ d) p q _ memory database clock
      saved h fun holds old found alike => ?_
    simp only [withTables, Store.metadata?_saved] at found
    split at found
    · exact (Option.some.inj found).symm
    · exact metadata holds builder old found alike
  · exact saved

theorem twin_writtenCopy_of_sharp [Machine] (twin : World.Twin exact m d) (h : p.Twin exact q)
    (environment : Environment) :
    (writtenCopy m environment p).Twin
      (exact ∧ ¬m.store.tables.Blurs (writtenCopy m environment p))
      (writtenCopy d environment q) := by
  refine twin_writtenCopy twin.memory twin.database twin.clock (twin.tables.imp And.left)
    (h.imp And.left) environment ?_ ?_
  · intro sharp
    refine Tables.sharp_document? sharp.2 ?_
    rw [document?_writtenCopy, if_pos ⟨rfl, rfl⟩, twin.memory, Store.kept_memory]
  · rintro sharp rfl
    refine Tables.sharp_metadata? sharp.2 ?_
    rw [metadata?_writtenCopy_builder, if_pos rfl, twin.memory, Store.kept_memory]

def unmodified (tables : Tables) (projectId environment : String) (known : Option DateTime) :
    Except Error Unit :=
  match known, tables.copy? projectId environment with
  | some known, some copy => do
    known.checkZone
    if copy.writtenAt.isModifiedSince known then .error .modifiedSince else .ok ()
  | _, _ => .ok ()

theorem perform_checkUnmodified {world : World}
    (queued : world.store.backing = .database → world.store.queued = [])
    (present : world.store.lost = false) (projectId environment : String)
    (known : Option DateTime) :
    (checkUnmodified projectId environment known).perform world =
      (unmodified world.store.tables projectId environment known, world) := by
  cases known with
  | none => rfl
  | some known =>
    have writtenAt : (Store.writtenAt projectId environment).perform world =
        (.ok ((world.store.tables.copy? projectId environment).map Store.Copy.writtenAt),
          world) := by
      rw [Store.writtenAt,
        Action.perform_bind_of_ok (Store.perform_copy? queued (fun _ => present) _ _)]
      rfl
    rw [checkUnmodified, Action.perform_bind_of_ok writtenAt]
    rcases found : world.store.tables.copy? projectId environment with _ | copy
    · simp [unmodified, found]
    · rcases zone : known.checkZone with error | _
      · simp [unmodified, found, zone, Action.perform_bind]
      · by_cases modified : copy.writtenAt.isModifiedSince known <;>
          simp [unmodified, found, zone, Action.refuseIf, modified]

theorem unmodified_eq (h : m.store.tables.Twin exact d.store.tables)
    (projectId environment : String) (known : Option DateTime) :
    unmodified d.store.tables projectId environment known =
      unmodified m.store.tables projectId environment known := by
  simp only [unmodified]
  obtain ⟨none, none'⟩ | ⟨copy, copy', found, found', twin⟩ :=
    Store.rel_cases (h.copy? projectId environment)
  · rw [none, none']
  · rw [found, found']
    cases known with
    | none => rfl
    | some known => simp only [twin.writtenAt, DateTime.isModifiedSince_naive twin.universal]

def Storable (actor : Json) : Prop := ∃ stored, Store.columnValue actor = .ok stored

theorem storable_ofText? (name? : Option String) : Storable (.ofText? name?) := by
  cases name? with
  | none => exact ⟨_, rfl⟩
  | some name => exact ⟨_, rfl⟩

section

variable {world : World} {project : Project} {environment : Environment} {known : Option DateTime}

theorem perform_noteCopy_of_error
    (queued : world.store.backing = .database → world.store.queued = [])
    (present : world.store.lost = false) (note : Store.AuditNote) {error : Error}
    (modified : unmodified world.store.tables project.id environment.name known = .error error) :
    (noteCopy project.id environment known project note).perform world = (.error error, world) := by
  rw [noteCopy,
    Action.perform_bind_of_error (by rw [perform_checkUnmodified queued present, modified])]

theorem perform_noteCopy_of_ok (h : world.store.Working)
    (inside : world.store.backing = .database → world.store.depth ≠ 0) {note : Store.AuditNote}
    (storable : Storable note.actor)
    (same : unmodified world.store.tables project.id environment.name known = .ok ()) :
    ∃ after, (noteCopy project.id environment known project note).perform world =
      (.ok (), after) ∧ after.store.tables = writtenCopy world environment project := by
  obtain ⟨queued, noted⟩ := @Store.perform_note
    (withTables (writtenCopy world environment project) world) note storable
  rw [noteCopy,
    Action.perform_bind_of_ok (by rw [perform_checkUnmodified h.queued h.present, same]),
    Action.perform_bind_of_ok (perform_writeCopy h inside environment project), noted]
  exact ⟨_, rfl, rfl⟩

end

theorem agrees_writeNoted [Machine] {project : Project} {environment : Environment}
    (stored : project.StoredAs project.id environment.name) (known : Option DateTime)
    {note : Store.AuditNote} (storable : Storable note.actor) :
    Agrees exact Eq (writeNoted project.id environment known project note)
      (writeNoted project.id environment known project note) := by
  intro m d twin
  have within := frame_noteCopy project.id environment known project note
  have keeps := keeps_noteCopy known note stored
  have paired : Store.Paired (noteCopy project.id environment known project note)
      (noteCopy project.id environment known project note) := ⟨within, within, keeps, keeps⟩
  have same := unmodified_eq twin.tables project.id environment.name known
  have working := twin.healthy.working.withDepth (m.store.depth + 1)
  have working' := twin.healthy'.working.withDepth (d.store.depth + 1)
  rcases result : unmodified m.store.tables project.id environment.name known with error | _
  · exact Store.agreesAt_of_error paired twin
      (perform_noteCopy_of_error working.queued working.present note result)
      (perform_noteCopy_of_error working'.queued working'.present note (same.trans result))
  · obtain ⟨mid, performed, tables⟩ :=
      perform_noteCopy_of_ok working (fun _ => Nat.succ_ne_zero _) storable result
    obtain ⟨mid', performed', tables'⟩ :=
      perform_noteCopy_of_ok working' (fun _ => Nat.succ_ne_zero _) storable (same.trans result)
    refine Store.agreesAt_of_ok paired twin performed performed' rfl tables tables' ?_ ?_ ?_ ?_
    · exact indexed_writtenCopy twin.healthy.indexed environment project
    · exact indexed_writtenCopy twin.healthy'.indexed environment project
    · exact twin_writtenCopy_of_sharp twin (.refl exact stored.readable) environment
    · exact not_blurs_writtenCopy twin.database environment project

/-! Writing a deployment -/

def writtenDeployment (world : World) (target : Target) (deployed synced : Project) : Tables :=
  writtenCopy (withTables (saved world deployed.id target.name deployed) world) .builder synced

section

variable {world : World} {deployed synced : Project}

theorem noteDeployment_eq (target : Target) (same : synced.id = deployed.id)
    (note : Store.AuditNote) :
    noteDeployment deployed.id target deployed synced note = (do
      Store.save deployed.id target.name deployed
      writeCopy synced.id .builder synced
      Store.note note) := by
  simp [noteDeployment, writeCopy, same]

theorem perform_noteDeployment (h : world.store.Working)
    (inside : world.store.backing = .database → world.store.depth ≠ 0) (target : Target)
    (same : synced.id = deployed.id) {note : Store.AuditNote} (storable : Storable note.actor) :
    ∃ after, (noteDeployment deployed.id target deployed synced note).perform world =
      (.ok (), after) ∧ after.store.tables = writtenDeployment world target deployed synced := by
  have working := h.withTables (saved world deployed.id target.name deployed)
  obtain ⟨queued, noted⟩ := @Store.perform_note
    (withTables (writtenDeployment world target deployed synced) world) note storable
  rw [noteDeployment_eq target same, Action.perform_bind_of_ok (Store.perform_save h inside _ _ _),
    Action.perform_bind_of_ok (perform_writeCopy working inside .builder synced)]
  exact ⟨_, noted, rfl⟩

theorem document?_writtenDeployment (target : Target) (same : synced.id = deployed.id)
    (projectId place : String) :
    (writtenDeployment world target deployed synced).document? projectId place =
      if deployed.id = projectId ∧ Environment.builder.name = place then
        some (kept world.store.backing (world.store.tables.document? projectId place) synced.toJson)
      else if deployed.id = projectId ∧ target.name = place then
        some (kept world.store.backing (world.store.tables.document? projectId place)
          deployed.toJson)
      else world.store.tables.document? projectId place := by
  rw [writtenDeployment, document?_writtenCopy, same]
  simp only [withTables, Store.document?_saved]
  split
  · next builder =>
    rw [if_neg]
    exact fun other => target.name_ne_builder (other.2.trans builder.2.symm)
  · rfl

theorem copy?_writtenDeployment_of_ne {target : Target} (same : synced.id = deployed.id)
    {projectId place : String}
    (h : ¬(projectId = deployed.id ∧ (place = Environment.builder.name ∨ place = target.name))) :
    (writtenDeployment world target deployed synced).copy? projectId place =
      world.store.tables.copy? projectId place := by
  rw [writtenDeployment, copy?_writtenCopy_of_ne]
  · refine Store.copy?_saved_of_ne deployed ?_
    rintro ⟨rfl, rfl⟩
    exact h ⟨rfl, .inr rfl⟩
  · rintro ⟨rfl, rfl⟩
    exact h ⟨same, .inl rfl⟩

/-- An entry that was made along with the copy of the target gives way to that of the builder copy,
which is not alike. -/
theorem metadata?_writtenDeployment (target : Target) (same : synced.id = deployed.id)
    (unlike : ¬deployed.metadata.toJson.Alike synced.metadata.toJson) (id : String) :
    (writtenDeployment world target deployed synced).metadata? id =
      if deployed.id = id then
        some (kept world.store.backing (world.store.tables.metadata? id) synced.metadata.toJson)
      else world.store.tables.metadata? id := by
  rw [writtenDeployment, metadata?_writtenCopy_builder, same]
  simp only [withTables, Store.metadata?_saved]
  by_cases here : deployed.id = id
  · by_cases new : world.store.tables.metadata? id = none <;> simp [here, new, kept, unlike]
  · simp [here]

theorem indexed_writtenDeployment (h : world.store.tables.Indexed) (target : Target)
    (deployed synced : Project) : (writtenDeployment world target deployed synced).Indexed :=
  @indexed_writtenCopy (withTables _ world) (Store.indexed_saved h target.name deployed) .builder
    synced

theorem not_blurs_writtenDeployment (database : world.store.backing = .database) (target : Target)
    (same : synced.id = deployed.id)
    (unlike : ¬deployed.metadata.toJson.Alike synced.metadata.toJson) :
    ¬world.store.tables.Blurs (writtenDeployment world target deployed synced) := by
  rintro (⟨projectId, place, blurred⟩ | ⟨id, blurred⟩)
  · rw [document?_writtenDeployment target same, database] at blurred
    split at blurred
    · exact Store.not_blurred_kept _ _ blurred
    · split at blurred
      · exact Store.not_blurred_kept _ _ blurred
      · exact Json.not_blurred_self _ blurred
  · rw [metadata?_writtenDeployment target same unlike, database] at blurred
    split at blurred
    · exact Store.not_blurred_kept _ _ blurred
    · exact Json.not_blurred_self _ blurred

end

theorem twin_writtenDeployment [Machine] (twin : World.Twin exact m d) (target : Target)
    {deployed deployed' synced synced' : Project} (h : deployed.Twin exact deployed')
    (k : synced.Twin exact synced') (same : synced.id = deployed.id)
    (unlike : ¬deployed.metadata.toJson.Alike synced.metadata.toJson) :
    (writtenDeployment m target deployed synced).Twin
      (exact ∧ ¬m.store.tables.Blurs (writtenDeployment m target deployed synced))
      (writtenDeployment d target deployed' synced') := by
  have documents := @document?_writtenDeployment m deployed synced target same deployed.id
  have metadata := @metadata?_writtenDeployment m deployed synced target same unlike deployed.id
  have saved : (saved m deployed.id target.name deployed).Twin
      (exact ∧ ¬m.store.tables.Blurs (writtenDeployment m target deployed synced))
      (saved d deployed.id target.name deployed') := by
    refine Store.twin_saved twin.memory twin.database twin.clock (twin.tables.imp And.left)
      (h.imp And.left) target.name fun sharp => Tables.sharp_document? sharp.2 ?_
    rw [documents, if_neg fun both => target.name_ne_builder both.2.symm, if_pos ⟨rfl, rfl⟩,
      twin.memory, Store.kept_memory]
  simp only [writtenDeployment, ← h.id]
  refine @twin_writtenCopy _ (withTables (Store.saved m deployed.id target.name deployed) m)
    (withTables (Store.saved d deployed.id target.name deployed') d) synced synced' _ twin.memory
    twin.database twin.clock saved (k.imp And.left) .builder ?_ ?_
  · intro sharp
    simp only [withTables, same, Store.document?_saved]
    rw [if_neg fun both => target.name_ne_builder both.2]
    refine Tables.sharp_document? sharp.2 ?_
    rw [documents, if_pos ⟨rfl, rfl⟩, twin.memory, Store.kept_memory]
  · intro sharp _
    simp only [withTables, same, Store.metadata?_saved, true_and]
    split
    · intro old found alike
      exact absurd (Option.some.inj found ▸ alike) unlike
    · refine Tables.sharp_metadata? sharp.2 ?_
      rw [metadata, if_pos rfl, twin.memory, Store.kept_memory]

structure Deployed [Machine] (exact : Prop) (target : Target)
    (deployed deployed' synced synced' : Project) :
    Prop where
  copies : deployed.Twin exact deployed'
  builders : synced.Twin exact synced'
  stored : deployed.StoredAs deployed.id target.name
  stored' : deployed'.StoredAs deployed.id target.name
  builder : synced.StoredAs deployed.id Environment.builder.name
  builder' : synced'.StoredAs deployed.id Environment.builder.name

theorem unlike_of_labels [Machine] {p q : Project} {projectId place other : String}
    (h : p.StoredAs projectId place) (k : q.StoredAs projectId other) (differ : place ≠ other) :
    ¬p.metadata.toJson.Alike q.metadata.toJson := by
  intro alike
  have like := (Metadata.alike_toJson_iff h.readable.metadata.unknown
    k.readable.metadata.unknown).mp alike
  have label := like.environment
  rw [h.environment, k.environment, Json.alike_str] at label
  exact differ label

theorem agrees_writeDeployment [Machine] {target : Target}
    {deployed deployed' synced synced' : Project}
    (h : Deployed exact target deployed deployed' synced synced') {note : Store.AuditNote}
    (storable : Storable note.actor) :
    Agrees exact Eq (writeDeployment deployed.id target deployed synced note)
      (writeDeployment deployed.id target deployed' synced' note) := by
  intro m d twin
  have paired : Store.Paired (noteDeployment deployed.id target deployed synced note)
      (noteDeployment deployed.id target deployed' synced' note) := {
    within := frame_noteDeployment _ _ _ _ _
    within' := frame_noteDeployment _ _ _ _ _
    keeps := keeps_noteDeployment note h.stored h.builder
    keeps' := keeps_noteDeployment note h.stored' h.builder' }
  have working := twin.healthy.working.withDepth (m.store.depth + 1)
  have working' := twin.healthy'.working.withDepth (d.store.depth + 1)
  have same : synced.id = deployed.id := h.builder.id
  have same' : synced'.id = deployed'.id := h.builder'.id.trans h.copies.id
  have unlike := unlike_of_labels h.stored h.builder target.name_ne_builder
  have unlike' := unlike_of_labels h.stored' h.builder' target.name_ne_builder
  obtain ⟨mid, performed, tables⟩ :=
    perform_noteDeployment working (fun _ => Nat.succ_ne_zero _) target same storable
  obtain ⟨mid', performed', tables'⟩ :=
    perform_noteDeployment working' (fun _ => Nat.succ_ne_zero _) target same' storable
  refine Store.agreesAt_of_ok paired twin performed (h.copies.id ▸ performed') rfl tables tables'
    ?_ ?_ ?_ ?_
  · exact indexed_writtenDeployment twin.healthy.indexed target deployed synced
  · exact indexed_writtenDeployment twin.healthy'.indexed target deployed' synced'
  · exact twin_writtenDeployment twin target h.copies h.builders same unlike
  · exact not_blurs_writtenDeployment twin.database target same' unlike'

/-! Deleting a project -/

theorem not_blurs_without (tables : Tables) (projectId : String) :
    ¬tables.Blurs (tables.without projectId) := by
  rintro (⟨id, place, blurred⟩ | ⟨id, blurred⟩)
  · rw [Tables.document?, Tables.document?, Tables.copy?_without] at blurred
    split at blurred
    · obtain ⟨_, _, -, found, -⟩ := blurred
      cases found
    · exact Json.not_blurred_self _ blurred
  · rw [Tables.metadata?, Tables.metadata?, Tables.entryOf?_without] at blurred
    split at blurred
    · obtain ⟨_, _, -, found, -⟩ := blurred
      cases found
    · exact Json.not_blurred_self _ blurred

theorem perform_noteDeletion_of_none {world : World} (h : world.store.Ready)
    (inside : world.store.backing = .database → world.store.depth ≠ 0) {projectId : String}
    (actor : Json) (none : (world.store.tables.entryOf? projectId).isNone) :
    (noteDeletion projectId actor).perform world = (.error .projectUnknown, world) := by
  rw [noteDeletion, Action.perform_bind_of_error]
  rw [Store.perform_delete h inside, if_pos none]

theorem perform_noteDeletion_of_some {world : World} (h : world.store.Ready)
    (inside : world.store.backing = .database → world.store.depth ≠ 0) {projectId : String}
    {actor : Json} (storable : Storable actor)
    (some : ¬(world.store.tables.entryOf? projectId).isNone) :
    ∃ after, (noteDeletion projectId actor).perform world = (.ok (), after) ∧
      after.store.tables = world.store.tables.without projectId := by
  obtain ⟨queued, noted⟩ := @Store.perform_note
    (withTables (world.store.tables.without projectId) world)
    { action := .delete, projectId, actor } storable
  have deleted : (Store.delete projectId).perform world =
      (.ok (), withTables (world.store.tables.without projectId) world) := by
    rw [Store.perform_delete h inside, if_neg some]
  rw [noteDeletion, Action.perform_bind_of_ok deleted]
  exact ⟨_, noted, rfl⟩

theorem agrees_deleteProject [Machine] (projectId : String) {actor : Json}
    (storable : Storable actor) :
    Agrees exact Eq (deleteProject projectId actor) (deleteProject projectId actor) := by
  intro m d twin
  have within := frame_noteDeletion projectId actor
  have keeps := keeps_noteDeletion projectId actor
  have paired : Store.Paired (noteDeletion projectId actor) (noteDeletion projectId actor) :=
    ⟨within, within, keeps, keeps⟩
  have working := twin.healthy.working.withDepth (m.store.depth + 1)
  have working' := twin.healthy'.working.withDepth (d.store.depth + 1)
  have inside {world : World} : world.store.depth + 1 ≠ 0 := Nat.succ_ne_zero _
  have same := Store.isNone_eq_of_rel (twin.tables.entryOf? projectId)
  by_cases none : (m.store.tables.entryOf? projectId).isNone
  · exact Store.agreesAt_of_error paired twin
      (perform_noteDeletion_of_none working.toReady (fun _ => inside) actor none)
      (perform_noteDeletion_of_none working'.toReady (fun _ => inside) actor (same ▸ none))
  · obtain ⟨mid, performed, tables⟩ :=
      perform_noteDeletion_of_some working.toReady (fun _ => inside) storable none
    obtain ⟨mid', performed', tables'⟩ :=
      perform_noteDeletion_of_some working'.toReady (fun _ => inside) storable (same ▸ none)
    refine Store.agreesAt_of_ok paired twin performed performed' rfl tables tables' ?_ ?_ ?_ ?_
    · exact Store.indexed_without twin.healthy.indexed projectId
    · exact Store.indexed_without twin.healthy'.indexed projectId
    · exact (twin.tables.without projectId).imp And.left
    · exact not_blurs_without _ _

end Sitewright.Operation
