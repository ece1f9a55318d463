import Sitewright.Proofs.Store.Program

/-!
Whether every copy is listed and can be deleted, at every moment of programs that call a store
directly. A copy that is saved under an identifier other than that of its project is not, in memory,
when there is no entry of that identifier yet.
-/

namespace Sitewright.Store

open Sitewright.Action (Within)

variable {world : World} {α : Type}

/-! What an instruction leaves behind when no write fails -/

theorem settled_of_not_inside (idle : world.store.Idle) (outside : ¬world.store.Inside) :
    world.store.Settled := by
  obtain ⟨database, depth⟩ := Classical.not_imp.mp outside
  exact ⟨by simp [isGuarded, database, not_not.mp depth], idle⟩

theorem Levels.perform_of_inside {action : Action α} (h : Levels action action id)
    (settled : world.store.Settled) {a : α} {tables : Tables}
    (within : action.perform (withDepth 1 world) = (.ok a, withTables tables (withDepth 1 world))) :
    action.perform world = (.ok a, withTables tables world) := by
  obtain ⟨last, performed, same⟩ := (h.iff world settled 1 Nat.one_ne_zero a _).mp within
  have stands : withDepth world.store.depth last = last := by
    rw [← (h.rests world settled a last performed).2]
    rfl
  have last_eq : last = withTables tables world := by
    rw [← stands]
    exact congrArg (withDepth world.store.depth) same.symm
  rw [performed, last_eq]

theorem perform_save_of_working (h : world.store.Working) (projectId environment : String)
    (project : Project) :
    (save projectId environment project).perform world =
      (.ok (), withTables (saved world projectId environment project) world) := by
  by_cases inside : world.store.Inside
  · exact perform_save h inside _ _ _
  · exact (levels_save _ _ _).perform_of_inside (settled_of_not_inside h.queued inside)
      (perform_save (h.withDepth 1) (fun _ => Nat.one_ne_zero) _ _ _)

theorem perform_putEntry_of_working (h : world.store.Working) (project : Project) :
    (putEntry project).perform world = (.ok (), withTables (entered world project) world) := by
  by_cases inside : world.store.Inside
  · exact perform_putEntry h inside _
  · exact (levels_putEntry _).perform_of_inside (settled_of_not_inside h.queued inside)
      (perform_putEntry (h.withDepth 1) (fun _ => Nat.one_ne_zero) _)

theorem undone_self (queued : world.store.queued = []) : undone world world = world := by
  simp only [undone, ← queued, ite_self]

theorem perform_delete_of_working (h : world.store.Working) (projectId : String) :
    (delete projectId).perform world =
      if (world.store.tables.entryOf? projectId).isNone then (.error .projectUnknown, world)
      else (.ok (), withTables (world.store.tables.without projectId) world) := by
  by_cases inside : world.store.Inside
  · exact perform_delete h.toReady inside _
  obtain ⟨database, depth⟩ := Classical.not_imp.mp inside
  rw [not_not] at depth
  have within := perform_delete (h.toReady.withDepth 1) (fun _ => Nat.one_ne_zero) projectId
  split
  · next unknown =>
    replace within := within.trans (if_pos unknown)
    rw [delete, perform_change fun _ => Nat.one_ne_zero] at within
    rw [delete, change, Action.perform_get_bind, if_pos ⟨database, depth⟩, perform_transaction,
      depth, within]
    have back : withDepth world.store.depth (withDepth 1 world) = world := rfl
    rw [depth] at back
    simp only [back, undone_self (h.queued database)]
  · next known =>
    exact (levels_delete _).perform_of_inside (settled_of_not_inside h.queued inside)
      (within.trans (if_neg known))

/-- Of an action that changes nothing at all while no note waits and the tables are there. -/
def Still (before after : World) : Prop := before.store.Ready → after = before

instance : IsPreorder World Still where
  refl _ _ := rfl
  trans before mid after first second ready := by
    have same := first ready
    rw [second (same ▸ ready), same]

theorem still_readTables : Within Still readTables := by
  intro world ready
  rw [perform_readTables ready.queued fun _ => ready.present]

namespace Instruction

/-- The tables after an instruction that no failing write stops. -/
def tablesAfter (world : World) : Instruction → Tables
  | .save projectId environment project => saved world projectId environment project
  | .putEntry project => entered world project
  | .delete projectId =>
    if (world.store.tables.entryOf? projectId).isNone then world.store.tables
    else world.store.tables.without projectId
  | _ => world.store.tables

def clockAfter (world : World) : Instruction → Time.Instant
  | .wait clock => clock
  | _ => world.clock

/-- Whatever the answer, and whether transactions are open or not. -/
theorem perform_of_working [Machine] (h : world.store.Working) (call : Instruction) :
    (call.perform.perform world).2 =
      { withTables (call.tablesAfter world) world with clock := call.clockAfter world } := by
  have reading {action : Action Answer} (still : Within Still action) :
      (action.perform world).2 = world := still world h.toReady
  cases call with
  | save =>
    rw [perform, Action.perform_map, perform_save_of_working h]
    rfl
  | putEntry =>
    rw [perform, Action.perform_map, perform_putEntry_of_working h]
    rfl
  | delete projectId =>
    rw [perform, Action.perform_map, perform_delete_of_working h, tablesAfter]
    split <;> rfl
  | load => exact reading ((within_load still_readTables _ _).map _)
  | contains =>
    exact reading (((still_readTables.bind fun _ => Action.within_pure _).bind fun _ =>
      Action.within_pure _).map _)
  | writtenAt =>
    exact reading (((still_readTables.bind fun _ => Action.within_pure _).bind fun _ =>
      Action.within_pure _).map _)
  | catalogue =>
    exact reading ((still_readTables.bind fun _ => Action.within_get.bind fun _ =>
      Action.within_pure _).map _)
  | wait => rfl
  | fail => rfl

end Instruction

/-! Moments of a run -/

/-- The run of programs comes from one world to another one with programs still to be performed, those
that are left of the innermost transaction or attempt that is open then. -/
inductive Passes [Machine] : List Program → World → List Program → World → Prop
  | here (programs : List Program) (world : World) : Passes programs world programs world
  | later {program : Program} {answers : List (Except Error Answer)} {rest next : List Program}
    {start mid last : World} : program.perform.perform start = (.ok answers, mid) →
      Passes rest mid next last → Passes (program :: rest) start next last
  | block {programs rest next : List Program} {start last : World} :
    Passes programs (withDepth (start.store.depth + 1) start) next last →
      Passes (.block programs :: rest) start next last
  | attempt {programs rest next : List Program} {start last : World} :
    Passes programs start next last → Passes (.attempt programs :: rest) start next last

theorem Passes.step [Machine] {programs rest : List Program} {program : Program}
    {start last after : World}
    {answers : List (Except Error Answer)} (h : Passes programs start (program :: rest) last)
    (performed : program.perform.perform last = (.ok answers, after)) :
    Passes programs start rest after := by
  generalize next_eq : program :: rest = next at h
  induction h with
  | here =>
    subst next_eq
    exact .later performed (.here _ _)
  | later earlier _ ih => exact .later earlier (ih performed next_eq)
  | block _ ih => exact .block (ih performed next_eq)
  | attempt _ ih => exact .attempt (ih performed next_eq)

/-- What holds of a world whatever transactions are open, and again when one is taken back. -/
structure Lasting (P : World → Prop) : Prop where
  idle : ∀ world, P world → world.store.Idle
  atDepth : ∀ depth world, P world → P (withDepth depth world)
  takenBack : ∀ before after, P before → P after → P (undone before after)

variable {P : World → Prop}

theorem Lasting.of_transaction (h : Lasting P) {block : Action α} (start : P world)
    (held : P (block.perform (withDepth (world.store.depth + 1) world)).2) :
    P ((transaction block).perform world).2 := by
  have ends := ends_transaction block world
  generalize (transaction block).perform world = result at ends
  cases ends with
  | failed performed =>
    rw [performed] at held
    exact h.takenBack _ _ start (h.atDepth _ _ held)
  | unfinished performed ended =>
    rw [performed] at held
    have written := perform_commit_of_idle (h.idle _ (h.atDepth world.store.depth _ held))
    cases written.symm.trans ended
  | finished performed ended =>
    rw [performed] at held
    have written := perform_commit_of_idle (h.idle _ (h.atDepth world.store.depth _ held))
    cases written.symm.trans ended
    exact h.atDepth _ _ held

def KeptBy [Machine] (P : World → Prop) (programs : List Program) (start : World) : Prop :=
  ∀ call rest last, Passes programs start (.instruction call :: rest) last → P last →
    P (call.perform.perform last).2

mutual

theorem Lasting.of_perform [Machine] (h : Lasting P) (program : Program) (rest : List Program)
    {start : World} (held : P start) (kept : KeptBy P (program :: rest) start) :
    P (program.perform.perform start).2 := by
  cases program with
  | instruction call =>
    rw [Program.perform, Action.perform_map]
    exact kept call rest start (.here _ _) held
  | block programs =>
    rw [Program.perform]
    exact h.of_transaction held (h.of_performAll programs (h.atDepth _ _ held)
      fun call more last passes => kept call more last (.block passes))
  | attempt programs =>
    have all := h.of_performAll programs held
      fun call more last passes => kept call more last (.attempt passes)
    rw [Program.perform, Program.perform_tryCatch]
    rcases performed : (Program.performAll programs).perform start with ⟨_ | _, after⟩ <;>
      rwa [performed] at all

theorem Lasting.of_performAll [Machine] (h : Lasting P) (programs : List Program) {start : World}
    (held : P start) (kept : KeptBy P programs start) :
    P ((Program.performAll programs).perform start).2 := by
  cases programs with
  | nil => exact held
  | cons program rest =>
    have first := h.of_perform program rest held kept
    rw [Program.performAll]
    rcases performed : program.perform.perform start with ⟨_ | answers, mid⟩
    · rw [performed] at first
      rwa [Action.perform_bind_of_error performed]
    · rw [performed] at first
      have others := h.of_performAll rest first
        fun call more last passes => kept call more last (.later performed passes)
      rw [Action.perform_bind_of_ok performed, bind_pure_comp, Action.perform_map]
      exact others

end

theorem Lasting.of_passes [Machine] (h : Lasting P) {programs next : List Program}
    {start last : World}
    (passes : Passes programs start next last) (held : P start) (kept : KeptBy P programs start) :
    P last := by
  induction passes with
  | here => exact held
  | @later program _ rest _ start mid _ performed _ ih =>
    have first := h.of_perform program rest held kept
    rw [performed] at first
    exact ih first fun call more last passes => kept call more last (.later performed passes)
  | block _ ih =>
    exact ih (h.atDepth _ _ held)
      fun call more last passes => kept call more last (.block passes)
  | attempt _ ih =>
    exact ih held fun call more last passes => kept call more last (.attempt passes)

/-! What is listed -/

/-- Every copy that is found is listed under the identifier that it is found under, and deleting that
succeeds and leaves no copy of it. -/
def Accounted (world : World) : Prop :=
  ∀ projectId environment, ((contains projectId environment).perform world).1 = .ok true →
    (∃ entries, (catalogue.perform world).1 = .ok entries ∧ projectId ∈ entries.map Entry.id) ∧
    ∃ after, (delete projectId).perform world = (.ok (), after) ∧
      ∀ other, ((contains projectId other).perform after).1 = .ok false

def Tables.AllListed (tables : Tables) : Prop := ∀ id ∈ tables.stored, id ∈ tables.listed

theorem Tables.mem_stored_iff {tables : Tables} {id : String} :
    id ∈ tables.stored ↔ ∃ environment, (tables.copy? id environment).isSome := by
  constructor
  · intro there
    obtain ⟨copy, stored, rfl⟩ := List.mem_map.mp there
    refine ⟨copy.environment, List.find?_isSome.mpr ⟨copy, stored, ?_⟩⟩
    simp [Copy.isOf]
  · rintro ⟨environment, found⟩
    obtain ⟨copy, found⟩ := Option.isSome_iff_exists.mp found
    exact List.mem_map.mpr ⟨copy, mem_of_copy? found, (isOf_of_copy? found).1⟩

theorem perform_contains (h : world.store.Ready) (projectId environment : String) :
    (contains projectId environment).perform world =
      (.ok (world.store.tables.copy? projectId environment).isSome, world) := by
  rw [contains, Action.perform_bind_of_ok (perform_copy? h.queued (fun _ => h.present) _ _),
    Action.perform_pure]

theorem accounted_iff_allListed (h : world.store.Working) :
    Accounted world ↔ world.store.tables.AllListed := by
  obtain ⟨entries, same, found⟩ := perform_catalogue h.queued h.present
  have listed (id : String) : id ∈ entries.map Entry.id ↔ id ∈ world.store.tables.listed :=
    (same.map Entry.id).mem_iff
  constructor
  · intro accounted id stored
    obtain ⟨environment, there⟩ := Tables.mem_stored_iff.mp stored
    have contained : ((contains id environment).perform world).1 = .ok true := by
      rw [perform_contains h.toReady, there]
    obtain ⟨⟨others, found', there⟩, -⟩ := accounted id environment contained
    rw [found] at found'
    cases found'
    exact (listed id).mp there
  · intro all id environment contained
    rw [perform_contains h.toReady, Except.ok.injEq] at contained
    have there := all id (Tables.mem_stored_iff.mpr ⟨environment, contained⟩)
    have known : ¬(world.store.tables.entryOf? id).isNone := by
      simpa [← Option.isSome_iff_ne_none] using Tables.mem_listed.mp there
    refine ⟨⟨entries, by rw [found], (listed id).mpr there⟩, _,
      (perform_delete_of_working h id).trans (if_neg known), fun other => ?_⟩
    rw [perform_contains (h.withTables _).toReady]
    simp [withTables]

theorem mem_listed_saved_iff {projectId environment : String} {project : Project} {id : String} :
    id ∈ (saved world projectId environment project).listed ↔
      id ∈ world.store.tables.listed ∨ projectId ∉ world.store.tables.listed ∧
        id = if world.store.backing = .database then projectId else project.id := by
  have unknown_iff : (world.store.tables.entryOf? projectId).isNone ↔
      projectId ∉ world.store.tables.listed := by
    rw [Tables.mem_listed]
    simp
  simp only [saved, unknown_iff]
  split
  · next unknown =>
    rw [Tables.listed, Tables.withEntry, Tables.mem_map_id_putEntry]
    simp only [unknown, not_false_eq_true, true_and]
    exact or_comm
  · next known =>
    simp only [known, false_and, or_false]
    exact Iff.rfl

theorem mem_listed_saved_self {projectId environment : String} {project : Project} :
    projectId ∈ (saved world projectId environment project).listed ↔
      (world.store.backing ≠ .database →
        projectId = project.id ∨ projectId ∈ world.store.tables.listed) := by
  rw [mem_listed_saved_iff]
  by_cases database : world.store.backing = .database <;>
    by_cases known : projectId ∈ world.store.tables.listed <;> simp [database, known]

theorem allListed_saved {projectId environment : String} {project : Project}
    (h : world.store.tables.AllListed)
    (keyed : projectId ∈ (saved world projectId environment project).listed) :
    (saved world projectId environment project).AllListed := by
  intro id stored
  obtain rfl | old := (mem_stored_saved projectId environment project).mp stored
  · exact keyed
  · exact mem_listed_saved_iff.mpr (.inl (h id old))

theorem allListed_entered (h : world.store.tables.AllListed) (project : Project) :
    (entered world project).AllListed :=
  fun id stored => (mem_listed_entered project).mpr (.inr (h id stored))

theorem Tables.AllListed.without {tables : Tables} (h : tables.AllListed) (projectId : String) :
    (tables.without projectId).AllListed := by
  intro id stored
  obtain ⟨stored, other⟩ := Tables.mem_stored_without.mp stored
  exact Tables.mem_listed_without.mpr ⟨h id stored, other⟩

theorem Instruction.allListed_tablesAfter (call : Instruction)
    (h : world.store.tables.AllListed)
    (keyed : ∀ projectId environment project, call = .save projectId environment project →
      projectId ∈ (saved world projectId environment project).listed) :
    (call.tablesAfter world).AllListed := by
  cases call with
  | save projectId environment project => exact allListed_saved h (keyed _ _ _ rfl)
  | putEntry project => exact allListed_entered h project
  | delete projectId =>
    rw [tablesAfter]
    split
    · exact h
    · exact h.without projectId
  | load | contains | writtenAt | catalogue | wait | fail => exact h

/-! Runs from an empty store -/

def WorkingOf (backing : Backing) (world : World) : Prop :=
  world.store.Working ∧ world.store.backing = backing

theorem lasting_workingOf (backing : Backing) : Lasting (WorkingOf backing) where
  idle world h := h.1.queued
  atDepth depth world h := ⟨h.1.withDepth depth, h.2⟩
  takenBack before after _ h := by
    rw [undone]
    split
    · exact ⟨{ h.1 with queued := fun _ => rfl }, h.2⟩
    · exact h

theorem lasting_allListed (backing : Backing) :
    Lasting fun world => WorkingOf backing world ∧ world.store.tables.AllListed where
  idle world h := h.1.1.queued
  atDepth depth world h := ⟨(lasting_workingOf backing).atDepth depth world h.1, h.2⟩
  takenBack before after h k := by
    refine ⟨(lasting_workingOf backing).takenBack before after h.1 k.1, ?_⟩
    rw [undone]
    split
    · exact h.2
    · exact k.2

theorem WorkingOf.perform [Machine] {backing : Backing} (h : WorkingOf backing world)
    (call : Instruction) :
    WorkingOf backing (call.perform.perform world).2 := by
  rw [call.perform_of_working h.1]
  exact ⟨{ h.1 with }, h.2⟩

/-- At every moment of a run from an empty store every copy is listed and can be deleted, if it is in
a database. It is so in memory just when no project is saved under an identifier that is neither its
own nor listed. -/
theorem accounted_iff_keyed [Machine] (backing : Backing) (clock : Time.Instant) (random : Random)
    (programs : List Program) :
    let start : World := { store := { backing }, clock, random }
    (∀ next world, Passes programs start next world → Accounted world) ↔
      (backing ≠ .database → ∀ projectId environment project rest world,
        Passes programs start (.instruction (.save projectId environment project) :: rest) world →
          projectId = project.id ∨ projectId ∈ world.store.tables.listed) := by
  intro start
  have empty : WorkingOf backing start := ⟨⟨⟨fun _ => rfl, rfl, rfl⟩, rfl⟩, rfl⟩
  have working {next : List Program} {world : World} (passes : Passes programs start next world) :
      WorkingOf backing world :=
    (lasting_workingOf backing).of_passes passes empty fun call _ _ _ h => h.perform call
  constructor
  · intro accounted memory projectId environment project rest world passes
    have h := working passes
    have saving := perform_save_of_working h.1 projectId environment project
    have later : Passes programs start rest
        (withTables (saved world projectId environment project) world) :=
      passes.step (by rw [Program.perform, Action.perform_map, Instruction.perform,
        Action.perform_map, saving]; rfl)
    have all := (accounted_iff_allListed (working later).1).mp (accounted _ _ later)
    have keyed := all projectId ((mem_stored_saved projectId environment project).mpr (.inl rfl))
    exact mem_listed_saved_self.mp keyed (h.2.symm ▸ memory)
  · intro keyed next world passes
    have all : WorkingOf backing world ∧ world.store.tables.AllListed := by
      refine (lasting_allListed backing).of_passes passes ⟨empty, fun _ there => ?_⟩
        fun call rest last passes h => ⟨h.1.perform call, ?_⟩
      · cases there
      · rw [call.perform_of_working h.1.1]
        refine call.allListed_tablesAfter h.2 fun projectId environment project same => ?_
        subst same
        exact mem_listed_saved_self.mpr fun memory =>
          keyed (h.1.2 ▸ memory) projectId environment project rest last passes
    exact (accounted_iff_allListed all.1.1).mpr all.2

theorem accounted_iff_keyed_strange :
    let programs : List Program := [.instruction (.save "a" "builder" { id := "b", name := "" })]
    let start (backing : Backing) : World := { store := { backing }, clock := 0, random := default }
    (¬∀ next world, Passes programs (start .memory) next world → Accounted world) ∧
      ∀ next world, Passes programs (start .database) next world → Accounted world := by
  intro programs start
  refine ⟨fun all => ?_, (accounted_iff_keyed .database 0 default programs).mpr fun other => ?_⟩
  · have keyed := (accounted_iff_keyed .memory 0 default programs).mp all (by decide)
      "a" "builder" { id := "b", name := "" } [] (start .memory) (.here _ _)
    revert keyed
    decide
  · exact absurd rfl other

end Sitewright.Store
