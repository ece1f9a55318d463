import Sitewright.Proofs.Operation.Outcome
import Sitewright.Proofs.Store.Isolation

/-!
Programs that call a store directly, with their calls arranged in transactions inside each other. A
transaction that ends well leaves what its calls leave without any transactions, and one that does
not leaves nothing.
-/

namespace Sitewright.Store

open Sitewright.Action (Coupled Within)
open Operation (SameBacking)

/-- A call of a store, or what a program does between such calls: it lets time go by, and it fails of
itself. -/
inductive Instruction
  | save (projectId environment : String) (project : Project)
  | putEntry (project : Project)
  | delete (projectId : String)
  | load (projectId environment : String)
  | contains (projectId environment : String)
  | writtenAt (projectId environment : String)
  | catalogue
  | wait (clock : Time.Instant)
  | fail (error : Error)

inductive Answer
  | done
  | project (project : Project)
  | truth (holds : Bool)
  | time (written? : Option Time.DateTime)
  | entries (entries : List Entry)

def Instruction.perform [Machine] : Instruction → Action Answer
  | .save projectId environment project =>
    (fun _ => .done) <$> Store.save projectId environment project
  | .putEntry project => (fun _ => .done) <$> Store.putEntry project
  | .delete projectId => (fun _ => .done) <$> Store.delete projectId
  | .load projectId environment => .project <$> Store.load projectId environment
  | .contains projectId environment => .truth <$> Store.contains projectId environment
  | .writtenAt projectId environment => .time <$> Store.writtenAt projectId environment
  | .catalogue => .entries <$> Store.catalogue
  | .wait clock => (fun _ => .done) <$> modify fun world : World => { world with clock }
  | .fail error => throw error

inductive Program
  | instruction (call : Instruction)
  | block (programs : List Program)
  | attempt (programs : List Program)

namespace Program

mutual

/-- The answers to the instructions in order, with a failure for what an attempt has caught. -/
def perform [Machine] : Program → Action (List (Except Error Answer))
  | .instruction call => (fun answer => [.ok answer]) <$> call.perform
  | .block programs => transaction (performAll programs)
  | .attempt programs => tryCatch (performAll programs) fun error => pure [.error error]

def performAll [Machine] : List Program → Action (List (Except Error Answer))
  | [] => pure []
  | program :: rest => do
    let answers ← perform program
    return answers ++ (← performAll rest)

end

mutual

def instructions : Program → List Instruction
  | .instruction call => [call]
  | .block programs => instructionsOf programs
  | .attempt programs => instructionsOf programs

def instructionsOf : List Program → List Instruction
  | [] => []
  | program :: rest => instructions program ++ instructionsOf rest

end

end Program

variable {α β : Type}

/-! Actions at two depths -/

structure Elevated (ground depth : Nat) (a b : World) : Prop where
  settled : a.store.Settled
  ground : a.store.depth = ground
  eq : b = withDepth depth a

def DepthFree (action : Action α) : Prop :=
  ∀ ground depth, Coupled (Elevated ground depth) (Elevated ground depth) Eq action action

theorem DepthFree.bind {first : Action α} {second : α → Action β} (h : DepthFree first)
    (k : ∀ a, DepthFree (second a)) : DepthFree (first >>= second) :=
  fun ground depth => (h ground depth).bind_eq fun a => k a ground depth

/-- What is done with a world is done with it whatever its depth, when the depth is not looked at. -/
theorem depthFree_get_bind {second : World → Action α}
    (same : ∀ depth world, second (withDepth depth world) = second world)
    (h : ∀ world, DepthFree (second world)) : DepthFree (get >>= second) := by
  refine fun ground depth => Action.coupled_get.bind fun a b elevated => ?_
  rw [elevated.eq, same]
  exact h a ground depth

theorem depthFree_pure (a : α) : DepthFree (pure a : Action α) :=
  fun _ _ => Action.coupled_pure rfl

theorem depthFree_throw (error : Error) : DepthFree (throw error : Action α) :=
  fun _ _ => Action.coupled_throw error

theorem depthFree_ofExcept (result : Except Error α) : DepthFree (Action.ofExcept result) :=
  fun _ _ _ _ elevated => ⟨by cases result <;> constructor; rfl, elevated⟩

theorem depthFree_ite {condition : Prop} [Decidable condition] {first second : Action α}
    (h : DepthFree first) (k : DepthFree second) :
    DepthFree (if condition then first else second) := by
  split
  · exact h
  · exact k

theorem depthFree_refuseIf (condition : Prop) [Decidable condition] (error : Error) :
    DepthFree (Action.refuseIf condition error) :=
  depthFree_ite (depthFree_throw error) (depthFree_pure ())

theorem DepthFree.map {action : Action α} (h : DepthFree action) (f : α → β) :
    DepthFree (f <$> action) :=
  fun ground depth => (h ground depth).map fun _ _ same => congrArg f same

theorem depthFree_spend : DepthFree spend := by
  rintro ground depth a _ ⟨settled, stands, rfl⟩
  have same : (withDepth depth a).store.fault = a.store.fault := rfl
  rw [perform_spend, perform_spend, same]
  split
  · exact ⟨.ok rfl, settled, stands, rfl⟩
  · exact ⟨.error _, ⟨settled.guarded, settled.queued⟩, stands, rfl⟩
  · exact ⟨.ok rfl, ⟨settled.guarded, settled.queued⟩, stands, rfl⟩

/-- No note waits in a settled store, so that none is written. -/
theorem depthFree_access : DepthFree access := by
  refine fun ground depth => Action.coupled_get.bind fun a b elevated => ?_
  rw [elevated.eq]
  refine Action.coupled_ite Iff.rfl (fun database => ?_) fun _ => Action.coupled_pure rfl
  have empty : a.store.queued = [] := elevated.settled.queued database
  have empty' : (withDepth depth a).store.queued = [] := empty
  rw [empty, empty']
  exact (depthFree_refuseIf _ _).bind (fun _ => depthFree_pure ()) ground depth

theorem depthFree_readTables : DepthFree readTables :=
  depthFree_access.bind fun _ => depthFree_get_bind (fun _ _ => rfl) fun _ => depthFree_pure _

theorem depthFree_writeTables (tables : Tables) : DepthFree (writeTables tables) := by
  refine depthFree_spend.bind fun _ ground depth => Action.coupled_modify ?_
  rintro a _ ⟨settled, stands, rfl⟩
  exact ⟨⟨settled.guarded, settled.queued⟩, stands, rfl⟩

theorem depthFree_copy? (projectId environment : String) :
    DepthFree (copy? projectId environment) :=
  depthFree_readTables.bind fun _ => depthFree_pure _

theorem depthFree_load [Machine] (projectId environment : String) :
    DepthFree (load projectId environment) := by
  refine DepthFree.bind ?_ fun document? => ?_
  · exact (depthFree_copy? _ _).bind fun _ =>
      depthFree_get_bind (fun _ _ => rfl) fun _ => depthFree_pure _
  · cases document? with
    | none => exact depthFree_throw _
    | some document => exact depthFree_get_bind (fun _ _ => rfl) fun _ => depthFree_ofExcept _

theorem depthFree_catalogue : DepthFree catalogue :=
  depthFree_readTables.bind fun _ =>
    depthFree_get_bind (fun _ _ => rfl) fun _ => depthFree_pure _

theorem depthFree_wait (clock : Time.Instant) :
    DepthFree (modify fun world : World => { world with clock }) := by
  refine fun ground depth => Action.coupled_modify ?_
  rintro a _ ⟨settled, stands, rfl⟩
  exact ⟨settled, stands, rfl⟩

theorem DepthFree.perform_withDepth {action : Action α} (h : DepthFree action) {world : World}
    (settled : world.store.Settled) (depth : Nat) :
    action.perform (withDepth depth world) =
        ((action.perform world).1, withDepth depth (action.perform world).2) ∧
      (action.perform world).2.store.Settled ∧
      (action.perform world).2.store.depth = world.store.depth := by
  obtain ⟨answers, settled, stands, same⟩ :=
    h world.store.depth depth world (withDepth depth world) ⟨settled, rfl, rfl⟩
  exact ⟨Prod.ext answers.eq.symm same, settled, stands⟩

/-! Actions inside and outside of a transaction -/

/-- Outside of any transaction the second action leaves a settled store settled when it succeeds.
Within one the first action succeeds just when the second one does outside: its answer is the image
of that of the second one, and both leave the same world, each at its depth. -/
structure Levels (inner : Action α) (outer : Action β) (f : β → α) : Prop where
  rests : ∀ world, world.store.Settled → ∀ answer last, outer.perform world = (.ok answer, last) →
    last.store.Settled ∧ last.store.depth = world.store.depth
  iff : ∀ world, world.store.Settled → ∀ depth ≠ 0, ∀ answer after,
    inner.perform (withDepth depth world) = (.ok (f answer), after) ↔
      ∃ last, outer.perform world = (.ok answer, last) ∧ after = withDepth depth last

variable {world after : World}

theorem DepthFree.levels {action : Action α} (h : DepthFree action) : Levels action action id where
  rests world settled answer last performed := by
    have rests := (h.perform_withDepth settled 0).2
    rwa [performed] at rests
  iff world settled depth _ answer after := by
    rw [(h.perform_withDepth settled depth).1]
    rcases action.perform world with ⟨result, last⟩
    simp only [id, Prod.mk.injEq]
    constructor
    · rintro ⟨rfl, rfl⟩
      exact ⟨last, ⟨rfl, rfl⟩, rfl⟩
    · rintro ⟨_, ⟨rfl, rfl⟩, rfl⟩
      exact ⟨rfl, rfl⟩

theorem perform_commit_of_idle (idle : world.store.Idle) :
    commit.perform world = (.ok (), world) := by
  rw [commit, Action.perform_get_bind, if_neg]
  · rfl
  · exact fun waiting => waiting.2.2 (idle waiting.1)

theorem perform_transaction_eq_ok {block : Action α} {a : α} :
    (transaction block).perform world = (.ok a, after) ↔
      ∃ mid, block.perform (withDepth (world.store.depth + 1) world) = (.ok a, mid) ∧
        commit.perform (withDepth world.store.depth mid) = (.ok (), after) := by
  rw [perform_transaction]
  rcases block.perform (withDepth (world.store.depth + 1) world) with ⟨_ | b, mid⟩
  · simp
  · rcases ended : commit.perform (withDepth world.store.depth mid) with ⟨_ | _, last⟩ <;>
      simp [ended]

section

variable {block : Action α} {flat : Action β} {f : β → α}

theorem Levels.perform_transaction (h : Levels block flat f) (settled : world.store.Settled)
    (depth : Nat) {answer : β} :
    (transaction block).perform (withDepth depth world) = (.ok (f answer), after) ↔
      ∃ last, flat.perform world = (.ok answer, last) ∧ after = withDepth depth last := by
  have inner := h.iff world settled (depth + 1) (Nat.succ_ne_zero depth) answer
  have ends (last : World) (performed : flat.perform world = (.ok answer, last)) :
      commit.perform (withDepth depth last) = (.ok (), withDepth depth last) :=
    perform_commit_of_idle (h.rests world settled answer last performed).1.queued
  rw [perform_transaction_eq_ok]
  constructor
  · rintro ⟨mid, within, ended⟩
    obtain ⟨last, performed, rfl⟩ := (inner mid).mp within
    cases (ends last performed).symm.trans ended
    exact ⟨last, performed, rfl⟩
  · rintro ⟨last, performed, rfl⟩
    exact ⟨withDepth (depth + 1) last, (inner _).mpr ⟨last, performed, rfl⟩,
      ends last performed⟩

theorem Levels.perform_outermost (h : Levels block flat f) (settled : world.store.Settled)
    {answer : β} :
    (transaction block).perform world = (.ok (f answer), after) ↔
      flat.perform world = (.ok answer, after) := by
  have at_depth : (transaction block).perform world = (.ok (f answer), after) ↔ _ :=
    h.perform_transaction settled world.store.depth
  have back {last : World} (performed : flat.perform world = (.ok answer, last)) :
      withDepth world.store.depth last = last := by
    rw [← (h.rests world settled answer last performed).2]
    rfl
  rw [at_depth]
  constructor
  · rintro ⟨last, performed, rfl⟩
    rwa [back performed]
  · intro performed
    exact ⟨after, performed, (back performed).symm⟩

theorem Levels.transaction (h : Levels block flat f) : Levels (transaction block) flat f where
  rests := h.rests
  iff _ settled depth _ _ _ := h.perform_transaction settled depth

end

/-- A change that stands alone is a transaction of its own in a database, and one within a
transaction is not. -/
theorem DepthFree.perform_change {block : Action α} (h : DepthFree block)
    (settled : world.store.Settled) {answer : α} :
    (change block).perform world = (.ok answer, after) ↔
      block.perform world = (.ok answer, after) := by
  by_cases database : world.store.backing = .database
  · rw [change, Action.perform_get_bind, if_pos ⟨database, settled.depth database⟩]
    exact h.levels.perform_outermost settled
  · rw [Store.perform_change fun there => absurd there database]

theorem DepthFree.levels_change {block : Action α} (h : DepthFree block) :
    Levels (change block) (change block) id where
  rests world settled answer last performed :=
    h.levels.rests world settled answer last ((h.perform_change settled).mp performed)
  iff world settled depth inside answer after := by
    have within : (withDepth depth world).store.backing = .database →
        (withDepth depth world).store.depth ≠ 0 := fun _ => inside
    simp only [Store.perform_change within, h.perform_change settled]
    exact h.levels.iff world settled depth inside answer after

theorem Levels.map {action : Action α} (h : Levels action action id) (f : α → β) :
    Levels (f <$> action) (f <$> action) id where
  rests world settled answer last performed := by
    obtain ⟨value, performed, -⟩ := Action.perform_map_eq_ok.mp performed
    exact h.rests world settled value last performed
  iff world settled depth inside answer after := by
    have same := fun value => h.iff world settled depth inside value after
    simp only [id] at same
    simp only [id, Action.perform_map_eq_ok, same]
    constructor
    · rintro ⟨value, ⟨last, performed, rfl⟩, answered⟩
      exact ⟨last, ⟨value, performed, answered⟩, rfl⟩
    · rintro ⟨last, ⟨value, performed, answered⟩, rfl⟩
      exact ⟨value, ⟨last, performed, rfl⟩, answered⟩

theorem levels_get_bind {second : World → Action α}
    (same : ∀ depth world, second (withDepth depth world) = second world)
    (h : ∀ world, Levels (second world) (second world) id) :
    Levels (get >>= second) (get >>= second) id where
  rests world := (h world).rests world
  iff world settled depth inside answer after := by
    rw [Action.perform_get_bind, same]
    exact (h world).iff world settled depth inside answer after

theorem levels_refuseIf_bind (condition : Prop) [Decidable condition] (error : Error)
    {action : Action α} (h : Levels action action id) :
    Levels (Action.refuseIf condition error >>= fun _ => action)
      (Action.refuseIf condition error >>= fun _ => action) id := by
  by_cases refused : condition
  · rw [Action.refuseIf, if_pos refused]
    exact (depthFree_throw error).levels
  · rw [Action.refuseIf, if_neg refused]
    exact h

theorem levels_save (projectId environment : String) (project : Project) :
    Levels (save projectId environment project) (save projectId environment project) id :=
  levels_get_bind (fun _ _ => rfl) fun _ => levels_refuseIf_bind _ _ <| DepthFree.levels_change <|
    depthFree_readTables.bind fun _ => depthFree_get_bind (fun _ _ => rfl) fun _ =>
      (depthFree_writeTables _).bind fun _ =>
        depthFree_ite (depthFree_writeTables _) (depthFree_pure ())

theorem levels_putEntry (project : Project) : Levels (putEntry project) (putEntry project) id :=
  DepthFree.levels_change <| depthFree_readTables.bind fun _ =>
    depthFree_get_bind (fun _ _ => rfl) fun _ => depthFree_writeTables _

theorem levels_delete (projectId : String) : Levels (delete projectId) (delete projectId) id :=
  DepthFree.levels_change <| depthFree_readTables.bind fun _ =>
    (depthFree_refuseIf _ _).bind fun _ => depthFree_writeTables _

theorem Instruction.levels [Machine] (call : Instruction) : Levels call.perform call.perform id :=
  by
  cases call with
  | save => exact (levels_save _ _ _).map _
  | putEntry => exact (levels_putEntry _).map _
  | delete => exact (levels_delete _).map _
  | load => exact ((depthFree_load _ _).map _).levels
  | contains => exact (((depthFree_copy? _ _).bind fun _ => depthFree_pure _).map _).levels
  | writtenAt => exact (((depthFree_copy? _ _).bind fun _ => depthFree_pure _).map _).levels
  | catalogue => exact (depthFree_catalogue.map _).levels
  | wait => exact ((depthFree_wait _).map _).levels
  | fail => exact (depthFree_throw _).levels

/-! Programs without their transactions -/

namespace Program

def unfailing (answers : List Answer) : List (Except Error Answer) := answers.map .ok

theorem append_eq_unfailing {first second : List (Except Error Answer)} {answers : List Answer} :
    first ++ second = unfailing answers ↔
      ∃ a b, answers = a ++ b ∧ first = unfailing a ∧ second = unfailing b := by
  rw [unfailing, eq_comm, List.map_eq_append_iff]
  simp only [unfailing, eq_comm]

theorem error_ne_unfailing (error : Error) (answers : List Answer) :
    [.error error] ≠ unfailing answers := by
  rcases answers with _ | ⟨_, _⟩ <;> simp [unfailing]

theorem perform_tryCatch (action : Action α) (handle : Error → Action α) (world : World) :
    Action.perform (tryCatch action handle) world =
      match action.perform world with
      | (.ok a, after) => (.ok a, after)
      | (.error error, after) => (handle error).perform after := by
  simp only [Action.perform, ExceptT.run_tryCatch, StateT.run_bind]
  rcases action.run.run world with ⟨_ | a, after⟩ <;> rfl

theorem levels_attempt {programs : Action (List (Except Error Answer))}
    {flat : Action (List Answer)} (h : Levels programs flat unfailing) :
    Levels (tryCatch programs fun error => pure [.error error]) flat unfailing where
  rests := h.rests
  iff world settled depth inside answers after := by
    rw [← h.iff world settled depth inside answers after, perform_tryCatch]
    rcases programs.perform (withDepth depth world) with ⟨error | _, mid⟩
    · simp [error_ne_unfailing]
    · rfl

theorem levels_nil [Machine] : Levels (pure []) (([] : List Instruction).mapM Instruction.perform)
    unfailing where
  rests := by
    rintro world settled _ _ ⟨⟩
    exact ⟨settled, rfl⟩
  iff world settled depth _ answers after := by
    rw [List.mapM_nil, Action.perform_pure, Action.perform_pure]
    simp only [unfailing, Prod.mk.injEq, Except.ok.injEq, List.nil_eq, List.map_eq_nil_iff]
    constructor
    · rintro ⟨rfl, rfl⟩
      exact ⟨world, ⟨rfl, rfl⟩, rfl⟩
    · rintro ⟨_, ⟨rfl, rfl⟩, rfl⟩
      exact ⟨rfl, rfl⟩

theorem levels_instruction [Machine] (call : Instruction) :
    Levels ((fun answer => [.ok answer]) <$> call.perform) ([call].mapM Instruction.perform)
      unfailing := by
  have flat : [call].mapM Instruction.perform = (fun answer => [answer]) <$> call.perform := by
    simp
  rw [flat]
  constructor
  · intro world settled answers last performed
    obtain ⟨answer, performed, -⟩ := Action.perform_map_eq_ok.mp performed
    exact call.levels.rests world settled answer last performed
  · intro world settled depth inside answers after
    have level := fun answer => call.levels.iff world settled depth inside answer after
    simp only [id] at level
    simp only [Action.perform_map_eq_ok, level]
    constructor
    · rintro ⟨answer, ⟨last, performed, rfl⟩, same⟩
      have single : [answer] = answers := by
        rcases answers with _ | ⟨_, _ | _⟩ <;> simp_all [unfailing]
      exact ⟨last, ⟨answer, performed, single⟩, rfl⟩
    · rintro ⟨last, ⟨answer, performed, rfl⟩, rfl⟩
      exact ⟨answer, ⟨last, performed, rfl⟩, rfl⟩

theorem levels_append [Machine] {first rest : Action (List (Except Error Answer))}
    {calls others : List Instruction} (h : Levels first (calls.mapM Instruction.perform) unfailing)
    (k : Levels rest (others.mapM Instruction.perform) unfailing) :
    Levels (do return (← first) ++ (← rest)) ((calls ++ others).mapM Instruction.perform)
      unfailing := by
  rw [List.mapM_append]
  constructor
  · intro world settled answers last performed
    obtain ⟨as, mid, early, following⟩ := Action.perform_bind_eq_ok.mp performed
    obtain ⟨bs, _, late, ⟨⟩⟩ := Action.perform_bind_eq_ok.mp following
    obtain ⟨settled', stands⟩ := h.rests world settled as mid early
    obtain ⟨settled'', stands'⟩ := k.rests mid settled' bs last late
    exact ⟨settled'', stands'.trans stands⟩
  · intro world settled depth inside answers after
    simp only [Action.perform_bind_eq_ok, Action.perform_pure, Prod.mk.injEq, Except.ok.injEq]
    constructor
    · rintro ⟨_, _, within, _, _, within', same, rfl⟩
      obtain ⟨as, bs, rfl, rfl, rfl⟩ := append_eq_unfailing.mp same
      obtain ⟨mid, early, rfl⟩ := (h.iff world settled depth inside as _).mp within
      have settled' := (h.rests world settled as mid early).1
      obtain ⟨last, late, rfl⟩ := (k.iff mid settled' depth inside bs _).mp within'
      exact ⟨last, ⟨as, mid, early, bs, last, late, rfl, rfl⟩, rfl⟩
    · rintro ⟨last, ⟨as, mid, early, bs, _, late, rfl, rfl⟩, rfl⟩
      have settled' := (h.rests world settled as mid early).1
      exact ⟨unfailing as, withDepth depth mid,
        (h.iff world settled depth inside as _).mpr ⟨mid, early, rfl⟩, unfailing bs, _,
        (k.iff mid settled' depth inside bs _).mpr ⟨_, late, rfl⟩,
        append_eq_unfailing.mpr ⟨as, bs, rfl, rfl, rfl⟩, rfl⟩

mutual

theorem levels_perform [Machine] (program : Program) :
    Levels program.perform (program.instructions.mapM Instruction.perform) unfailing := by
  cases program with
  | instruction call => exact levels_instruction call
  | block programs => exact (levels_performAll programs).transaction
  | attempt programs => exact levels_attempt (levels_performAll programs)

theorem levels_performAll [Machine] (programs : List Program) :
    Levels (performAll programs) ((instructionsOf programs).mapM Instruction.perform)
      unfailing := by
  cases programs with
  | nil => exact levels_nil
  | cons program rest => exact levels_append (levels_perform program) (levels_performAll rest)

end

/-! Programs in an outermost transaction -/

theorem sameBacking_instruction [Machine] (call : Instruction) : Within SameBacking call.perform :=
  by
  have reads (projectId environment : String) :
      Within SameBacking (Store.copy? projectId environment) :=
    Operation.sameBacking_of_frame (frame_readTables.bind fun _ => Action.within_pure _)
  cases call with
  | save => exact (Operation.sameBacking_of_frame (frame_save _ _ _)).map _
  | putEntry => exact (Operation.sameBacking_of_frame (frame_putEntry _)).map _
  | delete => exact (Operation.sameBacking_of_frame (frame_delete _)).map _
  | load => exact (Operation.sameBacking_load _ _).map _
  | contains projectId environment =>
    exact ((reads projectId environment).bind fun _ => Action.within_pure _).map _
  | writtenAt projectId environment =>
    exact ((reads projectId environment).bind fun _ => Action.within_pure _).map _
  | catalogue =>
    refine Within.map (Operation.sameBacking_of_frame ?_) _
    exact frame_readTables.bind fun _ => Action.within_get.bind fun _ => Action.within_pure _
  | wait =>
    have waiting (clock : Time.Instant) :
        Within SameBacking (modify fun world : World => { world with clock }) := fun _ => rfl
    exact (waiting _).map _
  | fail => exact Action.within_throw _

mutual

theorem sameBacking_perform [Machine] (program : Program) : Within SameBacking program.perform := by
  cases program with
  | instruction call => exact (sameBacking_instruction call).map _
  | block programs =>
    exact fun world => (backing_depth_transaction (sameBacking_performAll programs) world).1
  | attempt programs =>
    intro world
    have same := sameBacking_performAll programs world
    rw [perform, perform_tryCatch]
    rcases performed : (performAll programs).perform world with ⟨_ | _, after⟩ <;>
      rwa [performed] at same

theorem sameBacking_performAll [Machine] (programs : List Program) :
    Within SameBacking (performAll programs) := by
  cases programs with
  | nil => exact Action.within_pure _
  | cons program rest =>
    exact (sameBacking_perform program).bind fun _ =>
      (sameBacking_performAll rest).bind fun _ => Action.within_pure _

end

/-- A project is saved, deleted and saved again, the last two in transactions of their own. -/
def reopening : List Program :=
  let project : Project := { id := "p1", name := "Home" }
  [.instruction (.save "p1" "builder" project),
    .block [.instruction (.delete "p1"), .block [.instruction (.save "p1" "staging" project)]],
    .instruction (.contains "p1" "builder")]

end Program

end Sitewright.Store
