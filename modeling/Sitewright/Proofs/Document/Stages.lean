import Mathlib.Data.List.Lex
import Sitewright.Document.Shape
import Sitewright.Proofs.Document.Earliest

/-!
Readings that go on stage by stage. The moment of a fault is the number of the stage that finds it,
followed by the moment within that stage; what is wrong with one field has the empty moment there,
and what is wrong with an item of a list has the index of the item. So the moments of all that is
read are ordered as it is read.
-/

namespace Sitewright

variable {α β : Type}

def FaultsFrom (stage : Nat) (faults : List Nat → Error → Prop) (moment : List Nat)
    (error : Error) : Prop :=
  ∃ here rest, moment = here :: rest ∧ stage ≤ here ∧ faults moment error

namespace Reports

theorem single {result : Except Error α} {broken : Error → Prop}
    (iff : ∀ error, result = .error error ↔ broken error) :
    Reports (fun moment error => moment = ([] : List Nat) ∧ broken error) result := by
  cases result with
  | ok found =>
    rintro _ error ⟨rfl, fault⟩
    cases (iff error).mpr fault
  | error error =>
    refine ⟨[], ⟨rfl, (iff error).mp rfl⟩, ?_⟩
    rintro _ other ⟨rfl, fault⟩
    cases (iff other).mpr fault
    exact .inr ⟨rfl, rfl⟩

variable {faults here : List Nat → Error → Prop} {stage : Nat}

theorem andThen {first : Except Error α} {next : α → Except Error β} (h : Reports here first)
    (same : ∀ moment error, faults (stage :: moment) error ↔ here moment error)
    (k : ∀ a, first = .ok a → Reports (FaultsFrom (stage + 1) faults) (next a)) :
    Reports (FaultsFrom stage faults) (first >>= next) := by
  have ordered (a b : List Nat) (lt : a < b) : stage :: a < stage :: b :=
    List.cons_lt_cons_iff.mpr (.inr ⟨rfl, lt⟩)
  apply ((h.moved (stage :: ·) ordered).bind k ?_).congr
  · intro moment error
    constructor
    · rintro (⟨rest, rfl, fault⟩ | ⟨later, rest, rfl, le, fault⟩)
      · exact ⟨stage, rest, rfl, Nat.le_refl stage, (same rest error).mpr fault⟩
      · exact ⟨later, rest, rfl, Nat.le_of_succ_le le, fault⟩
    · rintro ⟨found, rest, rfl, le, fault⟩
      rcases Nat.eq_or_lt_of_le le with rfl | lt
      · exact .inl ⟨rest, rfl, (same rest error).mp fault⟩
      · exact .inr ⟨found, rest, rfl, lt, fault⟩
  · rintro _ _ _ _ ⟨rest, rfl, -⟩ ⟨later, other, rfl, le, -⟩
    exact List.cons_lt_cons_iff.mpr (.inl le)

theorem oneThen {first : Except Error α} {next : α → Except Error β} {broken : Error → Prop}
    (iff : ∀ error, first = .error error ↔ broken error)
    (fault : ∀ error, broken error → faults [stage] error)
    (only : ∀ moment error, faults (stage :: moment) error → moment = [] ∧ broken error)
    (k : ∀ a, first = .ok a → Reports (FaultsFrom (stage + 1) faults) (next a)) :
    Reports (FaultsFrom stage faults) (first >>= next) := by
  refine (single iff).andThen (fun moment error => ⟨only moment error, ?_⟩) k
  rintro ⟨rfl, broken⟩
  exact fault error broken

theorem done (found : α)
    (none : ∀ later rest error, stage ≤ later → ¬ faults (later :: rest) error) :
    Reports (FaultsFrom stage faults) (.ok found) := by
  rintro _ error ⟨later, rest, rfl, le, fault⟩
  exact none later rest error le fault

theorem ofStages (first : Nat) {result : Except Error α}
    (h : Reports (FaultsFrom first faults) result)
    (staged : ∀ moment error, faults moment error →
      ∃ here rest, moment = here :: rest ∧ first ≤ here) : Reports faults result := by
  apply h.congr
  intro moment error
  constructor
  · rintro ⟨_, _, -, -, fault⟩
    exact fault
  · intro fault
    obtain ⟨here, rest, same, le⟩ := staged moment error fault
    exact ⟨here, rest, same, le, fault⟩

end Reports

namespace Shape

variable {outer : Nat} {place : Place} {fields : Fields Json} {key : String} {error : Error}

/-! What is wrong with one field -/

def LacksText (fields : Fields Json) (key : String) : Prop :=
  ∀ s, fields.value key = .str s → s = ""

/-- What is there counts, and is no text. -/
def NotText (fields : Fields Json) (key : String) : Prop :=
  (fields.value key).isTruthy ∧ ∀ s, fields.value key ≠ .str s

def NotArray (fields : Fields Json) (key : String) : Prop :=
  fields.value key ≠ .null ∧ ∀ items, fields.value key ≠ .arr items

inductive ObjectFault [Machine] (inside : Nat) (place : Place) (fields : Fields Json)
    (key : String) :
    Error → Prop
  | notObject : fields.value key ≠ .null → (∀ found, fields.value key ≠ .obj found) →
      ObjectFault inside place fields key (.notObject (.field place key))
  | nested {found : Fields Json} : fields.value key = .obj found →
      ¬ Copyable inside found → ObjectFault inside place fields key .valueNested

theorem object_eq_error {data : Json} :
    object place data = .error error ↔ data.asObject? = none ∧ error = .notObject place := by
  cases data <;> simp [object, Json.asObject?, eq_comm]

theorem requiredText_eq_error :
    requiredText place fields key = .error error ↔
      LacksText fields key ∧ error = .missing place key := by
  unfold requiredText LacksText
  split
  · next s found =>
    split
    · next empty => simp [found, empty, eq_comm]
    · next some => simp [found, some]
  · next other =>
    constructor
    · rintro ⟨⟩
      exact ⟨fun s found => (other s found).elim, rfl⟩
    · rintro ⟨-, rfl⟩
      rfl

theorem optionalText_eq_error :
    optionalText place fields key = .error error ↔
      NotText fields key ∧ error = .notText place key := by
  unfold optionalText NotText Json.orElse
  by_cases counts : (fields.value key).isTruthy
  · rw [if_pos counts]
    split
    · next s found => simp [found]
    · next other =>
      constructor
      · rintro ⟨⟩
        exact ⟨⟨counts, other⟩, rfl⟩
      · rintro ⟨-, rfl⟩
        rfl
  · rw [if_neg counts]
    simp [counts]

theorem optionalArray_eq_error :
    optionalArray place fields key = .error error ↔
      NotArray fields key ∧ error = .notArray (.field place key) := by
  unfold optionalArray NotArray
  split
  · next absent => simp [absent]
  · next items found => simp [found]
  · next some other =>
    constructor
    · rintro ⟨⟩
      exact ⟨⟨some, other⟩, rfl⟩
    · rintro ⟨-, rfl⟩
      rfl

theorem copied_eq_error [Machine] {found : Fields Json} :
    copied outer found = .error error ↔ ¬ Copyable outer found ∧ error = .valueNested := by
  unfold copied
  split
  · next copyable => simp [copyable]
  · next deep => simp [deep, eq_comm]

theorem eachCopied_eq_error [Machine] {found : Fields Json} :
    eachCopied outer found = .error error ↔
      ¬ EachCopyable outer found ∧ error = .valueNested := by
  unfold eachCopied
  split
  · next copyable => simp [copyable]
  · next deep => simp [deep, eq_comm]

theorem optionalObject_eq_error [Machine] :
    optionalObject outer place fields key = .error error ↔
      ObjectFault (outer + 1) place fields key error := by
  unfold optionalObject
  constructor
  · intro failed
    split at failed
    · cases failed
    · next found there =>
      obtain ⟨deep, rfl⟩ := copied_eq_error.mp failed
      exact .nested there deep
    · next some other =>
      cases failed
      exact .notObject some other
  · rintro (⟨some, other⟩ | ⟨there, deep⟩)
    · split
      · next absent => exact absurd absent some
      · next found there => exact absurd there (other found)
      · rfl
    · rw [there]
      exact copied_eq_error.mpr ⟨deep, rfl⟩

/-! What is wrong with the items of an array -/

variable {read : Place → Json → Except Error α} {values : List Json}

def ItemFault (faults : Place → Json → List Nat → Error → Prop) (place : Place)
    (values : List Json) (moment : List Nat) (error : Error) : Prop :=
  ∃ index value rest, moment = index :: rest ∧ values[index]? = some value ∧
    faults (.item place index) value rest error

variable {faults : Place → Json → List Nat → Error → Prop}

theorem reports_indexed {pairs : List (Json × Nat)} (ordered : pairs.Pairwise fun a b => a.2 < b.2)
    (h : ∀ p ∈ pairs, Reports (faults (.item place p.2) p.1) (read (.item place p.2) p.1)) :
    Reports (fun moment error => ∃ p ∈ pairs, ∃ rest, moment = p.2 :: rest ∧
        faults (.item place p.2) p.1 rest error)
      (pairs.mapM fun p => read (.item place p.2) p.1) := by
  induction pairs with
  | nil =>
    rintro _ _ ⟨_, ⟨⟩, -⟩
  | cons first others ih =>
    rw [List.pairwise_cons] at ordered
    have rest := ih ordered.2 fun p there => h p (List.mem_cons_of_mem _ there)
    have inside (a b : List Nat) (lt : a < b) : first.2 :: a < first.2 :: b :=
      List.cons_lt_cons_iff.mpr (.inr ⟨rfl, lt⟩)
    rw [List.mapM_cons]
    refine Reports.congr ((((h first List.mem_cons_self).moved (first.2 :: ·) inside).bind
      fun a _ => rest.map (a :: ·)) ?_) fun moment error => ?_
    · rintro _ _ _ _ ⟨_, rfl, -⟩ ⟨p, there, _, rfl, -⟩
      exact List.cons_lt_cons_iff.mpr (.inl (ordered.1 p there))
    · rw [List.exists_mem_cons_iff]

theorem reports_items (h : ∀ index, ∀ value ∈ values,
      Reports (faults (.item place index) value) (read (.item place index) value)) :
    Reports (ItemFault faults place values) (items place read values) := by
  apply (reports_indexed (ordered_zipIdx values) fun p there =>
    h p.2 p.1 (List.fst_mem_of_mem_zipIdx there)).congr
  intro moment error
  constructor
  · rintro ⟨⟨value, index⟩, there, rest, rfl, fault⟩
    exact ⟨index, value, rest, rfl, List.mem_zipIdx_iff_getElem?.mp there, fault⟩
  · rintro ⟨index, value, rest, rfl, found, fault⟩
    exact ⟨⟨value, index⟩, List.mem_zipIdx_iff_getElem?.mpr found, rest, rfl, fault⟩

end Shape

end Sitewright
