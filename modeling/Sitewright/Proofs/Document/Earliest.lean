import Mathlib.Data.List.Basic
import Mathlib.Order.Defs.PartialOrder
import Sitewright.Error

/-!
Checks that stop at the first fault. Each fault has a moment, and moments are ordered; a check that
reports the faults of a document is an error exactly when there are any, and then the error is the
fault whose moment comes before all others.
-/

namespace Sitewright

variable {α Moment : Type}

def Earliest [LT Moment] (faults : Moment → Error → Prop) (error : Error) : Prop :=
  ∃ moment, faults moment error ∧
    ∀ other found, faults other found → moment < other ∨ (moment = other ∧ error = found)

def Reports [LT Moment] (faults : Moment → Error → Prop) : Except Error α → Prop
  | .ok _ => ∀ moment error, ¬ faults moment error
  | .error error => Earliest faults error

namespace Reports

variable [LT Moment] {faults : Moment → Error → Prop}

theorem congr {same : Moment → Error → Prop} {result : Except Error α}
    (h : Reports faults result) (iff : ∀ moment error, faults moment error ↔ same moment error) :
    Reports same result := by
  have : faults = same := funext₂ fun moment error => propext (iff moment error)
  exact this ▸ h

theorem ok_iff {result : Except Error α} (h : Reports faults result) :
    (∃ found, result = .ok found) ↔ ∀ moment error, ¬ faults moment error := by
  cases result with
  | ok found => exact ⟨fun _ => h, fun _ => ⟨found, rfl⟩⟩
  | error error =>
    obtain ⟨moment, fault, -⟩ := h
    constructor
    · rintro ⟨_, ⟨⟩⟩
    · intro none
      exact absurd fault (none moment error)

theorem fails_iff {result : Except Error α} (h : Reports faults result) :
    (∃ error, result = .error error) ↔ ∃ moment error, faults moment error := by
  cases result with
  | ok found =>
    constructor
    · rintro ⟨_, ⟨⟩⟩
    · rintro ⟨moment, error, fault⟩
      exact absurd fault (h moment error)
  | error error =>
    obtain ⟨moment, fault, -⟩ := h
    exact ⟨fun _ => ⟨moment, error, fault⟩, fun _ => ⟨error, rfl⟩⟩

theorem error_iff {result : Except Error α} {error : Error} (h : Reports faults result)
    (asymm : ∀ a b : Moment, a < b → ¬ b < a) :
    result = .error error ↔ Earliest faults error := by
  cases result with
  | ok found =>
    constructor
    · rintro ⟨⟩
    · rintro ⟨moment, fault, -⟩
      exact absurd fault (h moment error)
  | error reported =>
    obtain ⟨first, fault, least⟩ := h
    constructor
    · rintro ⟨⟩
      exact ⟨first, fault, least⟩
    · rintro ⟨moment, other, before⟩
      rcases least moment error other with earlier | ⟨-, rfl⟩
      · rcases before first reported fault with later | ⟨-, rfl⟩
        · exact absurd later (asymm _ _ earlier)
        · rfl
      · rfl

/-! One law for each way a check is put together -/

theorem map {β : Type} {result : Except Error α} (h : Reports faults result) (f : α → β) :
    Reports faults (result.map f) := by
  cases result with
  | ok found => exact h
  | error error => exact h

/-- Faults that are all before the others are looked for first. -/
theorem bind {β : Type} {others : Moment → Error → Prop} {first : Except Error α}
    {next : α → Except Error β} (h : Reports faults first)
    (k : ∀ a, first = .ok a → Reports others (next a))
    (before : ∀ a e b e', faults a e → others b e' → a < b) :
    Reports (fun m e => faults m e ∨ others m e) (first >>= next) := by
  cases first with
  | ok a =>
    apply (k a rfl).congr
    intro moment error
    exact (or_iff_right (h moment error)).symm
  | error error =>
    obtain ⟨moment, fault, least⟩ := h
    refine ⟨moment, .inl fault, ?_⟩
    rintro other found (same | later)
    · exact least other found same
    · exact .inl (before _ _ _ _ fault later)

theorem ite {rest : Except Error α} (h : Reports faults rest) (broken : Prop) [Decidable broken]
    (moment : Moment) (error : Error) (before : ∀ a e, faults a e → moment < a) :
    Reports (fun m e => (broken ∧ m = moment ∧ e = error) ∨ faults m e)
      (if broken then .error error else rest) := by
  split
  · next broken =>
    refine ⟨moment, .inl ⟨broken, rfl, rfl⟩, ?_⟩
    rintro other found (⟨-, rfl, rfl⟩ | later)
    · exact .inr ⟨rfl, rfl⟩
    · exact .inl (before other found later)
  · next sound =>
    apply h.congr
    intro m e
    exact (or_iff_right fun fault => sound fault.1).symm

theorem moved {Other : Type} [LT Other] {result : Except Error α} (h : Reports faults result)
    (move : Moment → Other) (ordered : ∀ a b, a < b → move a < move b) :
    Reports (fun m e => ∃ a, m = move a ∧ faults a e) result := by
  cases result with
  | ok found =>
    rintro _ error ⟨a, rfl, fault⟩
    exact h a error fault
  | error error =>
    obtain ⟨moment, fault, least⟩ := h
    refine ⟨move moment, ⟨moment, rfl, fault⟩, ?_⟩
    rintro _ found ⟨other, rfl, there⟩
    rcases least other found there with later | ⟨rfl, rfl⟩
    · exact .inl (ordered _ _ later)
    · exact .inr ⟨rfl, rfl⟩

end Reports

/-! Items that are checked in turn, each with the names of those before it -/

variable {item : Type}

theorem ordered_zipIdx (items : List item) : items.zipIdx.Pairwise fun a b => a.2 < b.2 := by
  rw [List.pairwise_iff_getElem]
  intro i j _ _ first
  rwa [List.getElem_zipIdx, List.getElem_zipIdx, Nat.zero_add, Nat.zero_add]

def checkEach (check : List String → item → Except Error (List String)) (name : item → String) :
    List String → List item → Except Error (List String)
  | _, [] => .ok []
  | seen, first :: rest => do
    let found ← check seen first
    let more ← checkEach check name (name first :: seen) rest
    return found ++ more

section

variable {check : List String → item → Except Error (List String)} {name : item → String}

theorem checkEach_map {other : Type} (f : other → item) (seen : List String) (items : List other) :
    checkEach check name seen (items.map f) =
      checkEach (fun seen a => check seen (f a)) (fun a => name (f a)) seen items := by
  induction items generalizing seen with
  | nil => rfl
  | cons first rest ih => simp only [List.map_cons, checkEach, ih]

variable {faults : Prop → item → Moment → Error → Prop}

/-- The faults of every item, given whether its name is one of those before it. -/
def FaultOfEach (faults : Prop → item → Moment → Error → Prop) (name : item → String)
    (seen : List String) (items : List item) (moment : Moment) (error : Error) : Prop :=
  ∃ before current after, items = before ++ current :: after ∧
    faults (name current ∈ (before.map name).reverse ++ seen) current moment error

theorem faultOfEach_cons {seen : List String} {first : item} {rest : List item} {moment : Moment}
    {error : Error} :
    FaultOfEach faults name seen (first :: rest) moment error ↔
      faults (name first ∈ seen) first moment error ∨
        FaultOfEach faults name (name first :: seen) rest moment error := by
  constructor
  · rintro ⟨before, current, after, split, fault⟩
    cases before with
    | nil =>
      cases split
      exact .inl fault
    | cons _ before =>
      cases split
      refine .inr ⟨before, current, after, rfl, ?_⟩
      rwa [List.map_cons, List.reverse_cons, List.append_assoc] at fault
  · rintro (fault | ⟨before, current, after, rfl, fault⟩)
    · exact ⟨[], first, rest, rfl, fault⟩
    · refine ⟨first :: before, current, after, rfl, ?_⟩
      rwa [List.map_cons, List.reverse_cons, List.append_assoc]

theorem Reports.each [LT Moment]
    (one : ∀ seen a, Reports (faults (name a ∈ seen) a) (check seen a)) {items : List item}
    (ordered : items.Pairwise fun a b =>
      ∀ used m e used' m' e', faults used a m e → faults used' b m' e' → m < m')
    (seen : List String) :
    Reports (FaultOfEach faults name seen items) (checkEach check name seen items) := by
  induction items generalizing seen with
  | nil =>
    rintro moment error ⟨before, current, after, split, -⟩
    exact List.append_ne_nil_of_right_ne_nil before (List.cons_ne_nil _ _) split.symm
  | cons first rest ih =>
    rw [List.pairwise_cons] at ordered
    apply Reports.congr _ fun moment error => faultOfEach_cons.symm
    apply (one seen first).bind fun found _ => (ih ordered.2 _).map (found ++ ·)
    rintro m e m' e' fault ⟨before, current, after, rfl, later⟩
    exact ordered.1 current (by simp) _ _ _ _ _ _ fault later

section

variable {Key : Type} [Preorder Key] {key : item → Key}

theorem mem_before {before after : List item} {current other : item}
    (ordered : (before ++ current :: after).Pairwise fun a b => key a < key b) :
    other ∈ before ↔ other ∈ before ++ current :: after ∧ key other < key current := by
  rw [List.pairwise_append, List.pairwise_cons] at ordered
  obtain ⟨-, ⟨fromCurrent, -⟩, toOthers⟩ := ordered
  constructor
  · intro there
    exact ⟨List.mem_append_left _ there, toOthers other there current List.mem_cons_self⟩
  · rintro ⟨there, first⟩
    rcases List.mem_append.mp there with there | there
    · exact there
    · rcases List.mem_cons.mp there with rfl | there
      · exact absurd first (lt_irrefl _)
      · exact absurd first (lt_asymm (fromCurrent other there))

theorem faultOfEach_iff (key : item → Key) {items : List item} {moment : Moment} {error : Error}
    (ordered : items.Pairwise fun a b => key a < key b) {used : Key → String → Prop}
    (used_iff : ∀ k s, used k s ↔ ∃ other ∈ items, key other < k ∧ name other = s) :
    FaultOfEach faults name [] items moment error ↔
      ∃ current ∈ items, faults (used (key current) (name current)) current moment error := by
  have before_iff : ∀ {before current after}, items = before ++ current :: after →
      (name current ∈ (before.map name).reverse ++ []) = used (key current) (name current) := by
    rintro before current after rfl
    simp only [used_iff, List.append_nil, List.mem_reverse, List.mem_map, mem_before ordered,
      and_assoc]
  constructor
  · rintro ⟨before, current, after, split, fault⟩
    refine ⟨current, split ▸ by simp, ?_⟩
    rwa [← before_iff split]
  · rintro ⟨current, there, fault⟩
    obtain ⟨before, after, split⟩ := List.append_of_mem there
    refine ⟨before, current, after, split, ?_⟩
    rwa [before_iff split]

end

theorem checkEach_eq_ok (plain : item → Except Error (List String)) {seen warnings : List String}
    {items : List item} (agree : ∀ seen a found, check seen a = .ok found → plain a = .ok found)
    (h : checkEach check name seen items = .ok warnings) :
    ∃ found, items.mapM plain = .ok found ∧ warnings = found.flatten := by
  induction items generalizing seen warnings with
  | nil =>
    cases h
    exact ⟨[], rfl, rfl⟩
  | cons first rest ih =>
    obtain ⟨found, checked, h⟩ := bind_eq_ok.mp h
    obtain ⟨more, others, h⟩ := bind_eq_ok.mp h
    cases h
    obtain ⟨later, all, rfl⟩ := ih others
    refine ⟨found :: later, ?_, rfl⟩
    rw [List.mapM_cons, agree seen first found checked, all]
    rfl

end

end Sitewright
