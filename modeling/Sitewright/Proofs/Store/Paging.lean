import Mathlib.Data.Prod.Lex
import Mathlib.Data.String.Basic
import Mathlib.Logic.Relation
import Sitewright.Proofs.Listing.Cursor
import Sitewright.Proofs.Store.Outcome

namespace Sitewright

open Sitewright.Action (Within)

namespace Action

variable {α β : Type}

@[simp] theorem throw_bind (error : Error) (next : α → Action β) :
    (throw error >>= next) = throw error := rfl

@[simp] theorem refuseIf_bind (condition : Prop) [Decidable condition] (error : Error)
    (next : Unit → Action β) :
    (refuseIf condition error >>= next) = if condition then throw error else next () := by
  simp only [refuseIf]
  split <;> rfl

theorem ofExcept_map (f : α → β) (result : Except Error α) :
    ofExcept (f <$> result) = f <$> ofExcept result := by
  cases result <;> rfl

end Action

namespace Store

def placeOf : Option String → Except Error (Option Cursor)
  | none | some "" => .ok none
  | some text => some <$> Cursor.ofText text

theorem placeOf_of_ne {text : String} (there : text ≠ "") :
    placeOf (some text) = some <$> Cursor.ofText text := by
  unfold placeOf
  split
  · contradiction
  · next empty => exact absurd (Option.some.inj empty) there
  · next same => rw [Option.some.inj same]

theorem auditPage_eq (filter : AuditFilter) (cursor : Option String) (limit : Int) :
    auditPage filter cursor limit = do
      Action.refuseIf (limit ≤ 0) .limitNotPositive
      let place ← Action.ofExcept (placeOf cursor)
      access
      Action.refuseIf (maxRowCount ≤ limit) .numberTooLarge
      let world ← get
      return (AuditPage.ofRows (world.store.tables.audit.filter filter.holds) place
        limit.toNat).response cursor := by
  unfold auditPage
  simp only [Action.refuseIf_bind, Action.throw_bind]
  split
  · rfl
  · split
    · rfl
    · rfl
    · next text there => rw [placeOf_of_ne there, Action.ofExcept_map]

theorem within_auditPage {relation : World → World → Prop} [IsPreorder World relation]
    (h : Within relation access) (filter : AuditFilter) (cursor : Option String) (limit : Int) :
    Within relation (auditPage filter cursor limit) := by
  rw [auditPage_eq]
  exact (Action.within_refuseIf _ _).bind fun _ => (Action.within_ofExcept _).bind fun _ =>
    h.bind fun _ => (Action.within_refuseIf _ _).bind fun _ =>
      Action.within_get.bind fun _ => Action.within_pure _

theorem unchanged_auditPage (filter : AuditFilter) (cursor : Option String) (limit : Int) :
    Within Unchanged (auditPage filter cursor limit) :=
  within_auditPage unchanged_access filter cursor limit

theorem frame_auditPage (filter : AuditFilter) (cursor : Option String) (limit : Int) :
    Within World.Frame (auditPage filter cursor limit) :=
  within_auditPage frame_access filter cursor limit

/-! The order of rows -/

theorem isEarlier_iff {a b : Time.Instant × String} :
    isEarlier a b = true ↔ toLex a < toLex b := by
  simp [isEarlier, Prod.Lex.toLex_lt_toLex]

theorem isEarlier_trans {a b c : Time.Instant × String} (h : isEarlier a b) (k : isEarlier b c) :
    isEarlier a c :=
  isEarlier_iff.mpr ((isEarlier_iff.mp h).trans (isEarlier_iff.mp k))

theorem not_isEarlier_self (a : Time.Instant × String) : ¬isEarlier a a :=
  fun h => lt_irrefl _ (isEarlier_iff.mp h)

theorem isEarlier_of_ne {a b : Time.Instant × String} (h : ¬isEarlier a b) (k : a ≠ b) :
    isEarlier b a := by
  rw [isEarlier_iff, not_lt] at h
  exact isEarlier_iff.mpr (lt_of_le_of_ne h fun same => k (toLex.injective same).symm)

theorem id_of_place {a b : AuditRow} (same : a.place = b.place) : a.id = b.id := by
  simp only [AuditRow.place, Prod.mk.injEq] at same
  exact same.2

def Descending (rows : List AuditRow) : Prop :=
  rows.Pairwise fun a b => isEarlier b.place a.place

def newestFirst (rows : List AuditRow) : List AuditRow :=
  rows.mergeSort fun a b => !isEarlier a.place b.place

theorem descending_newestFirst {rows : List AuditRow} (distinct : (rows.map AuditRow.id).Nodup) :
    Descending (newestFirst rows) := by
  have sorted : (newestFirst rows).Pairwise fun a b => (!isEarlier a.place b.place) = true := by
    refine List.pairwise_mergeSort ?_ ?_ rows
    · simp only [Bool.not_eq_true', ← Bool.not_eq_true, isEarlier_iff, not_lt]
      exact fun a b c h k => k.trans h
    · intro a b
      simp only [Bool.or_eq_true, Bool.not_eq_true', ← Bool.not_eq_true, isEarlier_iff, not_lt]
      exact le_total _ _
  have same : (newestFirst rows).Perm rows := List.mergeSort_perm rows _
  have distinct := List.pairwise_map.mp ((same.map AuditRow.id).nodup_iff.mpr distinct)
  refine (sorted.and distinct).imp fun both => ?_
  exact isEarlier_of_ne (by simpa using both.1) fun same => both.2 (id_of_place same)

/-! One page -/

def isWanted (cursor : Option Cursor) (row : AuditRow) : Bool :=
  cursor.all fun c => isEarlier row.place (Cursor.place c)

def cursorOf (row : AuditRow) : Cursor := ⟨row.createdAt, row.id⟩

/-- What a page shows and what it leaves to the pages after it. Together they are the rows that are
wanted. -/
structure Shows (rows : List AuditRow) (cursor : Option Cursor) (page : AuditPage) : Prop where
  descending : Descending page.rows
  wanted : ∀ row ∈ page.rows, row ∈ rows ∧ isWanted cursor row
  complete : ∀ row ∈ rows, isWanted cursor row →
    row ∈ page.rows ∨ ∃ next, page.next = some next ∧ isWanted (some next) row
  last : ∀ next, page.next = some next → ∃ row ∈ page.rows, next = cursorOf row ∧
    ∀ other ∈ page.rows, other = row ∨ isEarlier row.place other.place

section

variable {rows : List AuditRow} {cursor : Option Cursor} {limit : Nat}

theorem exists_last_of_take (positive : 0 < limit) (more : limit < rows.length) :
    ∃ before last, rows.take limit = before ++ [last] := by
  have some : rows.take limit ≠ [] := by
    rw [Ne, List.take_eq_nil_iff]
    rintro (none | rfl)
    · omega
    · exact Nat.not_lt_zero _ more
  exact ⟨_, _, (List.dropLast_append_getLast some).symm⟩

theorem shows_of_descending (descending : Descending rows) (positive : 0 < limit)
    {all : List AuditRow} (members : ∀ row, row ∈ rows ↔ row ∈ all ∧ isWanted cursor row) :
    Shows all cursor {
      rows := rows.take limit
      next := if limit < rows.length then (rows.take limit).getLast?.map cursorOf else none } where
  descending := descending.sublist (List.take_sublist _ _)
  wanted := fun row shown => (members row).mp (List.mem_of_mem_take shown)
  complete := by
    intro row there wanted
    have sorted := (members row).mpr ⟨there, wanted⟩
    rw [← List.take_append_drop limit rows] at sorted descending
    obtain shown | later := List.mem_append.mp sorted
    · exact .inl shown
    · have more : limit < rows.length := by
        by_contra few
        rw [List.drop_eq_nil_of_le (Nat.le_of_not_lt few)] at later
        exact List.not_mem_nil later
      obtain ⟨before, last, taken⟩ := exists_last_of_take positive more
      refine .inr ⟨cursorOf last, ?_, ?_⟩
      · simp [more, taken]
      · exact (List.pairwise_append.mp descending).2.2 last (by simp [taken]) row later
  last := by
    intro next found
    have more : limit < rows.length := by
      by_contra few
      simp [few] at found
    obtain ⟨before, last, taken⟩ := exists_last_of_take positive more
    have shown := descending.sublist (List.take_sublist limit rows)
    rw [taken] at shown
    refine ⟨last, by simp [taken], ?_, fun other there => ?_⟩
    · simpa [more, taken, eq_comm] using found
    · simp only [taken, List.mem_append, List.mem_singleton] at there
      obtain before | rfl := there
      · exact .inr ((List.pairwise_append.mp shown).2.2 other before last (by simp))
      · exact .inl rfl

theorem shows_ofRows (distinct : (rows.map AuditRow.id).Nodup) (positive : 0 < limit) :
    Shows rows cursor (.ofRows rows cursor limit) := by
  have sublist : (rows.filter (isWanted cursor)).Sublist rows := List.filter_sublist
  have descending := descending_newestFirst (distinct.sublist (sublist.map AuditRow.id))
  exact shows_of_descending descending positive fun row => by
    rw [newestFirst, List.mem_mergeSort, List.mem_filter]

end

end Store

end Sitewright
