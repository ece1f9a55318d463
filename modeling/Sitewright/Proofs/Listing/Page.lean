import Mathlib.Algebra.Order.Floor.Div
import Sitewright.Listing.Page
import Sitewright.Store.Tables

namespace Sitewright.Listing

/-! What can be asked for -/

theorem pos_of_positive {args : Fields Json} {name : String} {fallback : Json} {n : Int}
    (h : positive args name fallback = .ok n) : 0 < n := by
  obtain ⟨n?, -, h⟩ := bind_eq_ok.mp h
  split at h
  · cases h
  · split at h
    · cases h
    · cases h
      omega

theorem bounds_of_pageArgs {args : Fields Json} {fallback : Json} {page size : Int}
    (h : pageArgs args fallback = .ok (page, size)) :
    1 ≤ page ∧ 1 ≤ size ∧ size ≤ maxPageSize := by
  obtain ⟨_, first, h⟩ := bind_eq_ok.mp h
  obtain ⟨asked, found, h⟩ := bind_eq_ok.mp h
  cases h
  exact ⟨pos_of_positive first, le_min (pos_of_positive found) (by decide), min_le_right _ _⟩

theorem positive_of_int {args : Fields Json} {name : String} {n : Int}
    (given : args.get? name = some (.int n)) (h : 1 ≤ n) (fallback : Json) :
    positive args name fallback = .ok n := by
  have some : ¬n ≤ 0 := by omega
  simp only [positive, given, Option.getD_some, Json.toInteger, ok_bind, if_neg some]
  rfl

/-- Every page can be asked for, with every size up to the greatest one. -/
theorem exists_pageArgs_iff {fallback : Json} {page size : Int} :
    (∃ args, pageArgs args fallback = .ok (page, size)) ↔
      1 ≤ page ∧ 1 ≤ size ∧ size ≤ maxPageSize := by
  constructor
  · rintro ⟨args, asked⟩
    exact bounds_of_pageArgs asked
  · rintro ⟨first, positive, small⟩
    refine ⟨[("page", .int page), ("per_page", .int size)], ?_⟩
    rw [pageArgs, positive_of_int rfl first, ok_bind, positive_of_int rfl positive, ok_bind,
      min_eq_left small]
    rfl

/-! The rows of a catalogue -/

/-- What is shown of an entry: all but the history of its deployments. -/
def rowOfEntry (entry : Store.Entry) : Json :=
  .obj [("id", .str entry.id), ("name", .str entry.name),
    ("metadata", .obj (entry.metadata.erase "deploymentHistory"))]

theorem entryRow_toFields (entry : Store.Entry) :
    entryRow entry.toFields = .ok (rowOfEntry entry) := by
  have metadata : ((entry.toFields.value "metadata").orElse (.obj [])).toMapping =
      .ok entry.metadata := by
    have same : entry.toFields.value "metadata" = .obj entry.metadata := rfl
    rw [same, Json.orElse]
    split
    · rfl
    · next none =>
      have empty : entry.metadata = [] := by simpa [Json.isTruthy] using none
      rw [empty]
      rfl
  rw [entryRow, metadata]
  rfl

/-! The items of a page -/

variable {α : Type}

theorem position_natCast (length n : Nat) : position length n = min n length := by
  rw [position, if_neg (Int.not_lt.mpr (Int.natCast_nonneg n)), Int.toNat_natCast, min_comm]

theorem pageItems_succ (items : List α) (k size : Nat) :
    pageItems items (k + 1) size = (items.drop (k * size)).take size := by
  have first : ((k : Int) + 1 - 1) * size = (k * size : Nat) := by
    rw [Int.add_sub_cancel, Nat.cast_mul]
  rw [pageItems, first, ← Nat.cast_add, position_natCast, position_natCast]
  by_cases within : k * size ≤ items.length
  · rw [min_eq_left within, List.take_eq_take_iff, List.length_drop]
    omega
  · have none : items.length ≤ k * size := by omega
    rw [min_eq_right none, List.drop_length, List.drop_eq_nil_of_le none, List.take_nil,
      List.take_nil]

theorem pageCount_natCast (total : Nat) {size : Nat} (h : 0 < size) :
    pageCount total size = ((total ⌈/⌉ size : Nat) : Int) := by
  have sum : (total : Int) + size - 1 = (total + size - 1 : Nat) := by omega
  rw [pageCount, sum, Nat.ceilDiv_eq_add_pred_div, Int.fdiv_eq_ediv_of_nonneg _ (by omega)]
  rfl

/-- Pages of a size, of which only the last one may be shorter. -/
structure Paged (items : List α) (size : Int) (pages : List (List α)) : Prop where
  whole : pages.flatten = items
  full : ∀ page ∈ pages.dropLast, (page.length : Int) = size
  last : ∀ page ∈ pages.getLast?, 1 ≤ page.length ∧ (page.length : Int) ≤ size

theorem flatten_pages (items : List α) (size count : Nat) :
    ((List.range count).map fun k : Nat => pageItems items (k + 1) size).flatten =
      items.take (count * size) := by
  induction count with
  | zero => simp
  | succ count ih =>
    rw [List.range_succ, List.map_append, List.flatten_append, ih, Nat.succ_mul, List.take_add,
      List.map_singleton, List.flatten_singleton, pageItems_succ]

theorem lt_pageCount_iff {total size : Nat} (h : 0 < size) (k : Nat) :
    k < total ⌈/⌉ size ↔ k * size < total := by
  rw [← not_le, ceilDiv_le_iff_le_mul h, not_le, Nat.mul_comm]

theorem paged_pageItems (items : List α) {size : Nat} (h : 0 < size) :
    Paged items size ((List.range (items.length ⌈/⌉ size)).map fun k : Nat =>
      pageItems items (k + 1) size) := by
  refine ⟨?_, fun page there => ?_, fun page there => ?_⟩
  · rw [flatten_pages]
    refine List.take_of_length_le ?_
    rw [Nat.mul_comm]
    exact le_smul_ceilDiv h
  · rw [← List.map_dropLast, List.mem_map] at there
    obtain ⟨k, early, rfl⟩ := there
    have early : k + 1 < items.length ⌈/⌉ size := by
      rw [List.dropLast_eq_take, List.take_range, List.length_range, List.mem_range] at early
      omega
    rw [lt_pageCount_iff h, Nat.succ_mul] at early
    rw [pageItems_succ, List.length_take, List.length_drop, min_eq_left (by omega)]
  · rw [List.getLast?_map, Option.mem_map] at there
    obtain ⟨k, latest, rfl⟩ := there
    have latest := List.mem_range.mp (List.mem_of_getLast? latest)
    rw [lt_pageCount_iff h] at latest
    rw [pageItems_succ, List.length_take, List.length_drop]
    omega

theorem paged_of_pageInfo (items : List α) {size : Int} (h : 1 ≤ size) :
    ∃ count : Nat,
      (∀ page : Json, pageInfo page (.int size) (.int items.length) =
        .ok [("page", page), ("per_page", .int size), ("total", .int items.length),
          ("total_pages", .int count)]) ∧
      Paged items size ((List.range count).map fun k : Nat => pageItems items (k + 1) size) ∧
      ∀ page : Int, count < page → pageItems items page size = [] := by
  lift size to Nat using by omega
  have positive : 0 < size := by omega
  refine ⟨items.length ⌈/⌉ size, fun page => ?_, paged_pageItems items positive,
    fun page late => ?_⟩
  · rw [pageInfo, pageCountOf_int _ _ (by omega), pageCount_natCast _ positive]
    rfl
  · obtain ⟨k, rfl⟩ : ∃ k : Nat, page = k + 1 := ⟨(page - 1).toNat, by omega⟩
    have late : ¬k < items.length ⌈/⌉ size := by omega
    rw [lt_pageCount_iff positive, not_lt] at late
    rw [pageItems_succ, List.drop_eq_nil_of_le late, List.take_nil]

theorem flatten_pages_of_le {items : List α} {size : Int} {count last : Nat}
    (paged : Paged items size ((List.range count).map fun k : Nat => pageItems items (k + 1) size))
    (none : ∀ page : Int, count < page → pageItems items page size = []) (h : count ≤ last) :
    ((List.range last).map fun k : Nat => pageItems items (k + 1) size).flatten = items := by
  induction last, h using Nat.le_induction with
  | base => exact paged.whole
  | succ last h ih =>
    rw [List.range_succ, List.map_append, List.flatten_append, ih, List.map_singleton,
      List.flatten_singleton, none _ (by omega), List.append_nil]

end Sitewright.Listing
