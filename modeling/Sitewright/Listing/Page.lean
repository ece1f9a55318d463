import Sitewright.Json.Number
import Sitewright.Json.Mapping

/-!
Lists shown a page at a time. Pages are counted from one, and no page is longer than a hundred.
-/

namespace Sitewright.Listing

def maxPageSize : Int := 100

def defaultPageSize : Int := 20

def positive (args : Fields Json) (name : String) (fallback : Json) : Except Error Int := do
  match ← ((args.get? name).getD fallback).toInteger with
  | none => .error (.notInteger name)
  | some n => if n ≤ 0 then .error (.notPositive name) else return n

def pageArgs (args : Fields Json) (fallback : Json) : Except Error (Int × Int) := do
  let page ← positive args "page" (.int 1)
  let size ← positive args "per_page" fallback
  return (page, min size maxPageSize)

def limitArg (args : Fields Json) (fallback : Json) : Except Error Int := do
  return min (← positive args "limit" fallback) maxPageSize

/-- A place in a list of the given length; a negative one counts from the end. -/
def position (length : Nat) (i : Int) : Nat :=
  if i < 0 then (i + length).toNat else min i.toNat length

def pageItems {α : Type} (items : List α) (page size : Int) : List α :=
  let first := position items.length ((page - 1) * size)
  let last := position items.length ((page - 1) * size + size)
  (items.drop first).take (last - first)

def pageCount (total size : Int) : Int := Int.fdiv (total + size - 1) size

def pageCountOf (total size : Json) : Except Error Json := do
  let size ← size.toNumber
  let last ← (← (← total.toNumber).add size).add (.int (-1))
  return (← last.floorDiv size).toJson

/-- For integers it is the number of pages that are filled or begun. -/
theorem pageCountOf_int (total size : Int) (h : size ≠ 0) :
    pageCountOf (.int total) (.int size) = .ok (.int (pageCount total size)) := by
  simp [pageCountOf, pageCount, Json.toNumber, Json.Number.add, Json.Number.floorDiv,
    Json.Number.combine, Json.Number.isZero, Json.Number.toJson, h, bind, Except.bind, pure,
    Except.pure, Int.sub_eq_add_neg]

def pageInfo (page size : Json) (total : Json) : Except Error (Fields Json) := do
  let info := [("page", page), ("per_page", size)]
  if total = .null then return info
  return info ++ [("total", total), ("total_pages", ← pageCountOf total size)]

def response (name : String) (rows : List Json) (info : Option (Fields Json)) : Fields Json :=
  match info with
  | none => [(name, .arr rows)]
  | some info => Fields.put [(name, .arr rows)] "pagination" (.obj info)

/-- The row of a catalogue entry, which leaves the history of deployments out. -/
def entryRow (entry : Fields Json) : Except Error Json := do
  let metadata ← ((entry.value "metadata").orElse (.obj [])).toMapping
  match entry.get? "id" with
  | none => .error .entryWithoutId
  | some id =>
    return .obj [("id", id), ("name", (entry.get? "name").getD (.str "")),
      ("metadata", .obj (metadata.erase "deploymentHistory"))]

def rowOf : Json → Except Error Json
  | .obj entry => entryRow entry
  | _ => .error .notObjectItem

def entriesResponse (name : String) (entries cursor page size total : Json) :
    Except Error (Fields Json) := do
  let some items := entries.elements? | throw .notMapping
  let rows ← items.mapM rowOf
  let info ←
    if cursor ≠ .null then some <$> cursor.toMapping
    else if page = .null || size = .null then pure none
    else some <$> pageInfo page size total
  return response name rows info

end Sitewright.Listing
