import Sitewright.Document.Identifier

/-!
The identifiers of an enhanced project put in order against those of the project before. On each
page a node that carries a known identifier with its known type keeps it; of the others, a node
whose identifier is empty or in use gets a fresh one.
-/

namespace Sitewright.Repair

/-- Each identifier with its type, the first one found counting. -/
def knownTypes (prior : Project) : Fields String := prior.nodes.map fun node => (node.id, node.type)

def isKnown (known : Fields String) (seen : List String) (node : Node) : Bool :=
  node.id ≠ "" && !seen.contains node.id && known.get? node.id == some node.type

/-- For each node of a page whether it keeps a known identifier: the first one that carries it. -/
def claims (known : Fields String) : List String → List Node → List Bool
  | _, [] => []
  | seen, node :: rest =>
    if isKnown known seen node then true :: claims known (node.id :: seen) rest
    else false :: claims known seen rest

def claimedIds (nodes : List Node) (claimed : List Bool) : List String :=
  (nodes.zip claimed).filterMap fun p => if p.2 then some p.1.id else none

def assign (known : Fields String) (millis : Int) :
    List String → Random → List (Node × Bool) → List String × Random
  | _, random, [] => ([], random)
  | seen, random, (node, claimed) :: rest =>
    if claimed then
      let (ids, random) := assign known millis seen random rest
      (node.id :: ids, random)
    else if node.id = "" || seen.contains node.id then
      let taken id := seen.contains id || known.contains id
      let (id, random) := Identifier.freshOutside taken node.type millis random
      let (ids, random) := assign known millis (id :: seen) random rest
      (id :: ids, random)
    else
      let (ids, random) := assign known millis (node.id :: seen) random rest
      (node.id :: ids, random)

mutual

/-- The node with new identifiers, taken in walk order, and those left over. -/
def relabel : Node → List String → Node × List String
  | ⟨id, type, props, styles, metadata, children⟩, ids =>
    let (children, rest) := relabelList children (ids.drop 1)
    (⟨ids.headD id, type, props, styles, metadata, children⟩, rest)

def relabelList : List Node → List String → List Node × List String
  | [], ids => ([], ids)
  | node :: nodes, ids =>
    let (node, ids) := relabel node ids
    let (nodes, ids) := relabelList nodes ids
    (node :: nodes, ids)

end

def page (known : Fields String) (millis : Int) (page : Page) (random : Random) : Page × Random :=
  let claimed := claims known [] page.nodes
  let seen := claimedIds page.nodes claimed
  let (ids, random) := assign known millis seen random (page.nodes.zip claimed)
  ({ page with tree := (relabelList page.tree ids).1 }, random)

def pages (known : Fields String) (millis : Int) : List Page → Random → List Page × Random
  | [], random => ([], random)
  | first :: rest, random =>
    let (first, random) := page known millis first random
    let (rest, random) := pages known millis rest random
    (first :: rest, random)

end Repair

def Project.repairIds (prior enhanced : Project) (millis : Int) (random : Random) :
    Project × Random :=
  let (pages, random) := Repair.pages (Repair.knownTypes prior) millis enhanced.pages random
  ({ enhanced with pages }, random)

variable [Machine]

def Project.repair (prior enhanced : Project) (millis : Int) :
    Except Error (Random → Project × Random) := do
  let copy ← enhanced.copied
  return prior.repairIds copy millis

theorem Project.repair_eq_ok {prior enhanced : Project} {millis : Int}
    {next : Random → Project × Random} : prior.repair enhanced millis = .ok next ↔
      enhanced.Copyable ∧ next = prior.repairIds enhanced millis := by
  rw [repair, bind_eq_ok]
  constructor
  · rintro ⟨copy, copied, same⟩
    obtain ⟨copyable, rfl⟩ := copied_eq_ok.mp copied
    exact ⟨copyable, (Except.ok.inj same).symm⟩
  · rintro ⟨copyable, rfl⟩
    exact ⟨enhanced, copied_eq_ok.mpr ⟨copyable, rfl⟩, rfl⟩

theorem Project.repair_eq_error {prior enhanced : Project} {millis : Int} {error : Error} :
    prior.repair enhanced millis = .error error ↔
      ¬enhanced.Copyable ∧ error = .valueNested := by
  rw [repair, bind_eq_error, copied_eq_error]
  constructor
  · rintro (deep | ⟨_, -, ⟨⟩⟩)
    exact deep
  · exact .inl

end Sitewright
