import Sitewright.Proofs.Document.Reading
import Sitewright.Proofs.Json.Legible

/-!
What a project is written as can be read from a text again, if what the project was read from could.
Most values stand as deep in what is written as they stood before; where a node leaves out its
props, its styles or its children, there are levels enough for the empty ones that are written.
-/

namespace Sitewright

open Json (Lasting)

namespace Shape

variable {outer levels : Nat} {place : Place} {fields : Fields Json} {key : String}

theorem lasting_of_optionalObject [Machine] (h : ∀ field ∈ fields, Lasting (levels + 1) field.2)
    {found : Fields Json} (read : optionalObject outer place fields key = .ok found) :
    Lasting (levels + 1) (.obj found) := by
  have value := Lasting.value h key
  unfold optionalObject at read
  split at read
  · cases read
    exact .obj List.nodup_nil (List.forall_mem_nil _)
  · next same =>
    obtain ⟨-, rfl⟩ := copied_eq_ok.mp read
    rwa [same] at value
  · cases read

theorem lasting_of_optionalArray (h : ∀ field ∈ fields, Lasting (levels + 1) field.2)
    {items : List Json} (read : optionalArray place fields key = .ok items) :
    ∀ item ∈ items, Lasting levels item := by
  have value := Lasting.value h key
  unfold optionalArray at read
  split at read
  · cases read
    exact List.forall_mem_nil _
  · next same =>
    cases read
    rw [same] at value
    exact Lasting.arr_iff.mp value
  · cases read

theorem lasting_of_object {data : Json} (h : Lasting levels data)
    (object : Shape.object place data = .ok fields) :
    ∃ l, levels = l + 1 ∧ ∀ field ∈ fields, Lasting l field.2 := by
  cases data with
  | obj found =>
    cases object
    cases h.legible with
    | obj => exact ⟨_, rfl, (Lasting.obj_iff.mp h).2⟩
  | _ => cases object

variable {α : Type} {read : Place → Json → Except Error α} {write : α → Json}

theorem lasting_map {values : List Json} (h : ∀ value ∈ values, Lasting levels value)
    (keeps : ∀ place value x, Lasting levels value → read place value = .ok x →
      Lasting levels (write x))
    {xs : List α} (found : items place read values = .ok xs) :
    Lasting (levels + 1) (.arr (xs.map write)) := by
  refine .arr fun item hItem => ?_
  obtain ⟨x, hx, rfl⟩ := List.mem_map.mp hItem
  obtain ⟨place, value, mem, hRead⟩ := exists_read_of_items found hx
  exact keeps place value x (h value mem) hRead

end Shape

namespace Node

theorem lasting_styles {levels : Nat} {fields : Fields Json} {styles : Fields String}
    (h : Lasting (levels + 1) (.obj fields)) (written : stylesOf fields = .ok styles) :
    Lasting (levels + 1) (.obj (styles.map fun f => (f.1, .str f.2))) := by
  have once := (Lasting.obj_iff.mp h).1
  obtain ⟨-, rfl⟩ := stylesOf_eq_ok.mp written
  refine .obj (by simpa [Function.comp_def] using once) fun field hField => ?_
  obtain ⟨style, -, rfl⟩ := List.mem_map.mp hField
  exact .str style.2

theorem lasting_toJson [Machine] {outer levels depth : Nat} {place : Place} {data : Json}
    {node : Node} (h : Lasting depth data) (deep : 2 * levels ≤ depth)
    (read : ofJson outer levels place data = .ok node) : Lasting depth node.toJson := by
  induction levels generalizing outer depth place data node with
  | zero => cases data <;> cases read
  | succ levels ih =>
    cases data with
    | obj fields =>
      obtain ⟨depth, rfl⟩ : ∃ d, depth = d + 2 := ⟨depth - 2, by omega⟩
      have values := (Lasting.obj_iff.mp h).2
      simp only [ofJson] at read
      obtain ⟨type, -, read⟩ := bind_eq_ok.mp read
      obtain ⟨id, -, read⟩ := bind_eq_ok.mp read
      obtain ⟨given, hGiven, read⟩ := bind_eq_ok.mp read
      obtain ⟨styles, hStyles, read⟩ := bind_eq_ok.mp read
      obtain ⟨items, hItems, read⟩ := bind_eq_ok.mp read
      obtain ⟨children, hChildren, read⟩ := bind_eq_ok.mp read
      obtain ⟨props, hProps, read⟩ := bind_eq_ok.mp read
      obtain ⟨metadata, hMetadata, read⟩ := bind_eq_ok.mp read
      cases read
      have styles := lasting_styles (Shape.lasting_of_optionalObject values hGiven) hStyles
      have props := Shape.lasting_of_optionalObject values hProps
      have metadata := Shape.lasting_of_optionalObject values hMetadata
      have children : Lasting (depth + 1) (.arr (toJsonList children)) := by
        rw [toJsonList_eq_map]
        exact Shape.lasting_map (Shape.lasting_of_optionalArray values hItems)
          (fun place value child h read => ih h (by omega) read) hChildren
      rw [toJson_eq]
      refine .obj ?_ ?_
      · simp only [ownFields]
        split <;> simp
      · simp only [ownFields]
        split <;> simp [props, styles, metadata, children, Lasting.str]
    | _ => cases read

end Node

variable {outer levels : Nat} {place : Place} {data : Json}

theorem DeploymentRecord.lasting_toJson {record : DeploymentRecord} (h : Lasting levels data)
    (read : ofJson place data = .ok record) : Lasting levels record.toJson := by
  unfold ofJson at read
  obtain ⟨fields, object, read⟩ := bind_eq_ok.mp read
  obtain ⟨target, -, read⟩ := bind_eq_ok.mp read
  obtain ⟨status, -, read⟩ := bind_eq_ok.mp read
  obtain ⟨id, -, read⟩ := bind_eq_ok.mp read
  obtain ⟨deployedAt, -, read⟩ := bind_eq_ok.mp read
  cases read
  obtain ⟨levels, rfl, values⟩ := Shape.lasting_of_object h object
  have message : Lasting levels ((fields.value "message").orElse (.str "")) := by
    rw [Json.orElse]
    split
    · exact .value values "message"
    · exact .str ""
  have deployedBy := Lasting.value values "deployedBy"
  refine .obj ?_ ?_
  · simp only [toFields]
    split <;> simp
  · simp only [toFields]
    split <;> simp [message, deployedBy, Lasting.str]

namespace Metadata

theorem lasting_ofFields [Machine] {metadata : Metadata} {fields : Fields Json}
    (h : Lasting (levels + 2) (.obj fields)) (read : ofFields outer place fields = .ok metadata) :
    Lasting (levels + 2) metadata.toJson := by
  obtain ⟨once, values⟩ := Lasting.obj_iff.mp h
  unfold ofFields at read
  obtain ⟨environment, hEnvironment, read⟩ := bind_eq_ok.mp read
  obtain ⟨lastDeployment, hLast, read⟩ := bind_eq_ok.mp read
  obtain ⟨records, hRecords, read⟩ := bind_eq_ok.mp read
  obtain ⟨history, hHistory, read⟩ := bind_eq_ok.mp read
  obtain ⟨extra, hExtra, read⟩ := bind_eq_ok.mp read
  obtain ⟨-, rfl⟩ := Shape.eachCopied_eq_ok.mp hExtra
  cases read
  have environment : Lasting (levels + 1) environment := by
    rcases isEnvironment_of_environmentOf hEnvironment with rfl | ⟨known, rfl⟩
    · exact .null
    · exact .str known.name
  have lastDeployment := Shape.lasting_of_optionalObject values hLast
  have history : Lasting (levels + 1) (.arr (history.map DeploymentRecord.toJson)) :=
    Shape.lasting_map (Shape.lasting_of_optionalArray values hRecords)
      (fun _ _ _ => DeploymentRecord.lasting_toJson) hHistory
  refine .obj (Fields.nodup_merge (once.sublist (List.filter_sublist.map Prod.fst)) _) ?_
  intro field hField
  rcases Fields.mem_of_mem_merge hField with extra | known
  · exact values field (List.mem_filter.mp extra).1
  · have known := (List.mem_filter.mp known).1
    simp only [knownFields, List.mem_cons, List.not_mem_nil, or_false] at known
    rcases known with rfl | rfl | rfl | rfl | rfl
    · exact environment
    · exact .value values "createdAt"
    · exact .value values "updatedAt"
    · dsimp only
      split
      · exact .null
      · exact lastDeployment
    · dsimp only
      split
      · exact .null
      · exact history

theorem lasting_toJson [Machine] {metadata : Metadata} (h : Lasting (levels + 2) data)
    (read : ofJson outer place data = .ok metadata) : Lasting (levels + 2) metadata.toJson := by
  unfold ofJson at read
  split at read
  · cases read
    exact .obj List.nodup_nil (List.forall_mem_nil _)
  · exact lasting_ofFields h read
  · cases read

end Metadata

/-- The levels that a tree takes, with the list that it stands in. -/
def Node.treeLevels : Nat := 2 * maxTreeDepth + 1

theorem Page.lasting_toJson [Machine] {page : Page}
    (h : Lasting (levels + Node.treeLevels + 1) data) (read : ofJson outer place data = .ok page) :
    Lasting (levels + Node.treeLevels + 1) page.toJson := by
  unfold ofJson at read
  obtain ⟨fields, object, read⟩ := bind_eq_ok.mp read
  obtain ⟨roots, hRoots, read⟩ := bind_eq_ok.mp read
  obtain ⟨name, -, read⟩ := bind_eq_ok.mp read
  obtain ⟨id, -, read⟩ := bind_eq_ok.mp read
  obtain ⟨slug, -, read⟩ := bind_eq_ok.mp read
  obtain ⟨tree, hTree, read⟩ := bind_eq_ok.mp read
  obtain ⟨metadata, hMetadata, read⟩ := bind_eq_ok.mp read
  cases read
  obtain ⟨_, same, values⟩ := Shape.lasting_of_object h object
  obtain rfl := Nat.succ.inj same
  have metadata : Lasting (levels + Node.treeLevels) (.obj metadata) :=
    Shape.lasting_of_optionalObject values hMetadata
  have roots : ∀ root ∈ roots, Lasting (levels + 2 * maxTreeDepth) root := by
    have value := Lasting.value values "tree"
    unfold treeOf at hRoots
    split at hRoots
    · next same =>
      cases hRoots
      rw [same] at value
      exact Lasting.arr_iff.mp value
    · cases hRoots
  have tree : Lasting (levels + Node.treeLevels) (.arr (Node.toJsonList tree)) := by
    rw [Node.toJsonList_eq_map]
    exact Shape.lasting_map roots
      (fun place value root h read => Node.lasting_toJson h (by omega) read) hTree
  refine .obj ?_ ?_
  · simp only [toFields]
    split <;> simp
  · simp only [toFields]
    split <;> simp [tree, metadata, Lasting.str]

namespace Project

theorem lasting_toJson [Machine] {project : Project} (h : Lasting levels data)
    (deep : Node.treeLevels + 3 ≤ levels) (read : ofJson data = .ok project) :
    Lasting levels project.toJson := by
  obtain ⟨levels, rfl⟩ : ∃ l, levels = l + Node.treeLevels + 3 :=
    ⟨levels - (Node.treeLevels + 3), by omega⟩
  unfold ofJson at read
  obtain ⟨fields, object, read⟩ := bind_eq_ok.mp read
  obtain ⟨name, -, read⟩ := bind_eq_ok.mp read
  obtain ⟨id, -, read⟩ := bind_eq_ok.mp read
  obtain ⟨items, hItems, read⟩ := bind_eq_ok.mp read
  obtain ⟨pages, hPages, read⟩ := bind_eq_ok.mp read
  obtain ⟨metadata, hMetadata, read⟩ := bind_eq_ok.mp read
  cases read
  obtain ⟨_, same, values⟩ := Shape.lasting_of_object h object
  obtain rfl := Nat.succ.inj same
  have metadata : Lasting (levels + Node.treeLevels + 2) metadata.toJson :=
    Metadata.lasting_toJson (.value values "metadata") hMetadata
  have pages : Lasting (levels + Node.treeLevels + 2) (.arr (pages.map Page.toJson)) :=
    Shape.lasting_map (Shape.lasting_of_optionalArray values hItems)
      (fun _ _ _ => Page.lasting_toJson) hPages
  refine .obj ?_ ?_
  · simp [toFields]
  · simp [toFields, pages, metadata, Lasting.str]

end Project

end Sitewright
