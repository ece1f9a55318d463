import Sitewright.Document.Node
import Sitewright.Proofs.Json.Distinct

namespace Sitewright

namespace Shape

variable {outer : Nat} {place : Place} {fields : Fields Json} {key : String}

theorem nodup_of_optionalObject [Machine] (h : Json.fieldsDistinct fields = true)
    {found : Fields Json}
    (read : optionalObject outer place fields key = .ok found) : (found.map Prod.fst).Nodup := by
  have value := Json.isDistinct_value h key
  unfold optionalObject at read
  split at read
  · cases read
    exact List.nodup_nil
  · next same =>
    obtain ⟨-, rfl⟩ := copied_eq_ok.mp read
    rw [same] at value
    simp only [Json.isDistinct, Bool.and_eq_true, decide_eq_true_eq] at value
    exact value.1
  · cases read

theorem areDistinct_of_optionalArray (h : Json.fieldsDistinct fields = true) {items : List Json}
    (read : optionalArray place fields key = .ok items) : Json.areDistinct items = true := by
  have value := Json.isDistinct_value h key
  unfold optionalArray at read
  split at read
  · cases read
    rfl
  · next same =>
    cases read
    rw [same] at value
    simpa only [Json.isDistinct] using value
  · cases read

end Shape

namespace Node

structure Distinct (node : Node) : Prop where
  props : (node.props.map Prod.fst).Nodup
  styles : (node.styles.map Prod.fst).Nodup

theorem distinct_of_ofJson [Machine] {outer levels : Nat} {place : Place} {data : Json}
    {node : Node} (h : data.isDistinct = true) (read : ofJson outer levels place data = .ok node) :
    ∀ found ∈ node.walk, found.Distinct := by
  induction levels generalizing outer place data node with
  | zero => cases data <;> cases read
  | succ levels ih =>
    cases data with
    | obj fields =>
      simp only [Json.isDistinct, Bool.and_eq_true] at h
      simp only [ofJson] at read
      obtain ⟨type, -, read⟩ := bind_eq_ok.mp read
      obtain ⟨id, -, read⟩ := bind_eq_ok.mp read
      obtain ⟨given, hStyles, read⟩ := bind_eq_ok.mp read
      obtain ⟨styles, written, read⟩ := bind_eq_ok.mp read
      obtain ⟨values, hValues, read⟩ := bind_eq_ok.mp read
      obtain ⟨children, hChildren, read⟩ := bind_eq_ok.mp read
      obtain ⟨props, hProps, read⟩ := bind_eq_ok.mp read
      obtain ⟨metadata, -, read⟩ := bind_eq_ok.mp read
      cases read
      intro found hFound
      rw [walk_eq, walkList_eq_flatMap] at hFound
      rcases List.mem_cons.mp hFound with rfl | hFound
      · refine ⟨Shape.nodup_of_optionalObject h.2 hProps, ?_⟩
        obtain ⟨-, rfl⟩ := stylesOf_eq_ok.mp written
        simpa [Function.comp_def] using Shape.nodup_of_optionalObject h.2 hStyles
      · obtain ⟨child, hChild, hFound⟩ := List.mem_flatMap.mp hFound
        obtain ⟨_, value, mem, hRead⟩ := Shape.exists_read_of_items hChildren hChild
        exact ih (Json.isDistinct_of_mem (Shape.areDistinct_of_optionalArray h.2 hValues) mem)
          hRead found hFound
    | _ => cases read

end Node

end Sitewright
