import Sitewright.Api.Route
import Sitewright.Proofs.Text.Percent

/-!
The address of a project: its identifier, written with escapes, after the path of the projects.
Where the address leads depends on the identifier alone. It leads to the project unless there is a
slash in the identifier, and then nothing there can be deleted.
-/

namespace Sitewright

namespace Text

theorem cut?_of_not_mem {sep : Char} {cs : List Char} (h : sep ∉ cs) : cut? sep cs = none := by
  induction cs with
  | nil => rfl
  | cons c rest ih =>
    simp only [List.mem_cons, not_or] at h
    rw [cut?, if_neg (Ne.symm h.1), ih h.2, Option.map_none]

theorem length_split_of_mem {sep : Char} {cs : List Char} (h : sep ∈ cs) :
    2 ≤ (split sep cs).length := by
  induction cs with
  | nil => cases h
  | cons c rest ih =>
    rw [split]
    split
    · have some := List.length_pos_iff.mpr (split_ne_nil sep rest)
      rw [List.length_cons]
      omega
    · next other =>
      have more := ih ((List.mem_cons.mp h).resolve_left (Ne.symm other))
      split
      · next none =>
        rw [none] at more
        cases more
      · next found =>
        rw [found] at more
        exact more

end Text

namespace Api

open Text (Percent.quote Percent.IsPathChar)

/-! Targets -/

theorem cut_of_not_mem {sep : Char} {cs : List Char} (h : sep ∉ cs) :
    Authority.cut sep cs = (cs, []) := by
  rw [Authority.cut, Text.cut?_of_not_mem h]
  rfl

def Reference.ofPath (path : List Char) : Reference where
  scheme := []
  authority := []
  path := path
  query := []

@[simp] theorem normalized_nil : (Authority.ofText []).normalized = .ok [] := rfl

@[simp] theorem Reference.normalized_ofPath (path : List Char) :
    (Reference.ofPath path).normalized = .ok path := by
  rw [Reference.normalized, Reference.ofPath, normalized_nil]
  rfl

@[simp] theorem Reference.pathAndQuery_ofPath (path : List Char) :
    (Reference.ofPath path).pathAndQuery = path := List.append_nil path

theorem Reference.ofText_path {cs : List Char} (path : ∀ c ∈ cs, Percent.IsPathChar c)
    (rooted : ∃ c rest, cs = '/' :: c :: rest ∧ c ≠ '/') :
    Reference.ofText cs = .ok (.ofPath cs) := by
  obtain ⟨c, rest, rfl, other⟩ := rooted
  have shown : ('/' :: c :: rest).filter (!isIgnored ·) = '/' :: c :: rest := by
    rw [List.filter_eq_self]
    intro d there
    have above : 0x20 < d.toNat := (path d there).1
    have kept : isIgnored d = false := by
      simp only [isIgnored, Bool.or_eq_false_iff, decide_eq_false_iff_not]
      refine ⟨⟨?_, ?_⟩, ?_⟩ <;>
        · rintro rfl
          exact absurd above (by decide)
    rw [kept, Bool.not_false]
  have query : '?' ∉ '/' :: c :: rest := fun there => (path '?' there).2.1 rfl
  have fragment : '#' ∉ '/' :: c :: rest := fun there => (path '#' there).2.2 rfl
  have margin : ('/' :: c :: rest).dropWhile isMargin = '/' :: c :: rest := rfl
  have scheme : cutScheme ('/' :: c :: rest) = ([], '/' :: c :: rest) := rfl
  have authority : cutAuthority ('/' :: c :: rest) = ([], '/' :: c :: rest) := by
    rw [cutAuthority]
    rintro later ⟨⟩
    exact other rfl
  rw [ofText, margin, shown, scheme]
  simp only [authority, cut_of_not_mem query, cut_of_not_mem fragment]
  rfl

def projectsPath : List Char := "/api/v1/projects/".toList

theorem plain_of_mem_projectsPath {c : Char} (h : c ∈ projectsPath) :
    Percent.IsPathChar c ∧ c.toNat < 0x80 ∧ c ≠ '%' := by
  have plain : projectsPath.all (fun c =>
      decide ((0x20 < c.toNat ∧ c ≠ '?' ∧ c ≠ '#') ∧ c.toNat < 0x80 ∧ c ≠ '%')) = true := rfl
  have here := List.all_eq_true.mp plain c h
  rw [decide_eq_true_eq] at here
  exact here

theorem Target.ofText_address (keep : Char → Bool) (id : String) :
    Target.ofText (String.ofList (projectsPath ++ Percent.quote keep id)) =
      .ok { path := "api/v1/projects/".toList ++ id.toList, args := [] } := by
  have path : ∀ c ∈ projectsPath ++ Percent.quote keep id, Percent.IsPathChar c :=
    List.forall_mem_append.mpr
      ⟨fun _ there => (plain_of_mem_projectsPath there).1,
        fun _ there => Text.Percent.isPathChar_of_mem_quote there⟩
  have read := Reference.ofText_path path ⟨'a', _, rfl, by decide⟩
  have meant := Text.Percent.decode_append_quote
    (fun _ there => (plain_of_mem_projectsPath there).2) keep id
  have front : (projectsPath ++ id.toList).dropWhile (· = '/') =
      "api/v1/projects/".toList ++ id.toList := rfl
  have parts (cs : List Char) : (Reference.ofPath cs).path = cs ∧
      (Reference.ofPath cs).authority = [] ∧ (Reference.ofPath cs).query = [] := ⟨rfl, rfl, rfl⟩
  simp only [Target.ofText, String.toList_ofList, read, ok_bind, Reference.pathAndQuery_ofPath,
    Reference.normalized_ofPath, parts, normalized_nil, meant, front]
  rfl

/-! Where an address leads -/

theorem segments_address (id : String) :
    Target.segments ("api/v1/projects/".toList ++ id.toList) =
      "api" :: "v1" :: "projects" :: (Text.split '/' id.toList).map String.ofList := by
  have third : Text.split '/' ("projects".toList ++ '/' :: id.toList) = _ :=
    Text.split_append (by decide) _
  have second :
      Text.split '/' ("v1".toList ++ '/' :: ("projects".toList ++ '/' :: id.toList)) = _ :=
    Text.split_append (by decide) _
  have first : Text.split '/' ("api".toList ++
      '/' :: ("v1".toList ++ '/' :: ("projects".toList ++ '/' :: id.toList))) = _ :=
    Text.split_append (by decide) _
  rw [second, third] at first
  exact congrArg (List.map String.ofList) first

theorem resources_projects (rest : List String) :
    Route.resources ("api" :: "v1" :: "projects" :: rest) =
      if rest.contains "" then [] else Route.underProjects rest := by
  rw [Route.resources]

theorem resources_address {id : String} (single : '/' ∉ id.toList) (named : id ≠ "") :
    Route.resources (Target.segments ("api/v1/projects/".toList ++ id.toList)) =
      Route.underProjects [id] := by
  rw [segments_address, Text.split_of_not_mem single, List.map_singleton, String.ofList_toList,
    resources_projects, if_neg]
  simpa using named.symm

theorem routing_address {id : String} (single : '/' ∉ id.toList) (named : id ≠ "") :
    Routing.of .get ("api/v1/projects/".toList ++ id.toList) = .found (.project id) ∧
      Routing.of .delete ("api/v1/projects/".toList ++ id.toList) = .found (.deleteProject id) := by
  simp only [Routing.of, resources_address single named, Route.underProjects]
  by_cases exported : id = "export"
  · rw [if_pos exported]
    exact ⟨rfl, rfl⟩
  · rw [if_neg exported]
    exact ⟨rfl, rfl⟩

theorem find?_delete_underProjects {rest : List String} (several : rest.length ≠ 1) :
    (Route.underProjects rest).find? (·.1.serves .delete) = none := by
  unfold Route.underProjects
  split
  · rfl
  · exact absurd rfl several
  · rfl
  · rfl
  · rfl
  · rfl

theorem routing_delete_of_slash {id : String} (slash : '/' ∈ id.toList) :
    Routing.of .delete ("api/v1/projects/".toList ++ id.toList) ∈
      [.moved, .notFound, .methodNotAllowed] := by
  have here : (Route.resources (Target.segments ("api/v1/projects/".toList ++ id.toList))).find?
      (·.1.serves .delete) = none := by
    rw [segments_address, resources_projects]
    split
    · rfl
    · apply find?_delete_underProjects
      have several := Text.length_split_of_mem slash
      rw [List.length_map]
      omega
  rw [Routing.of]
  simp only [here]
  split
  · next found => cases found
  · simp
  · split <;> simp

end Api

end Sitewright
