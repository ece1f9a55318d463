import Sitewright.Proofs.Document.Lasting
import Sitewright.Proofs.Json.Reading
import Sitewright.Proofs.Site.Files

namespace Sitewright

namespace Site

theorem ofJson_environmentData [Machine] {project : Project} (h : project.Readable)
    (environment : Environment) : Project.ofJson (environmentData project environment) =
      .ok (project.inEnvironment environment) :=
  Project.ofJson_put_metadata h (Metadata.ofFields_put_environment h.metadata _ environment)

theorem lasting_environmentData [Machine] {project : Project}
    (h : Json.Lasting Machine.textNesting project.toJson) (environment : Environment) :
    Json.Lasting Machine.textNesting (environmentData project environment) := by
  obtain ⟨levels, deep⟩ := Machine.exists_textNesting (by decide : 2 ≤ 256)
  rw [deep] at h ⊢
  have metadata : Json.Lasting (levels + 1) project.metadata.toJson :=
    (Json.Lasting.obj_iff.mp h).2 ("metadata", project.metadata.toJson) (by simp [Project.toFields])
  exact .put h "metadata" (.put metadata "environment" (.str environment.name))

theorem take_pagePath (slug : String) : (pagePath slug).toList.take 6 = "pages/".toList := by
  unfold pagePath
  split
  · rfl
  · rw [String.append_assoc, String.toList_append]
    exact List.take_left' rfl

theorem take_of_pageFiles {seen : List String} {pages : List Page} {files : Fields String}
    (h : pageFiles seen pages = .ok files) :
    ∀ file ∈ files, file.1.toList.take 6 = "pages/".toList := by
  intro file there
  have path := List.mem_map_of_mem (f := Prod.fst) there
  rw [map_fst_of_isFileOf (isFileOf_of_pageFiles h)] at path
  obtain ⟨page, -, same⟩ := List.mem_map.mp path
  rw [← same]
  exact take_pagePath page.slug

theorem get?_of_generate [Machine] {project : Project} {files : Fields String}
    (made : generate project = .ok files) {path : String}
    (other : path.toList.take 6 ≠ "pages/".toList) :
    files.get? path = Fields.get? (fixedFiles project ++ snapshotTexts project) path := by
  obtain ⟨warnings, valid, -⟩ := bind_eq_ok.mp made
  obtain ⟨pages, hPages, -, rfl⟩ := (generate_eq_ok valid).mp made
  rw [List.append_assoc]
  refine Fields.get?_append_of_absent _ fun file hFile same => other ?_
  rw [← same]
  exact take_of_pageFiles hPages file hFile

def Holds [Machine] (files : Fields String) (path : String) (project : Project) : Prop :=
  ∃ text data, files.get? path = some text ∧ Json.read text = .ok data ∧
    Project.ofJson data = .ok project

theorem holds_dataFile [Machine] {files : Fields String} {path : String} {data : Json}
    {project : Project} (there : files.get? path = some (dataFile data))
    (lasting : Json.Lasting Machine.textNesting data)
    (read : Project.ofJson data = .ok project) : Holds files path project :=
  ⟨dataFile data, data, there, Json.read_indented lasting false 0, read⟩

/-- A project that was read from a text without fractions is read back from its site, and so is the
project in each of its environments. -/
theorem holds_of_generate [Machine] {source : String} {data : Json} {project : Project}
    {files : Fields String} (given : Json.read source = .ok data) (whole : data.isWhole = true)
    (read : Project.ofJson data = .ok project) (made : generate project = .ok files) :
    Holds files "config/project.json" project ∧
      ∀ environment : Environment,
        Holds files ("config/" ++ environment.name ++ "Site.json")
          (project.inEnvironment environment) := by
  have readable := Project.readable_of_ofJson read
  have lasting : Json.Lasting Machine.textNesting project.toJson :=
    Project.lasting_toJson (Json.lasting_of_read given whole)
      (Nat.le_trans (by decide) Machine.deep) read
  constructor
  · refine holds_dataFile ?_ lasting (Project.ofJson_toJson readable)
    rw [get?_of_generate made (by decide)]
    rfl
  · intro environment
    refine holds_dataFile ?_ (lasting_environmentData lasting environment)
      (ofJson_environmentData readable environment)
    rw [get?_of_generate made (by cases environment <;> decide)]
    cases environment <;> rfl

def diaryText : String :=
  "\x7b\"id\":\"p\",\"pages\":[\x7b\"id\":\"g\",\"slug\":\"/\"," ++
  "\"tree\":[\x7b\"id\":\"b\",\"type\":\"Body\"\x7d]\x7d]," ++
  "\"metadata\":\x7b\"é\":[\"\\u0001\",-9]\x7d\x7d"

def diaryData : Json :=
  .obj [
    ("id", .str "p"),
    ("pages", .arr [.obj [("id", .str "g"), ("slug", .str "/"),
      ("tree", .arr [.obj [("id", .str "b"), ("type", .str "Body")]])]]),
    ("metadata", .obj [("é", .arr [.str "\x01", .int (-9)])])]

def diary : Project where
  id := "p"
  name := ""
  pages := [⟨"g", "", "/", [{ id := "b", type := "Body" }], []⟩]
  metadata := { extra := [("é", .arr [.str "\x01", .int (-9)])] }

theorem holds_of_generate_diary :
    Json.read diaryText = .ok diaryData ∧ diaryData.isWhole = true ∧
      Project.ofJson diaryData = .ok diary ∧ ∃ files, generate diary = .ok files ∧
        Holds files "config/project.json" diary ∧
        Holds files "config/stagingSite.json" (diary.inEnvironment .staging) := by
  have given : Json.read diaryText = .ok diaryData := by decide +kernel
  have made : (generate diary).isOk = true := by decide +kernel
  cases found : generate diary with
  | error error =>
    rw [found] at made
    cases made
  | ok files =>
    obtain ⟨project, snapshots⟩ := holds_of_generate given rfl rfl found
    exact ⟨given, rfl, rfl, files, rfl, project, snapshots .staging⟩

end Site

end Sitewright
