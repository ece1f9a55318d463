import Sitewright.Document.Validity
import Sitewright.Site.Source

namespace Sitewright.Site

def reservedPaths : List String := ["pages/_app.tsx", "pages/_document.tsx"]

def pageFiles : List String → List Page → Except Error (Fields String)
  | _, [] => .ok []
  | seen, page :: rest => do
    let path := pagePath page.slug
    if path ∈ seen ∨ path ∈ reservedPaths then .error (.slugCollides page.slug)
    let source ← pageSource page
    let more ← pageFiles (path :: seen) rest
    return (path, source) :: more

def fixedFiles (project : Project) : Fields String :=
  [("pages/_app.tsx", appPage),
   ("pages/_document.tsx", documentPage),
   ("package.json", manifestFile project.name),
   ("next.config.js", buildSettings),
   ("tailwind.config.js", styleSettings),
   ("postcss.config.js", styleStages),
   ("tsconfig.json", compilerSettings),
   (".gitignore", ignoredFiles),
   ("README.md", readme project.name),
   ("styles/globals.css", globalStyles)]

def snapshotPath (environment : Environment) : String :=
  "config/" ++ environment.name ++ "Site.json"

variable [Machine]

def snapshotFiles (project : Project) : Except Error (Fields String) := do
  let snapshots ← Environment.all.mapM fun environment => do
    let text ← snapshot project environment
    return (snapshotPath environment, text)
  let data ← project.encode 1
  let text ← written 4 data
  return snapshots ++ [("config/project.json", text)]

def generate (project : Project) : Except Error (Fields String) := do
  let _ ← project.check
  let pages ← pageFiles [] project.pages
  let snapshots ← snapshotFiles project
  return pages ++ fixedFiles project ++ snapshots

/-! The files of the project, when there are any -/

/-- The documents of the project can be made and written. -/
structure Fits (project : Project) : Prop where
  encoded : 2 + project.encodingCalls ≤ Machine.calls
  whole : Writable 4 project.toJson
  environments : ∀ environment ∈ Environment.all, Writable 5 (environmentData project environment)

def snapshotTexts (project : Project) : Fields String :=
  (Environment.all.map fun environment =>
      (snapshotPath environment, dataFile (environmentData project environment))) ++
    [("config/project.json", dataFile project.toJson)]

theorem snapshot_eq_ok {project : Project} {environment : Environment} {text : String} :
    snapshot project environment = .ok text ↔
      (2 + project.encodingCalls ≤ Machine.calls ∧
        Writable 5 (environmentData project environment)) ∧
      text = dataFile (environmentData project environment) := by
  rw [snapshot, bind_eq_ok, and_assoc]
  constructor
  · rintro ⟨data, encoded, made⟩
    exact ⟨(Project.encode_eq_ok.mp encoded).1, written_eq_ok.mp made⟩
  · rintro ⟨enough, made⟩
    exact ⟨_, Project.encode_eq_ok.mpr ⟨enough, rfl⟩, written_eq_ok.mpr made⟩

theorem snapshotFiles_eq_ok {project : Project} {files : Fields String} :
    snapshotFiles project = .ok files ↔ Fits project ∧ files = snapshotTexts project := by
  have each (environment : Environment) (file : String × String) :
      (snapshot project environment >>= fun text => .ok (snapshotPath environment, text)) =
          .ok file ↔
        (2 + project.encodingCalls ≤ Machine.calls ∧
          Writable 5 (environmentData project environment)) ∧
        file = (snapshotPath environment, dataFile (environmentData project environment)) := by
    simp only [bind_eq_ok, snapshot_eq_ok, Except.ok.injEq, and_assoc]
    constructor
    · rintro ⟨_, enough, writable, rfl, rfl⟩
      exact ⟨enough, writable, rfl⟩
    · rintro ⟨enough, writable, rfl⟩
      exact ⟨_, enough, writable, rfl, rfl⟩
  constructor
  · intro made
    obtain ⟨snapshots, all, made⟩ := bind_eq_ok.mp made
    obtain ⟨data, encoded, made⟩ := bind_eq_ok.mp made
    obtain ⟨text, whole, done⟩ := bind_eq_ok.mp made
    cases done
    obtain ⟨fits, rfl⟩ := (mapM_eq_ok_iff each).mp all
    obtain ⟨-, rfl⟩ := Project.encode_eq_ok.mp encoded
    obtain ⟨writable, rfl⟩ := written_eq_ok.mp whole
    exact ⟨⟨(fits .builder (by decide)).1, writable, fun other there => (fits other there).2⟩, rfl⟩
  · rintro ⟨⟨encoded, writable, environments⟩, rfl⟩
    have all := (mapM_eq_ok_iff each).mpr
      ⟨fun other there => ⟨encoded, environments other there⟩, rfl⟩
    have data : project.encode 1 = .ok project.toJson :=
      Project.encode_eq_ok.mpr ⟨by omega, rfl⟩
    refine bind_eq_ok.mpr ⟨_, all, ?_⟩
    rw [data, ok_bind, written_eq_ok.mpr ⟨writable, rfl⟩]
    rfl

theorem snapshotFiles_eq_error {project : Project} {error : Error}
    (h : snapshotFiles project = .error error) :
    error = .valueNested ∨ error = .integerOverlong := by
  have encoding {outer : Nat} (failed : project.encode outer = .error error) :
      error = .valueNested ∨ error = .integerOverlong := .inl (Project.encode_eq_error.mp failed).2
  rcases bind_eq_error.mp h with failed | ⟨_, -, h⟩
  · obtain ⟨environment, -, failed⟩ := mapM_eq_error failed
    rcases bind_eq_error.mp failed with failed | ⟨_, -, ⟨⟩⟩
    rcases bind_eq_error.mp failed with failed | ⟨_, -, failed⟩
    · exact encoding failed
    · exact written_eq_error failed
  rcases bind_eq_error.mp h with failed | ⟨_, -, h⟩
  · exact encoding failed
  rcases bind_eq_error.mp h with failed | ⟨_, -, ⟨⟩⟩
  exact written_eq_error failed

end Sitewright.Site
