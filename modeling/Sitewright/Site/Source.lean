import Sitewright.Document.Copy
import Sitewright.Markup.Render
import Sitewright.Site.Naming
import Sitewright.Site.Template

namespace Sitewright.Site

def openComments : List Char → List Char
  | '*' :: '/' :: rest => '*' :: ' ' :: '/' :: openComments rest
  | c :: rest => c :: openComments rest
  | [] => []

def pageTitle (page : Page) : String :=
  let title := String.ofList (openComments page.name.toList)
  if title = "" then page.slug else title

def pageSource (page : Page) : Except Error String := do
  let body ← Markup.render 3 page.tree
  return fileOfLines [
    "/**",
    " * " ++ pageTitle page,
    " * Auto-generated from website builder",
    " */",
    "",
    "export default function " ++ componentName page.name ++ "() \x7b",
    "  return (",
    "    <div className=\"page-container\">",
    body,
    "    </div>",
    "  );",
    "\x7d"]

def texts (fields : Fields String) : Json := .obj (fields.map fun f => (f.1, .str f.2))

def manifest (projectName : String) : Json :=
  .obj [
    ("name", .str (packageName projectName)),
    ("version", .str "0.1.0"),
    ("private", .bool true),
    ("scripts", texts [
      ("dev", "next dev"), ("build", "next build"), ("start", "next start"),
      ("lint", "next lint")]),
    ("dependencies", texts [("next", "14.2.5"), ("react", "18.3.1"), ("react-dom", "18.3.1")]),
    ("devDependencies", texts [
      ("@types/node", "20.14.10"), ("@types/react", "18.3.3"), ("@types/react-dom", "18.3.0"),
      ("autoprefixer", "10.4.19"), ("postcss", "8.4.39"), ("tailwindcss", "3.4.6"),
      ("typescript", "5.5.3")])]

def manifestFile (projectName : String) : String := (manifest projectName).indented true 0 ++ "\n"

def readme (projectName : String) : String :=
  let name := Text.trim projectName
  fileOfLines [
    "# " ++ (if name = "" then "Site" else name),
    "",
    "Generated by the site builder as a standalone Next.js project.",
    "",
    "## Getting started",
    "",
    "```bash",
    "npm install",
    "npm run dev",
    "```",
    "",
    "Open http://localhost:3000 to view the site.",
    "",
    "## Layout",
    "",
    "- `pages/` one file per builder page (`index.tsx` is the home page)",
    "- `styles/globals.css` global styles",
    "- `config/` the builder, staging and production snapshots this export was built from"]

def dataFile (data : Json) : String := data.indented false 0 ++ "\n"

variable [Machine]

def Writable (outer : Nat) (data : Json) : Prop :=
  outer + data.writingCalls ≤ Machine.calls ∧ data.isWritable = true

instance (outer : Nat) (data : Json) : Decidable (Writable outer data) :=
  inferInstanceAs (Decidable (_ ∧ _))

def written (outer : Nat) (data : Json) : Except Error String :=
  if outer + data.writingCalls ≤ Machine.calls then
    if data.isWritable then .ok (dataFile data) else .error .integerOverlong
  else .error .valueNested

theorem written_eq_ok {outer : Nat} {data : Json} {text : String} :
    written outer data = .ok text ↔ Writable outer data ∧ text = dataFile data := by
  unfold written Writable
  split
  · next enough =>
    split
    · next writable => simp [enough, writable, eq_comm]
    · next overlong => simp [overlong]
  · next few => simp [few]

theorem written_eq_error {outer : Nat} {data : Json} {error : Error}
    (h : written outer data = .error error) : error = .valueNested ∨ error = .integerOverlong := by
  unfold written at h
  split at h
  · split at h
    · cases h
    · exact .inr (Except.error.inj h).symm
  · exact .inl (Except.error.inj h).symm

def environmentData (project : Project) (environment : Environment) : Json :=
  .obj (Fields.put project.toFields "metadata"
    (.obj (project.metadata.toFields.put "environment" (.str environment.name))))

def snapshot (project : Project) (environment : Environment) : Except Error String := do
  let _ ← project.encode 2
  written 5 (environmentData project environment)

end Sitewright.Site
