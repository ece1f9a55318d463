namespace Sitewright

inductive ComponentType
  | body
  | region
  | div
  | text
  | image
  | button
  | container
  | grid
  | list
  | link
  | form
  deriving DecidableEq, Repr

namespace ComponentType

def name : ComponentType → String
  | body => "Body"
  | region => "Section"
  | div => "Div"
  | text => "Text"
  | image => "Image"
  | button => "Button"
  | container => "Container"
  | grid => "Grid"
  | list => "List"
  | link => "Link"
  | form => "Form"

def all : List ComponentType :=
  [body, region, div, text, image, button, container, grid, list, link, form]

def ofName? (s : String) : Option ComponentType := all.find? (·.name == s)

/-- Its children are accepted and not rendered. -/
def isLeaf : ComponentType → Bool
  | text | image | button | link => true
  | _ => false

@[simp] theorem ofName?_name (type : ComponentType) : ofName? type.name = some type := by
  cases type <;> decide

theorem name_of_ofName? {s : String} {type : ComponentType} (h : ofName? s = some type) :
    type.name = s := by
  simpa using List.find?_some h

end ComponentType

inductive Environment
  | builder
  | staging
  | production
  deriving DecidableEq, Repr

namespace Environment

def name : Environment → String
  | builder => "builder"
  | staging => "staging"
  | production => "production"

def all : List Environment := [builder, staging, production]

def ofName? (s : String) : Option Environment := all.find? (·.name == s)

@[simp] theorem ofName?_name (environment : Environment) :
    ofName? environment.name = some environment := by
  cases environment <;> decide

theorem name_of_ofName? {s : String} {environment : Environment}
    (h : ofName? s = some environment) : environment.name = s := by
  simpa using List.find?_some h

theorem name_injective {a b : Environment} (h : a.name = b.name) : a = b := by
  have := ofName?_name a
  rw [h, ofName?_name] at this
  exact (Option.some.inj this).symm

end Environment

/-- The environments that a deployment writes. -/
inductive Target
  | staging
  | production
  deriving DecidableEq, Repr

namespace Target

def environment : Target → Environment
  | staging => .staging
  | production => .production

def name (target : Target) : String := target.environment.name

theorem name_ne_builder (target : Target) : target.name ≠ Environment.builder.name := by
  cases target <;> decide

def ofName? (s : String) : Option Target := [staging, production].find? (·.name == s)

@[simp] theorem ofName?_name (target : Target) : ofName? target.name = some target := by
  cases target <;> decide

theorem name_of_ofName? {s : String} {target : Target} (h : ofName? s = some target) :
    target.name = s := by
  simpa using List.find?_some h

end Target

end Sitewright
