import Sitewright.Document.Component
import Sitewright.Document.Node
import Sitewright.Json.Number
import Sitewright.Text.Case
import Sitewright.Text.Letter

/-!
What a component shows, read from its open map of props. Each kind of component has its own fields,
and whatever is absent or cannot be used gives way to a default.
-/

namespace Sitewright

structure ListItem where
  text : String
  children : List ListItem := []
  deriving Repr

structure FormField where
  name : String
  type : String := "text"
  label : String := ""
  placeholder : String := ""
  required : Bool := false
  deriving DecidableEq, Repr

inductive Props
  | text (text : String) (tag : String)
  | image (src alt : String)
  | button (text : String) (linkType linkTarget : Option String) (newTab : Bool)
  | link (href text : String) (newTab : Bool)
  | list (type : String) (items : List ListItem)
  | grid (rows cols gap : Int)
  | form (fields : List FormField) (submitText successMessage : String)
  | container (attributes : Fields String)
  deriving Repr

namespace Props

def textTags : List String :=
  ["p", "span", "h1", "h2", "h3", "h4", "h5", "h6", "a", "label", "blockquote"]

def listTypes : List String := ["unordered", "ordered", "none"]

def linkTypes : List String := ["external", "page", "anchor"]

def formFieldTypes : List String :=
  ["text", "email", "tel", "number", "url", "password", "date", "textarea", "checkbox"]

def reservedAttributes : List String :=
  ["style", "children", "key", "ref", "dangerouslySetInnerHTML"]

def oneOf (allowed : List String) (fallback s : String) : String :=
  if s ∈ allowed then s else fallback

/-- The text of a value; null stands for the default. -/
def textOf (fallback : String) : Json → String
  | .null => fallback
  | value => value.display

/-- The integer of a value; whatever is no number stands for the default. -/
def intOf (fallback : Int) (value : Json) : Except Error Int :=
  value.toInteger.map fun n => n.getD fallback

def config (props : Fields Json) (key : String) : Fields Json :=
  (props.value key).asObject?.getD []

mutual

def itemsOf : Json → List ListItem
  | .arr values => itemsOfList values
  | _ => []

def itemsOfList : List Json → List ListItem
  | [] => []
  | .null :: rest => itemsOfList rest
  | .obj fields :: rest =>
    ⟨textOf "" (Fields.value fields "text"), itemsOfFields fields⟩ :: itemsOfList rest
  | value :: rest => ⟨value.display, []⟩ :: itemsOfList rest

def itemsOfFields : List (String × Json) → List ListItem
  | [] => []
  | (key, value) :: rest => if key = "children" then itemsOf value else itemsOfFields rest

end

def formField (index : Nat) (fields : Fields Json) : FormField where
  name := textOf ("field-" ++ toString (index + 1))
    ((fields.value "id").orElse (fields.value "name"))
  type := oneOf formFieldTypes "text" (textOf "text" (fields.value "type"))
  label := textOf "" (fields.value "label")
  placeholder := textOf "" (fields.value "placeholder")
  required := (fields.value "required").isTruthy

def formFields (value : Json) : List FormField :=
  (value.asArray?.getD []).zipIdx.filterMap fun p => p.1.asObject?.map (formField p.2)

def isAttributeName (key : String) : Bool :=
  match key.toList with
  | [] => false
  | first :: rest =>
    Text.isLetter first && ((first :: rest).filter (· ≠ '-')).all Text.isAlphanumeric

def attributes (props : Fields Json) : Fields String :=
  (props.mergeSort fun a b => decide (a.1 ≤ b.1)).filterMap fun field =>
    if reservedAttributes.contains field.1 || !isAttributeName field.1 then none
    else field.2.asText?.map fun value => (field.1, value)

def ofNode (node : Node) : Except Error Props :=
  let props := node.props
  match ComponentType.ofName? node.type with
  | some .text =>
    .ok (.text (textOf "Text" (props.value "text"))
      (oneOf textTags "p" (Text.lower (textOf "p" (props.value "tag")))))
  | some .image => .ok (.image (textOf "" (props.value "src")) (textOf "" (props.value "alt")))
  | some .button =>
    let target := textOf "" (props.value "linkTarget")
    .ok (.button (textOf "Button" ((props.value "text").orElse (props.value "label")))
      ((props.value "linkType").asText?.filter linkTypes.contains)
      (if target = "" then none else some target)
      (props.value "openInNewTab").isTruthy)
  | some .link =>
    let href := textOf "#" (props.value "href")
    .ok (.link (if href = "" then "#" else href)
      (textOf "Link" ((props.value "displayText").orElse (props.value "text")))
      (props.value "openInNewTab").isTruthy)
  | some .list =>
    let config := config props "listConfig"
    .ok (.list (oneOf listTypes "unordered" (textOf "unordered" (config.value "type")))
      (itemsOf (config.value "items")))
  | some .grid => do
    let config := config props "gridConfig"
    let rows ← intOf 2 (config.value "rows")
    let cols ← intOf 2 (config.value "cols")
    let gap ← intOf 16 (config.value "gap")
    return .grid (max rows 1) (max cols 1) (max gap 0)
  | some .form =>
    let config := config props "formConfig"
    .ok (.form (formFields (config.value "fields")) (textOf "Submit" (config.value "submitText"))
      (textOf "" (config.value "successMessage")))
  | _ => .ok (.container (attributes props))

/-- The component holds its children; the others do not show theirs. -/
def holdsChildren : Props → Bool
  | .grid .. | .form .. | .container .. => true
  | _ => false

def buttonHref (linkType linkTarget : Option String) : Option String :=
  match linkType, linkTarget with
  | some type, some target => some (if type = "anchor" then "#" ++ target else target)
  | _, _ => none

def listTag (type : String) : String := if type = "ordered" then "ol" else "ul"

end Props

end Sitewright
