import Sitewright.Markup.Element
import Sitewright.Markup.Props

/-!
The elements that components are shown by. Containers hold their children in order; the other
components show what their props say and never their children.
-/

namespace Sitewright.Markup

def containerTag (type : String) : String := if type = "Section" then "section" else "div"

def gridStyle (rows cols gap : Int) : Fields String :=
  [("display", "grid"),
   ("gridTemplateRows", "repeat(" ++ toString rows ++ ", 1fr)"),
   ("gridTemplateColumns", "repeat(" ++ toString cols ++ ", 1fr)"),
   ("gap", toString gap ++ "px")]

def bodyStyle : Fields String := [("minHeight", "100vh"), ("width", "100%")]

def bareListStyle : Fields String := [("listStyleType", "none"), ("paddingLeft", "0")]

def newTabAttributes (newTab : Bool) : Fields Json :=
  if newTab then [("target", .str "_blank"), ("rel", .str "noopener noreferrer")] else []

mutual

def itemElement (tag : String) : ListItem → Element
  | ⟨text, []⟩ => .inline ⟨"li", [], []⟩ text
  | ⟨text, first :: rest⟩ =>
    .block ⟨"li", [], []⟩ text [.block ⟨tag, [], []⟩ "" (itemElements tag (first :: rest))]

def itemElements (tag : String) : List ListItem → List Element
  | [] => []
  | item :: rest => itemElement tag item :: itemElements tag rest

end

def listElement (tag : String) (style : Fields String) (items : List ListItem) : Element :=
  if items.isEmpty then .closed ⟨tag, [], style⟩
  else .block ⟨tag, [], style⟩ "" (itemElements tag items)

def fieldElement (field : FormField) : Element :=
  let isArea := field.type = "textarea"
  let label :=
    if field.label = "" then []
    else [.inline ⟨"label", [("htmlFor", .str field.name)], []⟩ field.label]
  let attributes :=
    [("id", .str field.name), ("name", .str field.name)] ++
    (if isArea then [] else [("type", .str field.type)]) ++
    (if field.placeholder = "" then [] else [("placeholder", .str field.placeholder)]) ++
    [("required", .bool field.required)]
  let tag := if isArea then "textarea" else "input"
  .block ⟨"div", [], []⟩ "" (label ++ [.closed ⟨tag, attributes, []⟩])

def buttonElement (text : String) (href : Option String) (newTab : Bool) (style : Fields String) :
    Element :=
  let button := Element.inline ⟨"button", [("type", .str "button")], style⟩ text
  match href with
  | none => button
  | some href => .block ⟨"a", ("href", .str href) :: newTabAttributes newTab, []⟩ "" [button]

def around (tag : Tag) (children : List Element) : Element :=
  if children.isEmpty then .closed tag else .block tag "" children

def stringAttributes (attributes : Fields String) : Fields Json :=
  attributes.map fun a => (a.1, .str a.2)

/-- The tag of a container that shows nothing of its own. -/
def plainTag (type : String) (attributes styles : Fields String) : Tag :=
  if type = ComponentType.body.name then
    ⟨"div", ("className", .str "builder-body-root") ::
      stringAttributes (attributes.filter (·.1 ≠ "className")), bodyStyle.merge styles⟩
  else ⟨containerTag type, stringAttributes attributes, styles⟩

def assemble (type : String) (styles : Fields String) (children : List Element) : Props → Element
  | .text text tag => .inline ⟨tag, [], styles⟩ text
  | .image src alt => .closed ⟨"img", [("src", .str src), ("alt", .str alt)], styles⟩
  | .button text linkType linkTarget newTab =>
    buttonElement text (Props.buttonHref linkType linkTarget) newTab styles
  | .link href text newTab =>
    .inline ⟨"a", ("href", .str href) :: newTabAttributes newTab, styles⟩ text
  | .list type items =>
    listElement (Props.listTag type) (if type = "none" then bareListStyle.merge styles else styles)
      items
  | .grid rows cols gap =>
    around ⟨"div", [], (gridStyle rows cols gap).merge styles⟩ children
  | .form fields submitText _ =>
    around ⟨"form", [], styles⟩
      (fields.map fieldElement ++ children ++
        [.inline ⟨"button", [("type", .str "submit")], []⟩ submitText])
  | .container attributes => around (plainTag type attributes styles) children

mutual

/-- The element of a node. The children of a component that does not show them are not looked at. -/
def element : Node → Except Error Element
  | ⟨id, type, props, styles, metadata, children⟩ => do
    let found ← Props.ofNode ⟨id, type, props, styles, metadata, []⟩
    let inner ← if found.holdsChildren then elements children else .ok []
    return assemble type styles inner found

def elements : List Node → Except Error (List Element)
  | [] => .ok []
  | node :: rest => do return (← element node) :: (← elements rest)

end

def render (depth : Int) (tree : List Node) : Except Error String := do
  return Text.join "\n" (Element.linesList depth (← elements tree))

end Sitewright.Markup
