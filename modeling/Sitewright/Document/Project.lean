import Sitewright.Document.Metadata
import Sitewright.Document.Node

namespace Sitewright

structure Page where
  id : String
  name : String
  slug : String
  tree : List Node := []
  metadata : Fields Json := []
  deriving Repr, Inhabited

namespace Page

def treeOf (place : Place) (fields : Fields Json) : Except Error (List Json) :=
  match fields.value "tree" with
  | .arr items => .ok items
  | _ => .error (.treeNotArray place)

def ofJson [Machine] (outer : Nat) (place : Place) (data : Json) : Except Error Page := do
  let fields ← Shape.object place data
  let roots ← treeOf place fields
  let name ← Shape.optionalText place fields "name"
  let id ← Shape.requiredText place fields "id"
  let slug ← Shape.requiredText place fields "slug"
  let tree ← Shape.items (.field place "tree") (Node.ofJson (outer + 2) maxTreeDepth) roots
  let metadata ← Shape.optionalObject (outer + 1) place fields "metadata"
  return { id, name, slug, tree, metadata }

def toFields (page : Page) : Fields Json :=
  [("id", .str page.id), ("name", .str page.name), ("slug", .str page.slug),
   ("tree", .arr (Node.toJsonList page.tree))] ++
  (if page.metadata.isEmpty then [] else [("metadata", .obj page.metadata)])

def toJson (page : Page) : Json := .obj page.toFields

def nodes (page : Page) : List Node := Node.walkList page.tree

end Page

structure Project where
  id : String
  name : String
  pages : List Page := []
  metadata : Metadata := {}
  deriving Repr, Inhabited

namespace Project

def ofJson [Machine] (data : Json) : Except Error Project := do
  let place := Place.named "project"
  let fields ← Shape.object place data
  let name ← Shape.optionalText place fields "name"
  let id ← Shape.requiredText place fields "id"
  let pages ← Shape.optionalArray place fields "pages"
  let pages ← Shape.items (.named "pages") (Page.ofJson 2) pages
  let metadata ← Metadata.ofJson 1 (.named "metadata") (fields.value "metadata")
  return { id, name, pages, metadata }

def toFields (project : Project) : Fields Json :=
  [("id", .str project.id), ("name", .str project.name),
   ("pages", .arr (project.pages.map Page.toJson)), ("metadata", project.metadata.toJson)]

def toJson (project : Project) : Json := .obj project.toFields

def nodes (project : Project) : List Node := project.pages.flatMap Page.nodes

end Project

end Sitewright
