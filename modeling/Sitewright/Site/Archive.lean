import Sitewright.Site.Crc32
import Sitewright.Site.Generate
import Sitewright.Text.Utf8

namespace Sitewright.Site

/-- One file of an archive. All are deflated, readable by everyone and dated to the beginning of
1980, so that an archive depends on nothing but its files. -/
structure ArchiveEntry where
  path : String
  content : List UInt8
  deriving DecidableEq, Repr

namespace ArchiveEntry

def method : Nat := 8

def mode : Nat := 0o644

def date : List Nat := [1980, 1, 1, 0, 0, 0]

def size (entry : ArchiveEntry) : Nat := entry.content.length

def checksum (entry : ArchiveEntry) : Nat := (Crc32.checksum entry.content).toNat

/-- A path ends before its first null character. -/
def ofFile (path text : String) : ArchiveEntry where
  path := String.ofList (path.toList.takeWhile (· ≠ '\x00'))
  content := Text.Utf8.encode text

end ArchiveEntry

def archive (files : Fields String) : List ArchiveEntry :=
  (files.mergeSort fun a b => decide (a.1 ≤ b.1)).map fun f => .ofFile f.1 f.2

def usualLevel : Int := 9

/-- A level lies between zero and nine. Minus one, and nothing at all, leave the choice open. -/
def checkLevel : Json → Except Error Unit
  | .null | .bool _ => .ok ()
  | .int level => if -1 ≤ level ∧ level ≤ 9 then .ok () else .error .levelUnknown
  | _ => .error .levelUnknown

/-- The file name and the content of the archive of a project that is given as data. The files do
not depend on the level. -/
def exportArchive [Machine] (data level : Json) : Except Error (String × List ArchiveEntry) := do
  match data with
  | .obj fields =>
    if !(Fields.value fields "name").isTruthy || (Fields.value fields "pages").asArray?.isNone then
      .error .unnamedExport
    let project ← Project.ofJson data
    let files ← generate project
    checkLevel level
    return (archiveFileName project.name, archive files)
  | _ => .error .unnamedExport

end Sitewright.Site
