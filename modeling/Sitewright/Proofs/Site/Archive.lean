import Mathlib.Data.List.Nodup
import Sitewright.Proofs.Site.Checksum
import Sitewright.Proofs.Site.Endless
import Sitewright.Proofs.Site.Placement
import Sitewright.Proofs.Text.Percent

namespace Sitewright

namespace Fields

variable {α : Type}

theorem perm_of_get?_eq {first second : Fields α} (distinct : (first.map Prod.fst).Nodup)
    (distinct' : (second.map Prod.fst).Nodup) (same : ∀ key, first.get? key = second.get? key) :
    first.Perm second := by
  refine (List.perm_ext_iff_of_nodup distinct.of_map distinct'.of_map).mpr fun field => ?_
  rw [← get?_eq_some_iff distinct, ← get?_eq_some_iff distinct', same]

end Fields

namespace Site

/-! ### The order of paths -/

def byPath (files : Fields String) : Fields String :=
  files.mergeSort fun a b => decide (a.1 ≤ b.1)

theorem byPath_perm (files : Fields String) : (byPath files).Perm files :=
  List.mergeSort_perm files _

theorem pairwise_byPath (files : Fields String) :
    (byPath files).Pairwise fun a b => a.1 ≤ b.1 := by
  refine (List.pairwise_mergeSort ?_ ?_ files).imp of_decide_eq_true
  · intro a b c before after
    simp only [decide_eq_true_eq] at before after ⊢
    exact String.le_trans before after
  · intro a b
    simp only [Bool.or_eq_true, decide_eq_true_eq]
    exact String.le_total a.1 b.1

theorem paths_byPath {files : Fields String} (distinct : (files.map Prod.fst).Nodup) :
    ((byPath files).map Prod.fst).Pairwise (· < ·) := by
  have once := ((byPath_perm files).map Prod.fst).nodup_iff.mpr distinct
  have ordered := List.pairwise_map.mpr (pairwise_byPath files)
  exact (ordered.and once).imp fun ⟨before, other⟩ =>
    String.not_le.mp fun after => other (String.le_antisymm before after)

theorem byPath_congr {first second : Fields String} (h : first.Perm second)
    (distinct : (first.map Prod.fst).Nodup) : byPath first = byPath second := by
  have perm := ((byPath_perm first).trans h).trans (byPath_perm second).symm
  refine perm.eq_of_pairwise (fun a b ha hb before after => ?_) (pairwise_byPath first)
    (pairwise_byPath second)
  have path : a.1 = b.1 := String.le_antisymm before after
  have there := (byPath_perm first).mem_iff.mp ha
  have there' := (byPath_perm first).mem_iff.mp (perm.mem_iff.mpr hb)
  exact List.inj_on_of_nodup_map distinct there there' path

theorem archive_eq (files : Fields String) :
    archive files = (byPath files).map fun file => .ofFile file.1 file.2 := rfl

/-! ### The files of a site -/

theorem nodup_of_generate [Machine] {project : Project} {files : Fields String}
    (made : generate project = .ok files) : (files.map Prod.fst).Nodup := by
  obtain ⟨warnings, valid, -⟩ := bind_eq_ok.mp made
  obtain ⟨pages, written, -, rfl⟩ := (generate_eq_ok valid).mp made
  have slugs := (Project.of_checkPages valid).2
  exact nodup_files project (fun page there => (slugs page there).2)
    (exists_pageFiles_iff.mp ⟨pages, written⟩).1 (isFileOf_of_pageFiles written)

theorem archive_of_generate [Machine] {project : Project} {files : Fields String}
    (made : generate project = .ok files) :
    archive files = (byPath files).map fun file => ⟨file.1, Text.Utf8.encode file.2⟩ := by
  rw [archive_eq]
  refine List.map_congr_left fun file there => ofFile_of_isPlain ?_ file.2
  have among := (byPath_perm files).mem_iff.mp there
  exact isPlain_of_mem_files made file.1 (List.mem_map_of_mem among)

/-- Entries for the files and for nothing else, every path before the next one. -/
structure IsArchiveOf (entries : List ArchiveEntry) (files : Fields String) : Prop where
  ordered : (entries.map ArchiveEntry.path).Pairwise (· < ·)
  whole : (entries.map fun entry => (entry.path, entry.content)).Perm
    (files.map fun file => (file.1, Text.Utf8.encode file.2))

theorem IsArchiveOf.unique {first second : List ArchiveEntry} {files : Fields String}
    (h : IsArchiveOf first files) (k : IsArchiveOf second files) : first = second := by
  have same : Function.Injective fun entry : ArchiveEntry => (entry.path, entry.content) := by
    rintro ⟨path, content⟩ ⟨path', content'⟩ same
    cases same
    rfl
  have perm := (List.map_perm_map_iff same).mp (h.whole.trans k.whole.symm)
  refine perm.eq_of_pairwise (fun a b _ _ before after => ?_) (List.pairwise_map.mp h.ordered)
    (List.pairwise_map.mp k.ordered)
  exact absurd (String.lt_trans before after) (String.lt_irrefl a.path)

theorem isArchiveOf_archive [Machine] {project : Project} {files : Fields String}
    (made : generate project = .ok files) : IsArchiveOf (archive files) files := by
  rw [archive_of_generate made]
  constructor
  · rw [List.map_map]
    exact paths_byPath (nodup_of_generate made)
  · rw [List.map_map]
    exact (byPath_perm files).map _

theorem IsArchiveOf.exists_text {entries : List ArchiveEntry} {files : Fields String}
    (h : IsArchiveOf entries files) (distinct : (files.map Prod.fst).Nodup) :
    ∀ entry ∈ entries, ∃ text, files.get? entry.path = some text ∧
      entry.content = Text.Utf8.encode text := by
  intro entry there
  obtain ⟨⟨path, text⟩, among, same⟩ := List.mem_map.mp
    (h.whole.mem_iff.mp (List.mem_map_of_mem there))
  obtain ⟨samePath, sameContent⟩ := Prod.mk.inj same
  exact ⟨text, (Fields.get?_eq_some_iff distinct).mpr (samePath ▸ among), sameContent.symm⟩

/-- Data that have a name and a list of pages. -/
def IsExportable (data : Json) : Prop :=
  ∃ fields, data = .obj fields ∧ (Fields.value fields "name").isTruthy = true ∧
    ∃ pages, Fields.value fields "pages" = .arr pages

theorem isExportable_obj_iff {fields : Fields Json} :
    IsExportable (.obj fields) ↔ (!(Fields.value fields "name").isTruthy ||
      (Fields.value fields "pages").asArray?.isNone) = false := by
  have listed (value : Json) : value.asArray?.isNone = false ↔ ∃ pages, value = .arr pages := by
    cases value <;> simp [Json.asArray?]
  rw [Bool.or_eq_false_iff, Bool.not_eq_false', listed, IsExportable]
  simp

theorem exportArchive_eq_ok_iff [Machine] {data level : Json} {name : String}
    {entries : List ArchiveEntry} :
    exportArchive data level = .ok (name, entries) ↔
      IsExportable data ∧ checkLevel level = .ok () ∧
        ∃ project files, Project.ofJson data = .ok project ∧ generate project = .ok files ∧
          name = archiveFileName project.name ∧ entries = archive files := by
  cases data with
  | obj fields =>
    rw [isExportable_obj_iff, exportArchive]
    cases (!(Fields.value fields "name").isTruthy ||
      (Fields.value fields "pages").asArray?.isNone) with
    | true => exact ⟨nofun, fun h => nomatch h.1⟩
    | false =>
      constructor
      · intro h
        obtain ⟨project, read, h⟩ := bind_eq_ok.mp h
        obtain ⟨files, made, h⟩ := bind_eq_ok.mp h
        obtain ⟨_, allowed, h⟩ := bind_eq_ok.mp h
        obtain ⟨rfl, rfl⟩ := Prod.mk.inj (Except.ok.inj h)
        exact ⟨rfl, allowed, project, files, read, made, rfl, rfl⟩
      · rintro ⟨-, allowed, project, files, read, made, rfl, rfl⟩
        exact bind_eq_ok.mpr ⟨project, read, bind_eq_ok.mpr ⟨files, made,
          bind_eq_ok.mpr ⟨(), allowed, rfl⟩⟩⟩
  | _ => exact ⟨nofun, fun ⟨⟨_, same, _⟩, _⟩ => nomatch same⟩

/-- Data are exported as one archive under the name of their project, if they have a site. It holds
the files of the site, each of them once and nothing else, with every path before the next one. Each
entry is the text of its file in UTF-8: it is read back as the text, and its size and its checksum
are those of the text. An archive does not depend on the order that its files come in. -/
theorem entries_of_exportArchive [Machine] :
    (∀ data level name entries, exportArchive data level = .ok (name, entries) ↔
      IsExportable data ∧ checkLevel level = .ok () ∧
        ∃ project files, Project.ofJson data = .ok project ∧ generate project = .ok files ∧
          name = archiveFileName project.name ∧ IsArchiveOf entries files) ∧
    (∀ project files entries, generate project = .ok files → IsArchiveOf entries files →
      ∀ entry ∈ entries, ∃ text, files.get? entry.path = some text ∧
        Text.Utf8.decode entry.content = text ∧ entry.size = text.utf8ByteSize ∧
        Crc32.IsChecksum entry.checksum (Text.Utf8.encode text)) ∧
    ∀ first second : Fields String, (first.map Prod.fst).Nodup → (second.map Prod.fst).Nodup →
      (∀ path, first.get? path = second.get? path) → archive first = archive second := by
  refine ⟨fun data level name entries => ?_, fun project files entries made whole entry there => ?_,
    fun first second distinct distinct' same => ?_⟩
  · constructor
    · intro exported
      obtain ⟨fit, allowed, project, files, read, made, named, rfl⟩ :=
        exportArchive_eq_ok_iff.mp exported
      exact ⟨fit, allowed, project, files, read, made, named, isArchiveOf_archive made⟩
    · rintro ⟨fit, allowed, project, files, read, made, named, whole⟩
      exact exportArchive_eq_ok_iff.mpr ⟨fit, allowed, project, files, read, made, named,
        whole.unique (isArchiveOf_archive made)⟩
  · obtain ⟨text, among, content⟩ := whole.exists_text (nodup_of_generate made) entry there
    refine ⟨text, among, ?_, ?_, Crc32.isChecksum_iff.mpr ?_⟩
    · rw [content, Text.Utf8.decode_encode]
    · simp [ArchiveEntry.size, content, Text.Utf8.encode]
    · rw [ArchiveEntry.checksum, content]
  · have perm := Fields.perm_of_get?_eq distinct distinct' same
    rw [archive_eq, archive_eq, byPath_congr perm distinct]

def postcard : Json :=
  .obj [
    ("id", .str "p"),
    ("name", .str "Café"),
    ("pages", .arr [
      .obj [("id", .str "g1"), ("slug", .str "/menu"),
        ("tree", .arr [.obj [("id", .str "b1"), ("type", .str "Body")]])],
      .obj [("id", .str "g2"), ("name", .str "Entrée"), ("slug", .str "/"),
        ("tree", .arr [.obj [("id", .str "b2"), ("type", .str "Body")]])]])]

theorem entries_of_exportArchive_postcard :
    (∃ name entries, exportArchive postcard (.int usualLevel) = .ok (name, entries) ∧
      (entries.map ArchiveEntry.path).Pairwise (· < ·) ∧
      ∀ entry ∈ entries, entry.size = (Text.Utf8.decode entry.content).utf8ByteSize) ∧
    archive [("b.txt", "B"), ("a/index.tsx", "A")] =
      archive [("a/index.tsx", "A"), ("b.txt", "B")] := by
  have made : (exportArchive postcard (.int usualLevel)).isOk = true := by decide +kernel
  obtain ⟨exported, texts, orders⟩ := entries_of_exportArchive
  constructor
  · cases found : exportArchive postcard (.int usualLevel) with
    | error error =>
      rw [found] at made
      cases made
    | ok result =>
      obtain ⟨-, -, project, files, -, generated, -, whole⟩ := (exported _ _ _ _).mp found
      refine ⟨result.1, result.2, rfl, whole.ordered, fun entry there => ?_⟩
      obtain ⟨text, -, rfl, size, -⟩ := texts project files _ generated whole entry there
      exact size
  · refine orders _ _ (by decide) (by decide) fun path => ?_
    by_cases first : "b.txt" = path
    · subst first
      decide
    · simp [Fields.get?, first]

end Site

end Sitewright
