import Sitewright.Listing.Cursor
import Sitewright.Proofs.Time.Iso

namespace Sitewright

open Time (DateTime)
open Time.Iso (IsMinutes)

theorem Text.cut?_append {sep : Char} {before : List Char} (h : sep ∉ before) (rest : List Char) :
    Text.cut? sep (before ++ sep :: rest) = some (before, rest) := by
  induction before with
  | nil => simp [Text.cut?]
  | cons c before ih =>
    simp only [List.mem_cons, not_or] at h
    rw [List.cons_append, Text.cut?, if_neg (Ne.symm h.1), ih h.2]
    rfl

theorem Text.cut?_eq_none {sep : Char} {cs : List Char} : Text.cut? sep cs = none ↔ sep ∉ cs := by
  induction cs with
  | nil => simp [Text.cut?]
  | cons c rest ih =>
    rw [Text.cut?, List.mem_cons]
    split
    · next same => simp [same]
    · next other => rw [Option.map_eq_none_iff, ih, not_or, and_iff_right (Ne.symm other)]

theorem Text.cut?_eq_some {sep : Char} {cs before after : List Char} :
    Text.cut? sep cs = some (before, after) ↔ cs = before ++ sep :: after ∧ sep ∉ before := by
  constructor
  · intro cut
    induction cs generalizing before with
    | nil => cases cut
    | cons c rest ih =>
      rw [Text.cut?] at cut
      split at cut
      · next same =>
        cases cut
        exact ⟨by rw [same, List.nil_append], List.not_mem_nil⟩
      · next other =>
        obtain ⟨⟨piece, _⟩, found, same⟩ := Option.map_eq_some_iff.mp cut
        cases same
        obtain ⟨rfl, free⟩ := ih found
        exact ⟨rfl, List.not_mem_cons_of_ne_of_not_mem (Ne.symm other) free⟩
  · rintro ⟨rfl, free⟩
    exact Text.cut?_append free after

theorem bar_not_mem_iso {t : DateTime} (minutes : ∀ o ∈ t.offset, IsMinutes o) :
    '|' ∉ t.iso.toList := by
  have digit (width n : Nat) : '|' ∉ Text.padded width n :=
    fun h => Text.ne_of_mem_padded h (by decide) rfl
  have fraction : '|' ∉ Time.Iso.fraction t.micro := by
    simp only [Time.Iso.fraction]
    split <;> simp [digit]
  have zone : '|' ∉ Time.Iso.zone t.offset := by
    rcases place : t.offset with _ | offset
    · exact List.not_mem_nil
    · rw [Time.Iso.zone, Time.Iso.offsetText_of_isMinutes (minutes offset place)]
      split <;> simp [digit]
  rw [DateTime.toList_iso]
  simp [DateTime.dateText, DateTime.clockText, digit, fraction, zone]

namespace Cursor

theorem ofText_toText {cursor : Cursor} (valid : cursor.time.Valid)
    (minutes : ∀ o ∈ cursor.time.offset, IsMinutes o) : ofText cursor.toText = .ok cursor := by
  have text : cursor.toText.toList = cursor.time.iso.toList ++ '|' :: cursor.id.toList := by
    simp [toText]
  rw [ofText, text, Text.cut?_append (bar_not_mem_iso minutes)]
  simp only [String.ofList_toList, DateTime.ofIso?_iso valid minutes]

theorem ofText_eq_ok_iff {text : String} {cursor : Cursor} :
    ofText text = .ok cursor ↔ ∃ before : String, text = before ++ "|" ++ cursor.id ∧
      '|' ∉ before.toList ∧ DateTime.ofIso? before = some cursor.time := by
  rw [ofText]
  constructor
  · intro read
    split at read
    · cases read
    · next before after cut =>
      obtain ⟨whole, free⟩ := Text.cut?_eq_some.mp cut
      split at read
      · cases read
      · next time there =>
        cases read
        refine ⟨String.ofList before, ?_, by rwa [String.toList_ofList], there⟩
        apply String.toList_injective
        simp [whole]
  · rintro ⟨before, rfl, free, there⟩
    have whole : (before ++ "|" ++ cursor.id).toList =
        before.toList ++ '|' :: cursor.id.toList := by simp
    rw [whole, Text.cut?_append free]
    simp only [String.ofList_toList, there]

theorem ofText_of_not_mem {text : String} (h : '|' ∉ text.toList) :
    ofText text = .error .cursorUnreadable := by
  rw [ofText, Text.cut?_eq_none.mpr h]

theorem toText_ne_empty (cursor : Cursor) : cursor.toText ≠ "" := by
  intro empty
  have text := congrArg String.toList empty
  simp [toText] at text

/-- The cursor of a row is read back from its text, with the same time, the same offset and the same
identifier. A text is read as a cursor if there is a time before its first bar, and a text without a
bar is refused. -/
theorem ofText_of_ofRow {time : DateTime} (valid : time.Valid)
    (minutes : ∀ o ∈ time.offset, IsMinutes o) (id : String) :
    (∃ cursor, ofRow (some time) (.str id) = .ok cursor ∧
      ofText cursor.toText = .ok { time, id }) ∧
    (∀ text cursor, ofText text = .ok cursor ↔
      ∃ before : String, text = before ++ "|" ++ cursor.id ∧ '|' ∉ before.toList ∧
        DateTime.ofIso? before = some cursor.time) ∧
    ∀ text : String, '|' ∉ text.toList →
      ∃ error, ofText text = .error error ∧ error.kind = some .validation := by
  refine ⟨⟨⟨time, id⟩, rfl, ofText_toText valid minutes⟩, fun _ _ => ofText_eq_ok_iff, ?_⟩
  exact fun text free => ⟨_, ofText_of_not_mem free, rfl⟩

def westernTime : DateTime where
  year := 2024
  month := 2
  day := 29
  hour := 23
  micro := 70
  offset := some (-1800000000)

theorem ofText_of_ofRow_western :
    (westernTime.Valid ∧ ∀ o ∈ westernTime.offset, IsMinutes o) ∧
    (∃ cursor, ofRow (some westernTime) (.str "||") = .ok cursor ∧
      cursor.toText = "2024-02-29T23:00:00.000070-00:30|||" ∧
      ofText cursor.toText = .ok ⟨westernTime, "||"⟩) ∧
    '|' ∉ "2024-02-29".toList ∧
    ∃ error, ofText "2024-02-29" = .error error ∧ error.kind = some .validation := by
  have valid : westernTime.Valid := by decide
  have minutes : ∀ o ∈ westernTime.offset, IsMinutes o := by
    rintro _ ⟨⟩
    unfold IsMinutes
    decide
  have free : '|' ∉ "2024-02-29".toList := by decide
  obtain ⟨⟨cursor, made, read⟩, -, refused⟩ := ofText_of_ofRow valid minutes "||"
  refine ⟨⟨valid, minutes⟩, ⟨cursor, made, ?_, read⟩, free, refused _ free⟩
  cases made
  decide

end Cursor

end Sitewright
