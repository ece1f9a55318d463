namespace Sitewright.Text

/-- The pieces between the separators: one more than there are separators. -/
def split (sep : Char) : List Char → List (List Char)
  | [] => [[]]
  | c :: rest =>
    if c = sep then [] :: split sep rest
    else match split sep rest with
      | [] => [[c]]
      | piece :: pieces => (c :: piece) :: pieces

theorem split_of_not_mem {sep : Char} {cs : List Char} (h : sep ∉ cs) : split sep cs = [cs] := by
  induction cs with
  | nil => rfl
  | cons c rest ih =>
    simp only [List.mem_cons, not_or] at h
    rw [split, if_neg (Ne.symm h.1), ih h.2]

theorem split_append {sep : Char} {piece : List Char} (h : sep ∉ piece) (rest : List Char) :
    split sep (piece ++ sep :: rest) = piece :: split sep rest := by
  induction piece with
  | nil => simp [split]
  | cons c piece ih =>
    simp only [List.mem_cons, not_or] at h
    rw [List.cons_append, split, if_neg (Ne.symm h.1), ih h.2]

def joinWith (sep : Char) : List (List Char) → List Char
  | [] => []
  | [piece] => piece
  | piece :: next :: pieces => piece ++ sep :: joinWith sep (next :: pieces)

theorem split_ne_nil (sep : Char) (cs : List Char) : split sep cs ≠ [] := by
  cases cs with
  | nil => simp [split]
  | cons c rest =>
    simp only [split]
    split
    · simp
    · split <;> simp

@[simp] theorem joinWith_split (sep : Char) (cs : List Char) : joinWith sep (split sep cs) = cs := by
  induction cs with
  | nil => rfl
  | cons c rest ih =>
    have hne := split_ne_nil sep rest
    simp only [split]
    split
    · next h =>
      cases hs : split sep rest with
      | nil => exact absurd hs hne
      | cons piece pieces => simp [joinWith, ← hs, ih, h]
    · cases hs : split sep rest with
      | nil => exact absurd hs hne
      | cons piece pieces =>
        cases pieces with
        | nil => simpa [hs, joinWith] using ih
        | cons next more => simpa [hs, joinWith] using ih

def join (sep : String) : List String → String
  | [] => ""
  | [s] => s
  | s :: next :: rest => s ++ sep ++ join sep (next :: rest)

theorem toList_join {sep : String} {c : Char} (h : sep.toList = [c]) (first : String)
    (rest : List String) :
    (join sep (first :: rest)).toList = first.toList ++ rest.flatMap fun s => c :: s.toList := by
  induction rest generalizing first with
  | nil => simp [join]
  | cons next rest ih =>
    rw [join, String.toList_append, String.toList_append, h, ih next]
    simp

def cut? (sep : Char) : List Char → Option (List Char × List Char)
  | [] => none
  | c :: rest =>
    if c = sep then some ([], rest) else (cut? sep rest).map fun p => (c :: p.1, p.2)

end Sitewright.Text
