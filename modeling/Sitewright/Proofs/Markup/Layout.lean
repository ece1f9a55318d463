import Sitewright.Proofs.Markup.Faithful
import Sitewright.Proofs.Text.Split

namespace Sitewright

namespace Json

theorem printable_of_mem_escapeChar {c d : Char} (h : d ∈ escapeChar false c) : 0x20 ≤ d.toNat := by
  have named (e : Char) (h : (Reader.escaped? e).isSome) : 0x20 ≤ e.toNat := by
    unfold Reader.escaped? at h
    split at h
    all_goals first | decide | cases h
  have digits : ∀ n < 16, 0x20 ≤ (Text.hexDigit n).toNat := by decide
  rcases escapeChar_cases c with ⟨e, -, escaped, written⟩ | ⟨-, written⟩ |
    ⟨-, -, printable, written⟩
  · rw [written, List.mem_cons, List.mem_singleton] at h
    rcases h with rfl | rfl
    · decide
    · exact named d (escaped ▸ rfl)
  · rw [written, unitEscape, List.mem_cons, List.mem_cons] at h
    rcases h with rfl | rfl | h
    · decide
    · decide
    · obtain ⟨n, small, rfl⟩ := Text.exists_hexDigit_of_mem h
      exact digits n small
  · rw [written, List.mem_singleton] at h
    exact h ▸ printable

end Json

namespace Markup

open Reading

/-! ### One line -/

def OneLine (s : String) : Prop := ∀ c ∈ s.toList, c ≠ '\n' ∧ c ≠ '\r'

instance (s : String) : Decidable (OneLine s) :=
  decidable_of_iff ((s.toList.all fun c => c ≠ '\n' && c ≠ '\r') = true) (by simp [OneLine])

namespace OneLine

theorem append {first rest : String} (h : OneLine first) (k : OneLine rest) :
    OneLine (first ++ rest) := by
  intro c hc
  rw [String.toList_append, List.mem_append] at hc
  exact hc.elim (h c) (k c)

theorem join {sep : String} (h : OneLine sep) {pieces : List String}
    (each : ∀ piece ∈ pieces, OneLine piece) : OneLine (Text.join sep pieces) := by
  induction pieces with
  | nil => exact (by decide : OneLine "")
  | cons first rest ih =>
    obtain ⟨one, others⟩ := List.forall_mem_cons.mp each
    cases rest with
    | nil => exact one
    | cons second rest => exact (one.append h).append (ih others)

theorem ofWord {s : String} (h : IsWord s) : OneLine s := fun c hc =>
  ⟨ne_of_not_isDelimiter (h.2 c hc) (by decide), ne_of_not_isDelimiter (h.2 c hc) (by decide)⟩

theorem stringText (s : String) : OneLine (Json.stringText false s) := by
  have shown : ∀ c : Char, 0x20 ≤ c.toNat → c ≠ '\n' ∧ c ≠ '\r' := by
    intro c printable
    constructor <;> rintro rfl <;> exact absurd printable (by decide)
  intro d there
  rw [Json.toList_stringText, List.mem_cons, List.mem_append, List.mem_singleton] at there
  rcases there with rfl | there | rfl
  · decide
  · obtain ⟨c, -, there⟩ := List.mem_flatMap.mp there
    exact shown d (Json.printable_of_mem_escapeChar there)
  · decide

theorem texts (entries : Fields String) :
    OneLine (Json.compactFields false (Json.texts entries)) := by
  have field : ∀ entry : String × String,
      OneLine (Json.stringText false entry.1 ++ ": " ++ Json.stringText false entry.2) :=
    fun entry => ((stringText entry.1).append (by decide)).append (stringText entry.2)
  induction entries with
  | nil => exact (by decide : OneLine "")
  | cons entry entries ih =>
    cases entries with
    | nil => exact field entry
    | cons next entries => exact ((field entry).append (by decide : OneLine ", ")).append ih

theorem braced {s : String} (h : OneLine s) : OneLine (braced s) :=
  ((by decide : OneLine "\x7b").append h).append (by decide)

theorem writeText (s : String) : OneLine (writeText s) := by
  unfold Markup.writeText
  split
  · next plain =>
    obtain ⟨noBreak, noReturn⟩ := (flush_of_isPlain plain).noBreak
    exact fun c hc => ⟨fun same => noBreak (same ▸ hc), fun same => noReturn (same ▸ hc)⟩
  · exact (stringText s).braced

theorem writeAttribute {name : String} (h : IsWord name) {value : Json}
    (setting : isSetting value = true) : OneLine (writeAttribute name value) := by
  have named : OneLine (name ++ "=") := (ofWord h).append (by decide)
  cases value with
  | bool set =>
    cases set with
    | true => exact ofWord h
    | false => exact (by decide : OneLine "")
  | str s =>
    rw [Markup.writeAttribute]
    split
    · exact named.append (stringText s).braced
    · next safe =>
      refine (((ofWord h).append (by decide)).append fun c hc => ?_).append (by decide)
      have plain := List.any_eq_false.mp (Bool.not_eq_true _ ▸ safe) c hc
      constructor <;> rintro rfl <;> exact plain rfl
  | _ => cases setting

theorem writeStyle (style : Fields String) : OneLine (writeStyle (.obj (Json.texts style))) := by
  unfold Markup.writeStyle
  split
  · have inner := ((by decide : OneLine "\x7b").append (texts style)).append
      (by decide : OneLine "\x7d")
    exact (by decide : OneLine "style=").append inner.braced
  · exact (by decide : OneLine "")

theorem pad (depth : Int) : OneLine (pad depth) := fun _ hc =>
  ⟨fun same => not_mem_pad (by decide) depth (same ▸ hc),
    fun same => not_mem_pad (by decide) depth (same ▸ hc)⟩

end OneLine

namespace Tag

variable {tag : Tag}

theorem Sound.oneLine_parts (h : tag.Sound) : OneLine (Text.join " " tag.parts) := by
  refine OneLine.join (by decide) fun part there => ?_
  rcases List.mem_cons.mp there with rfl | there
  · exact .ofWord h.name
  · rcases List.mem_append.mp (List.mem_of_mem_filter there) with there | there
    · obtain ⟨a, ha, rfl⟩ := List.mem_map.mp there
      exact .writeAttribute (h.words a.1 (List.mem_map_of_mem ha)) (h.settings a ha)
    · rw [List.mem_singleton.mp there]
      exact .writeStyle tag.style

theorem Sound.oneLine_opening (h : tag.Sound) : OneLine tag.opening :=
  ((by decide : OneLine "<").append h.oneLine_parts).append (by decide)

theorem Sound.oneLine_alone (h : tag.Sound) : OneLine tag.alone :=
  ((by decide : OneLine "<").append h.oneLine_parts).append (by decide)

theorem Sound.oneLine_closing (h : tag.Sound) : OneLine tag.closing :=
  ((by decide : OneLine "</").append (.ofWord h.name)).append (by decide)

end Tag

namespace Element

theorem linesList_eq_flatMap (depth : Int) (elements : List Element) :
    linesList depth elements = elements.flatMap (lines depth) := by
  induction elements with
  | nil => rfl
  | cons element rest ih => rw [linesList, ih, List.flatMap_cons]

theorem Sound.oneLine {element : Element} (h : element.Sound) (depth : Int) :
    ∀ line ∈ element.lines depth, OneLine line := by
  induction h generalizing depth with
  | closed h =>
    intro line there
    rw [List.mem_singleton.mp there]
    exact (OneLine.pad depth).append h.oneLine_alone
  | inline h text =>
    intro line there
    rw [List.mem_singleton.mp there]
    exact (((OneLine.pad depth).append h.oneLine_opening).append (.writeText text)).append
      h.oneLine_closing
  | block h text _ ih =>
    intro line there
    simp only [lines, List.cons_append, List.mem_cons, List.mem_append, List.not_mem_nil, or_false]
      at there
    -- the opening line, the line of the text, the lines of the children and the closing line
    rcases there with rfl | (there | there) | rfl
    · exact (OneLine.pad depth).append h.oneLine_opening
    · split at there
      · cases there
      · rw [List.mem_singleton.mp there]
        exact (OneLine.pad (depth + 1)).append (.writeText text)
    · rw [linesList_eq_flatMap] at there
      obtain ⟨child, hChild, there⟩ := List.mem_flatMap.mp there
      exact ih child hChild (depth + 1) line there
    · exact (OneLine.pad depth).append h.oneLine_closing

end Element

/-! ### Further in -/

theorem pad_add {depth more : Int} (h : 0 ≤ depth) (k : 0 ≤ more) :
    pad (depth + more) = pad more ++ pad depth := by
  have all : (2 * (depth + more)).toNat = (2 * more).toNat + (2 * depth).toNat := by omega
  rw [← String.toList_inj, String.toList_append, toList_pad, toList_pad, toList_pad, all,
    List.replicate_add]

namespace Element

mutual

/-- By induction on the element: what is further in than its first line stays so. -/
theorem lines_add {depth more : Int} (h : 0 ≤ depth) (k : 0 ≤ more) : ∀ element : Element,
    element.lines (depth + more) = (element.lines depth).map (pad more ++ ·)
  | .closed tag => by simp [lines, pad_add h k, String.append_assoc]
  | .inline tag text => by simp [lines, pad_add h k, String.append_assoc]
  | .block tag text children => by
    have inside : depth + more + 1 = depth + 1 + more := by omega
    have inner : (if text = "" then [] else [pad (depth + more + 1) ++ writeText text]) =
        (if text = "" then [] else [pad (depth + 1) ++ writeText text]).map (pad more ++ ·) := by
      rw [inside, pad_add (Int.add_nonneg h Int.one_nonneg) k]
      split <;> simp [String.append_assoc]
    rw [lines, lines, inner, inside, linesList_add (Int.add_nonneg h Int.one_nonneg) k children,
      pad_add h k]
    simp [String.append_assoc]

theorem linesList_add {depth more : Int} (h : 0 ≤ depth) (k : 0 ≤ more) :
    ∀ elements : List Element,
      linesList (depth + more) elements = (linesList depth elements).map (pad more ++ ·)
  | [] => rfl
  | element :: rest => by
    rw [linesList, linesList, List.map_append, lines_add h k element, linesList_add h k rest]

end

end Element

/-! ### The lines of a tree -/

def nodeLines (depth : Int) (node : Node) : Except Error (List String) := do
  return (← element node).lines depth

theorem mapM_nodeLines {tree : List Node} {shown : List Element} (h : elements tree = .ok shown)
    (depth : Int) : tree.mapM (nodeLines depth) = .ok (shown.map (Element.lines depth)) := by
  induction tree generalizing shown with
  | nil =>
    cases h
    rfl
  | cons node rest ih =>
    rw [elements] at h
    obtain ⟨first, made, h⟩ := bind_eq_ok.mp h
    obtain ⟨others, madeRest, h⟩ := bind_eq_ok.mp h
    cases h
    rw [List.mapM_cons, nodeLines, made, ih madeRest]
    rfl

/-- A node that is read from JSON has lines at every depth, if no number of its grids is infinite.
None of them holds a line break, whatever is written on it, and further in they are the same lines
behind more blanks. So the lines of all nodes of a tree are found again in its text, where it
breaks; a tree without nodes has an empty text. -/
theorem lines_of_read [Machine] {tree : List Node}
    (read : ∀ node ∈ tree, ∃ place data, data.isDistinct = true ∧ Node.read place data = .ok node)
    (finite : ∀ node ∈ Node.walkList tree, FiniteGrid node) :
    (∀ node ∈ tree, ∃ lines : Int → List String,
      (∀ depth, nodeLines depth node = .ok (lines depth)) ∧
      (∀ depth more : Nat, lines (depth + more) = (lines depth).map (pad more ++ ·)) ∧
      ∀ depth, ∀ line ∈ lines depth, OneLine line) ∧
    ∀ depth, ∃ lines text, tree.mapM (nodeLines depth) = .ok lines ∧
      render depth tree = .ok text ∧
      if tree = [] then text = ""
      else Text.split '\n' text.toList = lines.flatten.map String.toList := by
  have sound : ∀ found ∈ Node.walkList tree, found.Distinct ∧ FiniteGrid found := by
    intro found there
    refine ⟨?_, finite found there⟩
    rw [Node.walkList_eq_flatMap] at there
    obtain ⟨node, hNode, there⟩ := List.mem_flatMap.mp there
    obtain ⟨place, data, once, made⟩ := read node hNode
    exact Node.distinct_of_ofJson once made found there
  constructor
  · intro node hNode
    obtain ⟨shown, made, whole, -⟩ := exists_element fun found there => sound found <| by
      rw [Node.walkList_eq_flatMap]
      exact List.mem_flatMap.mpr ⟨node, hNode, there⟩
    refine ⟨fun depth => shown.lines depth, fun depth => ?_, fun depth more => ?_, whole.oneLine⟩
    · rw [nodeLines, made]
      rfl
    · exact shown.lines_add (Int.natCast_nonneg depth) (Int.natCast_nonneg more)
  · intro depth
    obtain ⟨shown, made, whole, shows⟩ := exists_elements sound
    -- an empty text has one empty piece, so a tree without lines is apart
    refine ⟨_, _, mapM_nodeLines made depth, by rw [render, made]; rfl, ?_⟩
    split
    · next none =>
      subst none
      cases made
      rfl
    · next some =>
      rw [← List.flatMap_def, ← Element.linesList_eq_flatMap]
      refine Text.split_join rfl (linesList_ne_nil depth fun none => ?_) fun line there => ?_
      · subst none
        cases shows
        exact some rfl
      · rw [Element.linesList_eq_flatMap] at there
        obtain ⟨part, hPart, there⟩ := List.mem_flatMap.mp there
        exact fun broken => ((whole part hPart).oneLine depth line there _ broken).1 rfl

theorem lines_of_read_unruly :
    (∀ node ∈ unrulyTree, ∃ place data, data.isDistinct = true ∧
      Node.read place data = .ok node) ∧
    (∀ node ∈ Node.walkList unrulyTree, FiniteGrid node) ∧
    ∃ lines text, unrulyTree.mapM (nodeLines 3) = .ok lines ∧ render 3 unrulyTree = .ok text ∧
      Text.split '\n' text.toList = lines.flatten.map String.toList := by
  have once : Json.areDistinct unruly = true := by decide +kernel
  have all : Shape.items (.named "tree") Node.read unruly = .ok unrulyTree := rfl
  have read : ∀ node ∈ unrulyTree, ∃ place data, data.isDistinct = true ∧
      Node.read place data = .ok node := by
    intro node hNode
    obtain ⟨place, data, mem, made⟩ := Shape.exists_read_of_items all hNode
    exact ⟨place, data, Json.isDistinct_of_mem once mem, made⟩
  have finite : ∀ node ∈ Node.walkList unrulyTree, FiniteGrid node := by decide +kernel
  obtain ⟨lines, text, made, written, broken⟩ := (lines_of_read read finite).2 3
  exact ⟨read, finite, lines, text, made, written, broken⟩

end Markup

end Sitewright
