import Sitewright.Proofs.Markup.Tags

namespace Sitewright.Markup

open Reading

namespace Reading

/-! ### Texts -/

def gap (depth : Int) : List Char := '\n' :: (pad depth).toList

theorem toList_pad (depth : Int) : (pad depth).toList = List.replicate (2 * depth).toNat ' ' := by
  simp [pad]

theorem dropWhile_replicate_append (n : Nat) (cs : List Char) :
    (List.replicate n ' ' ++ cs).dropWhile Text.isBlank = cs.dropWhile Text.isBlank := by
  have blank : Text.isBlank ' ' = true := by decide
  induction n with
  | zero => rfl
  | succ n ih => rw [List.replicate_succ, List.cons_append, List.dropWhile_cons_of_pos blank, ih]

def shownText (text : String) : List Jsx := if text = "" then [] else [.value (.str text)]

structure Flush (cs : List Char) : Prop where
  noBreak : '\n' ∉ cs ∧ '\r' ∉ cs
  start : cs.dropWhile Text.isBlank = cs
  stop : Text.dropWhileEnd Text.isBlank cs = cs

theorem dropWhile_eq_self {p : Char → Bool} {cs : List Char} (h : cs.head?.any p = false) :
    cs.dropWhile p = cs := by
  cases cs with
  | nil => rfl
  | cons c cs => exact List.dropWhile_cons_of_neg (by simpa using h)

theorem flush_of_isPlain {cs : List Char} (h : isPlain cs = true) : Flush cs := by
  simp only [isPlain, Bool.and_eq_true, Bool.not_eq_true', List.any_eq_false] at h
  obtain ⟨⟨safe, first⟩, last⟩ := h
  refine ⟨⟨fun hc => safe _ hc rfl, fun hc => safe _ hc rfl⟩, dropWhile_eq_self first, ?_⟩
  rw [Text.dropWhileEnd, dropWhile_eq_self (by rwa [List.head?_reverse]), List.reverse_reverse]

theorem literal_of_trimLines (lines : List (List Char)) {cs : List Char} {s : String}
    (noReturn : '\r' ∉ cs) (h : trimLines (Text.split '\n' cs) = lines)
    (only : lines.filter (· ≠ []) = if s = "" then [] else [s.toList]) :
    literal cs = shownText s := by
  have same : (cs.map fun c => if c = '\r' then '\n' else c) = cs := by
    refine (List.map_congr_left fun c hc => ?_).trans (List.map_id cs)
    exact if_neg fun (isReturn : c = '\r') => noReturn (isReturn ▸ hc)
  rw [literal, same, h, only, shownText]
  by_cases empty : s = ""
  · simp [empty]
  · simp [empty, Text.joinWith]

theorem not_mem_pad {c : Char} (h : c ≠ ' ') (depth : Int) : c ∉ (pad depth).toList := by
  rw [toList_pad]
  exact fun hc => h (List.eq_of_mem_replicate hc)

@[simp] theorem dropWhile_pad (depth : Int) (cs : List Char) :
    ((pad depth).toList ++ cs).dropWhile Text.isBlank = cs.dropWhile Text.isBlank := by
  rw [toList_pad, dropWhile_replicate_append]

theorem not_mem_gap {c : Char} (noBreak : c ≠ '\n') (noSpace : c ≠ ' ') (depth : Int) :
    c ∉ gap depth := by
  simp [gap, noBreak, not_mem_pad noSpace]

theorem literal_flush {s : String} (h : Flush s.toList) : literal s.toList = shownText s := by
  refine literal_of_trimLines [s.toList] h.noBreak.2 ?_ ?_
  · rw [Text.split_of_not_mem h.noBreak.1]
    rfl
  · by_cases empty : s = "" <;> simp [empty]

@[simp] theorem literal_gap (depth : Int) : literal (gap depth) = [] := by
  have noBreak : '\n' ∉ (pad depth).toList := not_mem_pad (by decide) depth
  have bare := dropWhile_pad depth []
  rw [List.append_nil] at bare
  refine literal_of_trimLines (s := "") [[], []] (not_mem_gap (by decide) (by decide) depth) ?_ rfl
  rw [gap, ← List.nil_append ('\n' :: _), Text.split_append List.not_mem_nil,
    Text.split_of_not_mem noBreak]
  show [Text.dropWhileEnd Text.isBlank [], (pad depth).toList.dropWhile Text.isBlank] = _
  rw [bare]
  rfl

theorem literal_line {s : String} (h : Flush s.toList) (depth after : Int) :
    literal (gap depth ++ s.toList ++ gap after) = shownText s := by
  have noBreak : '\n' ∉ (pad depth).toList ++ s.toList := by
    simp [not_mem_pad, h.noBreak.1]
  have bare := dropWhile_pad after []
  rw [List.append_nil] at bare
  refine literal_of_trimLines [[], s.toList, []] ?_ ?_ ?_
  · simp [not_mem_gap, h.noBreak.2]
  · have written : gap depth ++ s.toList ++ gap after =
        [] ++ '\n' :: (((pad depth).toList ++ s.toList) ++ '\n' :: (pad after).toList) := by
      simp [gap]
    rw [written, Text.split_append List.not_mem_nil, Text.split_append noBreak,
      Text.split_of_not_mem (not_mem_pad (by decide) after)]
    show [Text.dropWhileEnd Text.isBlank [], Text.trimChars ((pad depth).toList ++ s.toList),
      (pad after).toList.dropWhile Text.isBlank] = _
    rw [bare, Text.trimChars, dropWhile_pad, h.start, h.stop]
    rfl
  · by_cases empty : s = "" <;> simp [empty]

theorem run_content [Machine] (text : List Char) {cs : List Char} (nest : Nest)
    (h : ∀ c ∈ cs, ['<', '>', '\x7b', '\x7d', '&'].contains c = false) :
    run (.content text, nest) cs = some (.content (text ++ cs), nest) := by
  refine run_gather .content (['<', '>', '\x7b', '\x7d', '&'].contains · = false)
    (fun text c plain => ?_) text h
  simp only [List.contains_cons, List.contains_nil, Bool.or_false, Bool.or_eq_false_iff,
    beq_eq_false_iff_ne] at plain
  simp [step, plain]

theorem run_gap [Machine] (text : List Char) (nest : Nest) (depth : Int) :
    run (.content text, nest) (gap depth) = some (.content (text ++ gap depth), nest) := by
  refine run_content text nest fun c hc => ?_
  rw [gap, toList_pad, List.mem_cons] at hc
  rcases hc with rfl | hc
  · rfl
  · rw [List.eq_of_mem_replicate hc]
    rfl

theorem step_content [Machine] (text : List Char) (nest : Nest) :
    step (.content text, nest) '<' = some (.opened, nest.push (literal text)) := rfl

theorem run_writeText [Machine] (s : String) {before : List Char} (nothing : literal before = [])
    (nest : Nest) :
    (Flush s.toList ∧ run (.content before, nest) (writeText s).toList =
      some (.content (before ++ s.toList), nest)) ∨
    run (.content before, nest) (writeText s).toList =
      some (.content [], nest.push (shownText s)) := by
  cases plain : isPlain s.toList with
  | true =>
    refine .inl ⟨flush_of_isPlain plain, ?_⟩
    rw [writeText, if_pos plain]
    refine run_content before nest fun c hc => ?_
    simp only [isPlain, Bool.and_eq_true, Bool.not_eq_true', List.any_eq_false] at plain
    have safe := plain.1.1 c hc
    simp only [isUnsafeInText, Bool.or_eq_true, decide_eq_true_eq, not_or] at safe
    simp [safe]
  | false =>
    refine .inr ?_
    have nonempty : s ≠ "" := by
      rintro rfl
      cases plain
    have written : (writeText s).toList = '\x7b' :: ((Json.str s).literal.toList ++ ['\x7d']) := by
      simp [writeText, plain, braced]
    have start : step (.content before, nest) '\x7b' =
        some (.shown (.plain 0) [], nest.push (literal before)) := rfl
    rw [written, run_cons_of start, nothing, Nest.push_nil, shownText, if_neg nonempty]
    refine run_expression .shown (fun scan next text c one => ?_) ?_ (legible_str s)
    · simp [step, one]
    · have last : Scan.step (.plain 0) '\x7d' = none := rfl
      simp [step, last, (legible_str s).2]

@[simp] theorem literal_nil : literal [] = [] := rfl

theorem run_inline [Machine] (s : String) (nest : Nest) (cs : List Char) :
    run (.content [], nest) ((writeText s).toList ++ '<' :: cs) =
      run (.opened, nest.push (shownText s)) cs := by
  rcases run_writeText s literal_nil nest with ⟨flush, read⟩ | read
  · rw [run_append_of read, run_cons_of (step_content _ _), List.nil_append, literal_flush flush]
  · rw [run_append_of read, run_cons_of (step_content _ _), literal_nil, Nest.push_nil]

/-- When the next line comes, what has been read is the nest. -/
def Settled (state : Mode × Nest) (nest : Nest) : Prop :=
  ∃ text before, state = (.content text, before) ∧
    ∀ depth, before.push (literal (text ++ gap depth)) = nest

theorem settled_content (nest : Nest) : Settled (.content [], nest) nest :=
  ⟨[], nest, rfl, fun depth => by rw [List.nil_append, literal_gap, Nest.push_nil]⟩

theorem Settled.run_tag [Machine] {state : Mode × Nest} {nest : Nest} (h : Settled state nest)
    (depth : Int)
    (cs : List Char) : run state (gap depth ++ '<' :: cs) = run (.opened, nest) cs := by
  obtain ⟨text, before, rfl, settled⟩ := h
  rw [run_append_of (run_gap text before depth), run_cons_of (step_content _ _), settled depth]

theorem run_line [Machine] (s : String) (nest : Nest) (depth : Int) :
    ∃ state, run (.content [], nest) (gap depth ++ (writeText s).toList) = some state ∧
      Settled state (nest.push (shownText s)) := by
  rw [run_append_of (run_gap [] nest depth), List.nil_append]
  rcases run_writeText s (literal_gap depth) nest with ⟨flush, read⟩ | read
  · exact ⟨_, read, gap depth ++ s.toList, nest, rfl, fun after => by
      rw [literal_line flush depth after]⟩
  · exact ⟨_, read, settled_content _⟩

end Reading

/-! ### Elements -/

namespace Element

inductive Sound : Element → Prop
  | closed {tag : Tag} (h : tag.Sound) : Sound (.closed tag)
  | inline {tag : Tag} (h : tag.Sound) (text : String) : Sound (.inline tag text)
  | block {tag : Tag} (h : tag.Sound) (text : String) {children : List Element}
      (below : ∀ child ∈ children, Sound child) : Sound (.block tag text children)

mutual

def shown : Element → Jsx
  | .closed tag => .element tag.name tag.given []
  | .inline tag text => .element tag.name tag.given (shownText text)
  | .block tag text children =>
    .element tag.name tag.given (shownText text ++ shownList children)

def shownList : List Element → List Jsx
  | [] => []
  | element :: rest => element.shown :: shownList rest

end

theorem shownList_eq_map (elements : List Element) : shownList elements = elements.map shown := by
  induction elements with
  | nil => rfl
  | cons element rest ih => rw [shownList, ih, List.map_cons]

theorem Sound.distinct_shown {element : Element} (h : element.Sound) : element.shown.Distinct := by
  have texts : ∀ text, ∀ jsx ∈ shownText text, jsx.Distinct := by
    intro text jsx hJsx
    unfold shownText at hJsx
    split at hJsx
    · cases hJsx
    · rw [List.mem_singleton.mp hJsx]
      exact .value _
  induction h with
  | closed h => exact .element h.distinct_given nofun
  | inline h text => exact .element h.distinct_given (texts text)
  | block h text _ ih =>
    refine .element h.distinct_given fun jsx hJsx => ?_
    rcases List.mem_append.mp hJsx with hJsx | hJsx
    · exact texts text jsx hJsx
    · rw [shownList_eq_map] at hJsx
      obtain ⟨child, hChild, rfl⟩ := List.mem_map.mp hJsx
      exact ih child hChild

end Element

namespace Reading

def below (lines : List String) : List Char := lines.flatMap fun line => '\n' :: line.toList

@[simp] theorem below_append (first rest : List String) :
    below (first ++ rest) = below first ++ below rest :=
  List.flatMap_append

theorem below_cons (depth : Int) (content : String) (rest : List String) :
    below ((pad depth ++ content) :: rest) = gap depth ++ content.toList ++ below rest := by
  simp [below, gap]

theorem toList_opening (tag : Tag) :
    tag.opening.toList = '<' :: ((Text.join " " tag.parts).toList ++ ['>']) := by
  simp [Tag.opening]

theorem toList_alone (tag : Tag) :
    tag.alone.toList = '<' :: ((Text.join " " tag.parts).toList ++ [' ', '/', '>']) := by
  simp [Tag.alone]

theorem toList_closing (tag : Tag) :
    tag.closing.toList = '<' :: '/' :: (tag.name.toList ++ ['>']) := by
  simp [Tag.closing]

theorem run_openingLine [Machine] {tag : Tag} (h : tag.Sound) {state : Mode × Nest} {nest : Nest}
    (settled : Settled state nest) (depth : Int) :
    run state (gap depth ++ tag.opening.toList) =
      some (.content [], nest.inside tag.name tag.given) := by
  rw [toList_opening, settled.run_tag, run_opening h]

theorem run_closingLine [Machine] {tag : Tag} (h : tag.Sound) {state : Mode × Nest} {nest : Nest}
    {found : List Jsx} (settled : Settled state ((nest.inside tag.name tag.given).push found))
    (depth : Int) :
    run state (gap depth ++ tag.closing.toList) =
      some (.content [], nest.push [.element tag.name tag.given found]) := by
  rw [toList_closing, settled.run_tag, run_closing h.name (nest.leave?_inside _ _ _)]

theorem run_textLine [Machine] (s : String) (nest : Nest) (depth : Int) :
    ∃ state, run (.content [], nest)
        (below (if s = "" then [] else [pad depth ++ writeText s])) = some state ∧
      Settled state (nest.push (shownText s)) := by
  by_cases empty : s = ""
  · rw [shownText, if_pos empty, if_pos empty, Nest.push_nil]
    exact ⟨_, rfl, settled_content nest⟩
  · rw [if_neg empty, below_cons]
    simpa [below] using run_line s nest depth

mutual

/-- By induction on the element: its lines take what was settled before them to what is settled
with the element after it, and leave every open element open. -/
theorem run_lines [Machine] : ∀ {element : Element}, element.Sound → ∀ (depth : Int)
    {state : Mode × Nest} {nest : Nest}, Settled state nest →
    ∃ next, run state (below (element.lines depth)) = some next ∧
      Settled next (nest.push [element.shown])
  | .closed tag, sound, depth, state, nest, settled => by
    cases sound with | closed h => ?_
    refine ⟨_, ?_, settled_content _⟩
    have written : below (Element.lines depth (.closed tag)) = gap depth ++ tag.alone.toList := by
      simp [Element.lines, below, gap]
    rw [written, toList_alone, settled.run_tag, run_alone h, Element.shown]
  | .inline tag text, sound, depth, state, nest, settled => by
    cases sound with | inline h => ?_
    refine ⟨_, ?_, settled_content _⟩
    have written : below (Element.lines depth (.inline tag text)) =
        (gap depth ++ tag.opening.toList) ++ ((writeText text).toList ++ tag.closing.toList) := by
      simp [Element.lines, below, gap]
    rw [written, run_append_of (run_openingLine h settled depth), toList_closing, run_inline,
      run_closing h.name (nest.leave?_inside _ _ _), Element.shown]
  | .block tag text children, sound, depth, state, nest, settled => by
    cases sound with | block h _ sound => ?_
    -- the text and the children are read inside, and the closing line leaves again
    obtain ⟨shown, read, ready⟩ := run_textLine text (nest.inside tag.name tag.given) (depth + 1)
    obtain ⟨last, more, done⟩ := run_linesList sound (depth + 1) ready
    rw [Nest.push_push] at done
    refine ⟨_, ?_, settled_content _⟩
    have written : below (Element.lines depth (.block tag text children)) =
        (gap depth ++ tag.opening.toList) ++
          (below (if text = "" then [] else [pad (depth + 1) ++ writeText text]) ++
            (below (Element.linesList (depth + 1) children) ++
              (gap depth ++ tag.closing.toList))) := by
      rw [Element.lines, List.append_assoc, List.cons_append, below_cons, below_append,
        below_append, below_cons]
      simp [below]
    rw [written, run_append_of (run_openingLine h settled depth), run_append_of read,
      run_append_of more, run_closingLine h done, Element.shown]

theorem run_linesList [Machine] :
    ∀ {elements : List Element}, (∀ element ∈ elements, element.Sound) →
    ∀ (depth : Int) {state : Mode × Nest} {nest : Nest}, Settled state nest →
    ∃ next, run state (below (Element.linesList depth elements)) = some next ∧
      Settled next (nest.push (Element.shownList elements))
  | [], _, depth, state, nest, settled => ⟨state, rfl, by rwa [Element.shownList, Nest.push_nil]⟩
  | element :: rest, sound, depth, state, nest, settled => by
    obtain ⟨next, read, settled⟩ := run_lines (sound element List.mem_cons_self) depth settled
    obtain ⟨next, more, settled⟩ := run_linesList
      (fun other hOther => sound other (List.mem_cons_of_mem element hOther)) depth settled
    refine ⟨next, ?_, ?_⟩
    · rw [Element.linesList, below_append, run_append_of read, more]
    · rwa [Nest.push_push] at settled

end

theorem Settled.finish [Machine] {state : Mode × Nest} {found : List Jsx}
    (h : Settled state (({} : Nest).push found)) :
    ∃ text content, run state ['\n'] = some (.content text, ⟨content, []⟩) ∧
      content ++ literal text = found := by
  obtain ⟨text, ⟨content, outer⟩, rfl, settled⟩ := h
  have zero : gap 0 = ['\n'] := rfl
  have all := settled 0
  simp only [Nest.push, zero, List.nil_append, Nest.mk.injEq] at all
  obtain ⟨all, rfl⟩ := all
  exact ⟨text ++ ['\n'], content, run_gap text ⟨content, []⟩ 0, all⟩

theorem linesList_ne_nil (depth : Int) {elements : List Element} (h : elements ≠ []) :
    Element.linesList depth elements ≠ [] := by
  cases elements with
  | nil => exact absurd rfl h
  | cons first rest => cases first <;> exact List.cons_ne_nil _ _

theorem toList_join_lines {depth : Int} {elements : List Element} (h : elements ≠ []) :
    '\n' :: (Text.join "\n" (Element.linesList depth elements)).toList =
      below (Element.linesList depth elements) := by
  obtain ⟨line, lines, written⟩ := List.exists_cons_of_ne_nil (linesList_ne_nil depth h)
  rw [written, Text.toList_join rfl]
  rfl

end Reading

theorem read_linesList [Machine] {elements : List Element}
    (sound : ∀ element ∈ elements, element.Sound) (depth : Int) :
    Jsx.read (Text.join "\n" (Element.linesList depth elements)) =
      some (Element.shownList elements) := by
  cases elements with
  | nil => rfl
  | cons element rest =>
    obtain ⟨state, read, settled⟩ := run_linesList sound depth (settled_content {})
    obtain ⟨text, content, finished, all⟩ := settled.finish
    rw [Jsx.read, toList_join_lines (List.cons_ne_nil element rest), run_append_of read, finished]
    exact congrArg some all

end Sitewright.Markup
