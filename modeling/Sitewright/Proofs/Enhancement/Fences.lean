import Sitewright.Enhancement.Reply
import Sitewright.Proofs.Json.Escape
import Sitewright.Proofs.Json.Layout

/-!
What becomes of a string in a JSON text when the fences of the text are taken out. The fences inside
the string go as well, and with each of them the name of the language and the blanks after it, as
far as the text shows them as they are. Nothing outside the quotes of the string is touched.
-/

namespace Sitewright.Enhancement

def fence : List Char := List.replicate 3 '\x60'

def language : List Char := ['j', 's', 'o', 'n']

def after? (same : Char → Char → Bool) : List Char → List Char → Option (List Char)
  | [], cs => some cs
  | _ :: _, [] => none
  | letter :: letters, c :: cs => if same letter c then after? same letters cs else none

theorem length_after?_le {same : Char → Char → Bool} {letters cs rest : List Char}
    (h : after? same letters cs = some rest) : rest.length ≤ cs.length := by
  induction letters generalizing cs with
  | nil =>
    cases h
    exact Nat.le_refl _
  | cons letter letters ih =>
    cases cs with
    | nil => cases h
    | cons c cs =>
      rw [after?] at h
      split at h
      · exact Nat.le_succ_of_le (ih h)
      · cases h

theorem dropLanguage_eq (cs : List Char) :
    dropLanguage cs = (after? isSameLetter language cs).getD cs := by
  match cs with
  | [] => rfl
  | [a] | [a, b] | [a, b, c] => simp [dropLanguage, language, after?]
  | a :: b :: c :: d :: rest =>
    cases ha : isSameLetter 'j' a <;> cases hb : isSameLetter 's' b <;>
      cases hc : isSameLetter 'o' c <;> cases hd : isSameLetter 'n' d <;>
      simp [dropLanguage, language, after?, ha, hb, hc, hd]

@[simp] theorem dropFences_nil : dropFences [] = [] := by rw [dropFences]

theorem dropFences_fence (cs : List Char) :
    dropFences (fence ++ cs) = dropFences ((dropLanguage cs).dropWhile Text.isBlank) := by
  simp only [fence, List.replicate, List.cons_append, List.nil_append]
  rw [dropFences]

theorem dropFences_cons {c : Char} {cs : List Char} (h : ¬ fence <+: c :: cs) :
    dropFences (c :: cs) = c :: dropFences cs := by
  rw [dropFences]
  intro after same rest
  subst same rest
  exact h ⟨after, rfl⟩

theorem dropFences_cons_of_ne {c : Char} (h : c ≠ '\x60') (cs : List Char) :
    dropFences (c :: cs) = c :: dropFences cs := by
  refine dropFences_cons fun begins => ?_
  rw [fence, List.replicate_succ, List.cons_prefix_cons] at begins
  exact h begins.1.symm

theorem dropFences_append {before : List Char} (h : '\x60' ∉ before) (cs : List Char) :
    dropFences (before ++ cs) = before ++ dropFences cs := by
  induction before with
  | nil => rfl
  | cons c before ih =>
    rw [List.mem_cons, not_or] at h
    rw [List.cons_append, dropFences_cons_of_ne (Ne.symm h.1), ih h.2, List.cons_append]

section Enclosed

variable (ascii : Bool)

/-- The content of a string in a text, up to its closing quote, before a rest. -/
def enclosed (cs rest : List Char) : List Char :=
  cs.flatMap (Json.escapeChar ascii) ++ '"' :: rest

@[simp] theorem enclosed_cons (c : Char) (cs rest : List Char) :
    enclosed ascii (c :: cs) rest = Json.escapeChar ascii c ++ enclosed ascii cs rest := by
  rw [enclosed, enclosed, List.flatMap_cons, List.append_assoc]

def isRaw (c : Char) : Bool := Json.escapeChar ascii c = [c]

theorem not_mem_hexDigits (width n : Nat) : '\x60' ∉ Text.hexDigits width n := by
  intro there
  have digits : ∀ d < 16, Text.hexDigit d ≠ '\x60' := by decide
  obtain ⟨d, small, same⟩ := Text.exists_hexDigit_of_mem there
  exact digits d small same

theorem not_mem_codePointEscape (n : Nat) : '\x60' ∉ Json.codePointEscape n := by
  unfold Json.codePointEscape
  split <;> simp [Json.unitEscape, not_mem_hexDigits]

theorem exists_codePointEscape (n : Nat) :
    ∃ more, Json.codePointEscape n = '\\' :: 'u' :: more := by
  unfold Json.codePointEscape
  split <;> exact ⟨_, rfl⟩

theorem isRaw_or (c : Char) :
    (isRaw ascii c = true ∧ c ≠ '"' ∧ c ≠ '\\') ∨
    (isRaw ascii c = false ∧ '\x60' ∉ Json.escapeChar ascii c ∧
      ∃ more, Json.escapeChar ascii c = '\\' :: more) := by
  rcases Json.escapeChar_forms ascii c with ⟨e, -, named, -, written⟩ | ⟨-, written⟩ |
    ⟨quote, backslash, -, -, written⟩
  · have other : e ≠ '\x60' := by
      rintro rfl
      cases named
    exact .inr ⟨by simp [isRaw, written], by simp [written, other.symm], [e], written⟩
  · obtain ⟨more, begins⟩ := exists_codePointEscape c.toNat
    exact .inr ⟨by simp [isRaw, written, begins], written ▸ not_mem_codePointEscape c.toNat,
      _, written.trans begins⟩
  · exact .inl ⟨by simp [isRaw, written], quote, backslash⟩

variable {ascii}

theorem escapeChar_of_isRaw {c : Char} (h : isRaw ascii c = true) :
    Json.escapeChar ascii c = [c] := by simpa [isRaw] using h

@[simp] theorem isRaw_fence : isRaw ascii '\x60' = true := by
  cases ascii <;> decide

/-- A character that can be told apart from a quote and a backslash is met in a text where it stands
as it is, and only there. -/
theorem after?_enclosed {same : Char → Char → Bool} {letters : List Char}
    (plain : ∀ letter ∈ letters, same letter '"' = false ∧ same letter '\\' = false)
    (cs rest : List Char) :
    after? same letters (enclosed ascii cs rest) =
      (after? (fun letter c => isRaw ascii c && same letter c) letters cs).map
        (enclosed ascii · rest) := by
  induction letters generalizing cs with
  | nil => rfl
  | cons letter letters ih =>
    rw [List.forall_mem_cons] at plain
    obtain ⟨⟨noQuote, noBackslash⟩, plain⟩ := plain
    cases cs with
    | nil => simp [enclosed, after?, noQuote]
    | cons c cs =>
      rcases isRaw_or ascii c with ⟨raw, -, -⟩ | ⟨hidden, -, more, written⟩
      · rw [enclosed_cons, escapeChar_of_isRaw raw, List.singleton_append, after?, after?, raw,
          Bool.true_and, ih plain]
        split <;> rfl
      · rw [enclosed_cons, written, List.cons_append, after?, noBackslash, after?, hidden]
        rfl

theorem dropWhile_enclosed {p : Char → Bool} (noQuote : p '"' = false)
    (noBackslash : p '\\' = false) (cs rest : List Char) :
    (enclosed ascii cs rest).dropWhile p =
      enclosed ascii (cs.dropWhile fun c => isRaw ascii c && p c) rest := by
  induction cs with
  | nil => simp [enclosed, noQuote]
  | cons c cs ih =>
    rcases isRaw_or ascii c with ⟨raw, -, -⟩ | ⟨hidden, -, more, written⟩
    · rw [enclosed_cons, escapeChar_of_isRaw raw, List.singleton_append, List.dropWhile_cons,
        List.dropWhile_cons, raw, Bool.true_and, ih]
      split
      · rfl
      · rw [enclosed_cons, escapeChar_of_isRaw raw, List.singleton_append]
    · rw [List.dropWhile_cons_of_neg (by simp [hidden]), enclosed_cons, written, List.cons_append,
        List.dropWhile_cons_of_neg (by simp [noBackslash])]

theorem replicate_prefix_enclosed (n : Nat) (cs rest : List Char) :
    List.replicate n '\x60' <+: enclosed ascii cs rest ↔ List.replicate n '\x60' <+: cs := by
  induction n generalizing cs with
  | zero => simp
  | succ n ih =>
    rw [List.replicate_succ]
    cases cs with
    | nil => simp [enclosed]
    | cons c cs =>
      rcases isRaw_or ascii c with ⟨raw, -, -⟩ | ⟨hidden, -, more, written⟩
      · rw [enclosed_cons, escapeChar_of_isRaw raw, List.singleton_append, List.cons_prefix_cons,
          List.cons_prefix_cons, ih]
      · have other : '\x60' ≠ c := by
          rintro rfl
          rw [isRaw_fence] at hidden
          cases hidden
        rw [enclosed_cons, written, List.cons_append, List.cons_prefix_cons, List.cons_prefix_cons]
        simp [other]

variable (ascii)

/-- The string after a fence in it, without the language and the blanks that the text shows. -/
def afterFence (cs : List Char) : List Char :=
  ((after? (fun letter c => isRaw ascii c && isSameLetter letter c) language cs).getD cs).dropWhile
    fun c => isRaw ascii c && Text.isBlank c

theorem length_afterFence_le (cs : List Char) : (afterFence ascii cs).length ≤ cs.length := by
  refine Nat.le_trans (List.dropWhile_sublist _).length_le ?_
  cases found : after? (fun letter c => isRaw ascii c && isSameLetter letter c) language cs with
  | none => exact Nat.le_refl _
  | some rest => exact length_after?_le found

def unfenced : List Char → List Char
  | [] => []
  | c :: cs =>
    if fence <+: c :: cs then unfenced (afterFence ascii (cs.drop 2)) else c :: unfenced cs
termination_by cs => cs.length
decreasing_by
  · have := length_afterFence_le ascii (cs.drop 2)
    simp only [List.length_drop] at this
    simp only [List.length_cons]
    omega
  · simp

theorem enclosed_fence (cs rest : List Char) :
    enclosed ascii (fence ++ cs) rest = fence ++ enclosed ascii cs rest := by
  cases ascii <;> rfl

theorem enclosed_afterFence (cs rest : List Char) :
    (dropLanguage (enclosed ascii cs rest)).dropWhile Text.isBlank =
      enclosed ascii (afterFence ascii cs) rest := by
  have plain : ∀ letter ∈ language,
      isSameLetter letter '"' = false ∧ isSameLetter letter '\\' = false := by
    simp only [language, List.forall_mem_cons]
    exact ⟨by decide, by decide, by decide, by decide, List.forall_mem_nil _⟩
  have unnamed : dropLanguage (enclosed ascii cs rest) = enclosed ascii
      ((after? (fun letter c => isRaw ascii c && isSameLetter letter c) language cs).getD cs)
      rest := by
    rw [dropLanguage_eq, after?_enclosed plain]
    cases after? (fun letter c => isRaw ascii c && isSameLetter letter c) language cs <;> rfl
  rw [unnamed, dropWhile_enclosed (by decide) (by decide), afterFence]

theorem dropFences_enclosed (cs rest : List Char) :
    dropFences (enclosed ascii cs rest) = enclosed ascii (unfenced ascii cs) (dropFences rest) := by
  induction cs using unfenced.induct ascii with
  | case1 =>
    rw [unfenced]
    exact dropFences_cons_of_ne (by decide) rest
  | case2 c cs begins ih =>
    rw [unfenced, if_pos begins, ← ih, ← enclosed_afterFence]
    obtain ⟨after, same⟩ := begins
    have following : cs.drop 2 = after := by
      rw [← List.drop_succ_cons, ← same]
      rfl
    rw [following, ← same, enclosed_fence, dropFences_fence]
  | case3 c cs plain ih =>
    rw [unfenced, if_neg plain, enclosed_cons, enclosed_cons, ← ih]
    rcases isRaw_or ascii c with ⟨raw, -, -⟩ | ⟨-, clean, -⟩
    · rw [escapeChar_of_isRaw raw, List.singleton_append, List.singleton_append]
      refine dropFences_cons fun begins => plain ?_
      rw [← List.singleton_append, ← escapeChar_of_isRaw raw, ← enclosed_cons] at begins
      exact (replicate_prefix_enclosed 3 (c :: cs) rest).mp begins
    · exact dropFences_append clean _

theorem unfenced_of_not_infix {cs : List Char} (h : ¬ fence <:+: cs) : unfenced ascii cs = cs := by
  induction cs with
  | nil => rw [unfenced]
  | cons c cs ih =>
    rw [List.infix_cons_iff, not_or] at h
    rw [unfenced, if_neg h.1, ih h.2]

theorem replicate_prefix_unfenced {n : Nat} (few : n ≤ 3) {cs : List Char}
    (h : ¬ List.replicate n '\x60' <+: cs) : ¬ List.replicate n '\x60' <+: unfenced ascii cs := by
  induction n generalizing cs with
  | zero => exact absurd List.nil_prefix h
  | succ n ih =>
    cases cs with
    | nil => rwa [unfenced]
    | cons c cs =>
      have shorter : List.replicate (n + 1) '\x60' <+: fence := by
        refine ⟨List.replicate (3 - (n + 1)) '\x60', ?_⟩
        rw [List.replicate_append_replicate, Nat.add_sub_cancel' few, fence]
      have plain : ¬ fence <+: c :: cs := fun begins => h (shorter.trans begins)
      rw [unfenced, if_neg plain]
      rw [List.replicate_succ, List.cons_prefix_cons] at h ⊢
      rintro ⟨same, more⟩
      exact ih (by omega) (fun begins => h ⟨same, begins⟩) more

theorem not_infix_unfenced (cs : List Char) : ¬ fence <:+: unfenced ascii cs := by
  induction cs using unfenced.induct ascii with
  | case1 => rw [unfenced]; decide
  | case2 c cs begins ih => rwa [unfenced, if_pos begins]
  | case3 c cs plain ih =>
    have first := replicate_prefix_unfenced ascii (Nat.le_refl 3) plain
    rw [unfenced, if_neg plain] at first ⊢
    rw [List.infix_cons_iff, not_or]
    exact ⟨first, ih⟩

end Enclosed

end Sitewright.Enhancement
