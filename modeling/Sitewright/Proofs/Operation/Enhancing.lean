import Sitewright.Operation.Enhance
import Sitewright.Proofs.Enhancement.Reply

/-!
Enhancing by a text and by a mapping. What a transform answers with counts only as the project that
is read from it, so the text of a mapping does what the mapping does whenever it is read as that.
-/

namespace Sitewright

namespace Enhancement.Reply

variable {fields : Fields Json}

theorem toValue_str_eq_ok [Machine] {raw : String} {data : Json} :
    (Reply.value (.str raw)).toValue = .ok data ↔ textValue raw = .ok data := by
  rw [toValue, toValue.ofText]
  cases textValue raw with
  | ok found => simp
  | error fault => cases fault <;> simp

section Project

variable (id : (Fields.value fields "id").isTruthy = true)
variable (pages : (Fields.value fields "pages").asArray?.isSome = true)

include id pages

theorem toProject_of_toValue [Machine] {reply : Reply} (read : reply.toValue = .ok (.obj fields)) :
    reply.toProject = .ok fields := by
  rw [toProject, read, ok_bind]
  simp only [id, pages, Bool.and_self, if_true]
  rfl

theorem toProject_eq_ok [Machine] {reply : Reply} :
    reply.toProject = .ok fields ↔ reply.toValue = .ok (.obj fields) := by
  refine ⟨fun found => ?_, toProject_of_toValue id pages⟩
  obtain ⟨data, read, found⟩ := bind_eq_ok.mp found
  split at found
  · split at found
    · cases found
      exact read
    · cases found
  · cases found

end Project

end Enhancement.Reply

namespace Operation

open Enhancement (Dressed IsTextOf Reply)

variable {transform other : Transform}

theorem repaired_congr [Machine] {prior : Project} {reply reply' : Reply}
    (same : reply.toProject = reply'.toProject) (millis : Int) :
    (answered prior reply).bind (prior.repair · millis) =
      (answered prior reply').bind (prior.repair · millis) := by
  rw [answered, answered, same]

theorem ask_bind_congr [Machine]
    (same : ∀ data instruction,
      (transform data instruction).map Reply.toProject =
        (other data instruction).map Reply.toProject)
    {α : Type} {next : Reply → Action α}
    (agree : ∀ reply reply', reply.toProject = reply'.toProject → next reply = next reply')
    (prior : Project) (instruction : String) :
    ask transform prior instruction >>= next = ask other prior instruction >>= next := by
  have alike := same prior.toJson instruction
  rw [ask, ask, bind_assoc, bind_assoc]
  generalize transform prior.toJson instruction = first,
    other prior.toJson instruction = second at alike
  cases first with
  | error e =>
    cases second with
    | error f =>
      cases alike
      rfl
    | ok reply => cases alike
  | ok reply =>
    cases second with
    | error f => cases alike
    | ok reply' =>
      simp only [Except.mapError, Action.ofExcept_ok_bind, agree _ _ (Except.ok.inj alike)]

theorem rewritten_congr [Machine]
    (same : ∀ data instruction,
      (transform data instruction).map Reply.toProject =
        (other data instruction).map Reply.toProject)
    (prior : Project) (instruction : String) :
    rewritten prior instruction transform = rewritten prior instruction other :=
  ask_bind_congr same (fun reply reply' project => by simp only [repaired_congr project]) _ _

/-- Of what a transform answers only the project that is read from it counts. -/
theorem enhance_congr [Machine]
    (same : ∀ data instruction,
      (transform data instruction).map Reply.toProject =
        (other data instruction).map Reply.toProject)
    (prior : Project) (instruction : Json) (saves : Bool) (environment actor : Json)
    (at? : Option Time.DateTime) :
    enhance prior instruction transform saves environment actor at? =
      enhance prior instruction other saves environment actor at? := by
  simp only [enhance, rewritten_congr same]

/-- The text of a mapping that names a project and has a list of pages, bare or in a fence, is read
as that mapping exactly if the mapping keeps within the limits of what can be read and none of its
strings and names holds a fence. The text does then what the mapping does, in every world and for
every project. -/
theorem toProject_dressed_iff [Machine] {fields : Fields Json} {text raw : String}
    (distinct : (Json.obj fields).isDistinct = true) (whole : (Json.obj fields).isWhole = true)
    (id : (Fields.value fields "id").isTruthy = true)
    (pages : (Fields.value fields "pages").asArray?.isSome = true)
    (written : IsTextOf text (.obj fields)) (dressed : Dressed text.toList raw.toList) :
    ((Reply.value (.str raw)).toProject = .ok fields ↔
      (Json.obj fields).Legible Machine.textNesting ∧ (Json.obj fields).isFenceless = true) ∧
    ((Json.obj fields).Legible Machine.textNesting → (Json.obj fields).isFenceless = true →
      ∀ prior instruction saves environment actor at?,
        enhance prior instruction (fun _ _ => .ok (.value (.str raw))) saves environment actor at? =
          enhance prior instruction (fun _ _ => .ok (.value (.obj fields))) saves environment actor
            at?) := by
  have reads : (Reply.value (.str raw)).toProject = .ok fields ↔
      (Json.obj fields).Legible Machine.textNesting ∧ (Json.obj fields).isFenceless = true := by
    rw [Reply.toProject_eq_ok id pages, Reply.toValue_str_eq_ok]
    exact Enhancement.textValue_eq_ok_iff distinct whole written dressed
  refine ⟨reads, fun legible fenceless => enhance_congr fun _ _ => congrArg Except.ok ?_⟩
  rw [reads.mpr ⟨legible, fenceless⟩, Reply.toProject_of_toValue id pages rfl]

def noted (note : String) : Fields Json :=
  [("id", .str "p1"), ("name", .str "P"), ("pages", .arr []),
   ("metadata", .obj [("note", .str note)])]

theorem legible_noted [Machine] (note : String) :
    (Json.obj (noted note)).Legible Machine.textNesting := by
  obtain ⟨levels, deep⟩ := Machine.exists_textNesting (by decide : 2 ≤ 256)
  rw [deep]
  refine .obj fun field hField => ?_
  simp only [noted, List.mem_cons, List.not_mem_nil, or_false] at hField
  rcases hField with rfl | rfl | rfl | rfl
  · exact .str _
  · exact .str _
  · exact .arr (List.forall_mem_nil _)
  · exact .obj (List.forall_mem_singleton.mpr (.str note))

/-- A note that holds a fence comes back without it, and one that does not comes back as it was,
also from inside a fence. -/
theorem toProject_dressed_iff_noted :
    (Reply.value (.str (Json.compact true (.obj (noted "\x60\x60\x60json  x"))))).toProject ≠
        .ok (noted "\x60\x60\x60json  x") ∧
      (Reply.value (.str (Json.compact true (.obj (noted "\x60\x60\x60json  x"))))).toProject =
        .ok (noted "x") ∧
      (Reply.value (.str ("\x60\x60\x60json\n" ++ Json.indented false 0 (.obj (noted "x")) ++
        "\n\x60\x60\x60"))).toProject = .ok (noted "x") := by
  have bare (text : String) : Dressed text.toList text.toList := by
    have dressed := @Dressed.bare text.toList [] [] (List.forall_mem_nil _) (List.forall_mem_nil _)
    rwa [List.nil_append, List.append_nil] at dressed
  have fenced (text : String) :
      Dressed text.toList ("\x60\x60\x60json\n" ++ text ++ "\n\x60\x60\x60").toList := by
    have blank : ∀ c ∈ ['\n'], Text.isBlank c = true := List.forall_mem_singleton.mpr (by decide)
    have dressed := @Dressed.fenced text.toList [] Enhancement.language ['\n'] ['\n'] []
      (List.forall_mem_nil _) (.inr rfl) blank blank (List.forall_mem_nil _)
    simpa [Enhancement.fence, Enhancement.language] using dressed
  refine ⟨fun found => ?_, by decide +kernel, ?_⟩
  · have reads := (@toProject_dressed_iff _ (noted "\x60\x60\x60json  x") _ _ rfl rfl rfl rfl
      (Enhancement.isTextOf_compact true _) (bare _)).1
    exact absurd (reads.mp found).2 (by decide +kernel)
  · have reads := (@toProject_dressed_iff _ (noted "x") _ _ rfl rfl rfl rfl
      (Enhancement.isTextOf_indented false 0 _) (fenced _)).1
    exact reads.mpr ⟨legible_noted "x", by decide +kernel⟩

end Operation

end Sitewright
