import Sitewright.Json.Display

/-!
Everything that can go wrong, by cause. A cause has a message, and unless it is a misuse of the
library it has a kind, which is what callers are told.
-/

namespace Sitewright

inductive Place
  | named (name : String)
  | field (place : Place) (name : String)
  | item (place : Place) (index : Nat)
  deriving DecidableEq, Repr

def Place.text : Place → String
  | .named name => name
  | .field place name => place.text ++ "." ++ name
  | .item place index => place.text ++ "[" ++ toString index ++ "]"

inductive ErrorKind
  | structural
  | validation
  | enhancement
  | notFound
  | conflict
  | storage
  deriving DecidableEq, Repr

namespace ErrorKind

def name : ErrorKind → String
  | structural => "StructuralError"
  | validation => "ValidationError"
  | enhancement => "EnhancementParseError"
  | notFound => "NotFound"
  | conflict => "ConflictError"
  | storage => "IoError"

def ofName? (s : String) : Option ErrorKind :=
  [structural, validation, enhancement, notFound, conflict, storage].find? (·.name == s)

def status : ErrorKind → Nat
  | structural | validation | enhancement => 400
  | notFound => 404
  | conflict => 409
  | storage => 500

@[simp] theorem ofName?_name (kind : ErrorKind) : ofName? kind.name = some kind := by
  cases kind <;> decide

end ErrorKind

inductive Error
  -- the shape of documents
  | notObject (place : Place)
  | notArray (place : Place)
  | missing (place : Place) (field : String)
  | notText (place : Place) (field : String)
  | treeNotArray (place : Place)
  | environmentUnknown (place : Place)
  | statusUnknown (place : Place) (value : Json)
  | statusCompound
  | valueNested
  | integerOverlong
  | metadataFieldUnknown
  -- component trees
  | tooDeep
  | misplacedBody
  | idMissing (type : String)
  | idRepeated (id : String)
  | typeUnknown (type : String)
  -- pages and projects
  | slugInvalid (slug : Json)
  | slugRepeated (slug : String)
  | slugCollides (slug : String)
  | noPages
  | environmentInvalid
  | numberTooLarge
  -- requests
  | unnamedProject
  | unnamedCopy
  | unnamedExport
  | otherProject
  | bodyNotObject
  | bodyUnusable
  | projectRequired
  | promptRequired
  | messageNotText
  | targetMalformed
  | hostNotName
  | headerBroken
  | dateUnreadable
  | dateOverlong
  | notInteger (name : String)
  | notPositive (name : String)
  | limitNotPositive
  | cursorUnreadable
  | auditUnavailable
  -- enhancement
  | transformFailed
  | replyNotJson
  | replyOverlong
  | textNested
  | textTorn
  | replyNotProject
  | replyForOther
  | replyMalformed (cause : Error)
  -- the store
  | projectUnknown
  | copyUnknown (environment : String)
  | builderCopyMissing
  | modifiedSince
  | documentCorrupt (cause : Error)
  | diskFull
  | tablesGone
  | valueUnstorable
  | relayed (kind : ErrorKind) (message : String)
  -- misuse
  | historyLimitTooLow
  | configuredLimitTooLow
  | cursorIncomplete
  | auditRowMissing
  | auditImmutable
  | blockAborted
  | dateOutOfRange
  | offsetOutOfRange
  | entryWithoutId
  | notObjectItem
  | notMapping
  | notPair (index length : Nat)
  | notNumber
  | emptyPages
  | levelUnknown
  deriving DecidableEq, Repr

/-- The levels of a component tree, the top one counted. -/
def maxTreeDepth : Nat := 64

namespace Error

/-- What kind of fault is reported; none for a misuse of the library. -/
def kind : Error → Option ErrorKind
  | tooDeep | misplacedBody | idMissing _ | idRepeated _ | typeUnknown _ => some .structural
  | notObject _ | notArray _ | missing .. | notText .. | treeNotArray _ | environmentUnknown _
  | statusUnknown .. => some .validation
  | slugInvalid _ | slugRepeated _ | slugCollides _ | noPages | environmentInvalid =>
    some .validation
  | unnamedProject | unnamedCopy | unnamedExport | otherProject | bodyNotObject | projectRequired
  | promptRequired | messageNotText | dateUnreadable | notInteger _ | notPositive _
  | limitNotPositive | cursorUnreadable | auditUnavailable => some .validation
  | transformFailed | replyNotJson | replyNotProject | replyForOther | replyMalformed _ =>
    some .enhancement
  | projectUnknown | copyUnknown _ | builderCopyMissing => some .notFound
  | modifiedSince => some .conflict
  | documentCorrupt _ | diskFull | tablesGone | valueUnstorable => some .storage
  | relayed kind _ => some kind
  | statusCompound | metadataFieldUnknown | numberTooLarge | historyLimitTooLow
  | configuredLimitTooLow | cursorIncomplete | auditRowMissing | auditImmutable | blockAborted
  | dateOutOfRange | entryWithoutId | notObjectItem | notMapping | notNumber | emptyPages
  | bodyUnusable | offsetOutOfRange | targetMalformed | hostNotName | headerBroken | dateOverlong
  | replyOverlong | textNested | textTorn | valueNested | integerOverlong | levelUnknown
  | notPair .. => none

/-- What is reported; empty where the kind says it all. -/
def message : Error → String
  | notObject place => place.text ++ ": expected an object"
  | notArray place => place.text ++ ": expected an array"
  | missing place field => place.text ++ ": missing " ++ field
  | notText place field => place.text ++ ": " ++ field ++ " must be a string"
  | treeNotArray place => place.text ++ ": tree must be an array"
  | environmentUnknown place => place.text ++ ": invalid environment"
  | statusUnknown place value => place.text ++ ": invalid status " ++ value.inspect
  | tooDeep => "tree nested deeper than " ++ toString maxTreeDepth ++ " levels"
  | misplacedBody => "missing or duplicate root"
  | idMissing type => "missing id on " ++ type ++ " node"
  | idRepeated id => "duplicate id: " ++ id
  | typeUnknown type => "unknown type: " ++ type
  | slugInvalid slug => "invalid slug: " ++ slug.display
  | slugRepeated slug => "duplicate slug: " ++ slug
  | slugCollides slug => "slug collides with another page file: " ++ slug
  | noPages => "project has no pages"
  | environmentInvalid => "invalid environment"
  | unnamedProject => "Invalid project: missing id or name"
  | unnamedCopy => "Invalid project data. Missing id or name."
  | unnamedExport => "Invalid project data"
  | otherProject => "Project id does not match the request path"
  | bodyNotObject => "Request body must be a JSON object"
  | projectRequired => "Project data is required"
  | promptRequired => "Enhancement prompt is required"
  | messageNotText => "message must be a string"
  | dateUnreadable => "Invalid If-Unmodified-Since header"
  | notInteger name => name ++ " must be an integer"
  | notPositive name => name ++ " must be greater than zero"
  | limitNotPositive => "Limit must be greater than zero"
  | cursorUnreadable => "Invalid cursor format"
  | auditUnavailable => "Audit trail requires the SQL document store"
  | transformFailed => "AI enhancement failed. Please try again."
  | replyNotJson => "Failed to parse AI response as JSON"
  | replyNotProject => "Invalid project structure in response"
  | replyForOther => "Enhanced project id does not match the original"
  | replyMalformed cause => "Invalid project structure in response: " ++ cause.message
  | projectUnknown => "Project not found"
  | copyUnknown environment => "Project not found in " ++ environment ++ " environment"
  | builderCopyMissing => "no builder project"
  | modifiedSince => "Conflict detected. Project has been modified."
  | documentCorrupt cause => "stored document is corrupt: " ++ cause.message
  | diskFull => "disk full"
  | tablesGone => "storage failure: OperationalError"
  | valueUnstorable => "storage failure: ProgrammingError"
  | relayed _ message => message
  | historyLimitTooLow => "history_limit must be at least 1"
  | configuredLimitTooLow => "DEPLOYMENT_HISTORY_LIMIT must be at least 1"
  | cursorIncomplete => "created_at and row_id are required to encode cursor"
  | auditRowMissing => "AuditLog cannot be None"
  | auditImmutable => "Audit logs are immutable"
  | notPair index length =>
    "dictionary update sequence element #" ++ toString index ++ " has length " ++
      toString length ++ "; 2 is required"
  | statusCompound | metadataFieldUnknown | numberTooLarge | blockAborted | dateOutOfRange
  | entryWithoutId | notObjectItem | notMapping | notNumber | emptyPages | bodyUnusable
  | offsetOutOfRange | targetMalformed | hostNotName | headerBroken | dateOverlong | replyOverlong
  | textNested | textTorn | valueNested | integerOverlong | levelUnknown => ""

end Error

variable {ε α β : Type}

@[simp] theorem ok_bind (a : α) (f : α → Except ε β) : (Except.ok a >>= f) = f a := rfl

@[simp] theorem error_bind (e : ε) (f : α → Except ε β) : (Except.error e >>= f) = .error e := rfl

theorem bind_eq_ok {x : Except ε α} {f : α → Except ε β} {b : β} :
    (x >>= f) = .ok b ↔ ∃ a, x = .ok a ∧ f a = .ok b := by
  cases x <;> simp

theorem bind_eq_error {x : Except ε α} {f : α → Except ε β} {e : ε} :
    (x >>= f) = .error e ↔ x = .error e ∨ ∃ a, x = .ok a ∧ f a = .error e := by
  cases x <;> simp

theorem map_eq_ok {x : Except ε α} {f : α → β} {b : β} :
    x.map f = .ok b ↔ ∃ a, x = .ok a ∧ f a = b := by
  cases x <;> simp [Except.map]

theorem mapError_eq_ok {α : Type} {result : Except Error α} {change : Error → Error} {a : α} :
    result.mapError change = .ok a ↔ result = .ok a := by
  cases result with
  | ok => rfl
  | error =>
    constructor
    · intro h
      cases h
    · intro h
      cases h

theorem mapM_eq_ok_iff {f : α → Except ε β} {g : α → β} {P : α → Prop}
    (h : ∀ x y, f x = .ok y ↔ P x ∧ y = g x) {xs : List α} {ys : List β} :
    xs.mapM f = .ok ys ↔ (∀ x ∈ xs, P x) ∧ ys = xs.map g := by
  induction xs generalizing ys with
  | nil =>
    rw [List.map_nil, and_iff_right (List.forall_mem_nil P)]
    constructor
    · rintro ⟨⟩
      rfl
    · rintro rfl
      rfl
  | cons x xs ih =>
    rw [List.mapM_cons, bind_eq_ok, List.forall_mem_cons, List.map_cons]
    constructor
    · rintro ⟨y, made, rest⟩
      obtain ⟨zs, more, done⟩ := bind_eq_ok.mp rest
      cases done
      obtain ⟨holds, rfl⟩ := (h x y).mp made
      obtain ⟨others, rfl⟩ := ih.mp more
      exact ⟨⟨holds, others⟩, rfl⟩
    · rintro ⟨⟨holds, others⟩, rfl⟩
      refine ⟨g x, (h x _).mpr ⟨holds, rfl⟩, ?_⟩
      rw [ih.mpr ⟨others, rfl⟩]
      rfl

theorem mapM_eq_error {f : α → Except ε β} {xs : List α} {e : ε} (h : xs.mapM f = .error e) :
    ∃ x ∈ xs, f x = .error e := by
  induction xs with
  | nil => cases h
  | cons x xs ih =>
    rw [List.mapM_cons] at h
    rcases bind_eq_error.mp h with failed | ⟨y, -, rest⟩
    · exact ⟨x, List.mem_cons_self, failed⟩
    · rcases bind_eq_error.mp rest with failed | ⟨zs, -, done⟩
      · obtain ⟨other, there, failed⟩ := ih failed
        exact ⟨other, List.mem_cons_of_mem x there, failed⟩
      · cases done

theorem exists_mem_of_mapM_eq_ok {f : α → Except ε β} {xs : List α} {ys : List β}
    (h : xs.mapM f = .ok ys) {y : β} (hy : y ∈ ys) : ∃ x ∈ xs, f x = .ok y := by
  induction xs generalizing ys with
  | nil =>
    cases h
    cases hy
  | cons x xs ih =>
    rw [List.mapM_cons] at h
    obtain ⟨z, hz, h⟩ := bind_eq_ok.mp h
    obtain ⟨zs, hzs, h⟩ := bind_eq_ok.mp h
    cases h
    rcases List.mem_cons.mp hy with rfl | hy
    · exact ⟨x, List.mem_cons_self, hz⟩
    · obtain ⟨w, hw, hf⟩ := ih hzs hy
      exact ⟨w, List.mem_cons_of_mem x hw, hf⟩

end Sitewright
