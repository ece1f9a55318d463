import Mathlib.Data.List.Forall2
import Sitewright.Proofs.Document.Likeness
import Sitewright.Proofs.Store.Lookup

/-!
Tables in memory and tables in a database that hold alike documents, or the same ones. A database
keeps what it has when it is given something alike, so the two drift apart when a document or the
metadata of an entry are replaced by others that are alike but not the same.
-/

namespace Sitewright

/-- Alike, and if it is to be exact the same. -/
def Json.Like (exact : Prop) (a b : Json) : Prop := a.Alike b ∧ (exact → a = b)

theorem Json.Like.refl (exact : Prop) (a : Json) : Json.Like exact a a := ⟨.refl a, fun _ => rfl⟩

theorem Json.Like.imp {exact other : Prop} {a b : Json} (h : Json.Like exact a b)
    (k : other → exact) : Json.Like other a b := ⟨h.1, fun holds => h.2 (k holds)⟩

def Json.Blurred (old? new? : Option Json) : Prop :=
  ∃ old new, old? = some old ∧ new? = some new ∧ old.Alike new ∧ old ≠ new

def Json.Sharp (old? : Option Json) (new : Json) : Prop :=
  ∀ old, old? = some old → old.Alike new → old = new

theorem Json.sharp_of_not_blurred {old? : Option Json} {new : Json}
    (h : ¬Json.Blurred old? (some new)) : Json.Sharp old? new := by
  intro old found alike
  by_contra differ
  exact h ⟨old, new, found, rfl, alike, differ⟩

theorem Json.not_blurred_self (value? : Option Json) : ¬Json.Blurred value? value? := by
  rintro ⟨old, new, here, there, -, differ⟩
  rw [here] at there
  exact differ (Option.some.inj there)

namespace Store

theorem not_blurred_kept (old? : Option Json) (new : Json) :
    ¬Json.Blurred old? (some (kept .database old? new)) := by
  rintro ⟨old, found, rfl, here, alike, differ⟩
  simp only [kept, true_and, Option.some.injEq] at here
  split at here
  · exact differ here
  · next unlike => exact unlike (here ▸ alike)

theorem kept_eq_iff {backing : Backing} {old? : Option Json} {new : Json} :
    kept backing old? new = new ↔ (backing = .database → ¬Json.Blurred old? (some new)) := by
  cases old? with
  | none => simp [kept, Json.Blurred]
  | some old =>
    rw [kept]
    split
    · next keeps =>
      obtain ⟨rfl, alike⟩ := keeps
      constructor
      · rintro rfl -
        exact Json.not_blurred_self _
      · intro sharp
        exact Json.sharp_of_not_blurred (sharp rfl) old rfl alike
    · next replaces =>
      refine ⟨fun _ database blurred => ?_, fun _ => rfl⟩
      obtain ⟨_, _, ⟨⟩, ⟨⟩, alike, -⟩ := blurred
      exact replaces ⟨database, alike⟩

theorem alike_kept (backing : Backing) (old? : Option Json) (new : Json) :
    (kept backing old? new).Alike new := by
  cases old? with
  | none => rfl
  | some old =>
    simp only [kept]
    split
    · next same => exact same.2
    · rfl

theorem like_kept {exact : Prop} {m d : Option Json} {new new' : Json}
    (olds : Option.Rel (Json.Like exact) m d) (h : Json.Like exact new new')
    (sharp : exact → Json.Sharp m new) : Json.Like exact new (kept .database d new') := by
  cases olds with
  | none => exact h
  | @some old old' like =>
    simp only [kept, true_and]
    split
    · next alike =>
      refine ⟨h.1.trans alike.symm, fun holds => ?_⟩
      rw [← like.2 holds]
      refine (sharp holds old rfl (like.1.trans ?_)).symm
      exact alike.trans h.1.symm
    · exact h

/-- A copy in memory and one in a database, written at the same moment. -/
structure Copy.Twin (exact : Prop) (m d : Copy) : Prop where
  projectId : m.projectId = d.projectId
  environment : m.environment = d.environment
  document : m.document.Like exact d.document
  writtenAt : d.writtenAt = m.writtenAt.naive
  universal : m.writtenAt.offset.getD 0 = 0

structure Entry.Twin (exact : Prop) (m d : Entry) : Prop where
  id : m.id = d.id
  name : m.name = d.name
  metadata : m.document.Like exact d.document
  since : m.since = d.since

structure Tables.Twin (exact : Prop) (m d : Tables) : Prop where
  copies : List.Forall₂ (Copy.Twin exact) m.copies d.copies
  catalogue : List.Forall₂ (Entry.Twin exact) m.catalogue d.catalogue

theorem Copy.Twin.imp {exact other : Prop} {m d : Copy} (h : m.Twin exact d)
    (k : other → exact) : m.Twin other d := { h with document := h.document.imp k }

theorem Entry.Twin.imp {exact other : Prop} {m d : Entry} (h : m.Twin exact d)
    (k : other → exact) : m.Twin other d := { h with metadata := h.metadata.imp k }

theorem Tables.Twin.imp {exact other : Prop} {m d : Tables} (h : m.Twin exact d)
    (k : other → exact) : m.Twin other d where
  copies := h.copies.imp fun _ _ twin => twin.imp k
  catalogue := h.catalogue.imp fun _ _ twin => twin.imp k

theorem forall₂_find? {α β : Type} {R : α → β → Prop} {p : α → Bool} {q : β → Bool}
    {as : List α} {bs : List β} (h : List.Forall₂ R as bs) (same : ∀ a b, R a b → p a = q b) :
    Option.Rel R (as.find? p) (bs.find? q) := by
  induction h with
  | nil => exact .none
  | @cons a b as bs first _ ih =>
    rw [List.find?_cons, List.find?_cons, same a b first]
    cases q b with
    | true => exact .some first
    | false => exact ih

theorem isNone_eq_of_rel {α β : Type} {R : α → β → Prop} {a? : Option α} {b? : Option β}
    (h : Option.Rel R a? b?) : a?.isNone = b?.isNone := by
  cases h <;> rfl

theorem rel_cases {α β : Type} {R : α → β → Prop} {a? : Option α} {b? : Option β}
    (h : Option.Rel R a? b?) :
    (a? = none ∧ b? = none) ∨ ∃ a b, a? = some a ∧ b? = some b ∧ R a b := by
  cases h with
  | none => exact .inl ⟨rfl, rfl⟩
  | some related => exact .inr ⟨_, _, rfl, rfl, related⟩

theorem rel_map {α β γ δ : Type} {R : α → β → Prop} {S : γ → δ → Prop} {a? : Option α}
    {b? : Option β} {f : α → γ} {g : β → δ} (h : Option.Rel R a? b?)
    (k : ∀ a b, R a b → S (f a) (g b)) : Option.Rel S (a?.map f) (b?.map g) := by
  cases h with
  | none => exact .none
  | some first => exact .some (k _ _ first)

namespace Tables

variable {exact : Prop}

theorem forall₂_putCopy {as bs : List Copy} (h : List.Forall₂ (Copy.Twin exact) as bs)
    {new new' : Copy} (k : new.Twin exact new') :
    List.Forall₂ (Copy.Twin exact) (putCopy as new) (putCopy bs new') := by
  induction h with
  | nil => exact .cons k .nil
  | @cons a b as bs first rest ih =>
    have same : a.isOf new.projectId new.environment =
        b.isOf new'.projectId new'.environment := by
      simp only [Copy.isOf, first.projectId, first.environment, k.projectId, k.environment]
    simp only [putCopy, same]
    cases b.isOf new'.projectId new'.environment with
    | true => exact .cons k rest
    | false => exact .cons first ih

theorem forall₂_putEntry {as bs : List Entry} (h : List.Forall₂ (Entry.Twin exact) as bs)
    {new new' : Entry} (k : new.Twin exact new') :
    List.Forall₂ (Entry.Twin exact) (putEntry as new) (putEntry bs new') := by
  induction h with
  | nil => exact .cons k .nil
  | @cons a b as bs first rest ih =>
    simp only [putEntry, first.id, k.id]
    by_cases same : b.id = new'.id
    · rw [if_pos same, if_pos same]
      exact .cons ⟨rfl, k.name, k.metadata, first.since⟩ rest
    · rw [if_neg same, if_neg same]
      exact .cons first ih

variable {m d : Tables}

theorem Twin.copy? (h : m.Twin exact d) (projectId environment : String) :
    Option.Rel (Copy.Twin exact) (m.copy? projectId environment) (d.copy? projectId environment) :=
  forall₂_find? h.copies fun _ _ twin => by
    simp only [Copy.isOf, twin.projectId, twin.environment]

theorem Twin.entryOf? (h : m.Twin exact d) (id : String) :
    Option.Rel (Entry.Twin exact) (m.entryOf? id) (d.entryOf? id) :=
  forall₂_find? h.catalogue fun _ _ twin => by simp only [twin.id]

theorem Twin.withCopy (h : m.Twin exact d) {new new' : Copy} (k : new.Twin exact new') :
    (m.withCopy new).Twin exact (d.withCopy new') :=
  { h with copies := forall₂_putCopy h.copies k }

theorem Twin.withEntry (h : m.Twin exact d) {new new' : Entry} (k : new.Twin exact new') :
    (m.withEntry new).Twin exact (d.withEntry new') :=
  { h with catalogue := forall₂_putEntry h.catalogue k }

theorem Twin.without (h : m.Twin exact d) (projectId : String) :
    (m.without projectId).Twin exact (d.without projectId) where
  copies := List.rel_filter (fun _ _ twin => by simp only [twin.projectId]) h.copies
  catalogue := List.rel_filter (fun _ _ twin => by simp only [twin.id]) h.catalogue

/-- A document or the metadata of an entry are replaced by others that are alike. -/
def Blurs (before after : Tables) : Prop :=
  (∃ projectId environment, Json.Blurred (before.document? projectId environment)
    (after.document? projectId environment)) ∨
  ∃ id, Json.Blurred (before.metadata? id) (after.metadata? id)

theorem sharp_document? {before after : Tables} (h : ¬before.Blurs after)
    {projectId environment : String} {new : Json}
    (found : after.document? projectId environment = some new) :
    Json.Sharp (before.document? projectId environment) new :=
  Json.sharp_of_not_blurred fun blurred => h (.inl ⟨projectId, environment, found ▸ blurred⟩)

theorem sharp_metadata? {before after : Tables} (h : ¬before.Blurs after) {id : String}
    {new : Json} (found : after.metadata? id = some new) :
    Json.Sharp (before.metadata? id) new :=
  Json.sharp_of_not_blurred fun blurred => h (.inr ⟨id, found ▸ blurred⟩)

theorem Match.blurs_iff {before a b : Tables} (h : a.Match b) :
    before.Blurs a ↔ before.Blurs b := by
  simp only [Blurs, document?, metadata?, copy?, entryOf?, h.copies, h.catalogue]

theorem Match.twin_iff {m m' d d' : Tables} (h : m.Match m') (k : d.Match d') :
    m.Twin exact d ↔ m'.Twin exact d' := by
  constructor
  · intro twin
    exact ⟨h.copies ▸ k.copies ▸ twin.copies, h.catalogue ▸ k.catalogue ▸ twin.catalogue⟩
  · intro twin
    exact ⟨h.copies ▸ k.copies ▸ twin.copies, h.catalogue ▸ k.catalogue ▸ twin.catalogue⟩

theorem not_blurs_self (tables : Tables) : ¬tables.Blurs tables := by
  rintro (⟨_, _, blurred⟩ | ⟨_, blurred⟩)
  · exact Json.not_blurred_self _ blurred
  · exact Json.not_blurred_self _ blurred

end Tables

end Store

structure Project.Twin [Machine] (exact : Prop) (p q : Project) : Prop where
  readable : p.Readable
  readable' : q.Readable
  alike : p.toJson.Alike q.toJson
  same : exact → p = q

namespace Project.Twin

variable {exact : Prop} {p q : Project}

theorem id [Machine] (h : p.Twin exact q) : p.id = q.id := (alike_toJson_iff.mp h.alike).1

theorem name [Machine] (h : p.Twin exact q) : p.name = q.name := (alike_toJson_iff.mp h.alike).2.1

theorem document [Machine] (h : p.Twin exact q) : Json.Like exact p.toJson q.toJson :=
  ⟨h.alike, fun holds => congrArg toJson (h.same holds)⟩

theorem metadata [Machine] (h : p.Twin exact q) :
    Json.Like exact p.metadata.toJson q.metadata.toJson :=
  ⟨(alike_toJson_iff.mp h.alike).2.2.2, fun holds => by rw [h.same holds]⟩

theorem imp [Machine] {other : Prop} (h : p.Twin exact q) (k : other → exact) : p.Twin other q :=
  { h with same := fun holds => h.same (k holds) }

theorem refl [Machine] (exact : Prop) (h : p.Readable) : p.Twin exact p :=
  ⟨h, h, .refl _, fun _ => rfl⟩

end Project.Twin

namespace Store

variable {exact : Prop} {m d : World} {p q : Project}

theorem twin_entryOf [Machine] (clock : m.clock = d.clock) (id : String) (h : p.Twin exact q) :
    (entryOf m id p).Twin exact (entryOf d id q) := ⟨rfl, h.name, h.metadata, clock⟩

/-- What is saved to both stores is twin again; it is the same if it takes the place of nothing that
is alike and not the same. -/
theorem twin_saved [Machine] (memory : m.store.backing = .memory)
    (database : d.store.backing = .database)
    (clock : m.clock = d.clock) (tables : m.store.tables.Twin exact d.store.tables)
    (h : p.Twin exact q) (environment : String)
    (sharp : exact → Json.Sharp (m.store.tables.document? p.id environment) p.toJson) :
    (saved m p.id environment p).Twin exact (saved d p.id environment q) := by
  have changed : (copied m p.id environment p).Twin exact (copied d p.id environment q) := by
    refine tables.withCopy ?_
    rw [written_eq, written_eq, memory, database, kept_memory]
    exact {
      projectId := rfl
      environment := rfl
      document := like_kept (rel_map (tables.copy? _ _) fun _ _ twin => twin.document) h.document
        sharp
      writtenAt := by simp [writeTime, memory, database, World.now, clock]
      universal := by
        have same : writeTime m = Time.DateTime.ofInstant m.clock := by
          rw [writeTime, memory]
          rfl
        rw [same]
        exact Time.DateTime.offset_ofInstant m.clock }
  have none := isNone_eq_of_rel (tables.entryOf? p.id)
  have memoryId : (if m.store.backing = .database then p.id else p.id) = p.id := ite_self p.id
  have databaseId : (if d.store.backing = .database then p.id else q.id) = p.id := by
    rw [← h.id, ite_self]
  simp only [saved, none, memoryId, databaseId]
  split
  · exact changed.withEntry (twin_entryOf clock p.id h)
  · exact changed

theorem twin_entered [Machine] (memory : m.store.backing = .memory)
    (database : d.store.backing = .database)
    (clock : m.clock = d.clock) (tables : m.store.tables.Twin exact d.store.tables)
    (h : p.Twin exact q)
    (sharp : exact → Json.Sharp (m.store.tables.metadata? p.id) p.metadata.toJson) :
    (entered m p).Twin exact (entered d q) := by
  obtain ⟨_, written, same⟩ := writtenEntry_eq m.store.backing (m.store.tables.entryOf? p.id)
    (entryOf m p.id p)
  obtain ⟨_, written', same'⟩ := writtenEntry_eq d.store.backing (d.store.tables.entryOf? q.id)
    (entryOf d q.id q)
  have entry := twin_entryOf clock p.id h
  rw [memory, kept_memory] at same
  rw [database, ← h.id] at same'
  simp only [entered]
  rw [written, written']
  refine tables.withEntry { id := h.id, name := h.name, metadata := ?_, since := clock }
  rw [Entry.document, Entry.document, same, same']
  have olds := rel_map (tables.entryOf? p.id) fun _ _ twin => twin.metadata
  exact like_kept olds entry.metadata sharp

end Store

end Sitewright
