import Sitewright.Proofs.Document.Copying

namespace Sitewright.Project

variable {prior enhanced : Project} {millis : Int} {random : Random}

/-- The source of chances need not be endless, but then there is no draw that does not succeed. -/
theorem succeeds_repairDraws (endless : random.IsEndless millis) (prior enhanced : Project) :
    ∀ draw ∈ prior.repairDraws enhanced millis random, draw.Succeeds millis :=
  Repair.succeeds_pagesDraws endless enhanced.pages

/-- A project whose identifiers have been put in order against those of another project: all are
there and differ on every page, nothing but identifiers has changed, and those have changed only to
such as had not been known. Each draw that was made has come to its end. -/
structure InOrder (prior enhanced repaired : Project) (millis : Int) (made : List Draw) : Prop where
  ended : ∀ draw ∈ made, ∃ n, draw.EndsAfter millis n
  distinct : ∀ page ∈ repaired.pages, page.HasDistinctIds
  same : repaired.withoutIds = enhanced.withoutIds
  renamed : List.Forall₂ (fun old new => new.id = old.id ∨ ∀ node ∈ prior.nodes, node.id ≠ new.id)
    enhanced.nodes repaired.nodes

theorem inOrder_repairIds
    (supplied : ∀ draw ∈ prior.repairDraws enhanced millis random, draw.Succeeds millis) :
    InOrder prior enhanced (prior.repairIds enhanced millis random).1 millis
      (prior.repairDraws enhanced millis random) := by
  have ordered := ordered_repairIds supplied
  refine ⟨fun draw made => Draw.exists_endsAfter (supplied draw made),
    Repair.distinct_of_ordered ordered, ?_, ?_⟩
  · rw [withoutIds, Repair.withoutIds_of_ordered ordered]
    rfl
  · refine (Repair.renamed_of_ordered ordered).imp fun old new renamed => ?_
    rwa [Repair.Renamed, Repair.contains_knownTypes] at renamed

/-- The repair of a project fails when the project is too deep to be copied, and only then. When it
does not, it leaves alone what is in order; and as long as the source gives identifiers that are not
taken, it ends with a project in order, so that doing it again, at any time, changes nothing and
draws nothing. -/
theorem repairIds_inOrder [Machine] (prior enhanced : Project) (millis : Int) :
    (∀ error, prior.repair enhanced millis = .error error ↔
      ¬enhanced.Copyable ∧ error = .valueNested) ∧
    (enhanced.Copyable → ∃ repaired, prior.repair enhanced millis = .ok repaired ∧
      (∀ random, (∀ draw ∈ prior.repairDraws enhanced millis random, draw.Succeeds millis) →
        InOrder prior enhanced (repaired random).1 millis
          (prior.repairDraws enhanced millis random) ∧
        ∀ later, ∃ again, prior.repair (repaired random).1 later = .ok again ∧
          ∀ next, again next = ((repaired random).1, next)) ∧
      ((∀ page ∈ enhanced.pages, page.HasDistinctIds) → ∀ random,
        repaired random = (enhanced, random) ∧
        prior.repairDraws enhanced millis random = [])) := by
  refine ⟨fun error => repair_eq_error, fun copyable =>
    ⟨_, repair_eq_ok.mpr ⟨copyable, rfl⟩, fun random supplied => ?_, fun distinct random =>
      repairIds_of_distinct prior millis random distinct⟩⟩
  have inOrder := inOrder_repairIds supplied
  refine ⟨inOrder, fun later => ⟨_, repair_eq_ok.mpr ⟨?_, rfl⟩, fun next => ?_⟩⟩
  · exact copyable_repairIds.mpr copyable
  · exact (repairIds_of_distinct prior later next inOrder.distinct).1

def tidy : Project where
  id := "p"
  name := "P"
  pages := [
    ⟨"home", "Home", "/", [⟨"body-1", "Body", [], [], [],
      [{ id := "text-1", type := "Text" }]⟩], []⟩]

/-- The body again, with an image that goes by the identifier of the text and a button that has
none before the text, and another page with the same body. -/
def untidy : Project :=
  { tidy with
    pages := [
      ⟨"home", "Home", "/", [⟨"body-1", "Body", [], [], [],
        [{ id := "text-1", type := "Image" }, { id := "", type := "Button" },
          { id := "text-1", type := "Text" }]⟩], []⟩,
      ⟨"more", "More", "/more", [{ id := "body-1", type := "Body" }], []⟩] }

/-- A source that chooses the same characters each time, a millisecond later than before. -/
def ticking : Random := ⟨fun n => { (default : Chance) with elapsed := n }⟩

theorem isEndless_ticking (millis : Int) : ticking.IsEndless millis :=
  Random.isEndless_of_injective fun _ _ same => Int.ofNat.inj same

theorem repairIds_untidy :
    untidy.Copyable ∧ (tidy.repairDraws untidy 1704067200000 ticking).isEmpty = false ∧
    ∃ repaired, tidy.repair untidy 1704067200000 = .ok repaired ∧
      ∀ page ∈ (repaired ticking).1.pages, page.HasDistinctIds := by
  have copyable : untidy.Copyable := by decide +kernel
  obtain ⟨repaired, made, inOrder, -⟩ :=
    (repairIds_inOrder tidy untidy 1704067200000).2 copyable
  have supplied := succeeds_repairDraws (isEndless_ticking 1704067200000) tidy untidy
  exact ⟨copyable, by decide +kernel, repaired, made, (inOrder ticking supplied).1.distinct⟩

end Sitewright.Project
