import Sitewright.Document.Copy
import Sitewright.Text.Case

/-!
Fresh identifiers: a lower-case type, the milliseconds of the clock, and nine characters that are
drawn at random.
-/

namespace Sitewright

namespace Identifier

def alphabet : List Char := "0123456789abcdefghijklmnopqrstuvwxyz".toList

def suffixLength : Nat := 9

end Identifier

/-- What one drawing of an identifier comes upon: by how many milliseconds the clock has moved since
the call began, and which characters of the alphabet are chosen. -/
structure Chance where
  elapsed : Int
  letters : Fin Identifier.suffixLength → Fin Identifier.alphabet.length

instance : Inhabited Chance := ⟨0, fun _ => ⟨0, by decide⟩⟩

/-- The source of chances, in the order in which they are come upon. Nothing is assumed of it. -/
structure Random where
  chance : Nat → Chance
  deriving Inhabited

def Random.drop (random : Random) (count : Nat) : Random := ⟨fun n => random.chance (n + count)⟩

namespace Identifier

def ofChance (type : String) (millis : Int) (chance : Chance) : String :=
  let suffix := List.ofFn fun place => alphabet.get (chance.letters place)
  Text.lower type ++ "-" ++ toString (millis + chance.elapsed) ++ "-" ++ String.ofList suffix

theorem ofChance_ne_empty (type : String) (millis : Int) (chance : Chance) :
    ofChance type millis chance ≠ "" := by
  rw [ne_eq, ← String.toList_eq_nil_iff]
  simp [ofChance]

def fresh (type : String) (millis : Int) (random : Random) : String × Random :=
  (ofChance type millis (random.chance 0), random.drop 1)

/-- A draw: the source after it if the identifier is taken, and else what has been drawn. -/
def attempt (taken : String → Bool) (type : String) (millis : Int) (random : Random) :
    Id (Random ⊕ String × Random) :=
  let drawn := fresh type millis random
  pure (if taken drawn.1 then .inl drawn.2 else .inr drawn)

/-- Draws until an identifier is not taken. When all that the source has to give are taken, the loop
has no end and nothing is known of the value. -/
def freshOutside (taken : String → Bool) (type : String) (millis : Int) (random : Random) :
    String × Random :=
  (repeatM (attempt taken type millis) random).run

theorem freshOutside_eq (taken : String → Bool) (type : String) (millis : Int) (random : Random) :
    freshOutside taken type millis random =
      if taken (fresh type millis random).1 then
        freshOutside taken type millis (fresh type millis random).2
      else fresh type millis random := by
  rw [freshOutside, repeatM_eq_of_monadTail, repeatM.body, attempt]
  split <;> rfl

def freshDeployment (millis : Int) (random : Random) : String × Random :=
  fresh "deploy" millis random

end Identifier

def Page.fresh (name slug : String) (millis : Int) (random : Random) : Page × Random :=
  let (id, random) := Identifier.fresh "page" millis random
  let type := ComponentType.body.name
  let (rootId, random) := Identifier.fresh type millis random
  ({ id, name, slug, tree := [{ id := rootId, type, metadata := [("name", .str type)] }] }, random)

end Sitewright
