/-!
The limits of the machine that runs the program. Everything that recurs over a document or a text of
JSON fails beyond them, so what is proved about it is proved for every machine.
-/

namespace Sitewright

/-- `calls` may still stand inside each other when a function of the library is called, and a text
of JSON is read up to `textNesting`. Both leave room for what the program makes itself. -/
class Machine where
  calls : Nat
  textNesting : Nat
  roomy : 256 ≤ calls
  deep : 256 ≤ textNesting

theorem Machine.exists_textNesting [Machine] {levels : Nat} (few : levels ≤ 256) :
    ∃ above, textNesting = above + levels :=
  Nat.exists_eq_add_of_le' (Nat.le_trans few deep)

/-- A stack of a thousand calls, of which the server takes a few. -/
instance Machine.usual : Machine where
  calls := 996
  textNesting := 980
  roomy := by decide
  deep := by decide

end Sitewright
