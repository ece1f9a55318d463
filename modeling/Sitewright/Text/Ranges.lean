namespace Sitewright.Text

def inRanges (ranges : List (Nat × Nat)) (c : Char) : Bool :=
  ranges.any fun r => r.1 ≤ c.toNat && c.toNat ≤ r.2

theorem inRanges_iff {ranges : List (Nat × Nat)} {c : Char} :
    inRanges ranges c = true ↔ ∃ r ∈ ranges, r.1 ≤ c.toNat ∧ c.toNat ≤ r.2 := by
  simp [inRanges]

theorem not_inRanges_of_apart {as bs : List (Nat × Nat)}
    (apart : (as.all fun a => bs.all fun b => a.2 < b.1 || b.2 < a.1) = true) {c : Char}
    (h : inRanges as c = true) : inRanges bs c = false := by
  obtain ⟨a, ha, first, last⟩ := inRanges_iff.mp h
  refine Bool.eq_false_iff.mpr fun other => ?_
  obtain ⟨b, hb, start, stop⟩ := inRanges_iff.mp other
  have between := List.all_eq_true.mp (List.all_eq_true.mp apart a ha) b hb
  simp only [Bool.or_eq_true, decide_eq_true_eq] at between
  omega

end Sitewright.Text
