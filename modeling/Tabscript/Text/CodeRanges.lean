/-!
# Sets of code points as sorted ranges

A property of characters is given by the list of its maximal ranges of code points, in
ascending order. The look-up stops at the first range that starts above the code point, which
makes it short for the low code points most texts consist of. On ascending ranges this is the
membership in one of them (`CodeRanges.holds_iff`).
-/

namespace Tabscript.Text

/-- Ranges of code points, both ends included, in ascending order. -/
abbrev CodeRanges := List (Nat × Nat)

/-- Whether a code point lies in one of the ranges. -/
def CodeRanges.holds (n : Nat) : CodeRanges → Bool
  | [] => false
  | (low, high) :: rest =>
    if n < low then false else if n ≤ high then true else CodeRanges.holds n rest

/-- The ranges are non-empty, ascending and leave a gap of at least one code point between
neighbours, above `bound`. -/
def CodeRanges.ascendFrom (bound : Nat) : CodeRanges → Bool
  | [] => true
  | (low, high) :: rest =>
    decide (bound ≤ low) && decide (low ≤ high) && CodeRanges.ascendFrom (high + 2) rest

theorem CodeRanges.le_of_ascendFrom {bound : Nat} {ranges : CodeRanges}
    (h : CodeRanges.ascendFrom bound ranges = true) {range : Nat × Nat} (hr : range ∈ ranges) :
    bound ≤ range.1 := by
  induction ranges generalizing bound with
  | nil => cases hr
  | cons first rest ih =>
    obtain ⟨low, high⟩ := first
    simp only [ascendFrom, Bool.and_eq_true, decide_eq_true_eq] at h
    obtain ⟨⟨h₁, h₂⟩, h₃⟩ := h
    rcases List.mem_cons.1 hr with rfl | hr
    · exact h₁
    · have := ih h₃ hr
      omega

/-- The look-up in ascending ranges finds the code points that lie in one of them. -/
theorem CodeRanges.holds_iff {bound n : Nat} {ranges : CodeRanges}
    (h : CodeRanges.ascendFrom bound ranges = true) :
    CodeRanges.holds n ranges = true ↔ ∃ range ∈ ranges, range.1 ≤ n ∧ n ≤ range.2 := by
  induction ranges generalizing bound with
  | nil => simp [holds]
  | cons first rest ih =>
    obtain ⟨low, high⟩ := first
    simp only [ascendFrom, Bool.and_eq_true, decide_eq_true_eq] at h
    obtain ⟨⟨h₁, h₂⟩, h₃⟩ := h
    rw [holds]
    by_cases hlow : n < low
    · rw [if_pos hlow]
      refine ⟨nofun, ?_⟩
      rintro ⟨range, hr, hn, -⟩
      rcases List.mem_cons.1 hr with rfl | hr
      · exact absurd hlow (Nat.not_lt.2 hn)
      · have := le_of_ascendFrom h₃ hr
        omega
    · by_cases hhigh : n ≤ high
      · rw [if_neg hlow, if_pos hhigh]
        exact ⟨fun _ => ⟨(low, high), List.mem_cons_self, Nat.not_lt.1 hlow, hhigh⟩, fun _ => rfl⟩
      · rw [if_neg hlow, if_neg hhigh, ih h₃]
        refine ⟨fun ⟨range, hr, hn⟩ => ⟨range, List.mem_cons_of_mem _ hr, hn⟩, ?_⟩
        rintro ⟨range, hr, hn⟩
        rcases List.mem_cons.1 hr with rfl | hr
        · exact absurd hn.2 hhigh
        · exact ⟨range, hr, hn⟩

end Tabscript.Text
