import Mathlib.Algebra.Group.Nat.Defs
import Mathlib.Data.List.Induction
import Mathlib.Data.List.TakeWhile
import Tabscript.Position

/-!
# Positions as counts

A position is reached by moving past a text one character at a time, in 32-bit words. It is also
what the text says as a whole: its line counts the line feeds, its column the characters since the
last one. The two agree as long as the text is shorter than `2 ^ 32 - 1` characters, so up to
there no count wraps around (`toNat_after_start`), and a longer text leads to a later position
(`before_after_append`).
-/

namespace Tabscript.Position

/-- The line of the character that follows a text. -/
def lineAfter (text : List Char) : Nat := 1 + text.count '\n'

/-- The column of the character that follows a text. -/
def columnAfter (text : List Char) : Nat := 1 + (text.reverse.takeWhile (· ≠ '\n')).length

/-- The position `p` stands before the position `q` in a text. -/
def Before (p q : Position) : Prop := p.line < q.line ∨ p.line = q.line ∧ p.column < q.column

instance (p q : Position) : Decidable (p.Before q) :=
  inferInstanceAs (Decidable (p.line < q.line ∨ p.line = q.line ∧ p.column < q.column))

instance : Trans Before Before Before where
  trans {p q r} hpq hqr := by
    simp only [Before, UInt32.lt_iff_toNat_lt, ← UInt32.toNat_inj] at *
    omega

theorem lineAfter_append (text more : List Char) :
    lineAfter (text ++ more) = lineAfter text + more.count '\n' := by
  rw [lineAfter, lineAfter, List.count_append, Nat.add_assoc]

theorem columnAfter_append {text more : List Char} (h : '\n' ∉ more) :
    columnAfter (text ++ more) = columnAfter text + more.length := by
  have hmore : ∀ c ∈ more.reverse, decide (c ≠ '\n') = true := by
    intro c hc
    rw [List.mem_reverse] at hc
    exact decide_eq_true fun h' => h (h' ▸ hc)
  rw [columnAfter, columnAfter, List.reverse_append, List.takeWhile_append_of_pos hmore,
    List.length_append, List.length_reverse]
  omega

theorem columnAfter_newline (text : List Char) : columnAfter (text ++ ['\n']) = 1 := by
  simp [columnAfter]

theorem lineAfter_le (text : List Char) : lineAfter text ≤ text.length + 1 := by
  have := List.count_le_length (a := '\n') (l := text)
  rw [lineAfter]
  omega

theorem columnAfter_le (text : List Char) : columnAfter text ≤ text.length + 1 := by
  have := (List.takeWhile_prefix (l := text.reverse) (· ≠ '\n')).length_le
  rw [List.length_reverse] at this
  rw [columnAfter]
  omega

/-- No count wraps around in a text of fewer than `2 ^ 32 - 1` characters. -/
theorem toNat_after_start {text : List Char} (short : text.length < 2 ^ 32 - 1) :
    (start.after text).line.toNat = lineAfter text ∧
      (start.after text).column.toNat = columnAfter text := by
  induction text using List.reverseRecOn with
  | nil => exact ⟨rfl, rfl⟩
  | append_singleton text c ih =>
    rw [List.length_append, List.length_singleton] at short
    obtain ⟨hline, hcolumn⟩ := ih (by omega)
    have hline_le := lineAfter_le text
    have hcolumn_le := columnAfter_le text
    rw [after_append, after_cons, after_nil, advance]
    by_cases hc : c = '\n'
    · subst hc
      rw [if_pos rfl, lineAfter_append, columnAfter_newline, UInt32.toNat_add, hline]
      refine ⟨?_, rfl⟩
      rw [List.count_singleton_self, UInt32.toNat_one]
      omega
    · rw [if_neg hc, lineAfter_append, columnAfter_append (by simpa using Ne.symm hc),
        UInt32.toNat_add, hline, hcolumn]
      refine ⟨by simp [hc], ?_⟩
      rw [List.length_singleton, UInt32.toNat_one]
      omega

/-- A longer text leads to a later position. -/
theorem before_after_append {text more : List Char} (hmore : more ≠ [])
    (short : (text ++ more).length < 2 ^ 32 - 1) :
    (start.after text).Before (start.after (text ++ more)) := by
  have short' : text.length < 2 ^ 32 - 1 := by
    rw [List.length_append] at short
    omega
  obtain ⟨hline, hcolumn⟩ := toNat_after_start short'
  obtain ⟨hline', hcolumn'⟩ := toNat_after_start short
  rw [lineAfter_append] at hline'
  by_cases h : '\n' ∈ more
  · have := List.count_pos_iff.2 h
    exact .inl (UInt32.lt_iff_toNat_lt.2 (by omega))
  · rw [List.count_eq_zero_of_not_mem h] at hline'
    rw [columnAfter_append h] at hcolumn'
    have := List.length_pos_iff.2 hmore
    exact .inr ⟨UInt32.toNat_inj.1 (by omega), UInt32.lt_iff_toNat_lt.2 (by omega)⟩

end Tabscript.Position
