import Tabscript.Proofs.Literals

/-!
# What a literal says

A string may hold escapes that were written in the source, and its literal adds escapes of its own.
Both are pairs of a backslash and a character, and the two kinds mix in one literal. They do not
disturb each other as long as no backslash of the string takes a character that the literal escapes:
then the literal stands for what the text stands for. Otherwise that backslash pairs up with the one
that the literal adds, and the meaning is lost (`unescape_literalBody_iff`).

* `pairedChars` and `unpairedChars` list the characters of a text that stand in a pair behind its
  backslash, and those that stand in none.
* `unescape_literal` puts together what the body of a literal is worth.
-/

namespace Tabscript.JavaScript

/-! ## Pairs -/

/-- The characters that are taken by a backslash. -/
def pairedChars : List Char → List Char
  | [] => []
  | ['\\'] => []
  | '\\' :: c :: rest => c :: pairedChars rest
  | _ :: rest => pairedChars rest

/-- The characters outside pairs. -/
def unpairedChars : List Char → List Char
  | [] => []
  | ['\\'] => ['\\']
  | '\\' :: _ :: rest => unpairedChars rest
  | c :: rest => c :: unpairedChars rest

/-- A text is read pair by pair. -/
theorem pair_induction {motive : List Char → Prop} (nil : motive []) (lone : motive ['\\'])
    (pair : ∀ c rest, motive rest → motive ('\\' :: c :: rest))
    (plain : ∀ c rest, c ≠ '\\' → motive rest → motive (c :: rest)) (text : List Char) :
    motive text := by
  induction text using unescape.induct with
  | case1 => exact nil
  | case2 => exact lone
  | case3 c rest ih => exact pair c rest ih
  | case4 c rest hlone hpair ih =>
    refine plain c rest ?_ ih
    rintro rfl
    cases rest with
    | nil => exact hlone rfl rfl
    | cons d rest => exact hpair d rest rfl rfl

section

variable {c : Char} (rest : List Char)

theorem unescape_pair : unescape ('\\' :: c :: rest) = pairMeaning c ++ unescape rest := by
  rw [unescape]

theorem unescape_plain (h : c ≠ '\\') : unescape (c :: rest) = c :: unescape rest := by
  rw [unescape.eq_def]
  split <;> simp_all

theorem pairedChars_pair : pairedChars ('\\' :: c :: rest) = c :: pairedChars rest := by
  rw [pairedChars]

theorem pairedChars_plain (h : c ≠ '\\') : pairedChars (c :: rest) = pairedChars rest := by
  rw [pairedChars.eq_def]
  split <;> simp_all

theorem unpairedChars_pair : unpairedChars ('\\' :: c :: rest) = unpairedChars rest := by
  rw [unpairedChars]

theorem unpairedChars_plain (h : c ≠ '\\') :
    unpairedChars (c :: rest) = c :: unpairedChars rest := by
  rw [unpairedChars.eq_def]
  split <;> simp_all

end

/-! ## The body of a literal -/

/-- The characters that a literal escapes. -/
def escapedChars : List Char := ['"', '\n', '\r', '\t']

/-- No backslash of the text takes a character that a literal escapes. -/
def KeepsPairs (text : List Char) : Prop := ∀ c ∈ pairedChars text, c ∉ escapedChars

instance (text : List Char) : Decidable (KeepsPairs text) :=
  decidable_of_iff ((pairedChars text).all fun c => !escapedChars.contains c) (by simp [KeepsPairs])

/-- The character behind a backslash is kept if it is none of those that are escaped. -/
theorem keepsPairs_pair_iff {c : Char} {rest : List Char} :
    KeepsPairs ('\\' :: c :: rest) ↔ c ∉ escapedChars ∧ KeepsPairs rest := by
  rw [KeepsPairs, pairedChars_pair, List.forall_mem_cons, KeepsPairs]

theorem keepsPairs_plain_iff {c : Char} {rest : List Char} (h : c ≠ '\\') :
    KeepsPairs (c :: rest) ↔ KeepsPairs rest := by
  rw [KeepsPairs, pairedChars_plain rest h, KeepsPairs]

theorem literalBody_cons (c : Char) (text : List Char) :
    literalBody (c :: text) = literalChar c ++ literalBody text := List.flatMap_cons

/-- A pair passes through if its second half is not escaped. -/
theorem literalBody_pair {c : Char} (rest : List Char) (h : c ∉ escapedChars) :
    literalBody ('\\' :: c :: rest) = '\\' :: c :: literalBody rest := by
  rw [literalBody_cons, literalBody_cons, literalChar_eq_singleton h]
  rfl

/-- What a literal makes of a character that it escapes: a pair that stands for the character.
Behind a backslash of the text the two are no pair, and do not mean what that backslash and the
character mean. -/
theorem exists_escape {c : Char} (h : c ∈ escapedChars) :
    ∃ letter, literalChar c = ['\\', letter] ∧ letter ∉ ['\\', '\n', '\r', '\t'] ∧
      pairMeaning letter = [c] ∧ ∀ text text', '\\' :: letter :: text ≠ pairMeaning c ++ text' := by
  simp only [escapedChars, List.mem_cons, List.not_mem_nil, or_false] at h
  rcases h with rfl | rfl | rfl | rfl
  · exact ⟨'"', rfl, by decide, rfl, by simp [pairMeaning]⟩
  · exact ⟨'n', rfl, by decide, rfl, by simp [pairMeaning]⟩
  · exact ⟨'r', rfl, by decide, rfl, by simp [pairMeaning]⟩
  · exact ⟨'t', rfl, by decide, rfl, by simp [pairMeaning]⟩

/-- A character outside pairs is read back from the literal, in a pair or not. -/
theorem unescape_literalChar {c : Char} (rest : List Char) (h : c ≠ '\\') :
    unescape (literalChar c ++ rest) = c :: unescape rest := by
  by_cases hc : c ∈ escapedChars
  · obtain ⟨letter, hletter, -, hmeaning, -⟩ := exists_escape hc
    rw [hletter, List.cons_append, List.singleton_append, unescape_pair, hmeaning,
      List.singleton_append]
  · rw [literalChar_eq_singleton hc, List.singleton_append, unescape_plain rest h]

/-- A backslash that takes an escaped character pairs up with the backslash of the escape. -/
theorem unescape_literalBody_ne {c : Char} (rest : List Char) (h : c ∈ escapedChars) :
    unescape (literalBody ('\\' :: c :: rest)) ≠ unescape ('\\' :: c :: rest) := by
  obtain ⟨letter, hletter, hother, -, hne⟩ := exists_escape h
  have hslash : letter ≠ '\\' := fun h' => hother (h' ▸ List.mem_cons_self)
  have hbody : literalBody ('\\' :: c :: rest) =
      '\\' :: '\\' :: letter :: literalBody rest := by
    rw [literalBody_cons, literalBody_cons, hletter]
    rfl
  rw [hbody, unescape_pair, unescape_pair, unescape_plain _ hslash]
  exact hne _ _

/-- The body of a literal stands for what the text stands for exactly if no backslash of the text
takes a character that the literal escapes. -/
theorem unescape_literalBody_iff (text : List Char) :
    unescape (literalBody text) = unescape text ↔ KeepsPairs text := by
  induction text using pair_induction with
  | nil => exact iff_of_true rfl nofun
  | lone => exact iff_of_true rfl nofun
  | pair c rest ih =>
    rw [keepsPairs_pair_iff]
    -- An escaped `c` gets a backslash of its own, and there the two readings come apart.
    by_cases hc : c ∈ escapedChars
    · exact iff_of_false (unescape_literalBody_ne rest hc) fun h => h.1 hc
    · rw [literalBody_pair rest hc, unescape_pair, unescape_pair, List.append_cancel_left_eq, ih]
      exact (and_iff_right hc).symm
  | plain c rest hc ih =>
    rw [literalBody_cons, unescape_literalChar _ hc, unescape_plain rest hc, List.cons.injEq,
      keepsPairs_plain_iff hc, ih]
    exact and_iff_right rfl

theorem quote_notMem_unpairedChars_literalChar {c : Char} {rest : List Char} (h : c ≠ '\\')
    (hrest : '"' ∉ unpairedChars rest) : '"' ∉ unpairedChars (literalChar c ++ rest) := by
  by_cases hc : c ∈ escapedChars
  · obtain ⟨letter, hletter, -⟩ := exists_escape hc
    rw [hletter, List.cons_append, List.singleton_append, unpairedChars_pair]
    exact hrest
  · have hquote : '"' ≠ c := by
      rintro rfl
      exact hc List.mem_cons_self
    rw [literalChar_eq_singleton hc, List.singleton_append, unpairedChars_plain rest h,
      List.mem_cons, not_or]
    exact ⟨hquote, hrest⟩

/-- Every quote inside a literal has a backslash before it, if the text keeps its pairs. -/
theorem quote_notMem_unpairedChars_literalBody {text : List Char} (h : KeepsPairs text) :
    '"' ∉ unpairedChars (literalBody text) := by
  induction text using pair_induction with
  | nil => exact List.not_mem_nil
  | lone => decide
  | pair c rest ih =>
    obtain ⟨hc, hrest⟩ := keepsPairs_pair_iff.1 h
    rw [literalBody_pair rest hc, unpairedChars_pair]
    exact ih hrest
  | plain c rest hc ih =>
    rw [literalBody_cons]
    exact quote_notMem_unpairedChars_literalChar hc (ih ((keepsPairs_plain_iff hc).1 h))

theorem unescape_eq_self {text : List Char} (h : '\\' ∉ text) : unescape text = text := by
  induction text with
  | nil => rfl
  | cons c text ih =>
    rw [List.mem_cons, not_or] at h
    rw [unescape_plain text (Ne.symm h.1), ih h.2]

theorem keepsPairs_of_notMem {text : List Char} (h : '\\' ∉ text) : KeepsPairs text := by
  induction text with
  | nil => exact nofun
  | cons c text ih =>
    rw [List.mem_cons, not_or] at h
    exact (keepsPairs_plain_iff (Ne.symm h.1)).2 (ih h.2)

/-- No line break and no tab stands in a literal as it is. -/
theorem notMem_literalBody {text : List Char} {c : Char} (h : c ∈ ['\n', '\r', '\t']) :
    c ∉ literalBody text := by
  intro hmem
  obtain ⟨d, -, hd⟩ := List.mem_flatMap.1 hmem
  by_cases hescaped : d ∈ escapedChars
  · obtain ⟨letter, hletter, hother, -⟩ := exists_escape hescaped
    rw [hletter, List.mem_cons, List.mem_singleton] at hd
    rcases hd with rfl | rfl
    · exact absurd h (by decide)
    · exact hother (List.mem_cons_of_mem _ h)
  · rw [literalChar_eq_singleton hescaped, List.mem_singleton] at hd
    exact hescaped (hd ▸ List.mem_cons_of_mem _ h)

/-- **A literal keeps the meaning of the escapes in its text.** Between the quotes of the literal of
a text there is no raw line break or tab. What stands there means what the text means exactly if no
backslash of the text takes a quote, line break or tab, and then no quote stands there outside
a pair. A text without backslashes is read back as it was. -/
theorem unescape_literal (text : String) :
    ∃ body, (literal text).toList = '"' :: (body ++ ['"']) ∧
      (∀ c ∈ ['\n', '\r', '\t'], c ∉ body) ∧
      (unescape body = unescape text.toList ↔ KeepsPairs text.toList) ∧
      (KeepsPairs text.toList → '"' ∉ unpairedChars body) ∧
      ('\\' ∉ text.toList → unescape body = text.toList) := by
  refine ⟨literalBody text.toList, toList_literal text, fun c => notMem_literalBody,
    unescape_literalBody_iff text.toList, quote_notMem_unpairedChars_literalBody, fun h => ?_⟩
  rw [(unescape_literalBody_iff text.toList).2 (keepsPairs_of_notMem h), unescape_eq_self h]

/-- An escape of the text, a pair of backslashes in front of a raw quote, and a raw tab. -/
theorem unescape_literal_mixed :
    KeepsPairs "\\n\\\\\"\t".toList ∧ (literal "\\n\\\\\"\t").toList = "\"\\n\\\\\\\"\\t\"".toList ∧
      unescape "\\n\\\\\\\"\\t".toList = "\n\\\"\t".toList ∧
      unescape "\\n\\\\\"\t".toList = "\n\\\"\t".toList := by
  have hkeeps : KeepsPairs "\\n\\\\\"\t".toList := by decide
  obtain ⟨body, hliteral, -, hmeaning, -⟩ := unescape_literal "\\n\\\\\"\t"
  have hvalue : (literal "\\n\\\\\"\t").toList = '"' :: ("\\n\\\\\\\"\\t".toList ++ ['"']) := by
    decide
  obtain rfl : body = "\\n\\\\\\\"\\t".toList := by
    rw [hvalue, List.cons.injEq, List.append_cancel_right_eq] at hliteral
    exact hliteral.2.symm
  have htext : unescape "\\n\\\\\"\t".toList = "\n\\\"\t".toList := by decide
  exact ⟨hkeeps, hvalue, (hmeaning.2 hkeeps).trans htext, htext⟩

end Tabscript.JavaScript
