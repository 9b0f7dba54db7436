import Mathlib.Data.List.Induction
import Mathlib.Data.List.TakeWhile
import Tabscript.JavaScript.Reading
import Tabscript.Proofs.Layout
import Tabscript.Proofs.WellFormed

/-!
# Where a literal ends

A string of a source ends at the next quote, whatever stands before that quote. Its literal passes
backslashes through to a language in which a backslash takes the next character with it. Line
breaks and tabs, which become pairs of characters, do not upset the pairing, so all hangs on the
end of the text: with an even number of backslashes there the literal is closed by its own quote
(`scan_literalBody`), with an odd number that quote is taken by the last of them and the literal
runs on into the code that follows.

* `endsInPair_eq` expresses the pairing by the number of backslashes at the end.
* `closesAtEnd_literal_iff` says which literals in the code of a program are closed.
-/

namespace Tabscript.JavaScript

/-! ## Pairs -/

/-- Whether a backslash still lacks the other half of its pair after the character `c`. -/
def pairStep (inPair : Bool) (c : Char) : Bool := !inPair && c == '\\'

/-- Whether a text ends with a backslash that lacks the other half of its pair. -/
def endsInPair (text : List Char) : Bool := text.foldl pairStep false

/-- The number of backslashes at the end of a text. -/
def trailingBackslashes (text : List Char) : Nat := (text.reverse.takeWhile (· = '\\')).length

theorem trailingBackslashes_append_singleton (text : List Char) (c : Char) :
    trailingBackslashes (text ++ [c]) =
      if c = '\\' then trailingBackslashes text + 1 else 0 := by
  rw [trailingBackslashes, List.reverse_append, List.reverse_singleton, List.singleton_append,
    List.takeWhile_cons]
  split <;> simp_all [trailingBackslashes]

/-- The last backslash lacks its other half if the backslashes at the end are odd in number. -/
theorem endsInPair_eq (text : List Char) :
    endsInPair text = decide (trailingBackslashes text % 2 = 1) := by
  induction text using List.reverseRecOn with
  | nil => rfl
  | append_singleton text c ih =>
    have hstep : endsInPair (text ++ [c]) = pairStep (endsInPair text) c := List.foldl_concat ..
    rw [hstep, ih, trailingBackslashes_append_singleton, pairStep]
    by_cases hc : c = '\\'
    · rw [if_pos hc, beq_iff_eq.2 hc, Bool.and_true, ← decide_not, decide_eq_decide]
      omega
    · rw [if_neg hc, beq_eq_false_iff_ne.2 hc, Bool.and_false]
      rfl

/-! ## Scanning a literal -/

theorem scan_pair {c : Char} (rest : List Char) (h : isLineBreak c = false) :
    scan ('\\' :: c :: rest) = scan rest := by
  rw [scan, if_neg (by rw [h]; exact Bool.false_ne_true)]

theorem scan_char {c : Char} (rest : List Char) (hquote : c ≠ '"') (hslash : c ≠ '\\')
    (h : isLineBreak c = false) : scan (c :: rest) = scan rest := by
  rw [scan.eq_def]
  split <;> simp_all

/-- The scan of the rest of a literal, after a backslash that lacks its other half if
`inPair` holds. -/
def scanFrom (inPair : Bool) (text : List Char) : Option (List Char) :=
  scan (if inPair then '\\' :: text else text)

theorem literalChar_eq_singleton {c : Char} (h : c ∉ ['"', '\n', '\r', '\t']) :
    literalChar c = [c] := by
  unfold literalChar
  split <;> simp_all

/-- A character of a string takes the scan to the next one. One that becomes a pair does so too
after a backslash, which takes the first half of the pair and leaves a plain letter. -/
theorem scanFrom_literalChar {inPair : Bool} {c : Char} (rest : List Char) (hquote : c ≠ '"') :
    scanFrom inPair (literalChar c ++ rest) = scanFrom (pairStep inPair c) rest := by
  by_cases hbreak : c ∈ ['\n', '\r', '\t']
  · simp only [List.mem_cons, List.not_mem_nil, or_false] at hbreak
    cases inPair <;> rcases hbreak with rfl | rfl | rfl <;> rfl
  · have hbreak' : isLineBreak c = false := by
      simp_all [isLineBreak]
    rw [literalChar_eq_singleton (by simp_all), List.singleton_append]
    by_cases hslash : c = '\\'
    · subst hslash
      cases inPair <;> rfl
    · rw [pairStep, beq_eq_false_iff_ne.2 hslash, Bool.and_false]
      cases inPair with
      | true => exact scan_pair rest hbreak'
      | false => exact scan_char rest hquote hslash hbreak'

/-- The scan of what a text became ends in the state that the text itself leads to. -/
theorem scanFrom_literalBody {inPair : Bool} {text : List Char} (rest : List Char)
    (h : '"' ∉ text) :
    scanFrom inPair (literalBody text ++ rest) = scanFrom (text.foldl pairStep inPair) rest := by
  induction text generalizing inPair with
  | nil => rfl
  | cons c text ih =>
    rw [List.mem_cons, not_or] at h
    rw [literalBody, List.flatMap_cons, List.append_assoc, scanFrom_literalChar _ (Ne.symm h.1)]
    exact ih h.2

/-- The quote after the body of a literal closes it, unless the body's last backslash takes it. -/
theorem scan_literalBody {text : List Char} (rest : List Char) (h : '"' ∉ text) :
    scan (literalBody text ++ '"' :: rest) = if endsInPair text then scan rest else some rest := by
  show scanFrom false (literalBody text ++ '"' :: rest) = _
  rw [scanFrom_literalBody _ h]
  show scanFrom (endsInPair text) ('"' :: rest) = _
  cases endsInPair text <;> rfl

/-- What stands between the quotes of a literal is on one line. -/
theorem isLineBreak_of_mem_literalBody {text : List Char} {c : Char} (h : c ∈ literalBody text) :
    isLineBreak c = false := by
  obtain ⟨d, -, hc⟩ := List.mem_flatMap.1 h
  unfold literalChar at hc
  split at hc
  all_goals simp_all [isLineBreak]
  all_goals rcases hc with rfl | rfl <;> decide

/-! ## Literals in the code -/

/-- The text is a whole literal: scanned from behind its opening quote, it ends with its last
character, whatever follows. -/
def ClosesAtEnd (text : String) : Prop :=
  ∃ body, text.toList = '"' :: body ∧ ∀ after, scan (body ++ after) = some after

theorem toList_literal (text : String) :
    (literal text).toList = '"' :: (literalBody text.toList ++ ['"']) := by
  simp [literal]

/-- The closing quote closes the literal unless the text ends in an odd number of backslashes. The
scan then runs on into what follows. -/
theorem scan_tail_literal {text : String} (after : List Char) (h : '"' ∉ text.toList) :
    scan ((literal text).toList.tail ++ after) =
      if trailingBackslashes text.toList % 2 = 1 then scan after else some after := by
  rw [toList_literal, List.tail_cons, List.append_assoc, List.singleton_append,
    scan_literalBody after h, endsInPair_eq]
  simp only [decide_eq_true_eq]

theorem closesAtEnd_literal_iff {text : String} (h : '"' ∉ text.toList) :
    ClosesAtEnd (literal text) ↔ trailingBackslashes text.toList % 2 = 0 := by
  constructor
  · rintro ⟨body, hbody, hscan⟩
    have hnil := scan_tail_literal [] h
    rw [hbody, List.tail_cons, hscan] at hnil
    -- an open literal at the end of the text has no end
    split at hnil
    · cases hnil
    · omega
  · intro heven
    refine ⟨_, toList_literal text, fun after => ?_⟩
    have hscan := scan_tail_literal after h
    rw [toList_literal, List.tail_cons, if_neg (by omega)] at hscan
    exact hscan

theorem isLineBreak_of_mem_literal {text : String} {c : Char} (h : c ∈ (literal text).toList) :
    isLineBreak c = false := by
  rw [toList_literal, List.mem_cons, List.mem_append, List.mem_singleton] at h
  rcases h with rfl | h | rfl
  · rfl
  · exact isLineBreak_of_mem_literalBody h
  · rfl

end JavaScript

open JavaScript

/-- **Which literals of generated code are closed.** The literal of each string of a program stands
in the program's code without a line break inside it. It is a whole literal exactly if the text of
the string ends with an even number of backslashes; else its scan goes on as if the code that
follows stood inside it. -/
theorem closesAtEnd_literal_of_compile (source code : String)
    (h : compile source .javaScript = .ok code) :
    ∃ p, Program.parse (lex source) = .ok p ∧ ∀ text pos, Expr.string text pos ∈ p.exprs →
      (literal text).toList <:+: code.toList ∧
      (∀ c ∈ (literal text).toList, isLineBreak c = false) ∧
      (ClosesAtEnd (literal text) ↔ trailingBackslashes text.toList % 2 = 0) ∧
      (trailingBackslashes text.toList % 2 = 1 →
        ∀ after, scan ((literal text).toList.tail ++ after) = scan after) := by
  obtain ⟨p, hp, hcode⟩ := compile_eq_ok_iff.1 h
  refine ⟨p, hp, fun text pos hmem => ?_⟩
  have hquote : '"' ∉ text.toList := by
    have hwell := Program.wellFormed_of_mem_exprs (wellFormed_of_parse_lex hp) hmem
    simpa [Expr.wellFormed, isStringText] using hwell
  have hstands := rendering_infix_code hcode hmem
  rw [Expr.rendering] at hstands
  refine ⟨hstands, fun c => isLineBreak_of_mem_literal, closesAtEnd_literal_iff hquote,
    fun hodd after => ?_⟩
  rw [scan_tail_literal after hquote, if_pos hodd]

/-- A source with a string of two backslashes. -/
theorem closesAtEnd_two_backslashes :
    compile "f() \x7b\n\tprint \"\\\\\"\n\x7d\n" .javaScript = .ok
      "(function () \x7b\n\tfunction f() \x7b\n\t\tconsole.log(\"\\\\\");\n\t\x7d\n\n\x7d)();" ∧
      ClosesAtEnd (literal "\\\\") := by
  have hcompile : compile "f() \x7b\n\tprint \"\\\\\"\n\x7d\n" .javaScript = .ok
      "(function () \x7b\n\tfunction f() \x7b\n\t\tconsole.log(\"\\\\\");\n\t\x7d\n\n\x7d)();" := by
    decide +kernel
  refine ⟨hcompile, ?_⟩
  obtain ⟨p, hp, hstrings⟩ := closesAtEnd_literal_of_compile _ _ hcompile
  have hparse : Program.parse (lex "f() \x7b\n\tprint \"\\\\\"\n\x7d\n") =
      .ok ⟨[⟨⟨"f", ⟨1, 1⟩⟩, [.print (.string "\\\\" ⟨2, 8⟩)]⟩]⟩ := by
    decide +kernel
  cases hparse.symm.trans hp
  exact (hstrings "\\\\" ⟨2, 8⟩ List.mem_cons_self).2.2.1.2 (by decide)

/-- A source with a string of one backslash, whose literal does not end with its closing quote. -/
theorem not_closesAtEnd_one_backslash :
    compile "f() \x7b\n\tprint \"\\\"\n\x7d\n" .javaScript = .ok
      "(function () \x7b\n\tfunction f() \x7b\n\t\tconsole.log(\"\\\");\n\t\x7d\n\n\x7d)();" ∧
      Program.parse (lex "f() \x7b\n\tprint \"\\\"\n\x7d\n") =
        .ok ⟨[⟨⟨"f", ⟨1, 1⟩⟩, [.print (.string "\\" ⟨2, 8⟩)]⟩]⟩ ∧
      ¬ ClosesAtEnd (literal "\\") := by
  refine ⟨by decide +kernel, by decide +kernel, ?_⟩
  rw [closesAtEnd_literal_iff (by decide)]
  decide

end Tabscript
