import Tabscript.Proofs.Lexing

/-!
# The lexer as a scan

`lex` cuts the whole text at once and then gives the pieces their places. The scanner here goes over
the text character by character: it keeps the line and the column of the next character, the word it
is in the middle of with the place where that word started, and the tokens it has found. A word
becomes a token when a character follows that does not belong to it, or when the text ends.

* `Scanner.step` reads one character, and `Scanner.flush` ends the word that is being read.
* `Scanner.due` are the tokens a scanner still owes if a given text follows. A step keeps what was
  found and what is due together the same (`Scanner.tokens_step`), so a run does
  (`Scanner.tokens_foldl`).
* `Scanner.run_eq_lex` says that the scan of a source finds the tokens of the source.
-/

namespace Tabscript

/-- A scan in progress. -/
structure Scanner where
  line : UInt32
  column : UInt32
  /-- The characters of the word that is being read. It is empty between words. -/
  lexeme : List Char
  /-- Where the word started. Between words it is of no use. -/
  lexemePos : Position
  tokens : List Token

namespace Scanner

/-- The scanner in front of a text. -/
def start : Scanner := ⟨1, 1, [], ⟨1, 1⟩, []⟩

/-- The place of the next character. -/
def pos (s : Scanner) : Position := ⟨s.line, s.column⟩

/-- Ends the word that is being read, if there is one. -/
def flush (s : Scanner) : Scanner :=
  if s.lexeme = [] then s
  else
    { s with
      lexeme := []
      tokens := s.tokens ++ [⟨wordKind s.lexeme, String.ofList s.lexeme, s.lexemePos⟩] }

/-- Adds a character to the word that is being read. The first one says where the word starts. -/
def extend (s : Scanner) (c : Char) : Scanner :=
  let s := if s.lexeme = [] then { s with lexemePos := s.pos } else s
  { s with lexeme := s.lexeme ++ [c] }

/-- Ends the word that is being read and makes a character a token of its own. A line feed starts
the next line, in front of its first column. -/
def separate (s : Scanner) (c : Char) : Scanner :=
  let s := s.flush
  let s :=
    { s with tokens := s.tokens ++ [⟨(breakKind? c).getD .symbol, String.ofList [c], s.pos⟩] }
  if c = '\n' then { s with line := s.line + 1, column := 0 } else s

/-- Reads a character. -/
def step (s : Scanner) (c : Char) : Scanner :=
  let s := if isWordChar c then s.extend c else s.separate c
  { s with column := s.column + 1 }

/-- Scans a source to its end. -/
def run (source : String) : List Token := (source.toList.foldl step start).flush.tokens

/-! ## What a scanner owes -/

/-- Where the text starts that no token covers yet. -/
def dueFrom (s : Scanner) : Position := if s.lexeme = [] then s.pos else s.lexemePos

theorem dueFrom_of_lexeme_eq {s : Scanner} (h : s.lexeme = []) : s.dueFrom = s.pos := if_pos h

theorem dueFrom_of_lexeme_ne {s : Scanner} (h : s.lexeme ≠ []) : s.dueFrom = s.lexemePos :=
  if_neg h

/-- The tokens that are still to be found if `rest` follows. -/
def due (s : Scanner) (rest : List Char) : List Token :=
  place s.dueFrom (lexemes (s.lexeme ++ rest))

/-- The word that is being read is made of word characters, and the next character stands right
after it. -/
structure Sound (s : Scanner) : Prop where
  word : ∀ c ∈ s.lexeme, isWordChar c = true
  pos_eq : s.dueFrom.after s.lexeme = s.pos

theorem sound_start : start.Sound := ⟨List.forall_mem_nil _, rfl⟩

/-- The end of a word turns it into the first of the tokens that are due, if what follows does not
continue it. -/
theorem tokens_flush {s : Scanner} (h : s.Sound) {rest : List Char}
    (hrest : ∀ c ∈ rest.head?, isWordChar c = false) :
    s.flush.tokens ++ place s.pos (lexemes rest) = s.tokens ++ s.due rest := by
  unfold due flush
  by_cases hnil : s.lexeme = []
  · rw [if_pos hnil, dueFrom_of_lexeme_eq hnil, hnil, List.nil_append]
  · have hword : IsWord s.lexeme := ⟨hnil, h.word⟩
    rw [if_neg hnil, lexemes_word hword hrest, place, h.pos_eq, dueFrom_of_lexeme_ne hnil,
      lexemeKind_of_isWord hword, List.append_assoc, List.singleton_append]

/-! ## Steps -/

/-- A word character extends the word that is being read, or starts one. -/
theorem step_word (s : Scanner) {c : Char} (hc : isWordChar c = true) :
    s.step c = ⟨s.line, s.column + 1, s.lexeme ++ [c], s.dueFrom, s.tokens⟩ := by
  unfold step extend dueFrom
  rw [if_pos hc]
  by_cases hnil : s.lexeme = []
  · rw [if_pos hnil, if_pos hnil]
  · rw [if_neg hnil, if_neg hnil]

theorem lexeme_flush (s : Scanner) : s.flush.lexeme = [] := by
  unfold flush
  split
  · assumption
  · rfl

theorem pos_flush (s : Scanner) : s.flush.pos = s.pos := by
  unfold flush
  split <;> rfl

/-- A word that goes on starts where it started before. -/
theorem dueFrom_step_word (s : Scanner) {c : Char} (hc : isWordChar c = true) :
    (s.step c).dueFrom = s.dueFrom := by
  rw [step_word s hc]
  apply dueFrom_of_lexeme_ne
  exact List.append_ne_nil_of_right_ne_nil _ (List.cons_ne_nil c [])

/-- Any other character leaves no word behind and is a token itself. -/
theorem step_mark (s : Scanner) {c : Char} (hc : isWordChar c = false) :
    (s.step c).lexeme = [] ∧ (s.step c).pos = s.pos.advance c ∧
      (s.step c).tokens =
        s.flush.tokens ++ [⟨(breakKind? c).getD .symbol, String.ofList [c], s.pos⟩] := by
  have hstep : ¬ isWordChar c = true := by simp [hc]
  rw [← pos_flush s]
  unfold step separate
  rw [if_neg hstep]
  by_cases hline : c = '\n'
  · rw [if_pos hline, Position.advance, if_pos hline]
    exact ⟨lexeme_flush s, rfl, rfl⟩
  · rw [if_neg hline, Position.advance, if_neg hline]
    exact ⟨lexeme_flush s, rfl, rfl⟩

/-- A step keeps the word that is being read in order. -/
theorem Sound.step {s : Scanner} (h : s.Sound) (c : Char) : (s.step c).Sound := by
  cases hc : isWordChar c with
  | true =>
    have hline : c ≠ '\n' := by
      rintro rfl
      exact absurd hc (by decide)
    have hadvance : s.pos.advance c = ⟨s.line, s.column + 1⟩ := if_neg hline
    constructor
    · rw [step_word s hc]
      intro d hd
      rcases List.mem_append.1 hd with hd | hd
      · exact h.word d hd
      · rw [List.mem_singleton.1 hd, hc]
    · rw [dueFrom_step_word s hc, step_word s hc, Position.after_append, h.pos_eq]
      exact hadvance
  | false =>
    obtain ⟨hlexeme, -, -⟩ := step_mark s hc
    constructor
    · rw [hlexeme]
      exact List.forall_mem_nil _
    · rw [dueFrom_of_lexeme_eq hlexeme, hlexeme, Position.after_nil]

/-- A step keeps what was found and what is due together the same. -/
theorem tokens_step {s : Scanner} (h : s.Sound) (c : Char) (rest : List Char) :
    (s.step c).tokens ++ (s.step c).due rest = s.tokens ++ s.due (c :: rest) := by
  cases hc : isWordChar c with
  | true =>
    rw [due, dueFrom_step_word s hc, step_word s hc, List.append_assoc, List.singleton_append, due]
  | false =>
    obtain ⟨hlexeme, hpos, htokens⟩ := step_mark s hc
    have hdue : (s.step c).due rest = place (s.pos.advance c) (lexemes rest) := by
      rw [due, dueFrom_of_lexeme_eq hlexeme, hlexeme, hpos, List.nil_append]
    have hrest : ∀ d ∈ (c :: rest).head?, isWordChar d = false := by
      rintro d ⟨⟩
      exact hc
    rw [← tokens_flush h hrest, hdue, htokens, lexemes_mark rest hc, place, lexemeKind_mark hc,
      List.append_assoc, List.singleton_append]
    rfl

/-! ## Runs -/

/-- A scanner finds the tokens that are due. -/
theorem tokens_foldl {s : Scanner} (h : s.Sound) (text : List Char) :
    (text.foldl step s).flush.tokens = s.tokens ++ s.due text := by
  induction text generalizing s with
  | nil =>
    rw [List.foldl_nil, ← tokens_flush h (by simp)]
    exact (List.append_nil _).symm
  | cons c text ih => rw [List.foldl_cons, ih (h.step c), tokens_step h c text]

/-- **The scan of a source finds its tokens.** -/
theorem run_eq_lex (source : String) : run source = lex source := tokens_foldl sound_start _

end Scanner

end Tabscript
