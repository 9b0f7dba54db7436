import Tabscript.Proofs.Literals
import Tabscript.Proofs.RoundTrip

/-!
# The code determines the tree

The code of a program can be turned back into a source, line by line and without regard to what the
lines hold: drop the first tab of each line, the words that only code has, and the lines around the
functions. What comes out is the canonical source of the program, in which strings hold escapes in
place of line breaks and tabs, and a canonical source reads back as its tree. So two programs with
the same code differ in their positions and in the spelling of those characters only.

* `Program.gist` is what the code tells of a program.
* `sourceOfCode_eq` turns code into source, from what `sourceOfLine` does to single lines.
* `compile_eq_compile_iff` compares the code of two sources.
-/

namespace Tabscript

open JavaScript

/-! ## Trees up to positions and the spelling of strings -/

/-- A character of a string, a line break or tab as an escape. -/
def JavaScript.escapeBreak : Char → List Char
  | '\n' => ['\\', 'n']
  | '\r' => ['\\', 'r']
  | '\t' => ['\\', 't']
  | c => [c]

/-- A text with escapes in place of line breaks and tabs. -/
def JavaScript.escapeBreaks (text : String) : String :=
  String.ofList (text.toList.flatMap escapeBreak)

section mapText

variable (f : String → String)

/-- An expression with the texts of its strings changed. -/
def Expr.mapText : Expr → Expr
  | string text pos => .string (f text) pos
  | assign target value pos => .assign target value.mapText pos
  | operation operator lhs rhs pos => .operation operator lhs rhs.mapText pos
  | e => e

mutual

/-- A statement with the texts of its strings changed. -/
def Stmt.mapText : Stmt → Stmt
  | .branch condition body => .branch (condition.mapText f) (Stmt.mapTextAll body)
  | .print value => .print (value.mapText f)
  | .ret value => .ret (value.mapText f)
  | .eval value => .eval (value.mapText f)

/-- Statements with the texts of their strings changed. -/
def Stmt.mapTextAll : List Stmt → List Stmt
  | [] => []
  | stmt :: rest => stmt.mapText :: Stmt.mapTextAll rest

end

/-- A function with the texts of its strings changed. -/
def Function.mapText (function : Function) : Function :=
  ⟨function.name, Stmt.mapTextAll f function.body⟩

/-- A program with the texts of its strings changed. -/
def Program.mapText (p : Program) : Program := ⟨p.functions.map (Function.mapText f)⟩

end mapText

/-- A program without its positions, and with escapes in place of the line breaks and tabs of its
strings. -/
def Program.gist (p : Program) : Program := (p.mapText escapeBreaks).relocate erased

/-! ## Strings -/

theorem JavaScript.literalChar_eq_escapeBreak {c : Char} (h : c ≠ '"') :
    literalChar c = escapeBreak c := by
  unfold literalChar escapeBreak
  split <;> simp_all

/-- Without quotes inside, a literal is the text with its line breaks and tabs escaped. -/
theorem JavaScript.literal_eq {text : String} (h : '"' ∉ text.toList) :
    literal text = "\"" ++ escapeBreaks text ++ "\"" := by
  have hbody : literalBody text.toList = text.toList.flatMap escapeBreak :=
    List.flatMap_congr fun c hc => literalChar_eq_escapeBreak fun h' => h (h' ▸ hc)
  rw [literal, hbody, escapeBreaks]

theorem JavaScript.literal_escapeBreaks (text : String) :
    literal (escapeBreaks text) = literal text := by
  have hchar : ∀ c, (escapeBreak c).flatMap literalChar = literalChar c := by
    intro c
    unfold escapeBreak
    split
    · rfl
    · rfl
    · rfl
    · exact List.append_nil _
  rw [literal, literal, escapeBreaks, String.toList_ofList, literalBody, List.flatMap_assoc]
  simp only [hchar]
  rfl

theorem isStringText_escapeBreaks {text : String} (h : isStringText text = true) :
    isStringText (escapeBreaks text) = true := by
  simp only [isStringText, Bool.not_eq_true', List.contains_eq_mem, decide_eq_false_iff_not] at h ⊢
  intro hmem
  rw [escapeBreaks, String.toList_ofList] at hmem
  obtain ⟨c, hc, hquote⟩ := List.mem_flatMap.1 hmem
  have hc' : '"' ≠ c := fun h' => h (h' ▸ hc)
  unfold escapeBreak at hquote
  split at hquote <;> simp_all

/-! ## Well-formed trees stay so -/

theorem Expr.wellFormed_mapText {e : Expr} (h : e.wellFormed = true) :
    (e.mapText escapeBreaks).wellFormed = true := by
  induction e with
  | string text pos => exact isStringText_escapeBreaks h
  | assign target value pos ih =>
    rw [Expr.wellFormed, Bool.and_eq_true] at h
    rw [Expr.mapText, Expr.wellFormed, h.1, ih h.2, Bool.and_true]
  | operation operator lhs rhs pos ih =>
    rw [Expr.wellFormed, Bool.and_eq_true] at h
    rw [Expr.mapText, Expr.wellFormed, h.1, ih h.2, Bool.and_true]
  | _ => exact h

theorem standsAlone_mapText (f : String → String) (e : Expr) :
    (e.mapText f).standsAlone = e.standsAlone := by
  cases e <;> rfl

mutual

theorem Stmt.wellFormed_mapText : (s : Stmt) → s.wellFormed = true →
    (s.mapText escapeBreaks).wellFormed = true
  | .branch condition body, h => by
    rw [Stmt.wellFormed, Bool.and_eq_true] at h
    rw [Stmt.mapText, Stmt.wellFormed, Expr.wellFormed_mapText h.1,
      Stmt.wellFormedAll_mapTextAll body h.2, Bool.and_true]
  | .print value, h => Expr.wellFormed_mapText h
  | .ret value, h => Expr.wellFormed_mapText h
  | .eval value, h => by
    rw [Stmt.wellFormed, Bool.and_eq_true] at h
    rw [Stmt.mapText, Stmt.wellFormed, Expr.wellFormed_mapText h.1, standsAlone_mapText, h.2,
      Bool.and_true]

theorem Stmt.wellFormedAll_mapTextAll : (stmts : List Stmt) → Stmt.wellFormedAll stmts = true →
    Stmt.wellFormedAll (Stmt.mapTextAll escapeBreaks stmts) = true
  | [], _ => rfl
  | stmt :: rest, h => by
    rw [Stmt.wellFormedAll, Bool.and_eq_true] at h
    rw [Stmt.mapTextAll, Stmt.wellFormedAll, Stmt.wellFormed_mapText stmt h.1,
      Stmt.wellFormedAll_mapTextAll rest h.2, Bool.and_true]

end

/-- A program can still be read from a source if the line breaks and tabs of its strings are
escaped. -/
theorem Program.wellFormed_mapText {p : Program} (h : p.wellFormed = true) :
    (p.mapText escapeBreaks).wellFormed = true := by
  rw [Program.wellFormed, List.all_eq_true] at h
  rw [Program.wellFormed, Program.mapText, List.all_map, List.all_eq_true]
  intro f hf
  have hwell := h f hf
  rw [Function.wellFormed, Bool.and_eq_true] at hwell
  show Function.wellFormed (f.mapText escapeBreaks) = true
  rw [Function.wellFormed, Function.mapText, hwell.1, Stmt.wellFormedAll_mapTextAll _ hwell.2,
    Bool.and_true]

/-! ## The lines depend on the gist only -/

theorem Expr.rendering_gist (e : Expr) :
    ((e.mapText escapeBreaks).relocate erased).rendering = e.rendering := by
  induction e with
  | string text pos => exact literal_escapeBreaks text
  | assign target value pos ih =>
    rw [Expr.mapText, Expr.relocate, Expr.rendering, ih, Expr.rendering, Ident.relocate]
  | operation operator lhs rhs pos ih =>
    rw [Expr.mapText, Expr.relocate, Expr.rendering, ih, Expr.rendering, Ident.relocate]
  | _ => rfl

mutual

theorem Stmt.lines_gist (depth : Nat) : (s : Stmt) →
    ((s.mapText escapeBreaks).relocate erased).lines depth = s.lines depth
  | .branch condition body => by
    rw [Stmt.mapText, Stmt.relocate, Stmt.lines, Expr.rendering_gist,
      Stmt.linesAll_gist (depth + 1) body, Stmt.lines]
  | .print value => by
    rw [Stmt.mapText, Stmt.relocate, Stmt.lines, Expr.rendering_gist, Stmt.lines]
  | .ret value => by
    rw [Stmt.mapText, Stmt.relocate, Stmt.lines, Expr.rendering_gist, Stmt.lines]
  | .eval value => by
    rw [Stmt.mapText, Stmt.relocate, Stmt.lines, Expr.rendering_gist, Stmt.lines]

theorem Stmt.linesAll_gist (depth : Nat) : (stmts : List Stmt) →
    Stmt.linesAll depth (Stmt.relocateAll erased (Stmt.mapTextAll escapeBreaks stmts)) =
      Stmt.linesAll depth stmts
  | [] => rfl
  | stmt :: rest => by
    rw [Stmt.mapTextAll, Stmt.relocateAll, Stmt.linesAll, Stmt.lines_gist depth stmt,
      Stmt.linesAll_gist depth rest, Stmt.linesAll]

end

/-- A program has the code of its gist. -/
theorem Program.lines_gist (p : Program) : p.gist.lines = p.lines := by
  have hfunction : ∀ f : Function, ((f.mapText escapeBreaks).relocate erased).lines = f.lines :=
    fun f => by
      rw [Function.mapText, Function.relocate, Function.lines, Stmt.linesAll_gist, Function.lines,
        Ident.relocate]
  have hmain : p.gist.hasMain = p.hasMain := by
    simp only [Program.gist, Program.relocate, Program.mapText, Program.hasMain, List.any_map]
    rfl
  rw [Program.lines, hmain, Program.gist, Program.relocate, Program.mapText, List.map_map,
    List.flatMap_map, Program.lines]
  simp only [Function.comp_apply, hfunction]

/-! ## From a line of code to a line of source -/

namespace JavaScript

/-- The content of a line of source, given that of the line of code. A line that ends with
a semicolon is a statement, and any other one opens or closes a block. -/
def sourceContent (content : List Char) : List Char :=
  if content.getLast? = some ';' then
    if "console.log(".toList <+: content then "print ".toList ++ (content.drop 12).dropLast.dropLast
    else content.dropLast
  else if "function ".toList <+: content then content.drop 9 else content

/-- The line of source, with the line break after it, that a line of code comes from. -/
def sourceOfLine : List Char → List Char
  | [] => []
  | _ :: line =>
    line.takeWhile (· = '\t') ++ (sourceContent (line.dropWhile (· = '\t')) ++ ['\n'])

/-- Whether a line of code is one of those that a function gives rise to. -/
def isFunctionLine : List Char → Bool
  | [] => true
  | [_] => false
  | _ :: c :: _ => c == '\t' || c == 'f' || c == '\x7d'

/-- The source that the code of a program comes from. -/
def sourceOfCode (code : String) : String :=
  String.ofList (((code.toList.splitOn '\n').tail.takeWhile isFunctionLine).flatMap sourceOfLine)

theorem sourceContent_semicolon {text : List Char}
    (h : ¬ "console.log(".toList <+: text ++ [';']) : sourceContent (text ++ [';']) = text := by
  rw [sourceContent, if_pos List.getLast?_concat, if_neg h, List.dropLast_concat]

theorem sourceContent_print (text : List Char) :
    sourceContent ("console.log(".toList ++ text ++ [')'] ++ [';']) = "print ".toList ++ text := by
  have hcall : "console.log(".toList <+: "console.log(".toList ++ text ++ [')'] ++ [';'] :=
    ⟨text ++ [')'] ++ [';'], by simp only [List.append_assoc]⟩
  have hrest : ("console.log(".toList ++ text ++ [')'] ++ [';']).drop 12 = text ++ [')'] ++ [';'] :=
    rfl
  rw [sourceContent, if_pos List.getLast?_concat, if_pos hcall, hrest, List.dropLast_concat,
    List.dropLast_concat]

theorem sourceContent_brace {text : List Char} {c : Char} (hc : c ≠ ';')
    (h : ¬ "function ".toList <+: text ++ [c]) : sourceContent (text ++ [c]) = text ++ [c] := by
  rw [sourceContent, if_neg (by simpa using hc), if_neg h]

theorem sourceContent_function {text : List Char} {c : Char} (hc : c ≠ ';') :
    sourceContent ("function ".toList ++ text ++ [c]) = text ++ [c] := by
  have hword : "function ".toList <+: "function ".toList ++ text ++ [c] :=
    ⟨text ++ [c], by simp only [List.append_assoc]⟩
  rw [sourceContent, if_neg (by rw [List.getLast?_concat]; simpa using hc), if_pos hword]
  rfl

theorem toList_tabbed (depth : Nat) (content : String) :
    (tabbed depth content).toList = List.replicate depth '\t' ++ content.toList := by
  rw [tabbed, String.toList_append, String.toList_ofList]

/-- The tabs of a line end where its content starts. -/
theorem sourceOfLine_tabbed {depth : Nat} {content source : String}
    (hstart : ∀ c ∈ content.toList.head?, c ≠ '\t')
    (h : sourceContent content.toList = source.toList) :
    sourceOfLine (tabbed (depth + 1) content).toList = (sourceLine depth source).toList := by
  have htabs : ∀ c ∈ List.replicate depth '\t', decide (c = '\t') = true := by
    intro c hc
    rw [List.eq_of_mem_replicate hc]
    rfl
  have hcut : content.toList.takeWhile (· = '\t') = [] ∧
      content.toList.dropWhile (· = '\t') = content.toList := by
    cases htext : content.toList with
    | nil => exact ⟨rfl, rfl⟩
    | cons c text =>
      have hc : c ≠ '\t' := hstart c (by rw [htext]; rfl)
      exact ⟨List.takeWhile_cons_of_neg (by simpa using hc),
        List.dropWhile_cons_of_neg (by simpa using hc)⟩
  rw [toList_tabbed, List.replicate_succ, List.cons_append, sourceOfLine,
    List.takeWhile_append_of_pos htabs, List.dropWhile_append_of_pos htabs, hcut.1, hcut.2, h]
  simp [sourceLine]

end JavaScript

/-! ## Expressions -/

/-- An expression stands in the code as it does in the source, but for its line breaks and tabs. -/
theorem Expr.source_mapText {e : Expr} (h : e.wellFormed = true) :
    (e.mapText escapeBreaks).source = e.rendering := by
  induction e with
  | string text pos =>
    have htext : '"' ∉ text.toList := by simpa [Expr.wellFormed, isStringText] using h
    exact (literal_eq htext).symm
  | assign target value pos ih =>
    rw [Expr.wellFormed, Bool.and_eq_true] at h
    rw [Expr.mapText, Expr.source, ih h.2, Expr.rendering]
  | operation operator lhs rhs pos ih =>
    rw [Expr.wellFormed, Bool.and_eq_true] at h
    rw [Expr.mapText, Expr.source, ih h.2, Expr.rendering]
  | _ => rfl

/-- An expression that stands alone starts with a word, which ends before a mark of three. -/
theorem Expr.exists_word_rendering {e : Expr} (h : e.wellFormed = true)
    (halone : e.standsAlone = true) :
    ∃ word rest, e.rendering.toList = word ++ rest ∧ IsWord word ∧
      ∀ c ∈ (rest ++ [';']).head?, c ∈ [';', '(', ' '] := by
  have hname : ∀ {name : String}, isOperand name = true → IsWord name.toList := by
    intro name h
    rw [isOperand, Bool.and_eq_true] at h
    exact (isWord_of_isName h.1).1
  cases e with
  | bool value pos =>
    have hword : ∀ value : Bool, IsWord (if value then "true" else "false").toList := by decide
    exact ⟨_, [], (List.append_nil _).symm, hword value, by simp⟩
  | number text pos => cases halone
  | string text pos => cases halone
  | var name pos => exact ⟨_, [], (List.append_nil _).symm, hname h, by simp⟩
  | call callee pos =>
    exact ⟨callee.name.toList, ['(', ')'], by simp [Expr.rendering], hname h, by simp⟩
  | assign target value pos =>
    rw [Expr.wellFormed, Bool.and_eq_true] at h
    refine ⟨target.name.toList, ' ' :: '=' :: ' ' :: value.rendering.toList,
      by simp [Expr.rendering], hname h.1, ?_⟩
    simp
  | operation operator lhs rhs pos =>
    rw [Expr.wellFormed, Bool.and_eq_true, Bool.and_eq_true] at h
    refine ⟨lhs.name.toList, ' ' :: (operator.toList ++ ' ' :: rhs.rendering.toList),
      by simp [Expr.rendering], hname h.1.2, ?_⟩
    simp

/-- No name can be taken for what starts a printing line: it has no point in it. -/
theorem not_prefix_of_isWord {word rest : List Char} (hword : IsWord word)
    (hrest : ∀ c ∈ rest.head?, c ∈ [';', '(', ' ']) :
    ¬ "console.log(".toList <+: word ++ rest := by
  rintro ⟨more, hmore⟩
  have hrest' : rest.dropWhile isWordChar = rest := by
    cases rest with
    | nil => rfl
    | cons c rest =>
      have hc : c ∈ [';', '(', ' '] := hrest c rfl
      simp only [List.mem_cons, List.not_mem_nil, or_false] at hc
      exact List.dropWhile_cons_of_neg (by rcases hc with rfl | rfl | rfl <;> decide)
  -- behind the first word stands a dot on one side and one of the three marks on the other
  have hdot : '.' :: ("log(".toList ++ more) = rest := by
    have hdrop := congrArg (List.dropWhile isWordChar) hmore
    rwa [List.dropWhile_append_of_pos hword.2, hrest'] at hdrop
  rw [← hdot] at hrest
  exact absurd (hrest '.' rfl) (by decide)

theorem ne_tab_of_isWord {word rest : List Char} (hword : IsWord word) :
    ∀ c ∈ (word ++ rest).head?, c ≠ '\t' := by
  rintro c hc rfl
  obtain ⟨d, word, rfl⟩ := List.exists_cons_of_ne_nil hword.1
  obtain rfl := Option.mem_some_iff.1 hc
  exact absurd (hword.2 '\t' List.mem_cons_self) (by decide)

/-! ## Statements -/

/-- The source that lines of code come from. -/
def JavaScript.sourceOfLines (lines : List String) : List Char :=
  lines.flatMap fun line => sourceOfLine line.toList

theorem JavaScript.sourceOfLines_cons (line : String) (lines : List String) :
    sourceOfLines (line :: lines) = sourceOfLine line.toList ++ sourceOfLines lines :=
  List.flatMap_cons

theorem JavaScript.sourceOfLines_append (lines more : List String) :
    sourceOfLines (lines ++ more) = sourceOfLines lines ++ sourceOfLines more :=
  List.flatMap_append

theorem JavaScript.sourceOfLines_singleton (line : String) :
    sourceOfLines [line] = sourceOfLine line.toList := List.append_nil _

theorem sourceOfLine_close (depth : Nat) :
    sourceOfLine (tabbed (depth + 1) "\x7d").toList = (sourceLine depth "\x7d").toList :=
  sourceOfLine_tabbed (by simp) (by decide)

theorem sourceOfLine_branch {condition : Expr} (depth : Nat) (h : condition.wellFormed = true) :
    sourceOfLine (tabbed (depth + 1) ("if (" ++ condition.rendering ++ ") \x7b")).toList =
      (sourceLine depth ("if (" ++ (condition.mapText escapeBreaks).source ++ ") \x7b")).toList := by
  have hcontent : ("if (" ++ condition.rendering ++ ") \x7b").toList =
      'i' :: ("f (".toList ++ condition.rendering.toList ++ ") ".toList) ++ ['\x7b'] := by
    simp
  refine sourceOfLine_tabbed ?_ ?_
  · rw [hcontent]
    simp
  · rw [Expr.source_mapText h, hcontent, sourceContent_brace (by decide)]
    simp

theorem sourceOfLine_print {value : Expr} (depth : Nat) (h : value.wellFormed = true) :
    sourceOfLine (tabbed (depth + 1) ("console.log(" ++ value.rendering ++ ");")).toList =
      (sourceLine depth ("print " ++ (value.mapText escapeBreaks).source)).toList := by
  have hcontent : ("console.log(" ++ value.rendering ++ ");").toList =
      "console.log(".toList ++ value.rendering.toList ++ [')'] ++ [';'] := by
    simp
  refine sourceOfLine_tabbed ?_ ?_
  · rw [hcontent]
    simp
  · rw [Expr.source_mapText h, hcontent, sourceContent_print, String.toList_append]

theorem sourceOfLine_ret {value : Expr} (depth : Nat) (h : value.wellFormed = true) :
    sourceOfLine (tabbed (depth + 1) ("return " ++ value.rendering ++ ";")).toList =
      (sourceLine depth ("return " ++ (value.mapText escapeBreaks).source)).toList := by
  have hcontent : ("return " ++ value.rendering ++ ";").toList =
      'r' :: ("eturn ".toList ++ value.rendering.toList) ++ [';'] := by
    simp
  refine sourceOfLine_tabbed ?_ ?_
  · rw [hcontent]
    simp
  · rw [Expr.source_mapText h, hcontent, sourceContent_semicolon (by simp)]
    simp

theorem sourceOfLine_eval {value : Expr} (depth : Nat) (h : value.wellFormed = true)
    (halone : value.standsAlone = true) :
    sourceOfLine (tabbed (depth + 1) (value.rendering ++ ";")).toList =
      (sourceLine depth (value.mapText escapeBreaks).source).toList := by
  obtain ⟨word, rest, hrendering, hword, hrest⟩ := Expr.exists_word_rendering h halone
  have hcontent : (value.rendering ++ ";").toList = word ++ (rest ++ [';']) := by
    rw [String.toList_append, hrendering, List.append_assoc]
    rfl
  refine sourceOfLine_tabbed ?_ ?_
  · rw [hcontent]
    exact ne_tab_of_isWord hword
  · rw [Expr.source_mapText h, hrendering, hcontent, ← List.append_assoc, sourceContent_semicolon]
    rw [List.append_assoc]
    exact not_prefix_of_isWord hword hrest

mutual

/-- The lines of a statement give back its source. -/
theorem Stmt.sourceOfLines_lines (depth : Nat) : (s : Stmt) → s.wellFormed = true →
    sourceOfLines (s.lines (depth + 1)) = ((s.mapText escapeBreaks).source depth).toList
  | .branch condition body, h => by
    rw [Stmt.wellFormed, Bool.and_eq_true] at h
    rw [Stmt.lines, List.cons_append, sourceOfLines_cons, sourceOfLines_append,
      sourceOfLines_singleton, sourceOfLine_branch depth h.1,
      Stmt.sourceOfLines_linesAll (depth + 1) body h.2, sourceOfLine_close, Stmt.mapText,
      Stmt.source, String.toList_append, String.toList_append, List.append_assoc]
  | .print value, h => by
    rw [Stmt.lines, sourceOfLines_singleton, sourceOfLine_print depth h, Stmt.mapText, Stmt.source]
  | .ret value, h => by
    rw [Stmt.lines, sourceOfLines_singleton, sourceOfLine_ret depth h, Stmt.mapText, Stmt.source]
  | .eval value, h => by
    rw [Stmt.wellFormed, Bool.and_eq_true] at h
    rw [Stmt.lines, sourceOfLines_singleton, sourceOfLine_eval depth h.1 h.2, Stmt.mapText,
      Stmt.source]

theorem Stmt.sourceOfLines_linesAll (depth : Nat) : (stmts : List Stmt) →
    Stmt.wellFormedAll stmts = true →
    sourceOfLines (Stmt.linesAll (depth + 1) stmts) =
      (Stmt.sourceAll depth (Stmt.mapTextAll escapeBreaks stmts)).toList
  | [], _ => rfl
  | stmt :: rest, h => by
    rw [Stmt.wellFormedAll, Bool.and_eq_true] at h
    rw [Stmt.linesAll, sourceOfLines_append, Stmt.sourceOfLines_lines depth stmt h.1,
      Stmt.sourceOfLines_linesAll depth rest h.2, Stmt.mapTextAll, Stmt.sourceAll,
      String.toList_append]

end

/-! ## Programs -/

/-- The line is some tabs, at least `depth` of them, and a content without line feeds. -/
def JavaScript.IsCodeLine (depth : Nat) (line : String) : Prop :=
  ∃ tabs content, depth ≤ tabs ∧ line = tabbed tabs content ∧ '\n' ∉ content.toList

theorem newline_notMem_of_isWord {text : List Char} (h : IsWord text) : '\n' ∉ text :=
  h.notMem (by decide)

theorem newline_notMem_rendering {e : Expr} (h : e.wellFormed = true) :
    '\n' ∉ e.rendering.toList := by
  have hname : ∀ {name : String}, isOperand name = true → '\n' ∉ name.toList := by
    intro name h
    rw [isOperand, Bool.and_eq_true] at h
    exact newline_notMem_of_isWord (isWord_of_isName h.1).1
  induction e with
  | bool value pos => cases value <;> simp [Expr.rendering]
  | number text pos => exact newline_notMem_of_isWord (isWord_of_isNumber h).1
  | string text pos => exact fun hmem => absurd (isLineBreak_of_mem_literal hmem) (by decide)
  | var name pos => exact hname h
  | call callee pos => simpa [Expr.rendering] using hname h
  | assign target value pos ih =>
    rw [Expr.wellFormed, Bool.and_eq_true] at h
    simpa [Expr.rendering] using ⟨hname h.1, ih h.2⟩
  | operation operator lhs rhs pos ih =>
    rw [Expr.wellFormed, Bool.and_eq_true, Bool.and_eq_true] at h
    obtain ⟨c, hc, -, hkind, -⟩ := exists_of_isOperator h.1.1
    have hoperator : '\n' ∉ operator.toList := by
      rw [hc, List.mem_singleton]
      rintro rfl
      cases hkind
    simpa [Expr.rendering] using ⟨hname h.1.2, hoperator, ih h.2⟩

mutual

theorem Stmt.isCodeLine_of_mem_lines (depth : Nat) : (s : Stmt) → s.wellFormed = true →
    ∀ line ∈ s.lines depth, IsCodeLine depth line
  | .branch condition body, h, line, hline => by
    rw [Stmt.wellFormed, Bool.and_eq_true] at h
    rw [Stmt.lines, List.mem_append, List.mem_cons, List.mem_singleton] at hline
    rcases hline with (rfl | hline) | rfl
    · exact ⟨depth, _, le_rfl, rfl, by simpa using newline_notMem_rendering h.1⟩
    · obtain ⟨tabs, content, htabs, hcontent⟩ :=
        Stmt.isCodeLine_of_mem_linesAll (depth + 1) body h.2 line hline
      exact ⟨tabs, content, by omega, hcontent⟩
    · exact ⟨depth, _, le_rfl, rfl, by simp⟩
  | .print value, h, line, hline => by
    obtain rfl := List.mem_singleton.1 hline
    exact ⟨depth, _, le_rfl, rfl, by simpa using newline_notMem_rendering h⟩
  | .ret value, h, line, hline => by
    obtain rfl := List.mem_singleton.1 hline
    exact ⟨depth, _, le_rfl, rfl, by simpa using newline_notMem_rendering h⟩
  | .eval value, h, line, hline => by
    rw [Stmt.wellFormed, Bool.and_eq_true] at h
    obtain rfl := List.mem_singleton.1 hline
    exact ⟨depth, _, le_rfl, rfl, by simpa using newline_notMem_rendering h.1⟩

theorem Stmt.isCodeLine_of_mem_linesAll (depth : Nat) : (stmts : List Stmt) →
    Stmt.wellFormedAll stmts = true → ∀ line ∈ Stmt.linesAll depth stmts, IsCodeLine depth line
  | [], _, line, hline => absurd hline List.not_mem_nil
  | stmt :: rest, h, line, hline => by
    rw [Stmt.wellFormedAll, Bool.and_eq_true] at h
    rw [Stmt.linesAll, List.mem_append] at hline
    rcases hline with hline | hline
    · exact Stmt.isCodeLine_of_mem_lines depth stmt h.1 line hline
    · exact Stmt.isCodeLine_of_mem_linesAll depth rest h.2 line hline

end

theorem JavaScript.IsCodeLine.newline_notMem {depth : Nat} {line : String}
    (h : IsCodeLine depth line) : '\n' ∉ line.toList := by
  obtain ⟨tabs, content, -, rfl, hcontent⟩ := h
  rw [toList_tabbed, List.mem_append, not_or]
  refine ⟨fun hmem => ?_, hcontent⟩
  cases List.eq_of_mem_replicate hmem

theorem JavaScript.IsCodeLine.isFunctionLine {line : String} (h : IsCodeLine 2 line) :
    isFunctionLine line.toList = true := by
  obtain ⟨tabs, content, htabs, rfl, -⟩ := h
  obtain ⟨tabs, rfl⟩ : ∃ more, tabs = more + 2 := ⟨tabs - 2, by omega⟩
  rw [toList_tabbed]
  rfl

/-- The lines of a function, one by one: none is broken, and all are told apart from the lines
around the functions. -/
theorem Function.isFunctionLine_of_mem_lines {f : Function} (h : f.wellFormed = true)
    {line : String} (hline : line ∈ f.lines) :
    '\n' ∉ line.toList ∧ isFunctionLine line.toList = true := by
  rw [Function.wellFormed, Bool.and_eq_true] at h
  rw [Function.lines, List.mem_append, List.mem_cons, List.mem_cons, List.mem_singleton] at hline
  rcases hline with (rfl | hline) | rfl | rfl
  · have hname := newline_notMem_of_isWord (isWord_of_isName h.1).1
    refine ⟨by simpa [toList_tabbed] using hname, ?_⟩
    simp [toList_tabbed, isFunctionLine]
  · have hcode := Stmt.isCodeLine_of_mem_linesAll 2 f.body h.2 line hline
    exact ⟨hcode.newline_notMem, hcode.isFunctionLine⟩
  · exact ⟨by decide, by decide⟩
  · exact ⟨by decide, by decide⟩

/-- The lines of a function give back its source. -/
theorem Function.sourceOfLines_lines {f : Function} (h : f.wellFormed = true) :
    sourceOfLines f.lines = (f.mapText escapeBreaks).source.toList := by
  rw [Function.wellFormed, Bool.and_eq_true] at h
  have hheader : sourceOfLine (tabbed 1 ("function " ++ f.name.name ++ "() \x7b")).toList =
      (sourceLine 0 (f.name.name ++ "() \x7b")).toList := by
    have hcontent : ("function " ++ f.name.name ++ "() \x7b").toList =
        "function ".toList ++ (f.name.name.toList ++ "() ".toList) ++ ['\x7b'] := by
      simp
    refine sourceOfLine_tabbed ?_ ?_
    · rw [hcontent]
      simp
    · rw [hcontent, sourceContent_function (by decide)]
      simp
  rw [Function.lines, List.cons_append, sourceOfLines_cons, sourceOfLines_append, hheader,
    Stmt.sourceOfLines_linesAll 1 f.body h.2, sourceOfLines_cons, sourceOfLine_close,
    sourceOfLines_singleton, Function.source, Function.mapText, String.toList_append,
    String.toList_append, List.append_assoc]
  exact congrArg _ (congrArg _ (List.append_nil _))

theorem Program.sourceOfLines_lines {p : Program} (h : p.wellFormed = true) :
    sourceOfLines (p.functions.flatMap Function.lines) =
      (p.mapText escapeBreaks).source.toList := by
  rw [Program.wellFormed, List.all_eq_true] at h
  rw [sourceOfLines, List.flatMap_assoc, Program.source, String.toList_join, Program.mapText,
    List.map_map, List.flatMap_map]
  exact List.flatMap_congr fun f hf => Function.sourceOfLines_lines (h f hf)

theorem Program.isFunctionLine_of_mem_lines {p : Program} (h : p.wellFormed = true) {line : String}
    (hline : line ∈ p.functions.flatMap Function.lines) :
    '\n' ∉ line.toList ∧ isFunctionLine line.toList = true := by
  rw [Program.wellFormed, List.all_eq_true] at h
  obtain ⟨f, hf, hline⟩ := List.mem_flatMap.1 hline
  exact Function.isFunctionLine_of_mem_lines (h f hf) hline

/-- The lines of a program can be told from its code: no line is broken. -/
theorem splitOn_code {p : Program} {code : String} (h : p.wellFormed = true)
    (hcode : p.code = .ok code) : code.toList.splitOn '\n' = p.lines.map String.toList := by
  obtain ⟨-, rfl⟩ := Program.code_eq_ok_iff.1 hcode
  have hlines : ∀ line ∈ p.lines, '\n' ∉ line.toList := by
    intro line hline
    rw [Program.lines, List.mem_append, List.mem_append, List.mem_cons] at hline
    rcases hline with ((rfl | hline) | hline) | hline
    · decide
    · exact (Program.isFunctionLine_of_mem_lines h hline).1
    · have hentry : ∀ line ∈ entryLines, '\n' ∉ line.toList := by decide
      split at hline
      · exact hentry line hline
      · exact absurd hline List.not_mem_nil
    · obtain rfl := List.mem_singleton.1 hline
      decide
  rw [String.toList_intercalate]
  exact List.splitOn_intercalate '\n' (List.forall_mem_map.2 hlines) (by simp [Program.lines])

/-- The code of a program comes from the canonical source of the program. -/
theorem sourceOfCode_eq {p : Program} {code : String} (h : p.wellFormed = true)
    (hcode : p.code = .ok code) : sourceOfCode code = (p.mapText escapeBreaks).source := by
  have hfunctions : ∀ line ∈ (p.functions.flatMap Function.lines).map String.toList,
      isFunctionLine line = true :=
    List.forall_mem_map.2 fun line hline => (Program.isFunctionLine_of_mem_lines h hline).2
  have hrest : (((if p.hasMain then entryLines else []) ++ ["\x7d)();"]).map
      String.toList).takeWhile isFunctionLine = [] := by
    cases p.hasMain <;> rfl
  rw [sourceOfCode, splitOn_code h hcode, Program.lines, List.cons_append, List.cons_append,
    List.map_cons, List.tail_cons, List.append_assoc, List.map_append,
    List.takeWhile_append_of_pos hfunctions, hrest, List.append_nil, List.flatMap_map]
  have hsource := Program.sourceOfLines_lines h
  rw [sourceOfLines] at hsource
  rw [hsource, String.ofList_toList]

/-- Programs with the same canonical source have the same gist. -/
theorem gist_eq_of_source_eq {p q : Program} (hp : p.wellFormed = true) (hq : q.wellFormed = true)
    (h : (p.mapText escapeBreaks).source = (q.mapText escapeBreaks).source) : p.gist = q.gist := by
  obtain ⟨fs, hfs, hgist⟩ := functions_lex_source (Program.wellFormed_mapText hp)
  obtain ⟨gs, hgs, hgist'⟩ := functions_lex_source (Program.wellFormed_mapText hq)
  rw [h, hgs] at hfs
  cases hfs
  exact congrArg Program.mk (hgist.symm.trans hgist')

/-- **Two sources have the same code exactly if their trees have the same gist**: they agree in all
but their positions and the spelling of the line breaks and tabs in their strings. -/
theorem compile_eq_compile_iff (s t c d : String) (hs : compile s .javaScript = .ok c)
    (ht : compile t .javaScript = .ok d) :
    ∃ p q, Program.parse (lex s) = .ok p ∧ Program.parse (lex t) = .ok q ∧
      (compile s .javaScript = compile t .javaScript ↔ p.gist = q.gist) := by
  obtain ⟨p, hp, hpcode⟩ := compile_eq_ok_iff.1 hs
  obtain ⟨q, hq, hqcode⟩ := compile_eq_ok_iff.1 ht
  refine ⟨p, q, hp, hq, ?_⟩
  rw [hs, ht, Except.ok.injEq]
  constructor
  · rintro rfl
    have hpwell := wellFormed_of_parse_lex hp
    have hqwell := wellFormed_of_parse_lex hq
    refine gist_eq_of_source_eq hpwell hqwell ?_
    rw [← sourceOfCode_eq hpwell hpcode, sourceOfCode_eq hqwell hqcode]
  · intro h
    obtain ⟨-, rfl⟩ := Program.code_eq_ok_iff.1 hpcode
    obtain ⟨-, rfl⟩ := Program.code_eq_ok_iff.1 hqcode
    rw [← Program.lines_gist p, h, Program.lines_gist]

/-- A raw tab and its escape, a comment and an empty line: two sources with the same code. -/
theorem gist_eq_of_two_spellings :
    compile "f() \x7b\n\tprint \"a\tb\"\n\x7d\n" .javaScript = .ok
        "(function () \x7b\n\tfunction f() \x7b\n\t\tconsole.log(\"a\\tb\");\n\t\x7d\n\n\x7d)();" ∧
      compile "# f\nf() \x7b\n\n\tprint \"a\\tb\"\n\x7d\n" .javaScript = .ok
        "(function () \x7b\n\tfunction f() \x7b\n\t\tconsole.log(\"a\\tb\");\n\t\x7d\n\n\x7d)();" ∧
      ∃ p q, Program.parse (lex "f() \x7b\n\tprint \"a\tb\"\n\x7d\n") = .ok p ∧
        Program.parse (lex "# f\nf() \x7b\n\n\tprint \"a\\tb\"\n\x7d\n") = .ok q ∧
        p.gist = q.gist := by
  have hraw : compile "f() \x7b\n\tprint \"a\tb\"\n\x7d\n" .javaScript = .ok
      "(function () \x7b\n\tfunction f() \x7b\n\t\tconsole.log(\"a\\tb\");\n\t\x7d\n\n\x7d)();" := by
    decide +kernel
  have hescape : compile "# f\nf() \x7b\n\n\tprint \"a\\tb\"\n\x7d\n" .javaScript = .ok
      "(function () \x7b\n\tfunction f() \x7b\n\t\tconsole.log(\"a\\tb\");\n\t\x7d\n\n\x7d)();" := by
    decide +kernel
  obtain ⟨p, q, hp, hq, hgist⟩ := compile_eq_compile_iff _ _ _ _ hraw hescape
  exact ⟨hraw, hescape, p, q, hp, hq, hgist.1 (hraw.trans hescape.symm)⟩

end Tabscript
