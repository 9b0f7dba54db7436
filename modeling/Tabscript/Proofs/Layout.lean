import Tabscript.Compile
import Tabscript.JavaScript.Layout
import Tabscript.Proofs.Reading
import Tabscript.Tree.Preorder

/-!
# The code of a program is its lines

The code is written piece by piece, each line with the line break before it, and the first
operation ends the writing. As a whole it is the text of the lines of `Program.lines`, and there is
one exactly if no operation occurs.

* `Expr.code_eq_ok_iff` and `Stmt.codeAll_eq_ok_iff` say so of the parts of a program.
* `Program.code_eq_ok_iff` says so of a program.
* `compile_eq_ok_iff` says when a source compiles.
* `rendering_infix_code` finds the rendering of each expression of a program in the program's code.
-/

namespace Tabscript

open JavaScript

/-! ## Lines -/

/-- The text of lines, each with the line break before it. -/
def JavaScript.broken (lines : List String) : String := String.join (lines.map ("\n" ++ ·))

@[simp] theorem JavaScript.broken_nil : broken [] = "" := rfl

@[simp] theorem JavaScript.broken_cons (first : String) (rest : List String) :
    broken (first :: rest) = "\n" ++ first ++ broken rest := by
  rw [broken, List.map_cons, String.join_cons, broken]

@[simp] theorem JavaScript.broken_append (lines more : List String) :
    broken (lines ++ more) = broken lines ++ broken more := by
  rw [broken, List.map_append, String.join_append, broken, broken]

theorem JavaScript.broken_singleton (content : String) : broken [content] = "\n" ++ content := by
  rw [broken_cons, broken_nil, String.append_empty]

/-- A line with the break before it, as the code has it. -/
theorem JavaScript.broken_tabbed (depth : Nat) (content : String) :
    broken [tabbed depth content] = line depth content := by
  rw [broken_singleton, tabbed, line, String.append_assoc]

theorem JavaScript.broken_entryLines : broken entryLines = entryPoint := by
  unfold entryLines entryPoint
  rw [← broken_tabbed, ← broken_tabbed, ← broken_tabbed, ← broken_tabbed]
  simp only [broken_cons, broken_nil, String.append_empty, String.append_assoc]

/-- Breaks stand before all lines but the first. -/
theorem JavaScript.intercalate_cons (first : String) (rest : List String) :
    "\n".intercalate (first :: rest) = first ++ broken rest := by
  induction rest generalizing first with
  | nil => rw [String.intercalate_singleton, broken_nil, String.append_empty]
  | cons second rest ih =>
    rw [String.intercalate_cons_cons, ih, broken_cons]
    simp only [String.append_assoc]

/-! ## Expressions and statements -/

/-- No operation is among the expressions. -/
def NoOperation (es : List Expr) : Prop := ∀ e ∈ es, e.isOperation = false

@[simp] theorem noOperation_nil : NoOperation [] := List.forall_mem_nil _

theorem noOperation_cons {e : Expr} {es : List Expr} :
    NoOperation (e :: es) ↔ e.isOperation = false ∧ NoOperation es := List.forall_mem_cons

theorem noOperation_append {es es' : List Expr} :
    NoOperation (es ++ es') ↔ NoOperation es ∧ NoOperation es' := List.forall_mem_append

/-- An expression has code exactly if it holds no operation. The code is then its rendering. -/
theorem Expr.code_eq_ok_iff {e : Expr} {code : String} :
    e.code = .ok code ↔ NoOperation e.nodes ∧ code = e.rendering := by
  induction e generalizing code with
  | assign target value pos ih =>
    constructor
    · intro h
      obtain ⟨text, htext, hcode⟩ := Parse.bind_eq_ok_iff.1 h
      obtain ⟨hvalue, rfl⟩ := ih.1 htext
      exact ⟨noOperation_cons.2 ⟨rfl, hvalue⟩, (Except.ok.inj hcode).symm⟩
    · rintro ⟨h, rfl⟩
      obtain ⟨-, hvalue⟩ := noOperation_cons.1 h
      exact Parse.bind_eq_ok_iff.2 ⟨value.rendering, ih.2 ⟨hvalue, rfl⟩, rfl⟩
  | operation operator lhs rhs pos ih =>
    constructor
    · intro h
      cases h
    · rintro ⟨h, -⟩
      cases (noOperation_cons.1 h).1
  | _ =>
    constructor
    · intro h
      exact ⟨noOperation_cons.2 ⟨rfl, noOperation_nil⟩, (Except.ok.inj h).symm⟩
    · rintro ⟨-, rfl⟩
      rfl

/-- A statement that is one line with one expression in it. -/
theorem code_line_eq_ok_iff {value : Expr} {depth : Nat} {content : String → String}
    {code : String} :
    (value.code >>= fun text => .ok (line depth (content text))) = .ok code ↔
      NoOperation value.nodes ∧ code = broken [tabbed depth (content value.rendering)] := by
  rw [broken_tabbed, Parse.bind_eq_ok_iff]
  constructor
  · rintro ⟨text, htext, hcode⟩
    obtain ⟨hvalue, rfl⟩ := Expr.code_eq_ok_iff.1 htext
    exact ⟨hvalue, (Except.ok.inj hcode).symm⟩
  · rintro ⟨hvalue, rfl⟩
    exact ⟨value.rendering, Expr.code_eq_ok_iff.2 ⟨hvalue, rfl⟩, rfl⟩

/-- The lines of a conditional statement stand around those of its body. -/
theorem broken_branch (depth : Nat) (condition : Expr) (body : List Stmt) :
    broken ((Stmt.branch condition body).lines depth) =
      line depth ("if (" ++ condition.rendering ++ ") \x7b") ++
        broken (Stmt.linesAll (depth + 1) body) ++ line depth "\x7d" := by
  rw [Stmt.lines, broken_append, broken_tabbed, ← List.singleton_append, broken_append,
    broken_tabbed]

mutual

/-- A statement has code exactly if it holds no operation. The code is then its lines. -/
theorem Stmt.code_eq_ok_iff (depth : Nat) : (s : Stmt) → {code : String} →
    (s.code depth = .ok code ↔ NoOperation s.exprs ∧ code = broken (s.lines depth))
  | .branch condition body, code => by
    rw [broken_branch, Stmt.code, Stmt.exprs, noOperation_append, Parse.bind_eq_ok_iff]
    constructor
    · rintro ⟨test, htest, h⟩
      obtain ⟨text, htext, hcode⟩ := Parse.bind_eq_ok_iff.1 h
      obtain ⟨hcondition, rfl⟩ := Expr.code_eq_ok_iff.1 htest
      obtain ⟨hbody, rfl⟩ := (Stmt.codeAll_eq_ok_iff (depth + 1) body).1 htext
      exact ⟨⟨hcondition, hbody⟩, (Except.ok.inj hcode).symm⟩
    · rintro ⟨⟨hcondition, hbody⟩, rfl⟩
      refine ⟨condition.rendering, Expr.code_eq_ok_iff.2 ⟨hcondition, rfl⟩, ?_⟩
      rw [(Stmt.codeAll_eq_ok_iff (depth + 1) body).2 ⟨hbody, rfl⟩]
      rfl
  | .print value, code => code_line_eq_ok_iff
  | .ret value, code => code_line_eq_ok_iff
  | .eval value, code => code_line_eq_ok_iff

/-- Statements have code exactly if none holds an operation. The code is then their lines. -/
theorem Stmt.codeAll_eq_ok_iff (depth : Nat) : (stmts : List Stmt) → {code : String} →
    (Stmt.codeAll depth stmts = .ok code ↔
      NoOperation (Stmt.exprsAll stmts) ∧ code = broken (Stmt.linesAll depth stmts))
  | [], code => ⟨fun h => ⟨noOperation_nil, (Except.ok.inj h).symm⟩, fun ⟨_, h⟩ => h ▸ rfl⟩
  | stmt :: rest, code => by
    rw [Stmt.codeAll, Stmt.exprsAll, Stmt.linesAll, noOperation_append, broken_append,
      Parse.bind_eq_ok_iff]
    constructor
    · rintro ⟨first, hfirst, h⟩
      obtain ⟨more, hmore, hcode⟩ := Parse.bind_eq_ok_iff.1 h
      obtain ⟨hstmt, rfl⟩ := (Stmt.code_eq_ok_iff depth stmt).1 hfirst
      obtain ⟨hrest, rfl⟩ := (Stmt.codeAll_eq_ok_iff depth rest).1 hmore
      exact ⟨⟨hstmt, hrest⟩, (Except.ok.inj hcode).symm⟩
    · rintro ⟨⟨hstmt, hrest⟩, rfl⟩
      refine ⟨_, (Stmt.code_eq_ok_iff depth stmt).2 ⟨hstmt, rfl⟩, ?_⟩
      rw [(Stmt.codeAll_eq_ok_iff depth rest).2 ⟨hrest, rfl⟩]
      rfl

end

/-! ## Programs -/

/-- The lines of a function stand around those of its body, with an empty line after them. -/
theorem broken_functionLines (f : Function) :
    broken f.lines = line 1 ("function " ++ f.name.name ++ "() \x7b") ++
      broken (Stmt.linesAll 2 f.body) ++ line 1 "\x7d" ++ "\n" := by
  rw [Function.lines, broken_append, ← List.singleton_append, broken_append, broken_tabbed,
    ← List.singleton_append, broken_append, broken_tabbed, broken_singleton, String.append_empty]
  exact String.append_assoc.symm

/-- A function has code exactly if it holds no operation. The code is then its lines. -/
theorem Function.code_eq_ok_iff {f : Function} {code : String} :
    f.code = .ok code ↔ NoOperation (Stmt.exprsAll f.body) ∧ code = broken f.lines := by
  rw [broken_functionLines, Function.code, Parse.bind_eq_ok_iff]
  constructor
  · rintro ⟨text, htext, hcode⟩
    obtain ⟨hbody, rfl⟩ := (Stmt.codeAll_eq_ok_iff 2 f.body).1 htext
    exact ⟨hbody, (Except.ok.inj hcode).symm⟩
  · rintro ⟨hbody, rfl⟩
    exact ⟨_, (Stmt.codeAll_eq_ok_iff 2 f.body).2 ⟨hbody, rfl⟩, rfl⟩

theorem mapM_code_eq_ok_iff {fs : List Function} {codes : List String} :
    fs.mapM Function.code = .ok codes ↔
      (∀ f ∈ fs, NoOperation (Stmt.exprsAll f.body)) ∧
        codes = fs.map fun f => broken f.lines := by
  induction fs generalizing codes with
  | nil => exact ⟨fun h => ⟨List.forall_mem_nil _, (Except.ok.inj h).symm⟩, fun ⟨_, h⟩ => h ▸ rfl⟩
  | cons f fs ih =>
    rw [List.mapM_cons, List.forall_mem_cons, List.map_cons, Parse.bind_eq_ok_iff]
    constructor
    · rintro ⟨first, hfirst, h⟩
      obtain ⟨more, hmore, hcodes⟩ := Parse.bind_eq_ok_iff.1 h
      obtain ⟨hf, rfl⟩ := Function.code_eq_ok_iff.1 hfirst
      obtain ⟨hfs, rfl⟩ := ih.1 hmore
      exact ⟨⟨hf, hfs⟩, (Except.ok.inj hcodes).symm⟩
    · rintro ⟨⟨hf, hfs⟩, rfl⟩
      refine ⟨_, Function.code_eq_ok_iff.2 ⟨hf, rfl⟩, ?_⟩
      rw [ih.2 ⟨hfs, rfl⟩]
      rfl

theorem join_map_broken (fs : List Function) :
    String.join (fs.map fun f => broken f.lines) = broken (fs.flatMap Function.lines) := by
  induction fs with
  | nil => rfl
  | cons f fs ih => rw [List.map_cons, String.join_cons, ih, List.flatMap_cons, broken_append]

theorem Program.operations_eq_nil_iff {p : Program} :
    p.operations = [] ↔ ∀ f ∈ p.functions, NoOperation (Stmt.exprsAll f.body) := by
  simp only [Program.operations, Program.exprs, List.filter_eq_nil_iff, List.forall_mem_flatMap,
    NoOperation, Bool.not_eq_true]

/-- The lines of a program, the first without a break before it. -/
theorem Program.intercalate_lines (p : Program) :
    "\n".intercalate p.lines = "(function () \x7b" ++ broken (p.functions.flatMap Function.lines) ++
      (if p.hasMain then entryPoint else "") ++ line 0 "\x7d)();" := by
  have hmain : broken (if p.hasMain then entryLines else []) =
      if p.hasMain then entryPoint else "" := by
    rw [apply_ite broken, broken_entryLines, broken_nil]
  have hlast : broken ["\x7d)();"] = line 0 "\x7d)();" := broken_tabbed 0 "\x7d)();"
  rw [Program.lines, List.cons_append, List.cons_append, intercalate_cons, broken_append,
    broken_append, hmain, hlast, String.append_assoc, String.append_assoc, String.append_assoc]

/-- A program has code exactly if it holds no operation. The code is then the program's lines with
line breaks between them. -/
theorem Program.code_eq_ok_iff {p : Program} {code : String} :
    p.code = .ok code ↔ p.operations = [] ∧ code = "\n".intercalate p.lines := by
  rw [Program.intercalate_lines, Program.operations_eq_nil_iff, ← join_map_broken, Program.code,
    Parse.bind_eq_ok_iff]
  constructor
  · rintro ⟨codes, hcodes, hcode⟩
    obtain ⟨hnone, rfl⟩ := mapM_code_eq_ok_iff.1 hcodes
    exact ⟨hnone, (Except.ok.inj hcode).symm⟩
  · rintro ⟨hnone, rfl⟩
    exact ⟨_, mapM_code_eq_ok_iff.2 ⟨hnone, rfl⟩, rfl⟩

/-- The entry point goes by its name alone, and there may be several. -/
theorem Program.hasMain_iff {p : Program} :
    p.hasMain = true ↔ ∃ f ∈ p.functions, f.name.name = "main" := by
  simp only [Program.hasMain, List.any_eq_true, Function.isMain, beq_iff_eq]

theorem Program.exists_intercalate_lines (p : Program) :
    ∃ before, "\n".intercalate p.lines = before ++ "\x7d)();" := by
  rw [Program.lines, List.cons_append, List.cons_append, intercalate_cons, broken_append,
    broken_cons, broken_nil, String.append_empty, ← String.append_assoc, ← String.append_assoc]
  exact ⟨_, rfl⟩

/-- **The code of a program without operations is its lines**, with line breaks between them and no
line break at the end. They call the entry point, once, if and only if some function is named
`main`. -/
theorem code_eq_intercalate_lines {p : Program} (h : p.operations = []) :
    p.code = .ok ("\n".intercalate p.lines) ∧
      (∃ before, "\n".intercalate p.lines = before ++ "\x7d)();") ∧
      (p.hasMain = true ↔ ∃ f ∈ p.functions, f.name.name = "main") :=
  ⟨Program.code_eq_ok_iff.2 ⟨h, rfl⟩, p.exists_intercalate_lines, Program.hasMain_iff⟩

/-- A program with two functions of the same name, and with a name that no source has. -/
def twoMains : Program :=
  ⟨[⟨⟨"main", .start⟩, [.branch (.var ⟨"a b", .start⟩ .start)
      [.branch (.bool true .start) [.print (.string "\n" .start)]]]⟩,
    ⟨⟨"main", .start⟩, []⟩]⟩

theorem code_eq_intercalate_lines_twoMains :
    twoMains.operations = [] ∧
      twoMains.code = .ok ("(function () \x7b\n\tfunction main() \x7b\n" ++
        "\t\tif (a b) \x7b\n\t\t\tif (true) \x7b\n\t\t\t\tconsole.log(\"\\n\");\n" ++
        "\t\t\t\x7d\n\t\t\x7d\n\t\x7d\n\n\tfunction main() \x7b\n\t\x7d\n\n" ++
        "\tconst mainReturn = main();\n\n\tif (mainReturn) \x7b\n" ++
        "\t\tprocess.exit(mainReturn);\n\t\x7d\n\x7d)();") := by
  have hnone : twoMains.operations = [] := by decide
  exact ⟨hnone, (code_eq_intercalate_lines hnone).1.trans (by decide +kernel)⟩

/-- A source compiles exactly if it is a program that has code. -/
theorem compile_eq_ok_iff {source code : String} :
    compile source .javaScript = .ok code ↔
      ∃ p, Program.parse (lex source) = .ok p ∧ p.code = .ok code := by
  rw [compile, Parse.bind_eq_ok_iff, Program.ofSource]
  exact exists_congr fun p => and_congr Parse.mapError_eq_ok_iff Parse.mapError_eq_ok_iff

/-! ## Expressions in the code -/

/-- An expression inside another one is rendered inside it. -/
theorem rendering_infix_of_mem_nodes {e n : Expr} (h : n ∈ e.nodes) :
    n.rendering.toList <:+: e.rendering.toList := by
  induction e with
  | assign target value pos ih =>
    rcases List.mem_cons.1 h with rfl | h
    · exact List.infix_rfl
    · rw [Expr.rendering, String.toList_append]
      exact (ih h).trans (List.suffix_append _ _).isInfix
  | operation operator lhs rhs pos ih =>
    rcases List.mem_cons.1 h with rfl | h
    · exact List.infix_rfl
    · rw [Expr.rendering, String.toList_append]
      exact (ih h).trans (List.suffix_append _ _).isInfix
  | _ =>
    obtain rfl := List.mem_singleton.1 h
    exact List.infix_rfl

theorem infix_tabbed (depth : Nat) (before text after : String) :
    text.toList <:+: (tabbed depth (before ++ text ++ after)).toList := by
  simp only [tabbed, String.toList_append, ← List.append_assoc]
  exact List.infix_append _ _ _

theorem rendering_infix_tabbed {e n : Expr} (h : n ∈ e.nodes) (depth : Nat)
    (before after : String) :
    n.rendering.toList <:+: (tabbed depth (before ++ e.rendering ++ after)).toList :=
  (rendering_infix_of_mem_nodes h).trans (infix_tabbed depth before _ after)

mutual

/-- Every expression of a statement stands in one of its lines. -/
theorem Stmt.exists_line_of_mem_exprs (depth : Nat) : (s : Stmt) → {e : Expr} → e ∈ s.exprs →
    ∃ line ∈ s.lines depth, e.rendering.toList <:+: line.toList
  | .branch condition body, e, h => by
    rw [Stmt.exprs, List.mem_append] at h
    rcases h with h | h
    · exact ⟨_, List.mem_cons_self, rendering_infix_tabbed h depth _ _⟩
    · obtain ⟨line, hline, hstands⟩ := Stmt.exists_line_of_mem_exprsAll (depth + 1) body h
      exact ⟨line, by simp [Stmt.lines, hline], hstands⟩
  | .print value, e, h => ⟨_, List.mem_cons_self, rendering_infix_tabbed h depth _ _⟩
  | .ret value, e, h => ⟨_, List.mem_cons_self, rendering_infix_tabbed h depth _ _⟩
  | .eval value, e, h => by
    have hstands := rendering_infix_tabbed h depth "" ";"
    rw [String.empty_append] at hstands
    exact ⟨_, List.mem_cons_self, hstands⟩

theorem Stmt.exists_line_of_mem_exprsAll (depth : Nat) : (stmts : List Stmt) → {e : Expr} →
    e ∈ Stmt.exprsAll stmts →
    ∃ line ∈ Stmt.linesAll depth stmts, e.rendering.toList <:+: line.toList
  | [], e, h => absurd h List.not_mem_nil
  | stmt :: rest, e, h => by
    rw [Stmt.exprsAll, List.mem_append] at h
    rw [Stmt.linesAll]
    rcases h with h | h
    · obtain ⟨line, hline, hstands⟩ := Stmt.exists_line_of_mem_exprs depth stmt h
      exact ⟨line, List.mem_append_left _ hline, hstands⟩
    · obtain ⟨line, hline, hstands⟩ := Stmt.exists_line_of_mem_exprsAll depth rest h
      exact ⟨line, List.mem_append_right _ hline, hstands⟩

end

theorem JavaScript.infix_broken {line : String} {lines : List String} (h : line ∈ lines) :
    line.toList <:+: (broken lines).toList := by
  obtain ⟨before, after, rfl⟩ := List.append_of_mem h
  simp only [broken_append, broken_cons, String.toList_append]
  rw [List.append_assoc, ← List.append_assoc, ← List.append_assoc]
  exact List.infix_append _ _ _

/-- The rendering of every expression of a program stands in the program's code. -/
theorem rendering_infix_code {p : Program} {code : String} {e : Expr} (hcode : p.code = .ok code)
    (he : e ∈ p.exprs) : e.rendering.toList <:+: code.toList := by
  obtain ⟨-, rfl⟩ := Program.code_eq_ok_iff.1 hcode
  obtain ⟨f, hf, he⟩ := List.mem_flatMap.1 he
  obtain ⟨line, hline, hstands⟩ := Stmt.exists_line_of_mem_exprsAll 2 f.body he
  have hmem : line ∈ f.lines := by simp [Function.lines, hline]
  have hlines := infix_broken (List.mem_flatMap.2 ⟨f, hf, hmem⟩)
  rw [Program.lines, List.cons_append, List.cons_append, intercalate_cons, broken_append,
    broken_append, String.toList_append, String.toList_append, String.toList_append]
  refine (hstands.trans hlines).trans ?_
  rw [List.append_assoc]
  exact ⟨_, _, List.append_assoc _ _ _⟩

end Tabscript
