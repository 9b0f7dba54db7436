import Tabscript.Proofs.Layout
import Tabscript.Proofs.Places
import Tabscript.Proofs.Relocation

/-!
# The names of a program

Keywords are looked for in two places only: at the start of a statement and, as far as they stand
for truth values, at the start of an expression. So which words can be names depends on what they
are used for, and nothing is barred from being the name of a function. No name of a source has a
capital, so none is `mainReturn`, the one name that the code of every program with an entry point
declares. All other clashes do occur: a function named `if` or a variable named `return` makes code
that is no JavaScript, and a function named `console` or `process` hides what printing and the exit
status rely on.

* `NameUse` lists the uses of names, `NameUse.barred` the keywords that are no names in each of
  them, and `Program.names` the names that a program uses.
* `compile_source` says that the canonical source of a program compiles to the program's code.
* `names_of_compile` says which names the sources that compile use: all that are not barred.
-/

namespace Tabscript

open Parse

/-! ## Names and their uses -/

/-- What a program uses a name for. -/
inductive NameUse where
  | function
  | var
  | callee
  | target
  /-- To start a statement that is an expression. -/
  | opening
  deriving DecidableEq, Repr

/-- The keywords that are no names in the given use. -/
def NameUse.barred : NameUse → List Keyword
  | function => []
  | var | callee | target => [.trueWord, .falseWord]
  | opening => [.ifWord, .printWord, .returnWord, .trueWord, .falseWord]

mutual

/-- A statement and the statements inside it. -/
def Stmt.nodes : Stmt → List Stmt
  | .branch condition body => .branch condition body :: Stmt.nodesAll body
  | s => [s]

/-- Statements and the statements inside them, one after the other. -/
def Stmt.nodesAll : List Stmt → List Stmt
  | [] => []
  | stmt :: rest => stmt.nodes ++ Stmt.nodesAll rest

end

/-- The statements of a program. -/
def Program.stmts (p : Program) : List Stmt := p.functions.flatMap fun f => Stmt.nodesAll f.body

/-- The name that an expression has in the given use. -/
def Expr.nameFor? : NameUse → Expr → Option String
  | .var, .var name _ => some name.name
  | .callee, .call callee _ => some callee.name
  | .target, .assign target _ _ => some target.name
  | _, _ => none

/-- The name that a statement starts with, if it is an expression. -/
def Stmt.opening? : Stmt → Option String
  | .eval value => value.name?.map Ident.name
  | _ => none

/-- The names that a program has in the given use. -/
def Program.names (p : Program) : NameUse → List String
  | .function => p.functions.map fun f => f.name.name
  | .opening => p.stmts.filterMap Stmt.opening?
  | use => p.exprs.filterMap (Expr.nameFor? use)

/-! ## Positions play no part in names -/

section

variable (f : Position → Position)

theorem Expr.nodes_relocate (e : Expr) : (e.relocate f).nodes = e.nodes.map (Expr.relocate f) := by
  induction e with
  | assign target value pos ih =>
    rw [Expr.relocate, Expr.nodes, ih, Expr.nodes]
    rfl
  | operation operator lhs rhs pos ih =>
    rw [Expr.relocate, Expr.nodes, ih, Expr.nodes]
    rfl
  | _ => rfl

mutual

theorem Stmt.exprs_relocate : (s : Stmt) → (s.relocate f).exprs = s.exprs.map (Expr.relocate f)
  | .branch condition body => by
    rw [Stmt.relocate, Stmt.exprs, Stmt.exprs, Expr.nodes_relocate, Stmt.exprsAll_relocateAll body,
      List.map_append]
  | .print value => Expr.nodes_relocate f value
  | .ret value => Expr.nodes_relocate f value
  | .eval value => Expr.nodes_relocate f value

theorem Stmt.exprsAll_relocateAll : (stmts : List Stmt) →
    Stmt.exprsAll (Stmt.relocateAll f stmts) = (Stmt.exprsAll stmts).map (Expr.relocate f)
  | [] => rfl
  | stmt :: rest => by
    rw [Stmt.relocateAll, Stmt.exprsAll, Stmt.exprsAll, Stmt.exprs_relocate stmt,
      Stmt.exprsAll_relocateAll rest, List.map_append]

end

mutual

theorem Stmt.nodes_relocate : (s : Stmt) → (s.relocate f).nodes = s.nodes.map (Stmt.relocate f)
  | .branch condition body => by
    rw [Stmt.relocate, Stmt.nodes, Stmt.nodes, Stmt.nodesAll_relocateAll body, List.map_cons,
      Stmt.relocate]
  | .print _ => rfl
  | .ret _ => rfl
  | .eval _ => rfl

theorem Stmt.nodesAll_relocateAll : (stmts : List Stmt) →
    Stmt.nodesAll (Stmt.relocateAll f stmts) = (Stmt.nodesAll stmts).map (Stmt.relocate f)
  | [] => rfl
  | stmt :: rest => by
    rw [Stmt.relocateAll, Stmt.nodesAll, Stmt.nodesAll, Stmt.nodes_relocate stmt,
      Stmt.nodesAll_relocateAll rest, List.map_append]

end

theorem Program.exprs_relocate (p : Program) :
    (p.relocate f).exprs = p.exprs.map (Expr.relocate f) := by
  simp only [Program.exprs, Program.relocate, List.flatMap_map, List.map_flatMap,
    Function.relocate, Stmt.exprsAll_relocateAll]

theorem Program.stmts_relocate (p : Program) :
    (p.relocate f).stmts = p.stmts.map (Stmt.relocate f) := by
  simp only [Program.stmts, Program.relocate, List.flatMap_map, List.map_flatMap,
    Function.relocate, Stmt.nodesAll_relocateAll]

theorem Expr.nameFor?_relocate (use : NameUse) (e : Expr) :
    (e.relocate f).nameFor? use = e.nameFor? use := by
  cases use <;> cases e <;> rfl

theorem Stmt.opening?_relocate (s : Stmt) : (s.relocate f).opening? = s.opening? := by
  cases s with
  | eval value => cases value <;> rfl
  | _ => rfl

/-- Moving positions leaves the names alone. -/
theorem Program.names_relocate (p : Program) (use : NameUse) :
    (p.relocate f).names use = p.names use := by
  cases use with
  | function =>
    rw [Program.names, Program.relocate, List.map_map]
    rfl
  | opening =>
    rw [Program.names, Program.stmts_relocate, List.filterMap_map]
    exact congrArg (List.filterMap · p.stmts) (funext (Stmt.opening?_relocate f))
  | var | callee | target =>
    change (p.relocate f).exprs.filterMap (Expr.nameFor? _) = p.exprs.filterMap (Expr.nameFor? _)
    rw [Program.exprs_relocate, List.filterMap_map]
    exact congrArg (List.filterMap · p.exprs) (funext (Expr.nameFor?_relocate f _))

end

/-! ## The names of a well-formed program -/

mutual

theorem Stmt.wellFormed_of_mem_nodes : (s : Stmt) → s.wellFormed = true → {n : Stmt} →
    n ∈ s.nodes → n.wellFormed = true
  | .branch condition body, h, n, hn => by
    rw [Stmt.nodes, List.mem_cons] at hn
    rcases hn with rfl | hn
    · exact h
    · rw [Stmt.wellFormed, Bool.and_eq_true] at h
      exact Stmt.wellFormed_of_mem_nodesAll body h.2 hn
  | .print _, h, _, hn => List.mem_singleton.1 hn ▸ h
  | .ret _, h, _, hn => List.mem_singleton.1 hn ▸ h
  | .eval _, h, _, hn => List.mem_singleton.1 hn ▸ h

theorem Stmt.wellFormed_of_mem_nodesAll : (stmts : List Stmt) → Stmt.wellFormedAll stmts = true →
    {n : Stmt} → n ∈ Stmt.nodesAll stmts → n.wellFormed = true
  | [], _, _, hn => absurd hn List.not_mem_nil
  | stmt :: rest, h, n, hn => by
    rw [Stmt.wellFormedAll, Bool.and_eq_true] at h
    rw [Stmt.nodesAll, List.mem_append] at hn
    rcases hn with hn | hn
    · exact Stmt.wellFormed_of_mem_nodes stmt h.1 hn
    · exact Stmt.wellFormed_of_mem_nodesAll rest h.2 hn

end

theorem Program.wellFormed_of_mem_stmts {p : Program} (h : p.wellFormed = true) {s : Stmt}
    (hs : s ∈ p.stmts) : s.wellFormed = true := by
  rw [Program.wellFormed, List.all_eq_true] at h
  obtain ⟨f, hf, hs⟩ := List.mem_flatMap.1 hs
  have hbody := h f hf
  rw [Function.wellFormed, Bool.and_eq_true] at hbody
  exact Stmt.wellFormed_of_mem_nodesAll f.body hbody.2 hs

/-- The name in a well-formed expression stands for no truth value. -/
theorem isOperand_of_name? {e : Expr} {name : Ident} (h : e.wellFormed = true)
    (hname : e.name? = some name) : isOperand name.name = true := by
  cases e with
  | bool _ _ | number _ _ | string _ _ => cases hname
  | var _ _ | call _ _ =>
    cases hname
    exact h
  | assign _ _ _ =>
    cases hname
    rw [Expr.wellFormed, Bool.and_eq_true] at h
    exact h.1
  | operation _ _ _ _ =>
    cases hname
    rw [Expr.wellFormed, Bool.and_eq_true, Bool.and_eq_true] at h
    exact h.1.2

theorem exists_name?_of_nameFor? {use : NameUse} {e : Expr} {word : String}
    (h : e.nameFor? use = some word) : ∃ name, e.name? = some name ∧ name.name = word := by
  unfold Expr.nameFor? at h
  split at h
  case h_4 => cases h
  all_goals exact ⟨_, rfl, Option.some.inj h⟩

/-- The name that starts a statement is none of the words that start other statements. -/
theorem notMem_of_standsAlone {e : Expr} {name : Ident} (h : e.standsAlone = true)
    (hname : e.name? = some name) : name.name ∉ ["if", "print", "return"] := by
  cases e with
  | bool _ _ | number _ _ | string _ _ => cases hname
  | _ =>
    cases hname
    simpa [Expr.standsAlone, and_assoc] using h

/-- The names of a well-formed program are words of small letters and underscores, and none is
barred from its use. -/
theorem isName_of_mem_names {p : Program} (h : p.wellFormed = true) {use : NameUse} {word : String}
    (hword : word ∈ p.names use) : isName word = true ∧ word ∉ use.barred.map Keyword.word := by
  have hexprs : word ∈ p.exprs.filterMap (Expr.nameFor? use) →
      isName word = true ∧ word ∉ [Keyword.trueWord.word, Keyword.falseWord.word] := by
    intro hword
    obtain ⟨e, he, hfor⟩ := List.mem_filterMap.1 hword
    obtain ⟨name, hname, rfl⟩ := exists_name?_of_nameFor? hfor
    exact isOperand_iff.1 (isOperand_of_name? (Program.wellFormed_of_mem_exprs h he) hname)
  cases use with
  | function =>
    obtain ⟨f, hf, rfl⟩ := List.mem_map.1 hword
    rw [Program.wellFormed, List.all_eq_true] at h
    have hf := h f hf
    rw [Function.wellFormed, Bool.and_eq_true] at hf
    exact ⟨hf.1, List.not_mem_nil⟩
  | var | callee | target => exact hexprs hword
  | opening =>
    obtain ⟨s, hs, hopening⟩ := List.mem_filterMap.1 hword
    have hwell := Program.wellFormed_of_mem_stmts h hs
    cases s with
    | eval value =>
      obtain ⟨name, hname, rfl⟩ := Option.map_eq_some_iff.1 hopening
      rw [Stmt.wellFormed, Bool.and_eq_true] at hwell
      obtain ⟨hisName, htruth⟩ := isOperand_iff.1 (isOperand_of_name? hwell.1 hname)
      exact ⟨hisName, List.not_mem_append (notMem_of_standsAlone hwell.2 hname) htruth⟩
    | _ => cases hopening

/-! ## Every other name occurs -/

/-- The canonical source of a well-formed program compiles to the program's code. -/
theorem compile_source {p : Program} {code : String} (h : p.wellFormed = true)
    (hcode : p.code = .ok code) :
    ∃ q, Program.parse (lex p.source) = .ok q ∧ q.relocate erased = p.relocate erased ∧
      compile p.source .javaScript = .ok code := by
  obtain ⟨fs, hfs, herased⟩ := functions_lex_source h
  have hparse : Program.parse (lex p.source) = .ok ⟨fs⟩ := bind_eq_ok_iff.2 ⟨fs, hfs, rfl⟩
  have hsame : Program.relocate erased ⟨fs⟩ = p.relocate erased := congrArg Program.mk herased
  refine ⟨⟨fs⟩, hparse, hsame, compile_eq_ok_iff.2 ⟨⟨fs⟩, hparse, ?_⟩⟩
  -- the two programs differ in their positions only, and code has none
  rw [← mapError_eq_ok_iff (f := Unsupported.relocate erased), ← Program.code_relocate, hsame,
    Program.code_relocate, hcode]
  rfl

/-- A program that has the word in the given use. -/
def NameUse.sample (word : String) : NameUse → Program
  | function => ⟨[⟨⟨word, .start⟩, []⟩]⟩
  | var => ⟨[⟨⟨"f", .start⟩, [.print (.var ⟨word, .start⟩ .start)]⟩]⟩
  | callee => ⟨[⟨⟨"f", .start⟩, [.print (.call ⟨word, .start⟩ .start)]⟩]⟩
  | target => ⟨[⟨⟨"f", .start⟩, [.print (.assign ⟨word, .start⟩ (.bool true .start) .start)]⟩]⟩
  | opening => ⟨[⟨⟨"f", .start⟩, [.eval (.var ⟨word, .start⟩ .start)]⟩]⟩

/-- A program that has a word in some use can be read from a source, unless the word is barred. -/
theorem NameUse.wellFormed_sample {use : NameUse} {word : String} (h : isName word = true)
    (hbarred : word ∉ use.barred.map Keyword.word) : (use.sample word).wellFormed = true := by
  have hf : isName "f" = true := by decide
  cases use with
  | function => simp [sample, Program.wellFormed, Function.wellFormed, Stmt.wellFormedAll, h]
  | var | callee | target =>
    have hoperand : isOperand word = true := isOperand_iff.2 ⟨h, hbarred⟩
    simp [sample, Program.wellFormed, Function.wellFormed, Stmt.wellFormedAll, Stmt.wellFormed,
      Expr.wellFormed, hf, hoperand]
  | opening =>
    have hbarred : word ∉ ["if", "print", "return"] ∧
        word ∉ [Keyword.trueWord.word, Keyword.falseWord.word] := by
      rwa [← not_or, ← List.mem_append]
    have hoperand : isOperand word = true := isOperand_iff.2 ⟨h, hbarred.2⟩
    have halone : (Expr.var ⟨word, .start⟩ .start).standsAlone = true := by
      simpa [Expr.standsAlone, and_assoc] using hbarred.1
    simp [sample, Program.wellFormed, Function.wellFormed, Stmt.wellFormedAll, Stmt.wellFormed,
      Expr.wellFormed, hf, hoperand, halone]

theorem NameUse.exists_code_sample (use : NameUse) (word : String) :
    ∃ code, (use.sample word).code = .ok code := by
  cases use <;> exact ⟨_, rfl⟩

theorem NameUse.mem_names_sample (use : NameUse) (word : String) :
    word ∈ (use.sample word).names use := by
  cases use <;> exact List.mem_singleton_self word

/-- Every word that is not barred has the use in some source that compiles. -/
theorem exists_source_of_isName {use : NameUse} {word : String} (h : isName word = true)
    (hbarred : word ∉ use.barred.map Keyword.word) :
    ∃ source code p, compile source .javaScript = .ok code ∧
      Program.parse (lex source) = .ok p ∧ word ∈ p.names use := by
  obtain ⟨code, hcode⟩ := use.exists_code_sample word
  obtain ⟨q, hq, hsame, hcompile⟩ := compile_source (NameUse.wellFormed_sample h hbarred) hcode
  refine ⟨_, code, q, hcompile, hq, ?_⟩
  rw [← Program.names_relocate erased, hsame, Program.names_relocate]
  exact use.mem_names_sample word

/-- **The names of the sources that compile.** In every source that compiles they are words of small
letters and underscores, so none is `mainReturn`. No variable, callee or target of an assignment is
`true` or `false`, and no name that starts a statement is a keyword. These are the only
restrictions: every other such word has each of the uses in some source that compiles, whether the
code can live with it or not. -/
theorem names_of_compile (use : NameUse) (word : String) :
    (∀ source code, compile source .javaScript = .ok code →
      ∃ p, Program.parse (lex source) = .ok p ∧ (word ∈ p.names use →
        isName word = true ∧ word ≠ "mainReturn" ∧ word ∉ use.barred.map Keyword.word)) ∧
      (isName word = true → word ∉ use.barred.map Keyword.word → ∃ source code p,
        compile source .javaScript = .ok code ∧ Program.parse (lex source) = .ok p ∧
          word ∈ p.names use) := by
  refine ⟨fun source code h => ?_, exists_source_of_isName⟩
  obtain ⟨p, hp, -⟩ := compile_eq_ok_iff.1 h
  refine ⟨p, hp, fun hword => ?_⟩
  obtain ⟨hname, hbarred⟩ := isName_of_mem_names (wellFormed_of_parse_lex hp) hword
  refine ⟨hname, ?_, hbarred⟩
  rintro rfl
  revert hname
  decide

/-- A source with clashing names compiles, to code that is no JavaScript. Its functions are named by
a keyword and by what printing relies on, and its variable by another keyword. -/
theorem compile_clashing_names :
    compile "if() \x7b\n\tprint return\n\x7d\nconsole() \x7b\n\x7d\n" .javaScript = .ok
        ("(function () \x7b\n\tfunction if() \x7b\n\t\tconsole.log(return);\n\t\x7d\n\n" ++
          "\tfunction console() \x7b\n\t\x7d\n\n\x7d)();") ∧
      (∃ p, Program.parse (lex "if() \x7b\n\tprint return\n\x7d\nconsole() \x7b\n\x7d\n") = .ok p ∧
        p.names .function = ["if", "console"] ∧ p.names .var = ["return"]) ∧
      Keyword.ofWord? "if" = some .ifWord ∧ Keyword.ofWord? "return" = some .returnWord := by
  refine ⟨by decide +kernel, ⟨⟨[⟨⟨"if", ⟨1, 1⟩⟩, [.print (.var ⟨"return", ⟨2, 8⟩⟩ ⟨2, 8⟩)]⟩,
    ⟨⟨"console", ⟨4, 1⟩⟩, []⟩]⟩, by decide +kernel, rfl, rfl⟩, rfl, rfl⟩

end Tabscript
