import Mathlib.Data.List.Forall2
import Tabscript.Proofs.Layout
import Tabscript.Proofs.Places

/-!
# What a compilation comes to

A compilation can fail at three stages, and each failure says what is to blame: the name of the
target, the tokens, or the first operation of the tree. The generator stops at the first operation
that it meets, and it meets the expressions in the order in which they stand in the source, so the
operation that is blamed is the earliest one of the whole source.

* `EqIgnoringCase` compares names without regard to the case of ASCII letters, and
  `Target.ofName?_eq_some_iff` says which names are known.
* `Blames` says that a rendering fails with the first operation among some expressions, and
  `Program.blames_code` that the code of a program does with all of its expressions.
* `derives_program` finds the tokens of every expression of a program, in order.
* `compileFor_outcome` puts the stages together.
-/

namespace Tabscript

open Grammar

/-! ## Names of targets -/

/-- The first character is a capital letter of ASCII, and the second the small one. -/
def IsCapitalOf (c d : Char) : Prop := 'A' ≤ c ∧ c ≤ 'Z' ∧ d.toNat = c.toNat + 32

/-- The texts agree character by character, but for the case of ASCII letters. -/
def EqIgnoringCase (a b : String) : Prop :=
  List.Forall₂ (fun c d => c = d ∨ IsCapitalOf c d ∨ IsCapitalOf d c) a.toList b.toList

theorem toNat_toLower (c : Char) :
    c.toLower.toNat = if 'A' ≤ c ∧ c ≤ 'Z' then c.toNat + 32 else c.toNat := by
  by_cases h : 'A' ≤ c ∧ c ≤ 'Z'
  · have hlower : c.toLower.val = c.val + 32 := congrArg Char.val (dif_pos h)
    have hle : c.val.toNat ≤ 90 := UInt32.le_iff_toNat_le.1 h.2
    rw [if_pos h, Char.toNat, hlower, Char.toNat, UInt32.toNat_add,
      show (32 : UInt32).toNat = 32 from rfl]
    omega
  · have hlower : c.toLower = c := dif_neg h
    rw [if_neg h, hlower]

/-- Two characters are the same without regard to case if they are equal or one is the capital of
the other. -/
theorem toLower_eq_toLower_iff {c d : Char} :
    c.toLower = d.toLower ↔ c = d ∨ IsCapitalOf c d ∨ IsCapitalOf d c := by
  simp only [← Char.toNat_inj, toNat_toLower, IsCapitalOf, Char.le_def, UInt32.le_iff_toNat_le,
    Char.toNat_val, Char.reduceVal, UInt32.reduceToNat]
  split <;> split <;> omega

/-- Folding the case of two texts compares them character by character. -/
theorem foldCase_eq_foldCase_iff {a b : String} :
    Target.foldCase a = Target.foldCase b ↔ EqIgnoringCase a b := by
  rw [Target.foldCase, Target.foldCase, ← List.forall₂_eq_eq_eq, List.forall₂_map_left_iff,
    List.forall₂_map_right_iff, EqIgnoringCase]
  simp only [toLower_eq_toLower_iff]

instance (a b : String) : Decidable (EqIgnoringCase a b) :=
  decidable_of_iff (Target.foldCase a = Target.foldCase b) foldCase_eq_foldCase_iff

/-- The name of a known target. -/
def IsTargetName (name : String) : Prop :=
  EqIgnoringCase name "javascript" ∨ EqIgnoringCase name "js"

instance (name : String) : Decidable (IsTargetName name) := inferInstanceAs (Decidable (_ ∨ _))

theorem Target.answersTo_iff {target : Target} {name : String} :
    target.answersTo name = true ↔ IsTargetName name := by
  cases target
  have hname : foldCase "JavaScript" = foldCase "javascript" := by decide
  simp only [answersTo, Target.name, aliases, List.any_cons, List.any_nil, Bool.or_false,
    Bool.or_eq_true, beq_iff_eq, hname, IsTargetName, ← foldCase_eq_foldCase_iff]
  rw [eq_comm, eq_comm (a := foldCase "js")]

/-- There is one target, and it answers to its own names only. -/
theorem Target.ofName?_eq_some_iff {name : String} {target : Target} :
    Target.ofName? name = some target ↔ IsTargetName name := by
  cases target
  rw [Target.ofName?, ← @Target.answersTo_iff .javaScript]
  simp [Target.all]

/-! ## The first operation -/

/-- The refusal of an expression that has no rendering of its own. -/
def Expr.refusal? : Expr → Option Unsupported
  | operation operator _ _ pos => some ⟨.javaScript, operator, pos⟩
  | _ => none

/-- The refusal of the first operation among the expressions. -/
def firstRefusal (es : List Expr) : Option Unsupported := es.findSome? Expr.refusal?

theorem firstRefusal_cons (e : Expr) (es : List Expr) :
    firstRefusal (e :: es) = e.refusal?.or (firstRefusal es) := by
  rw [firstRefusal, List.findSome?_cons]
  cases e.refusal? <;> rfl

theorem firstRefusal_append (es es' : List Expr) :
    firstRefusal (es ++ es') = (firstRefusal es).or (firstRefusal es') := List.findSome?_append

/-- The first expression that is refused is the first operation. -/
theorem firstRefusal_eq_some_iff {es : List Expr} {u : Unsupported} :
    firstRefusal es = some u ↔
      ∃ lhs rhs,
        (es.filter Expr.isOperation).head? = some (.operation u.operator lhs rhs u.pos) := by
  obtain ⟨⟨⟩, operator, pos⟩ := u
  induction es with
  | nil => simp [firstRefusal]
  | cons e es ih =>
    rw [firstRefusal_cons, List.filter_cons]
    cases e with
    | operation operator' lhs rhs pos' => simp [Expr.refusal?, Expr.isOperation]
    | _ => exact ih

/-- The rendering fails exactly if there is an operation among the expressions, and then with the
refusal of the first one. -/
def Blames {α : Type} (x : Except Unsupported α) (es : List Expr) : Prop :=
  ∀ u, x = .error u ↔ firstRefusal es = some u

namespace Blames

variable {α β : Type} {es es' : List Expr}

theorem ok (a : α) : Blames (.ok a) [] := by
  intro u
  simp [firstRefusal]

/-- A rendering that goes on after another one fails with the first operation of both. -/
theorem bind {x : Except Unsupported α} {f : α → Except Unsupported β} (h : Blames x es)
    (h' : ∀ a, Blames (f a) es') : Blames (x >>= f) (es ++ es') := by
  intro u
  rw [firstRefusal_append, Option.or_eq_some_iff, ← h u]
  cases x with
  | error e =>
    have hfirst : firstRefusal es ≠ none := by
      rw [(h e).1 rfl]
      exact Option.some_ne_none e
    simp [hfirst]
  | ok a =>
    have hfirst : firstRefusal es = none := by
      refine Option.eq_none_iff_forall_ne_some.2 fun e he => ?_
      cases (h e).2 he
    simp [hfirst, h' a u]

theorem map {x : Except Unsupported α} (f : α → β) (h : Blames x es) :
    Blames (x >>= fun a => .ok (f a)) es := by
  have := h.bind fun a => ok (f a)
  rwa [List.append_nil] at this

end Blames

/-- The code of an expression is refused for the first operation in it. -/
theorem Expr.blames_code (e : Expr) : Blames e.code e.nodes := by
  induction e with
  | assign target value pos ih => exact ih.map _
  | operation operator lhs rhs pos _ =>
    intro u
    simp [Expr.code, Expr.nodes, firstRefusal_cons, Expr.refusal?]
  | _ => exact .ok _

mutual

/-- The condition of a statement is rendered before its body, and is blamed before it. -/
theorem Stmt.blames_code (depth : Nat) : (s : Stmt) → Blames (s.code depth) s.exprs
  | .branch condition body =>
    condition.blames_code.bind fun _ => (Stmt.blames_codeAll (depth + 1) body).map _
  | .print value => value.blames_code.map _
  | .ret value => value.blames_code.map _
  | .eval value => value.blames_code.map _

theorem Stmt.blames_codeAll (depth : Nat) : (stmts : List Stmt) →
    Blames (Stmt.codeAll depth stmts) (Stmt.exprsAll stmts)
  | [] => .ok ""
  | stmt :: rest =>
    (Stmt.blames_code depth stmt).bind fun _ => (Stmt.blames_codeAll depth rest).map _

end

theorem Function.blames_code (f : Function) : Blames f.code (Stmt.exprsAll f.body) :=
  (Stmt.blames_codeAll 2 f.body).map _

theorem blames_mapM_code (fs : List Function) :
    Blames (fs.mapM Function.code) (fs.flatMap fun f => Stmt.exprsAll f.body) := by
  induction fs with
  | nil => exact .ok []
  | cons f fs ih =>
    rw [List.mapM_cons, List.flatMap_cons]
    exact f.blames_code.bind fun _ => ih.map _

/-- The code of a program fails with the first operation of the program. -/
theorem Program.blames_code (p : Program) : Blames p.code p.exprs :=
  (blames_mapM_code p.functions).map _

/-! ## The tokens of an expression -/

/-- Each of the expressions is derived by some of the tokens, which stand next to each other. -/
def Derives (ts : List Token) (es : List Expr) : Prop := ∀ e ∈ es, ∃ us, us <:+: ts ∧ IsExpr us e

namespace Derives

variable {ts us : List Token} {es es' : List Expr}

theorem nil (ts : List Token) : Derives ts [] := nofun

theorem cons {e : Expr} (h : IsExpr ts e) (h' : Derives ts es) : Derives ts (e :: es) :=
  List.forall_mem_cons.2 ⟨⟨ts, List.infix_rfl, h⟩, h'⟩

theorem append (h : Derives ts es) (h' : Derives ts es') : Derives ts (es ++ es') :=
  List.forall_mem_append.2 ⟨h, h'⟩

/-- More tokens around them make no difference. -/
theorem mono (h : Derives ts es) (hts : ts <:+: us) : Derives us es := by
  intro e he
  obtain ⟨vs, hvs, hexpr⟩ := h e he
  exact ⟨vs, hvs.trans hts, hexpr⟩

end Derives

/-- Every expression inside an expression is derived from some of its tokens. -/
theorem derives_expr {ts : List Token} {e : Expr} (h : IsExpr ts e) : Derives ts e.nodes := by
  induction h with
  | number kind => exact .cons (.number kind) (.nil _)
  | string opens inside closes => exact .cons (.string opens inside closes) (.nil _)
  | bool kind word => exact .cons (.bool kind word) (.nil _)
  | var name => exact .cons (.var name) (.nil _)
  | call name kinds => exact .cons (.call name kinds) (.nil _)
  | @assign t before symbol after ts value name kinds equals rest ih =>
    have hvalue := ih.mono (List.suffix_append [t, before, symbol, after] ts).isInfix
    exact .cons (.assign name kinds equals rest) hvalue
  | @operation t before symbol after ts value name kinds differs rest ih =>
    have hvalue := ih.mono (List.suffix_append [t, before, symbol, after] ts).isInfix
    exact .cons (.operation name kinds differs rest) hvalue

theorem derives_block {depth : Nat} {ts : List Token} {stmts : List Stmt}
    (h : IsBlock depth ts stmts) : Derives ts (Stmt.exprsAll stmts) := by
  refine @IsBlock.rec (fun _ ts s _ => Derives ts s.exprs)
    (fun _ ts stmts _ => Derives ts (Stmt.exprsAll stmts))
    ?branch ?print ?ret ?eval ?close ?stmt depth ts stmts h
  case branch =>
    intro depth word before condition after body e stmts kind value opens test closes block ih
    rw [Stmt.exprs]
    refine ((derives_expr test).mono ?_).append (ih.mono ?_)
    · exact ⟨word :: before, after ++ body, by simp⟩
    · exact ⟨word :: (before ++ condition ++ after), [], by simp⟩
  case print =>
    intro depth word space ts e kinds value test
    exact (derives_expr test).mono (List.suffix_append [word, space] ts).isInfix
  case ret =>
    intro depth word space ts e kinds value test
    exact (derives_expr test).mono (List.suffix_append [word, space] ts).isInfix
  case eval =>
    intro depth word ts e kind value test
    exact derives_expr test
  case close =>
    intro depth lines tabs brace empty margin kind
    exact .nil _
  case stmt =>
    intro depth lines tabs ts more line first rest empty margin head kind tail ih ih'
    rw [Stmt.exprsAll]
    refine (ih.mono ?_).append (ih'.mono ?_)
    · exact ⟨lines ++ tabs, line :: more, by simp⟩
    · exact ⟨lines ++ tabs ++ ts ++ [line], [], by simp⟩

/-- The tokens of a program derive all of its expressions. -/
theorem derives_program {ts : List Token} {fs : List Function} (h : IsProgram ts fs) :
    Derives ts (fs.flatMap fun f => Stmt.exprsAll f.body) := by
  induction h with
  | nil => exact .nil _
  | @blank line ts fs kind _ ih => exact ih.mono (List.suffix_cons line ts).isInfix
  | @comment mark line inner ts fs kind inside ends _ ih =>
    exact ih.mono ⟨mark :: (inner ++ [line]), [], by simp⟩
  | @function name line header block ts body fs kind opens inside ends _ ih =>
    rw [List.flatMap_cons]
    refine ((derives_block inside).mono ?_).append (ih.mono ?_)
    · exact ⟨name :: header, line :: ts, by simp⟩
    · exact ⟨name :: (header ++ block ++ [line]), [], by simp⟩

/-! ## Operations in a source -/

/-- At the position of an operation the source goes on with its left operand and its operator, with
a space after each. -/
theorem readsAt_operation {source : String} (short : source.length < 2 ^ 32 - 1) {p : Program}
    (h : Program.parse (lex source) = .ok p) {operator : String} {lhs : Ident} {rhs : Expr}
    {pos : Position} (he : .operation operator lhs rhs pos ∈ p.exprs) :
    ReadsAt source pos (lhs.name ++ " " ++ operator ++ " ") := by
  obtain ⟨fs, hfs, h⟩ := Parse.bind_eq_ok_iff.1 h
  cases h
  obtain ⟨us, ⟨before, after, hlex⟩, hexpr⟩ :=
    derives_program (Parse.isProgram_of_functions hfs) _ he
  have hspace : ∀ t ∈ lex source, t.kind = .space → t.text = [' '] := fun t ht hkind =>
    eq_of_isKind (hkind ▸ fits_of_mem_lex ht) rfl
  cases hexpr with
  | @operation t space symbol space' ts _ name kinds differs rest =>
    simp only [HasKinds, List.map_cons, List.cons.injEq] at kinds
    have htext := hspace space (by rw [← hlex]; simp) kinds.1
    have htext' := hspace space' (by rw [← hlex]; simp) kinds.2.2.1
    have hsplit : lex source = before ++ t :: (space :: symbol :: space' :: ts ++ after) := by
      rw [← hlex]
      simp
    refine readsAt_of_lex short hsplit ?_
    simp only [List.cons_append, textOf_cons, htext, htext']
    exact ⟨textOf (ts ++ after), by simp [nameOf, Token.text]⟩

/-- The operations of a program stand in the source in the order in which the program lists them. -/
theorem pairwise_before_operations {source : String} (short : source.length < 2 ^ 32 - 1)
    {p : Program} (h : Program.parse (lex source) = .ok p) :
    p.operations.Pairwise fun e e' => e.pos.Before e'.pos := by
  obtain ⟨fs, hfs, h⟩ := Parse.bind_eq_ok_iff.1 h
  cases h
  have hmeets := meets_program (Parse.isProgram_of_functions hfs) fun t => fits_of_mem_lex
  have hexprs : ((Program.mk fs).exprs.map Expr.pos).Sublist ((lex source).map Token.pos) := by
    have hnodes := (exprs_sublist_nodes ⟨fs⟩).map Node.pos
    rw [List.map_map] at hnodes
    exact hnodes.trans hmeets.sublist_pos
  have hpos : ((lex source).map Token.pos).Pairwise Position.Before :=
    List.pairwise_map.2 (pairwise_before_lex short)
  exact (List.pairwise_map.1 (hpos.sublist hexprs)).sublist List.filter_sublist

/-- The operation is the earliest one of the program. -/
def Program.IsEarliestOperation (p : Program) (e : Expr) : Prop :=
  e ∈ p.operations ∧ ∀ other ∈ p.operations, other = e ∨ e.pos.Before other.pos

/-- The first operation in reading order is the one that stands first in the source. -/
theorem isEarliestOperation_of_head? {source : String} (short : source.length < 2 ^ 32 - 1)
    {p : Program} (h : Program.parse (lex source) = .ok p) {e : Expr}
    (he : p.operations.head? = some e) : p.IsEarliestOperation e := by
  have horder := pairwise_before_operations short h
  obtain ⟨rest, hrest⟩ := List.head?_eq_some_iff.1 he
  rw [Program.IsEarliestOperation]
  rw [hrest] at horder ⊢
  refine ⟨List.mem_cons_self, fun other hother => ?_⟩
  rcases List.mem_cons.1 hother with rfl | hother
  · exact .inl rfl
  · exact .inr (List.rel_of_pairwise_cons horder hother)

/-! ## Stages -/

/-- A program is refused exactly for its first operation. -/
theorem Program.code_eq_error_iff {p : Program} {u : Unsupported} :
    p.code = .error u ↔
      ∃ lhs rhs, p.operations.head? = some (.operation u.operator lhs rhs u.pos) := by
  rw [p.blames_code u, firstRefusal_eq_some_iff, Program.operations]

theorem Program.exists_code_iff {p : Program} :
    (∃ code, p.code = .ok code) ↔ p.operations = [] := by
  simp only [Program.code_eq_ok_iff, exists_and_left, exists_eq, and_true]

theorem compile_of_parse {source : String} {p : Program} (h : Program.parse (lex source) = .ok p) :
    compile source .javaScript = p.code.mapError .unsupported := by
  rw [compile, Program.ofSource, h]
  rfl

theorem compile_of_parse_error {source : String} {e : ParseError}
    (h : Program.parse (lex source) = .error e) :
    compile source .javaScript = .error (.syntaxError e) := by
  rw [compile, Program.ofSource, h]
  rfl

theorem compile_eq_syntaxError_iff {source : String} {e : ParseError} :
    compile source .javaScript = .error (.syntaxError e) ↔
      Program.parse (lex source) = .error e := by
  cases h : Program.parse (lex source) with
  | error e' => simp [compile_of_parse_error h]
  | ok p => simp [compile_of_parse h, Parse.mapError_eq_error_iff]

theorem compile_ne_unknownTarget (source name : String) :
    compile source .javaScript ≠ .error (.unknownTarget name) := by
  cases h : Program.parse (lex source) with
  | error e => simp [compile_of_parse_error h]
  | ok p => simp [compile_of_parse h, Parse.mapError_eq_error_iff]

theorem compileFor_of_isTargetName {name : String} (h : IsTargetName name) (source : String) :
    compileFor source name = compile source .javaScript := by
  rw [compileFor, (@Target.ofName?_eq_some_iff name .javaScript).2 h]

/-- A target is unknown by its name alone, whatever the source is. -/
theorem compileFor_eq_unknownTarget_iff {source name unknown : String} :
    compileFor source name = .error (.unknownTarget unknown) ↔
      unknown = name ∧ ¬ IsTargetName name := by
  by_cases h : IsTargetName name
  · rw [compileFor_of_isTargetName h]
    exact ⟨fun he => absurd he (compile_ne_unknownTarget source unknown), fun hn => absurd h hn.2⟩
  · have hnone : Target.ofName? name = none :=
      Option.eq_none_iff_forall_ne_some.2 fun _ ht => h (Target.ofName?_eq_some_iff.1 ht)
    rw [compileFor, hnone]
    simp [h, eq_comm]

/-- **What a compilation comes to.** A name that is not known as a target is refused whatever the
source. Under a known name a source that is no program fails with its syntax error. A program fails
exactly if it holds an operation, and then the earliest one is blamed, at whose position the source
has its left operand and its operator. Every other program has code. Of trees that come from no
source the same holds, with the first operation in reading order to blame. -/
theorem compileFor_outcome {source : String} (short : source.length < 2 ^ 32 - 1) (name : String) :
    (∀ unknown, compileFor source name = .error (.unknownTarget unknown) ↔
        unknown = name ∧ ¬ IsTargetName name) ∧
      (IsTargetName name →
        (∀ e, compileFor source name = .error (.syntaxError e) ↔
          Program.parse (lex source) = .error e) ∧
        ∀ p, Program.parse (lex source) = .ok p →
          ((∃ code, compileFor source name = .ok code) ↔ p.operations = []) ∧
          ((∃ u, compileFor source name = .error (.unsupported u)) ↔ p.operations ≠ []) ∧
          ∀ u, compileFor source name = .error (.unsupported u) →
            ∃ lhs rhs, p.IsEarliestOperation (.operation u.operator lhs rhs u.pos) ∧
              ReadsAt source u.pos (lhs.name ++ " " ++ u.operator ++ " ")) ∧
      ∀ p : Program,
        ((∃ code, p.code = .ok code) ↔ p.operations = []) ∧
          ∀ u, p.code = .error u ↔
            ∃ lhs rhs, p.operations.head? = some (.operation u.operator lhs rhs u.pos) := by
  refine ⟨fun unknown => compileFor_eq_unknownTarget_iff, fun hname => ?_,
    fun p => ⟨Program.exists_code_iff, fun u => Program.code_eq_error_iff⟩⟩
  rw [compileFor_of_isTargetName hname]
  refine ⟨fun e => compile_eq_syntaxError_iff, fun p hp => ?_⟩
  have herror : ∀ u, compile source .javaScript = .error (.unsupported u) ↔ p.code = .error u := by
    intro u
    simp [compile_of_parse hp, Parse.mapError_eq_error_iff]
  have hok : ∀ code, compile source .javaScript = .ok code ↔ p.code = .ok code := by
    intro code
    rw [compile_of_parse hp, Parse.mapError_eq_ok_iff]
  simp only [herror, hok]
  refine ⟨Program.exists_code_iff, ?_, fun u hu => ?_⟩
  · rw [ne_eq, ← Program.exists_code_iff]
    cases p.code <;> simp
  · obtain ⟨lhs, rhs, hhead⟩ := Program.code_eq_error_iff.1 hu
    have hearliest := isEarliestOperation_of_head? short hp hhead
    exact ⟨lhs, rhs, hearliest, readsAt_operation short hp (List.mem_of_mem_filter hearliest.1)⟩

/-- A condition with an operation to the right of an assignment, and an operation in its body. -/
def refusedSource : String := "f() \x7b\n\tif (a = b < 1) \x7b\n\t\tx = y - 1\n\t\x7d\n\x7d\n"

/-- The tree of `refusedSource`. -/
def refusedProgram : Program :=
  ⟨[⟨⟨"f", ⟨1, 1⟩⟩, [.branch (.assign ⟨"a", ⟨2, 6⟩⟩
      (.operation "<" ⟨"b", ⟨2, 10⟩⟩ (.number "1" ⟨2, 14⟩) ⟨2, 10⟩) ⟨2, 6⟩)
    [.eval (.assign ⟨"x", ⟨3, 3⟩⟩
      (.operation "-" ⟨"y", ⟨3, 7⟩⟩ (.number "1" ⟨3, 11⟩) ⟨3, 7⟩) ⟨3, 3⟩)]]⟩]⟩

/-- The operation in the condition is blamed, and found where it stands. -/
theorem compileFor_outcome_refusedSource :
    refusedSource.length < 2 ^ 32 - 1 ∧ IsTargetName "JavaSCRIPT" ∧
      compileFor refusedSource "JavaSCRIPT" =
        .error (.unsupported ⟨.javaScript, "<", ⟨2, 10⟩⟩) ∧
      ReadsAt refusedSource ⟨2, 10⟩ "b < " := by
  have hshort : refusedSource.length < 2 ^ 32 - 1 := by decide
  have hname : IsTargetName "JavaSCRIPT" := by decide
  have hparse : Program.parse (lex refusedSource) = .ok refusedProgram := by decide +kernel
  have herror : compileFor refusedSource "JavaSCRIPT" =
      .error (.unsupported ⟨.javaScript, "<", ⟨2, 10⟩⟩) := by decide +kernel
  obtain ⟨lhs, rhs, ⟨hmem, -⟩, hreads⟩ :=
    (((compileFor_outcome hshort "JavaSCRIPT").2.1 hname).2 _ hparse).2.2 _ herror
  have hlhs : lhs = ⟨"b", ⟨2, 10⟩⟩ := by
    simp [refusedProgram, Program.operations, Program.exprs, Stmt.exprsAll, Stmt.exprs, Expr.nodes,
      Expr.isOperation] at hmem
    exact hmem.1
  subst hlhs
  exact ⟨hshort, hname, herror, hreads⟩

end Tabscript
