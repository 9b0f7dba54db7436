import Tabscript.JavaScript.Code
import Tabscript.Proofs.Reading

/-!
# The code as it is written

`Program.code` puts code together from the code of the parts. The writer here adds line after line
to one text and keeps the depth of the next line beside it. A line comes with the line break before
it unless it is the first one, and a block is written one step deeper and goes back after it, also
if the writing inside it was refused.

* `Writing.out`, `Writing.outLine` and `Writing.indented` are the steps of a writer, `Expr.write`,
  `Stmt.write`, `Function.write` and `Program.write` what is written with them.
* `Writes` relates what a writer does at a given depth to the code it adds. It passes through
  sequences (`Writes.append`) and into blocks (`Writes.indented`).
* `Program.generate_eq_code` says that the writer of a program ends with the program's code, or is
  refused for the same operation.
-/

namespace Tabscript

open JavaScript

/-- Code that is being written, and the depth of its next line. -/
structure Writer where
  code : String
  depth : Nat

/-- What adds to a state, and may be refused. A refusal keeps what was added before it. -/
abbrev Writing (σ : Type) := ExceptT Unsupported (StateM σ)

namespace Writing

/-- What has been written when a writing ends, as far as it was not refused. -/
def result {σ : Type} (text : σ → String) :
    Except Unsupported Unit × σ → Except Unsupported String
  | (.ok (), s) => .ok (text s)
  | (.error e, _) => .error e

/-- Writes a line at the current depth. Breaks stand between lines, so the first line has none. -/
def out (content : String) : Writing Writer Unit :=
  modify fun w =>
    let code := if w.code.isEmpty then w.code else w.code.push '\n'
    { w with code := Nat.repeat (·.push '\t') w.depth code ++ content }

/-- Writes an empty line. -/
def outLine : Writing Writer Unit := modify fun w => { w with code := w.code.push '\n' }

/-- Writes one step deeper, and goes back however that ends. -/
def indented (body : Writing Writer Unit) : Writing Writer Unit := ExceptT.mk do
  modify fun w => { w with depth := w.depth + 1 }
  let result ← body.run
  modify fun w => { w with depth := w.depth - 1 }
  return result

/-- Adds to the text of an expression. -/
def emit (text : String) : Writing String Unit := modify (· ++ text)

/-- Adds a literal to the text of an expression, character by character. -/
def emitLiteral (text : String) : Writing String Unit := do
  emit "\""
  text.toList.forM fun c => emit (String.ofList (literalChar c))
  emit "\""

end Writing

open Writing

/-- Writes an expression. -/
def Expr.write : Expr → Writing String Unit
  | bool value _ => emit (if value then "true" else "false")
  | number text _ => emit text
  | string text _ => emitLiteral text
  | var name _ => emit name.name
  | call callee _ => emit (callee.name ++ "()")
  | assign target value _ => do
    emit (target.name ++ " = ")
    value.write
  | operation operator _ _ pos => throw ⟨.javaScript, operator, pos⟩

/-- Writes an expression to a text of its own. -/
def Expr.render (e : Expr) : Except Unsupported String :=
  result id (e.write.run.run "")

mutual

/-- Writes a statement. -/
def Stmt.write : Stmt → Writing Writer Unit
  | .branch condition body => do
    let condition ← liftExcept condition.render
    out ("if (" ++ condition ++ ") \x7b")
    indented (Stmt.writeAll body)
    out "\x7d"
  | .print value => do
    let value ← liftExcept value.render
    out ("console.log(" ++ value ++ ");")
  | .ret value => do
    let value ← liftExcept value.render
    out ("return " ++ value ++ ";")
  | .eval value => do
    let value ← liftExcept value.render
    out (value ++ ";")

/-- Writes statements, one after the other. -/
def Stmt.writeAll : List Stmt → Writing Writer Unit
  | [] => return ()
  | stmt :: rest => do
    stmt.write
    Stmt.writeAll rest

end

/-- Writes a function and an empty line. -/
def Function.write (f : Function) : Writing Writer Unit := do
  out ("function " ++ f.name.name ++ "() \x7b")
  indented (Stmt.writeAll f.body)
  out "\x7d"
  outLine

/-- Writes the call of the entry point. -/
def Writing.entryPoint : Writing Writer Unit := do
  out "const mainReturn = main();"
  outLine
  out "if (mainReturn) \x7b"
  indented (out "process.exit(mainReturn);")
  out "\x7d"

/-- Writes a program. -/
def Program.write (p : Program) : Writing Writer Unit := do
  out "(function () \x7b"
  indented do
    p.functions.forM Function.write
    if p.hasMain then Writing.entryPoint
  out "\x7d)();"

/-- Writes a program to a text of its own. -/
def Program.generate (p : Program) : Except Unsupported String :=
  result Writer.code (p.write.run.run ⟨"", 0⟩)

/-! ## Adding to a text -/

section

variable {σ α : Type} {holding : String → σ} {before : String}

theorem Writing.run_bind_of_ok {m : Writing σ α} {f : α → Writing σ Unit} {s s' : σ} {a : α}
    (h : m.run.run s = (.ok a, s')) : (m >>= f).run.run s = (f a).run.run s' := by
  rw [ExceptT.run_bind, StateT.run_bind, h]
  rfl

theorem Writing.run_bind_of_error {m : Writing σ α} {f : α → Writing σ Unit} {s s' : σ}
    {e : Unsupported} (h : m.run.run s = (.error e, s')) :
    (m >>= f).run.run s = (.error e, s') := by
  rw [ExceptT.run_bind, StateT.run_bind, h]
  rfl

/-- How writing ends that finds the text `before` and is to add the code `x` to it: the code is
added, or the writing is refused and may have added a part of the code. -/
inductive Ends (holding : String → σ) (before : String) :
    Except Unsupported String → Except Unsupported Unit × σ → Prop
  | ok (code : String) : Ends holding before (.ok code) (.ok (), holding (before ++ code))
  | error (e : Unsupported) (part : String) :
      Ends holding before (.error e) (.error e, holding (before ++ part))

/-- Two pieces of code, one after the other. -/
def joined (x y : Except Unsupported String) : Except Unsupported String := do
  let code ← x
  let more ← y
  .ok (code ++ more)

theorem Ends.result_eq {text : σ → String} (htext : ∀ code, text (holding code) = code)
    {x : Except Unsupported String} {r : Except Unsupported Unit × σ}
    (h : Ends holding before x r) : result text r = joined (.ok before) x := by
  cases h with
  | ok code => exact congrArg Except.ok (htext (before ++ code))
  | error e part => rfl

/-- What is written in two steps is written one after the other, and a refusal in the second step
keeps what the first one wrote. -/
theorem Ends.append {x y : Except Unsupported String} {m n : Writing σ Unit}
    (h : Ends holding before x (m.run.run (holding before)))
    (h' : ∀ code, Ends holding (before ++ code) y (n.run.run (holding (before ++ code)))) :
    Ends holding before (joined x y) ((m >>= fun _ => n).run.run (holding before)) := by
  generalize hm : m.run.run (holding before) = r at h
  cases h with
  | error e part =>
    rw [run_bind_of_error hm]
    exact .error e part
  | ok code =>
    rw [run_bind_of_ok hm]
    have hn := h' code
    generalize n.run.run (holding (before ++ code)) = r at hn ⊢
    cases hn with
    | error e part =>
      rw [String.append_assoc]
      exact .error e (code ++ part)
    | ok more =>
      rw [String.append_assoc]
      exact .ok (code ++ more)

/-- Nothing is written. -/
theorem Ends.nil : Ends holding before (.ok "") (.ok (), holding before) := by
  have hends : Ends holding before (.ok "") (.ok (), holding (before ++ "")) := .ok ""
  rwa [String.append_empty] at hends

/-- The writing is refused before it starts. -/
theorem Ends.refused (e : Unsupported) :
    Ends holding before (.error e) (.error e, holding before) := by
  have hends : Ends holding before (.error e) (.error e, holding (before ++ "")) := .error e ""
  rwa [String.append_empty] at hends

end

/-! ## Expressions -/

theorem ends_emit (text before : String) : Ends id before (.ok text) ((emit text).run.run before) :=
  .ok text

/-- The characters of a literal are those of its text, one by one. -/
theorem ends_literalBody (text : List Char) (before : String) :
    Ends id before (.ok (String.ofList (literalBody text)))
      ((text.forM fun c => emit (String.ofList (literalChar c))).run.run before) := by
  induction text generalizing before with
  | nil => exact .nil
  | cons c text ih =>
    rw [literalBody, List.flatMap_cons, String.ofList_append]
    exact (ends_emit _ before).append fun code => ih (before ++ code)

theorem ends_emitLiteral (text before : String) :
    Ends id before (.ok (literal text)) ((emitLiteral text).run.run before) := by
  have hclosed := fun opened => (ends_literalBody text.toList opened).append fun body =>
    ends_emit "\"" (opened ++ body)
  rw [literal, String.append_assoc]
  exact (ends_emit "\"" before).append fun opened => hclosed (before ++ opened)

/-- An expression is added to a text as its code. -/
theorem ends_expr (e : Expr) (before : String) :
    Ends id before e.code (e.write.run.run before) := by
  induction e generalizing before with
  | bool value pos => exact ends_emit _ before
  | number text pos => exact ends_emit text before
  | string text pos => exact ends_emitLiteral text before
  | var name pos => exact ends_emit name.name before
  | call callee pos => exact ends_emit _ before
  | assign target value pos ih =>
    exact (ends_emit (target.name ++ " = ") before).append fun code => ih (before ++ code)
  | operation operator lhs rhs pos _ => exact .refused _

/-- An expression in a text of its own is its code. -/
theorem Expr.render_eq_code (e : Expr) : e.render = e.code := by
  unfold Expr.render
  rw [(ends_expr e "").result_eq fun _ => rfl]
  cases e.code with
  | ok code => exact congrArg Except.ok String.empty_append
  | error e => rfl

/-! ## Lines -/

/-- What is written at the given depth, behind some code, adds the code `x`. -/
def Writes (depth : Nat) (m : Writing Writer Unit) (x : Except Unsupported String) : Prop :=
  ∀ before, before ≠ "" → Ends (Writer.mk · depth) before x (m.run.run ⟨before, depth⟩)

theorem repeat_push_tab (depth : Nat) (code : String) :
    Nat.repeat (·.push '\t') depth code = code ++ String.ofList (List.replicate depth '\t') := by
  induction depth with
  | zero => exact String.append_empty.symm
  | succ depth ih =>
    rw [Nat.repeat, ih, List.replicate_succ']
    simp [← String.toList_inj]

/-- A line that is not the first one comes with the line break before it. -/
theorem writes_out (depth : Nat) (content : String) :
    Writes depth (out content) (.ok (line depth content)) := by
  intro before hbefore
  have hbreak : (if before.isEmpty then before else before.push '\n') = before ++ "\n" :=
    if_neg (by simpa using hbefore)
  have hout : (out content).run.run ⟨before, depth⟩ =
      (.ok (), ⟨before ++ line depth content, depth⟩) := by
    show (Except.ok (), Writer.mk (Nat.repeat (·.push '\t') depth
      (if before.isEmpty then before else before.push '\n') ++ content) depth) = _
    rw [hbreak, repeat_push_tab, line]
    simp only [String.append_assoc]
  rw [hout]
  exact .ok _

theorem writes_outLine (depth : Nat) : Writes depth outLine (.ok "\n") :=
  fun _ _ => .ok "\n"

theorem writes_pure (depth : Nat) : Writes depth (pure ()) (.ok "") := fun _ _ => .nil

/-- What is written in two steps at one depth is written one after the other. -/
theorem Writes.append {depth : Nat} {m n : Writing Writer Unit} {x y : Except Unsupported String}
    (h : Writes depth m x) (h' : Writes depth n y) :
    Writes depth (m >>= fun _ => n) (joined x y) := by
  intro before hbefore
  refine (h before hbefore).append fun code => h' (before ++ code) ?_
  intro hnil
  exact hbefore (String.append_eq_empty_iff.1 hnil).1

/-- What is written inside a block is written one step deeper. -/
theorem Writes.indented {depth : Nat} {m : Writing Writer Unit} {x : Except Unsupported String}
    (h : Writes (depth + 1) m x) : Writes depth (indented m) x := by
  intro before hbefore
  have hends := h before hbefore
  change Ends _ before x ((m.run.run ⟨before, depth + 1⟩).1,
    { (m.run.run ⟨before, depth + 1⟩).2 with
      depth := (m.run.run ⟨before, depth + 1⟩).2.depth - 1 })
  generalize m.run.run ⟨before, depth + 1⟩ = r at hends ⊢
  cases hends with
  | ok code => exact .ok code
  | error e part => exact .error e part

/-- An expression is written to a text of its own before the line it stands in. -/
theorem writes_render {depth : Nat} {e : Expr} {m : String → Writing Writer Unit}
    {x : String → Except Unsupported String} (h : ∀ text, Writes depth (m text) (x text)) :
    Writes depth (liftExcept e.render >>= m) (e.code >>= x) := by
  intro before hbefore
  rw [Expr.render_eq_code]
  cases e.code with
  | ok text => exact h text before hbefore
  | error err => exact .refused err

/-! ## Statements, functions and programs -/

/-- Code between a first and a last piece that are written without fail. -/
theorem joined_between (first last : String) (x : Except Unsupported String) :
    joined (.ok first) (joined x (.ok last)) = x >>= fun code => .ok (first ++ code ++ last) := by
  cases x with
  | ok code => exact congrArg Except.ok String.append_assoc.symm
  | error e => rfl

mutual

/-- A statement is written as its code at every depth. -/
theorem Stmt.writes (depth : Nat) : (s : Stmt) → Writes depth s.write (s.code depth)
  | .branch condition body => by
    refine writes_render fun text => ?_
    rw [← joined_between]
    refine (writes_out depth _).append ?_
    exact (Stmt.writesAll (depth + 1) body).indented.append (writes_out depth _)
  | .print value => writes_render fun text => writes_out depth _
  | .ret value => writes_render fun text => writes_out depth _
  | .eval value => writes_render fun text => writes_out depth _

theorem Stmt.writesAll (depth : Nat) : (stmts : List Stmt) →
    Writes depth (Stmt.writeAll stmts) (Stmt.codeAll depth stmts)
  | [] => writes_pure depth
  | stmt :: rest => (Stmt.writes depth stmt).append (Stmt.writesAll depth rest)

end

theorem Function.writes (f : Function) : Writes 1 f.write f.code := by
  have hbody := (Stmt.writesAll 2 f.body).indented.append
    ((writes_out 1 "\x7d").append (writes_outLine 1))
  have hcode : f.code = joined (.ok (line 1 ("function " ++ f.name.name ++ "() \x7b")))
      (joined (Stmt.codeAll 2 f.body) (.ok (line 1 "\x7d" ++ "\n"))) := by
    rw [joined_between]
    unfold Function.code
    simp only [String.append_assoc]
  rw [hcode]
  exact (writes_out 1 _).append hbody

theorem writes_functions (fs : List Function) :
    Writes 1 (fs.forM Function.write)
      (fs.mapM Function.code >>= fun codes => .ok (String.join codes)) := by
  induction fs with
  | nil => exact writes_pure 1
  | cons f fs ih =>
    have hcodes : ((f :: fs).mapM Function.code >>= fun codes => .ok (String.join codes)) =
        joined f.code (fs.mapM Function.code >>= fun codes => .ok (String.join codes)) := by
      rw [List.mapM_cons]
      simp only [joined, bind_assoc, pure_bind, Parse.ok_bind, String.join_cons]
    rw [hcodes]
    exact f.writes.append ih

theorem writes_entryPoint : Writes 1 Writing.entryPoint (.ok JavaScript.entryPoint) := by
  unfold JavaScript.entryPoint
  rw [String.append_assoc, String.append_assoc, String.append_assoc]
  have hexit := (writes_out 2 "process.exit(mainReturn);").indented.append (writes_out 1 "\x7d")
  have htest := (writes_out 1 "if (mainReturn) \x7b").append hexit
  exact (writes_out 1 "const mainReturn = main();").append ((writes_outLine 1).append htest)

/-- What stands behind the first line of a program. -/
theorem writes_program (p : Program) :
    Writes 0 (indented (do
        p.functions.forM Function.write
        if p.hasMain then Writing.entryPoint) >>= fun _ => out "\x7d)();")
      (joined (joined (p.functions.mapM Function.code >>= fun codes => .ok (String.join codes))
        (.ok (if p.hasMain then JavaScript.entryPoint else ""))) (.ok (line 0 "\x7d)();"))) := by
  have hmain : Writes 1 (if p.hasMain then Writing.entryPoint else pure ())
      (.ok (if p.hasMain then JavaScript.entryPoint else "")) := by
    cases p.hasMain with
    | true => exact writes_entryPoint
    | false => exact writes_pure 1
  exact ((writes_functions p.functions).append hmain).indented.append (writes_out 0 _)

/-- **A program is written as its code.** The writer ends with the code of the program, or it is
refused for the operation that the code is refused for. -/
theorem Program.generate_eq_code (p : Program) : p.generate = p.code := by
  have hends := writes_program p "(function () \x7b" (by decide)
  -- the first line is the one that has no line break before it
  have hfirst : (out "(function () \x7b").run.run ⟨"", 0⟩ =
      (.ok (), ⟨"(function () \x7b", 0⟩) := rfl
  unfold Program.generate Program.write
  rw [run_bind_of_ok hfirst, hends.result_eq fun _ => rfl]
  unfold Program.code
  cases p.functions.mapM Function.code with
  | ok codes => exact congrArg Except.ok (by simp only [String.append_assoc])
  | error e => rfl

end Tabscript
