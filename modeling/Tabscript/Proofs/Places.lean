import Tabscript.Proofs.RoundTrip
import Tabscript.Proofs.ViablePrefix

/-!
# The positions of trees and errors

A position in a tree or in an error is worth something only if the source has there what the
position is about. The readers never compute a position, they copy it from the first token of what
they read. So the nodes of a tree are met one after the other along the tokens that derive it
(`Meets`), each at a token that starts with the node's own text, and the lexer's account of its
tokens turns this into an account of the source.

* `Node` is what has a position, and `Program.nodes` lists the nodes of a program in preorder.
* `ReadsAt` says that a text stands at a position of a source.
* `meets_program` is about derivations, `readsAt_of_parse_lex` about sources.
-/

namespace Tabscript

open Grammar

/-! ## Nodes -/

/-- What has a place of its own in a program. -/
inductive Node where
  | name (name : Ident)
  | expr (e : Expr)

/-- The name that an expression starts with, if it starts with one. -/
def Expr.name? : Expr → Option Ident
  | bool _ _ | number _ _ | string _ _ => none
  | var name _ | call name _ | assign name _ _ | operation _ name _ _ => some name

/-- The text that an expression starts with: its name, or else the whole of it. -/
def Expr.ownText : Expr → String
  | bool value _ => if value then "true" else "false"
  | number text _ => text
  | string text _ => "\"" ++ text ++ "\""
  | var name _ | call name _ | assign name _ _ | operation _ name _ _ => name.name

namespace Node

/-- The place of a node. -/
def pos : Node → Position
  | name i => i.pos
  | expr e => e.pos

/-- The text that a node starts with. -/
def ownText : Node → String
  | name i => i.name
  | expr e => e.ownText

/-- The name that a node is or starts with, if there is one. -/
def name? : Node → Option Ident
  | name i => some i
  | expr e => e.name?

end Node

/-- The nodes of a function: its name, then the expressions of its body. -/
def Function.nodes (f : Function) : List Node :=
  .name f.name :: (Stmt.exprsAll f.body).map .expr

/-- The nodes of a program, function by function. -/
def Program.nodes (p : Program) : List Node := p.functions.flatMap Function.nodes

theorem exprs_sublist_nodes (p : Program) : (p.exprs.map Node.expr).Sublist p.nodes := by
  rw [Program.exprs, List.map_flatMap]
  exact List.Sublist.flatMap_right p.functions fun f _ => List.sublist_cons_self _ _

/-! ## Nodes along tokens -/

/-- The node starts at the token `t`, which the tokens `after` follow. -/
structure Node.StartsAt (n : Node) (t : Token) (after : List Token) : Prop where
  /-- The place of the node is that of the token. -/
  pos : n.pos = t.pos
  /-- So is the place of its name. -/
  name : ∀ i ∈ n.name?, i.pos = t.pos
  /-- The text of the node stands there. -/
  text : n.ownText.toList <+: textOf (t :: after)

/-- The nodes are met one after the other along the tokens. -/
inductive Meets : List Token → List Node → Prop
  | nil (ts : List Token) : Meets ts []
  /-- A token starts no node. -/
  | skip (t : Token) {ts : List Token} {ns : List Node} (rest : Meets ts ns) : Meets (t :: ts) ns
  /-- A token starts a node. -/
  | node {t : Token} {ts : List Token} {n : Node} {ns : List Node} (starts : n.StartsAt t ts)
      (rest : Meets ts ns) : Meets (t :: ts) (n :: ns)

namespace Meets

variable {ts us : List Token} {ns ms : List Node}

theorem skips (before : List Token) (h : Meets ts ns) : Meets (before ++ ts) ns := by
  induction before with
  | nil => exact h
  | cons t before ih => exact .skip t ih

/-- Two runs of tokens meet the nodes of both, in order. -/
theorem append (h : Meets ts ns) (h' : Meets us ms) : Meets (ts ++ us) (ns ++ ms) := by
  induction h with
  | nil ts => exact h'.skips ts
  | skip t _ ih => exact .skip t ih
  | @node t ts n ns starts _ ih =>
    have htext : textOf (t :: ts) <+: textOf (t :: (ts ++ us)) :=
      ⟨textOf us, (textOf_append (t :: ts) us).symm⟩
    exact .node ⟨starts.pos, starts.name, starts.text.trans htext⟩ ih

theorem append_skip (h : Meets ts ns) (after : List Token) : Meets (ts ++ after) ns := by
  simpa using h.append (.nil after)

/-- The places of the nodes are among those of the tokens, in the same order. -/
theorem sublist_pos (h : Meets ts ns) : (ns.map Node.pos).Sublist (ts.map Token.pos) := by
  induction h with
  | nil ts => exact List.nil_sublist _
  | skip t _ ih => exact ih.cons t.pos
  | node starts _ ih =>
    rw [List.map_cons, List.map_cons, starts.pos]
    exact ih.cons_cons _

/-- Every node that is met starts at some token. -/
theorem exists_startsAt (h : Meets ts ns) {n : Node} (hn : n ∈ ns) :
    ∃ before t after, ts = before ++ t :: after ∧ n.StartsAt t after := by
  induction h with
  | nil ts => exact absurd hn List.not_mem_nil
  | skip t _ ih =>
    obtain ⟨before, u, after, rfl, hu⟩ := ih hn
    exact ⟨t :: before, u, after, rfl, hu⟩
  | @node t ts _ _ starts _ ih =>
    rcases List.mem_cons.1 hn with rfl | hn
    · exact ⟨[], t, ts, rfl, starts⟩
    · obtain ⟨before, u, after, rfl, hu⟩ := ih hn
      exact ⟨t :: before, u, after, rfl, hu⟩

end Meets

/-! ## Derivations -/

/-- A node whose text is that of a token. -/
theorem startsAt_of_value {n : Node} {t : Token} (after : List Token) (pos : n.pos = t.pos)
    (name : ∀ i ∈ n.name?, i.pos = t.pos) (text : n.ownText = t.value) : n.StartsAt t after := by
  refine ⟨pos, name, ?_⟩
  rw [text, textOf_cons]
  exact List.prefix_append _ _

/-- A node that starts with the name that a token is. -/
theorem startsAt_of_name {n : Node} {t : Token} (after : List Token) (pos : n.pos = t.pos)
    (name : n.name? = some (nameOf t)) (text : n.ownText = t.value) : n.StartsAt t after := by
  refine startsAt_of_value after pos (fun i hi => ?_) text
  rw [name, Option.mem_some_iff] at hi
  rw [← hi]
  rfl

/-- A string starts at its opening quote and covers the tokens up to the closing one. -/
theorem startsAt_string {opening closing : Token} (inner : List Token) (hopening : Fits opening)
    (opens : opening.kind = .string) (hclosing : Fits closing) (closes : closing.kind = .string) :
    (Node.expr (.string (String.join (inner.map Token.value)) opening.pos)).StartsAt opening
      (inner ++ [closing]) := by
  refine ⟨rfl, nofun, ?_⟩
  rw [Fits, opens] at hopening
  rw [Fits, closes] at hclosing
  have hquote : breakKind? '"' = some .string := rfl
  have htext : textOf (opening :: (inner ++ [closing])) = '"' :: (textOf inner ++ ['"']) := by
    rw [textOf_cons, textOf_append, textOf_cons, textOf_nil, List.append_nil,
      eq_of_isKind hopening hquote, eq_of_isKind hclosing hquote, List.singleton_append]
  rw [htext, ← toList_join_value]
  simp [Node.ownText, Expr.ownText]

/-- The tokens of an expression meet its nodes, from the left to the right. -/
theorem meets_expr {ts : List Token} {e : Expr} (h : IsExpr ts e) (fits : ∀ t ∈ ts, Fits t) :
    Meets ts (e.nodes.map .expr) := by
  induction h with
  | number kind => exact .node (startsAt_of_value [] rfl nofun rfl) (.nil [])
  | @string opening closing inner opens inside closes =>
    have hstarts := startsAt_string inner (fits opening (by simp)) opens
      (fits closing (by simp)) closes
    exact .node hstarts (.nil _)
  | bool kind word => exact .node (startsAt_of_value [] rfl nofun word.symm) (.nil [])
  | var name => exact .node (startsAt_of_name [] rfl rfl rfl) (.nil [])
  | @call t parens name kinds => exact .node (startsAt_of_name parens rfl rfl rfl) (.nil parens)
  | @assign t before symbol after ts value name kinds equals _ ih =>
    have hvalue := ih fun t ht => fits t (by simp [ht])
    exact .node (startsAt_of_name _ rfl rfl rfl) (hvalue.skips [before, symbol, after])
  | @operation t before symbol after ts value name kinds differs _ ih =>
    have hvalue := ih fun t ht => fits t (by simp [ht])
    exact .node (startsAt_of_name _ rfl rfl rfl) (hvalue.skips [before, symbol, after])

theorem meets_block {depth : Nat} {ts : List Token} {stmts : List Stmt}
    (h : IsBlock depth ts stmts) (fits : ∀ t ∈ ts, Fits t) :
    Meets ts ((Stmt.exprsAll stmts).map .expr) := by
  revert fits
  -- Statements and blocks together, the tokens of a part being among those of the whole.
  refine @IsBlock.rec (fun _ ts s _ => (∀ t ∈ ts, Fits t) → Meets ts (s.exprs.map .expr))
    (fun _ ts stmts _ => (∀ t ∈ ts, Fits t) → Meets ts ((Stmt.exprsAll stmts).map .expr))
    ?branch ?print ?ret ?eval ?close ?stmt depth ts stmts h
  case branch =>
    intro depth word before condition after body e stmts kind value opens test closes block ih fits
    have htest := meets_expr test fun t ht => fits t (by simp [ht])
    have hbody := ih fun t ht => fits t (by simp [ht])
    rw [Stmt.exprs, List.map_append]
    exact .skip word (((htest.skips before).append_skip after).append hbody)
  case print =>
    intro depth word space ts e kinds value test fits
    exact (meets_expr test fun t ht => fits t (by simp [ht])).skips [word, space]
  case ret =>
    intro depth word space ts e kinds value test fits
    exact (meets_expr test fun t ht => fits t (by simp [ht])).skips [word, space]
  case eval =>
    intro depth word ts e kind value test fits
    exact meets_expr test fits
  case close =>
    intro depth lines tabs brace empty margin kind fits
    exact .nil _
  case stmt =>
    intro depth lines tabs ts more line first rest empty margin head kind tail ih ih' fits
    have hfirst := ih fun t ht => fits t (by simp [ht])
    have hrest := ih' fun t ht => fits t (by simp [ht])
    rw [Stmt.exprsAll, List.map_append]
    exact (hfirst.skips (lines ++ tabs)).append (.skip line hrest)

/-- The nodes of a program are met along the tokens that derive it, if the tokens are such as the
lexer makes them. -/
theorem meets_program {ts : List Token} {fs : List Function} (h : IsProgram ts fs)
    (fits : ∀ t ∈ ts, Fits t) : Meets ts (fs.flatMap Function.nodes) := by
  induction h with
  | nil => exact .nil []
  | @blank line ts fs kind _ ih => exact .skip line (ih fun t ht => fits t (by simp [ht]))
  | @comment mark line inner ts fs kind inside ends _ ih =>
    have hrest := ih fun t ht => fits t (by simp [ht])
    exact .skip mark ((Meets.skip line hrest).skips inner)
  | @function name line header block ts body fs kind opens inside ends _ ih =>
    have hbody := meets_block inside fun t ht => fits t (by simp [ht])
    have hrest := ih fun t ht => fits t (by simp [ht])
    have hname : (Node.name (nameOf name)).StartsAt name (header ++ block ++ line :: ts) :=
      startsAt_of_name _ rfl rfl rfl
    exact .node hname ((hbody.skips header).append (.skip line hrest))

/-! ## Sources -/

/-- At the position the source goes on with the text. What stands before it is determined by the
position: of two beginnings of a source the longer one leads to a later position. -/
def ReadsAt (source : String) (pos : Position) (text : String) : Prop :=
  ∃ before, before ++ text.toList <+: source.toList ∧
    pos.line.toNat = Position.lineAfter before ∧ pos.column.toNat = Position.columnAfter before

/-- What the tokens cover from some token on can be read in the source at that token's place. -/
theorem readsAt_of_lex {source : String} (short : source.length < 2 ^ 32 - 1)
    {before after : List Token} {t : Token} (h : lex source = before ++ t :: after) {text : String}
    (htext : text.toList <+: textOf (t :: after)) : ReadsAt source t.pos text := by
  obtain ⟨hcovers, -, -, -, hplaces⟩ := lex_eq_iff.1 h
  have hlt := (length_textOf_le hcovers).trans_lt short
  refine ⟨textOf before, ?_, (eq_after_start_iff hlt).1 (hplaces before t after rfl)⟩
  rw [← hcovers, textOf_append]
  exact (List.prefix_append_right_inj _).2 htext

/-- A token that is blamed is one of those that were read. -/
theorem exists_append_of_unexpected {ts : List Token} {t : Token} {expected : List TokenKind}
    (h : Program.parse ts = .error (.unexpected t expected)) :
    ∃ before after, ts = before ++ t :: after := by
  cases hrun : ts.foldlM Machine.State.step (.top []) with
  | ok s =>
    rcases accepted_or_unfinished_of_foldlM hrun with ⟨p, hp⟩ | ⟨⟨expected, hend⟩, -⟩
    · cases hp.symm.trans h
    · cases hend.symm.trans h
  | error e =>
    obtain ⟨before, u, after, _, hu, hts, -⟩ := isRefused_of_foldlM hrun
    cases hu.symm.trans h
    exact ⟨before, after, hts⟩

/-- **Positions are faithful to the source.** At the position of every node of a program the source
goes on with the text that the node starts with, the name inside a node stands where the node does,
and positions grow from each node to the next. At the position of a syntax error the source goes on
with the text of the token that is blamed. -/
theorem readsAt_of_parse_lex {source : String} (short : source.length < 2 ^ 32 - 1) :
    (∀ p, Program.parse (lex source) = .ok p →
        (∀ n ∈ p.nodes, ReadsAt source n.pos n.ownText ∧ ∀ i ∈ n.name?, i.pos = n.pos) ∧
          (p.nodes.map Node.pos).Pairwise Position.Before) ∧
      ∀ t expected, Program.parse (lex source) = .error (.unexpected t expected) →
        ReadsAt source t.pos t.value := by
  constructor
  · intro p h
    obtain ⟨fs, hfs, h⟩ := Parse.bind_eq_ok_iff.1 h
    cases h
    have hmeets := meets_program (Parse.isProgram_of_functions hfs) fun t => fits_of_mem_lex
    constructor
    · intro n hn
      obtain ⟨before, t, after, hlex, hstarts⟩ := hmeets.exists_startsAt hn
      rw [hstarts.pos]
      exact ⟨readsAt_of_lex short hlex hstarts.text, hstarts.name⟩
    · have hpos : ((lex source).map Token.pos).Pairwise Position.Before :=
        List.pairwise_map.2 (pairwise_before_lex short)
      exact hpos.sublist hmeets.sublist_pos
  · intro t expected h
    obtain ⟨before, after, hlex⟩ := exists_append_of_unexpected h
    exact readsAt_of_lex short hlex (List.prefix_append t.text (textOf after))

/-- A comment, and a string over two lines, with characters of several bytes. -/
def sampleSource : String := "#é\nf() \x7b\n\tx = \"ä\nö\"\n\tprint true\n\x7d\n"

/-- The tree of the sample is found where it stands, and so is the token that is blamed when a
space follows the string. -/
theorem readsAt_sampleSource :
    sampleSource.length < 2 ^ 32 - 1 ∧
      Program.parse (lex sampleSource) = .ok
        ⟨[⟨⟨"f", ⟨2, 1⟩⟩, [.eval (.assign ⟨"x", ⟨3, 2⟩⟩ (.string "ä\nö" ⟨3, 6⟩) ⟨3, 2⟩),
          .print (.bool true ⟨5, 8⟩)]⟩]⟩ ∧
      ReadsAt sampleSource ⟨3, 6⟩ "\"ä\nö\"" ∧ ReadsAt sampleSource ⟨5, 8⟩ "true" ∧
      Program.parse (lex "f() \x7b\n\tprint \"\n\" \n\x7d\n") =
        .error (.unexpected ⟨.space, " ", ⟨3, 2⟩⟩ [.line]) ∧
      ReadsAt "f() \x7b\n\tprint \"\n\" \n\x7d\n" ⟨3, 2⟩ " " := by
  have hshort : sampleSource.length < 2 ^ 32 - 1 := by decide
  have hparse : Program.parse (lex sampleSource) = .ok
      ⟨[⟨⟨"f", ⟨2, 1⟩⟩, [.eval (.assign ⟨"x", ⟨3, 2⟩⟩ (.string "ä\nö" ⟨3, 6⟩) ⟨3, 2⟩),
        .print (.bool true ⟨5, 8⟩)]⟩]⟩ := by decide +kernel
  have hrefused : Program.parse (lex "f() \x7b\n\tprint \"\n\" \n\x7d\n") =
      .error (.unexpected ⟨.space, " ", ⟨3, 2⟩⟩ [.line]) := by decide +kernel
  obtain ⟨hnodes, -⟩ := (readsAt_of_parse_lex hshort).1 _ hparse
  have hstring := hnodes (.expr (.string "ä\nö" ⟨3, 6⟩)) (by simp [Program.nodes, Function.nodes,
    Stmt.exprsAll, Stmt.exprs, Expr.nodes])
  have htrue := hnodes (.expr (.bool true ⟨5, 8⟩)) (by simp [Program.nodes, Function.nodes,
    Stmt.exprsAll, Stmt.exprs, Expr.nodes])
  exact ⟨hshort, hparse, hstring.1, htrue.1, hrefused,
    (readsAt_of_parse_lex (by decide)).2 _ _ hrefused⟩

end Tabscript
