import Tabscript.Proofs.Places
import Tabscript.Proofs.Quoting
import Tabscript.Tree.Dump

/-!
# The dump of a tree determines the tree

A dump is flat text in which only the margins tell what belongs to what. It is read back in two
steps. First it falls into lines with a margin and a content (`eq_of_dumpOf_eq`), since no content
holds a line break or starts with a space. Then the contents say which nodes there are, and the
margins where a block ends: what follows a block stands less deep than the block
(`Stmt.entriesAll_append_inj`), and a conditional statement without a body is followed by nothing
deeper than itself.

The places of names are not written. They are those of the expressions that start with the names,
in every tree that comes from a source.

* `Entry` is a line of a dump, and `Program.entries` lists the entries of a program.
* `Expr.IsFaithful` is what a source makes sure of, node by node.
* `program_eq_of_dump_eq` is about programs read from sources.
-/

namespace Tabscript

open Text

/-! ## Lines with margins -/

/-- A line of a dump. -/
structure Entry where
  /-- How many steps deep it stands. -/
  level : Nat
  /-- What stands behind its margin. -/
  content : String

namespace Entry

/-- The whole line. -/
def line (e : Entry) : String := String.ofList (List.replicate (2 * e.level) ' ') ++ e.content

/-- Margin and content can be told apart, and the content stands on one line. -/
structure IsSound (e : Entry) : Prop where
  /-- The content starts where the margin ends. -/
  start : ∀ c ∈ e.content.toList.head?, c ≠ ' '
  /-- The content has no line break. -/
  newline : '\n' ∉ e.content.toList

theorem toList_line (e : Entry) :
    e.line.toList = List.replicate (2 * e.level) ' ' ++ e.content.toList := by
  rw [line, String.toList_append, String.toList_ofList]

/-- The blanks at the start of a line are its margin. -/
theorem takeWhile_line {e : Entry} (h : e.IsSound) :
    e.line.toList.takeWhile (· = ' ') = List.replicate (2 * e.level) ' ' := by
  have hmargin : ∀ c ∈ List.replicate (2 * e.level) ' ', decide (c = ' ') = true := by
    intro c hc
    exact decide_eq_true (List.eq_of_mem_replicate hc)
  have hcontent : e.content.toList.takeWhile (· = ' ') = [] := by
    cases hlist : e.content.toList with
    | nil => rfl
    | cons c rest =>
      have hc : c ≠ ' ' := h.start c (by rw [hlist]; rfl)
      exact List.takeWhile_cons_of_neg (by simpa using hc)
  rw [toList_line, List.takeWhile_append_of_pos hmargin, hcontent, List.append_nil]

/-- A line determines its entry. -/
theorem line_injective {e e' : Entry} (h : e.IsSound) (h' : e'.IsSound) (heq : e.line = e'.line) :
    e = e' := by
  have hmargin := takeWhile_line h
  rw [heq, takeWhile_line h'] at hmargin
  have hlevel : e.level = e'.level := by
    have hlength := congrArg List.length hmargin
    rw [List.length_replicate, List.length_replicate] at hlength
    omega
  have hlist := congrArg String.toList heq
  rw [toList_line, toList_line, hlevel] at hlist
  rw [Entry.mk.injEq]
  exact ⟨hlevel, String.toList_inj.1 (List.append_cancel_left hlist)⟩

theorem newline_notMem_line {e : Entry} (h : e.IsSound) : '\n' ∉ e.line.toList := by
  rw [toList_line, List.mem_append, not_or]
  exact ⟨fun hmem => absurd (List.eq_of_mem_replicate hmem) (by decide), h.newline⟩

end Entry

/-- The text that has the entries as its lines. -/
def dumpOf (es : List Entry) : String := String.join ((es.map Entry.line).map (· ++ "\n"))

@[simp] theorem dumpOf_nil : dumpOf [] = "" := rfl

@[simp] theorem dumpOf_cons (level : Nat) (content : String) (es : List Entry) :
    dumpOf (⟨level, content⟩ :: es) = dumpLine level content ++ dumpOf es := by
  rw [dumpOf, List.map_cons, List.map_cons, String.join_cons, dumpOf]
  rfl

@[simp] theorem dumpOf_append (es es' : List Entry) :
    dumpOf (es ++ es') = dumpOf es ++ dumpOf es' := by
  simp [dumpOf]

/-- A dump falls into its lines in one way. -/
theorem eq_of_dumpOf_eq {es es' : List Entry} (h : ∀ e ∈ es, e.IsSound)
    (h' : ∀ e ∈ es', e.IsSound) (heq : dumpOf es = dumpOf es') : es = es' := by
  have hlines := eq_of_join_lines_eq
    (List.forall_mem_map.2 fun e he => Entry.newline_notMem_line (h e he))
    (List.forall_mem_map.2 fun e he => Entry.newline_notMem_line (h' e he)) heq
  clear heq
  induction es generalizing es' with
  | nil => exact (List.map_eq_nil_iff.1 hlines.symm).symm
  | cons e es ih =>
    cases es' with
    | nil => cases hlines
    | cons e' es' =>
      obtain ⟨hline, hrest⟩ := List.cons.inj hlines
      rw [List.forall_mem_cons] at h h'
      rw [Entry.line_injective h.1 h'.1 hline, ih h.2 h'.2 hrest]

/-! ## Contents -/

/-- A tag, a detail and a place. -/
def heading (tag detail : String) (pos : Position) : String := withPlace (tag ++ " " ++ detail) pos

theorem toList_heading (tag detail : String) (pos : Position) :
    (heading tag detail pos).toList = tag.toList ++ ' ' ::
      (detail.toList ++ ' ' :: '(' :: (pos.text.toList ++ [')'])) := by
  simp [heading, withPlace]

/-- The tag ends with the first space, and the place starts behind the last one. -/
theorem heading_inj {tag tag' detail detail' : String} {pos pos' : Position}
    (h : IsWord tag.toList) (h' : IsWord tag'.toList)
    (heq : heading tag detail pos = heading tag' detail' pos') :
    tag = tag' ∧ detail = detail' ∧ pos = pos' := by
  have hspace : ∀ pos : Position, ' ' ∉ '(' :: (pos.text.toList ++ [')']) := by
    intro pos
    simpa using pos.notMem_text (by decide) (by decide)
  have hlist := congrArg String.toList heq
  rw [toList_heading, toList_heading] at hlist
  obtain ⟨htag, hrest⟩ := append_cons_inj_of_notMem_left (h.notMem (by decide))
    (h'.notMem (by decide)) hlist
  obtain ⟨hdetail, hplace⟩ := append_cons_inj_of_notMem_right (hspace pos) (hspace pos') hrest
  have htext := List.append_cancel_right (List.cons.inj hplace).2
  exact ⟨String.toList_inj.1 htag, String.toList_inj.1 hdetail,
    Position.text_injective (String.toList_inj.1 htext)⟩

theorem isSound_of_isWord (level : Nat) {content : String} (h : IsWord content.toList) :
    (⟨level, content⟩ : Entry).IsSound := by
  refine ⟨fun c hc => ?_, h.notMem (by decide)⟩
  rintro rfl
  exact h.notMem (by decide) (List.mem_of_mem_head? hc)

/-- A heading starts with a word and stays on one line. -/
theorem isSound_heading (level : Nat) {tag detail : String} (pos : Position)
    (h : IsWord tag.toList) (hdetail : '\n' ∉ detail.toList) :
    (⟨level, heading tag detail pos⟩ : Entry).IsSound := by
  obtain ⟨c, rest, hcons⟩ := List.exists_cons_of_ne_nil h.1
  constructor
  · intro d hd
    refine (isSound_of_isWord level h).start d ?_
    rw [toList_heading, hcons] at hd
    rwa [hcons]
  · have htag : '\n' ∉ tag.toList := h.notMem (by decide)
    have hpos : '\n' ∉ pos.text.toList := pos.notMem_text (by decide) (by decide)
    rw [toList_heading]
    simp [htag, hdetail, hpos]

theorem isWord_of_isOperand {name : String} (h : isOperand name = true) : IsWord name.toList := by
  rw [isOperand, Bool.and_eq_true] at h
  exact (isWord_of_isName h.1).1

/-! ## Expressions -/

namespace Expr

/-- The word that says what a node is. -/
def tag : Expr → String
  | bool _ _ => "bool"
  | number _ _ => "number"
  | string _ _ => "string"
  | var _ _ => "variable"
  | call _ _ => "call"
  | assign _ _ _ => "assignment"
  | operation _ _ _ _ => "operation"

/-- The expression to the right of a symbol, if there is one. -/
def operand? : Expr → Option Expr
  | assign _ value _ => some value
  | operation _ _ rhs _ => some rhs
  | _ => none

/-- Expressions are built to the right, operand by operand. -/
theorem operand_induction {motive : Expr → Prop} (leaf : ∀ e, e.operand? = none → motive e)
    (step : ∀ e value, e.operand? = some value → motive value → motive e) (e : Expr) :
    motive e := by
  induction e with
  | assign target value pos ih => exact step _ value rfl ih
  | operation operator lhs rhs pos ih => exact step _ rhs rfl ih
  | _ => exact leaf _ rfl

theorem isWord_tag (e : Expr) : IsWord e.tag.toList := by
  have htags : ∀ tag ∈ ["bool", "number", "string", "variable", "call", "assignment", "operation"],
      IsWord tag.toList := by decide
  exact htags _ (by cases e <;> simp [tag])

/-- The tag of an expression says whether another expression follows. -/
theorem isSome_operand?_eq (e : Expr) :
    e.operand?.isSome = decide (e.tag ∈ ["assignment", "operation"]) := by
  cases e <;> simp [operand?, tag]

theorem self_mem_nodes (e : Expr) : e ∈ e.nodes := by
  cases e <;> exact List.mem_cons_self

theorem nodes_subset_of_operand? {e value : Expr} (h : e.operand? = some value) :
    value.nodes ⊆ e.nodes := by
  cases e with
  | assign target value' pos =>
    cases h
    exact List.subset_cons_self _ _
  | operation operator lhs rhs pos =>
    cases h
    exact List.subset_cons_self _ _
  | _ => cases h

/-- The node is such as a source has it: well formed, and in the place of the name that it starts
with. -/
structure IsFaithful (e : Expr) : Prop where
  /-- The names and texts are such as the lexer makes them. -/
  wellFormed : e.wellFormed = true
  /-- The name stands where the node does. -/
  place : ∀ i ∈ e.name?, i.pos = e.pos

variable (style : Escaping)

/-- What is written of a node beside its tag and its place. -/
def detail : Expr → String
  | bool value _ => if value then "true" else "false"
  | number text _ => text
  | string text _ => style.quote text
  | var name _ | call name _ | assign name _ _ => name.name
  | operation operator lhs _ _ => lhs.name ++ " " ++ operator

/-- The entries of an expression, the first of them `level` steps deep. -/
def entries (level : Nat) : Expr → List Entry
  | assign target value pos =>
    ⟨level, heading "assignment" target.name pos⟩ :: value.entries (level + 1)
  | operation operator lhs rhs pos =>
    ⟨level, heading "operation" (lhs.name ++ " " ++ operator) pos⟩ :: rhs.entries (level + 1)
  | e => [⟨level, heading e.tag (e.detail style) e.pos⟩]

theorem entries_eq (level : Nat) (e : Expr) :
    e.entries style level = ⟨level, heading e.tag (e.detail style) e.pos⟩ ::
      e.operand?.elim [] fun value => value.entries style (level + 1) := by
  cases e <;> rfl

theorem dumpWith_eq (level : Nat) (e : Expr) :
    e.dumpWith style level = dumpOf (e.entries style level) := by
  induction e generalizing level with
  | assign target value pos ih =>
    rw [dumpWith, entries, dumpOf_cons, ih]
    rfl
  | operation operator lhs rhs pos ih =>
    rw [dumpWith, entries, dumpOf_cons, ih]
    simp only [heading, ← String.append_assoc]
    rfl
  | _ =>
    rw [dumpWith, entries, dumpOf_cons, dumpOf_nil, String.append_empty]
    · rfl
    · nofun
    · nofun

theorem newline_notMem_detail {e : Expr} (h : e.wellFormed = true) :
    '\n' ∉ (e.detail style).toList := by
  have hname : ∀ {name : String}, isOperand name = true → '\n' ∉ name.toList :=
    fun h => (isWord_of_isOperand h).notMem (by decide)
  cases e with
  | bool value pos => cases value <;> simp [detail]
  | number text pos => exact (isWord_of_isNumber h).1.notMem (by decide)
  | string text pos => exact style.newline_notMem_quote text
  | var name pos => exact hname h
  | call callee pos => exact hname h
  | assign target value pos =>
    rw [Expr.wellFormed, Bool.and_eq_true] at h
    exact hname h.1
  | operation operator lhs rhs pos =>
    rw [Expr.wellFormed, Bool.and_eq_true, Bool.and_eq_true] at h
    obtain ⟨c, hc, -, hkind, -⟩ := exists_of_isOperator h.1.1
    have hoperator : '\n' ∉ operator.toList := by
      rw [hc, List.mem_singleton]
      rintro rfl
      cases hkind
    simpa [detail] using ⟨hname h.1.2, hoperator⟩

theorem isSound_of_mem_entries {e : Expr} (h : ∀ n ∈ e.nodes, n.IsFaithful) {level : Nat}
    {entry : Entry} (hentry : entry ∈ e.entries style level) : entry.IsSound := by
  induction e using operand_induction generalizing level with
  | leaf e hleaf =>
    rw [entries_eq, hleaf, Option.elim_none, List.mem_singleton] at hentry
    rw [hentry]
    exact isSound_heading level e.pos e.isWord_tag
      (newline_notMem_detail style (h e e.self_mem_nodes).wellFormed)
  | step e value hvalue ih =>
    rw [entries_eq, hvalue, Option.elim_some, List.mem_cons] at hentry
    rcases hentry with rfl | hentry
    · exact isSound_heading level e.pos e.isWord_tag
        (newline_notMem_detail style (h e e.self_mem_nodes).wellFormed)
    · exact ih (fun n hn => h n (nodes_subset_of_operand? hvalue hn)) hentry

variable {style}

/-- Names of nodes in one place are equal if they are spelled alike. -/
theorem IsFaithful.name_eq {e e' : Expr} (h : e.IsFaithful) (h' : e'.IsFaithful)
    (hpos : e.pos = e'.pos) {i i' : Ident} (hi : i ∈ e.name?) (hi' : i' ∈ e'.name?)
    (hname : i.name = i'.name) : i = i' := by
  rw [Ident.mk.injEq]
  exact ⟨hname, (h.place i hi).trans (hpos.trans (h'.place i' hi').symm)⟩

theorem IsFaithful.space_notMem_lhs {operator : String} {lhs : Ident} {rhs : Expr} {pos : Position}
    (h : (operation operator lhs rhs pos).IsFaithful) : ' ' ∉ lhs.name.toList := by
  have hwell := h.wellFormed
  rw [Expr.wellFormed, Bool.and_eq_true, Bool.and_eq_true] at hwell
  exact (isWord_of_isOperand hwell.1.2).notMem (by decide)

/-- A node is determined by what is written of it and by its operand. -/
theorem IsFaithful.eq_of_parts_eq {e e' : Expr} (h : e.IsFaithful) (h' : e'.IsFaithful)
    (htag : e.tag = e'.tag) (hdetail : e.detail style = e'.detail style) (hpos : e.pos = e'.pos)
    (hoperand : e.operand? = e'.operand?) : e = e' := by
  cases e with
  | bool value pos =>
    cases e' with
    | bool value' pos' =>
      cases hpos
      have hvalues : ∀ a b : Bool,
          (if a then "true" else "false") = (if b then "true" else "false") → a = b := by decide
      rw [hvalues value value' hdetail]
    | _ => simp [tag] at htag
  | number text pos =>
    cases e' with
    | number text' pos' =>
      cases hpos
      cases hdetail
      rfl
    | _ => simp [tag] at htag
  | string text pos =>
    cases e' with
    | string text' pos' =>
      cases hpos
      rw [style.quote_injective hdetail]
    | _ => simp [tag] at htag
  | var name pos =>
    cases e' with
    | var name' pos' =>
      rw [h.name_eq h' hpos rfl rfl hdetail, show pos = pos' from hpos]
    | _ => simp [tag] at htag
  | call callee pos =>
    cases e' with
    | call callee' pos' =>
      rw [h.name_eq h' hpos rfl rfl hdetail, show pos = pos' from hpos]
    | _ => simp [tag] at htag
  | assign target value pos =>
    cases e' with
    | assign target' value' pos' =>
      cases hoperand
      rw [h.name_eq h' hpos rfl rfl hdetail, show pos = pos' from hpos]
    | _ => simp [tag] at htag
  | operation operator lhs rhs pos =>
    cases e' with
    | operation operator' lhs' rhs' pos' =>
      cases hoperand
      have hlist := congrArg String.toList hdetail
      simp only [detail, String.toList_append, List.append_assoc] at hlist
      -- The name is a word, so the operator starts behind the first space.
      obtain ⟨hname, hoperator⟩ :=
        append_cons_inj_of_notMem_left h.space_notMem_lhs h'.space_notMem_lhs hlist
      rw [h.name_eq h' hpos rfl rfl (String.toList_inj.1 hname), String.toList_inj.1 hoperator,
        show pos = pos' from hpos]
    | _ => simp [tag] at htag

/-- The first entries of two expressions are equal only if all that is written of them is. -/
theorem parts_eq_of_entries_append_eq {e e' : Expr} {level : Nat} {rest rest' : List Entry}
    (heq : e.entries style level ++ rest = e'.entries style level ++ rest') :
    (e.tag = e'.tag ∧ e.detail style = e'.detail style ∧ e.pos = e'.pos) ∧
      (e.operand?.elim [] fun value => value.entries style (level + 1)) ++ rest =
        (e'.operand?.elim [] fun value => value.entries style (level + 1)) ++ rest' := by
  rw [entries_eq, entries_eq, List.cons_append, List.cons_append, List.cons.injEq,
    Entry.mk.injEq] at heq
  exact ⟨heading_inj e.isWord_tag e'.isWord_tag heq.1.2, heq.2⟩

/-- The entries of an expression determine the expression, whatever follows them. -/
theorem entries_append_inj {e e' : Expr} (h : ∀ n ∈ e.nodes, n.IsFaithful)
    (h' : ∀ n ∈ e'.nodes, n.IsFaithful) {level : Nat} {rest rest' : List Entry}
    (heq : e.entries style level ++ rest = e'.entries style level ++ rest') :
    e = e' ∧ rest = rest' := by
  induction e using operand_induction generalizing e' level with
  | leaf e hleaf =>
    obtain ⟨⟨htag, hdetail, hpos⟩, hmore⟩ := parts_eq_of_entries_append_eq heq
    have hleaf' : e'.operand? = none := by
      rw [← Option.not_isSome_iff_eq_none, isSome_operand?_eq, ← htag, ← isSome_operand?_eq, hleaf]
      exact Bool.false_ne_true
    rw [hleaf, hleaf'] at hmore
    exact ⟨(h e e.self_mem_nodes).eq_of_parts_eq (h' e' e'.self_mem_nodes) htag hdetail hpos
      (hleaf.trans hleaf'.symm), hmore⟩
  | step e value hvalue ih =>
    obtain ⟨⟨htag, hdetail, hpos⟩, hmore⟩ := parts_eq_of_entries_append_eq heq
    obtain ⟨value', hvalue'⟩ : ∃ value', e'.operand? = some value' := by
      rw [← Option.isSome_iff_exists, isSome_operand?_eq, ← htag, ← isSome_operand?_eq, hvalue]
      rfl
    rw [hvalue, hvalue'] at hmore
    obtain ⟨rfl, hrest⟩ := ih (fun n hn => h n (nodes_subset_of_operand? hvalue hn))
      (fun n hn => h' n (nodes_subset_of_operand? hvalue' hn)) hmore
    exact ⟨(h e e.self_mem_nodes).eq_of_parts_eq (h' e' e'.self_mem_nodes) htag hdetail hpos
      (hvalue.trans hvalue'.symm), hrest⟩

end Expr

/-! ## Statements -/

/-- The word that says what a statement is. -/
def Stmt.word : Stmt → String
  | .branch _ _ => "if"
  | .print _ => "print"
  | .ret _ => "return"
  | .eval _ => "expr"

section entries

variable (style : Escaping)

mutual

/-- The entries of a statement, the first of them `level` steps deep. -/
def Stmt.entries (level : Nat) : Stmt → List Entry
  | .branch condition body =>
    ⟨level, "if"⟩ :: (condition.entries style (level + 1) ++
      if body.isEmpty then [] else ⟨level + 1, "body"⟩ :: Stmt.entriesAll (level + 2) body)
  | .print value => ⟨level, "print"⟩ :: value.entries style (level + 1)
  | .ret value => ⟨level, "return"⟩ :: value.entries style (level + 1)
  | .eval value => ⟨level, "expr"⟩ :: value.entries style (level + 1)

/-- The entries of statements, one after the other. -/
def Stmt.entriesAll (level : Nat) : List Stmt → List Entry
  | [] => []
  | stmt :: rest => stmt.entries level ++ Stmt.entriesAll level rest

end

mutual

theorem Stmt.dumpWith_eq (level : Nat) : (s : Stmt) →
    s.dumpWith style level = dumpOf (s.entries style level)
  | .branch condition body => by
    rw [Stmt.dumpWith, Stmt.entries, dumpOf_cons, dumpOf_append, Expr.dumpWith_eq,
      Stmt.dumpAllWith_eq (level + 2) body, String.append_assoc]
    split
    · rfl
    · rw [dumpOf_cons]
  | .print value => by rw [Stmt.dumpWith, Stmt.entries, dumpOf_cons, Expr.dumpWith_eq]
  | .ret value => by rw [Stmt.dumpWith, Stmt.entries, dumpOf_cons, Expr.dumpWith_eq]
  | .eval value => by rw [Stmt.dumpWith, Stmt.entries, dumpOf_cons, Expr.dumpWith_eq]

theorem Stmt.dumpAllWith_eq (level : Nat) : (stmts : List Stmt) →
    Stmt.dumpAllWith style level stmts = dumpOf (Stmt.entriesAll style level stmts)
  | [] => rfl
  | stmt :: rest => by
    rw [Stmt.dumpAllWith, Stmt.entriesAll, dumpOf_append, Stmt.dumpWith_eq level stmt,
      Stmt.dumpAllWith_eq level rest]

end

theorem Stmt.isSound_word (level : Nat) (word : String)
    (h : word ∈ ["if", "body", "print", "return", "expr"]) : (⟨level, word⟩ : Entry).IsSound := by
  have hwords : ∀ word ∈ ["if", "body", "print", "return", "expr"], IsWord word.toList := by decide
  exact isSound_of_isWord level (hwords word h)

mutual

theorem Stmt.isSound_of_mem_entries (level : Nat) : (s : Stmt) →
    (∀ n ∈ s.exprs, n.IsFaithful) → ∀ entry ∈ s.entries style level, entry.IsSound
  | .branch condition body, h, entry, hentry => by
    rw [Stmt.exprs, List.forall_mem_append] at h
    rw [Stmt.entries, List.mem_cons, List.mem_append] at hentry
    rcases hentry with rfl | hentry | hentry
    · exact Stmt.isSound_word level "if" (by decide)
    · exact Expr.isSound_of_mem_entries style h.1 hentry
    · have hbody := Stmt.isSound_of_mem_entriesAll (level + 2) body h.2 entry
      split at hentry
      · cases hentry
      · rcases List.mem_cons.1 hentry with rfl | hentry
        · exact Stmt.isSound_word (level + 1) "body" (by decide)
        · exact hbody hentry
  | .print value, h, entry, hentry => by
    rcases List.mem_cons.1 hentry with rfl | hentry
    · exact Stmt.isSound_word level "print" (by decide)
    · exact Expr.isSound_of_mem_entries style h hentry
  | .ret value, h, entry, hentry => by
    rcases List.mem_cons.1 hentry with rfl | hentry
    · exact Stmt.isSound_word level "return" (by decide)
    · exact Expr.isSound_of_mem_entries style h hentry
  | .eval value, h, entry, hentry => by
    rcases List.mem_cons.1 hentry with rfl | hentry
    · exact Stmt.isSound_word level "expr" (by decide)
    · exact Expr.isSound_of_mem_entries style h hentry

theorem Stmt.isSound_of_mem_entriesAll (level : Nat) : (stmts : List Stmt) →
    (∀ n ∈ Stmt.exprsAll stmts, n.IsFaithful) →
    ∀ entry ∈ Stmt.entriesAll style level stmts, entry.IsSound
  | [], _, entry, hentry => absurd hentry List.not_mem_nil
  | stmt :: rest, h, entry, hentry => by
    rw [Stmt.exprsAll, List.forall_mem_append] at h
    rw [Stmt.entriesAll, List.mem_append] at hentry
    rcases hentry with hentry | hentry
    · exact Stmt.isSound_of_mem_entries level stmt h.1 entry hentry
    · exact Stmt.isSound_of_mem_entriesAll level rest h.2 entry hentry

end

end entries

/-- What follows stands less than `level` steps deep, if anything follows. -/
def StandsAbove (level : Nat) (rest : List Entry) : Prop := ∀ e ∈ rest.head?, e.level < level

theorem StandsAbove.mono {level level' : Nat} {rest : List Entry} (h : StandsAbove level rest)
    (hle : level ≤ level') : StandsAbove level' rest := fun e he => (h e he).trans_le hle

section injective

variable {style : Escaping} {level : Nat} {rest rest' : List Entry}

theorem Stmt.exists_entries_eq_cons (style : Escaping) (level : Nat) (s : Stmt) :
    ∃ more, s.entries style level = ⟨level, s.word⟩ :: more := by
  cases s <;> exact ⟨_, rfl⟩

/-- A statement does not stand above its own level. -/
theorem not_standsAbove_entries (s : Stmt) :
    ¬ StandsAbove level (s.entries style level ++ rest) := by
  obtain ⟨more, hs⟩ := s.exists_entries_eq_cons style level
  rw [hs]
  exact fun h => Nat.lt_irrefl level (h _ rfl)

theorem StandsAbove.entriesAll_append (h : StandsAbove level rest) (stmts : List Stmt) :
    StandsAbove (level + 1) (Stmt.entriesAll style level stmts ++ rest) := by
  cases stmts with
  | nil => exact h.mono (Nat.le_succ level)
  | cons s stmts =>
    obtain ⟨more, hs⟩ := s.exists_entries_eq_cons style level
    rw [Stmt.entriesAll, hs]
    intro e he
    cases he
    exact Nat.lt_succ_self level

/-- A body is there or not: nothing else that follows a condition stands as deep as its line. -/
theorem body_append_inj {body body' : List Stmt} (hrest : StandsAbove (level + 1) rest)
    (hrest' : StandsAbove (level + 1) rest')
    (hbody : Stmt.entriesAll style (level + 2) body ++ rest =
      Stmt.entriesAll style (level + 2) body' ++ rest' → body = body' ∧ rest = rest')
    (heq : (if body.isEmpty then [] else
        ⟨level + 1, "body"⟩ :: Stmt.entriesAll style (level + 2) body) ++ rest =
      (if body'.isEmpty then [] else
        ⟨level + 1, "body"⟩ :: Stmt.entriesAll style (level + 2) body') ++ rest') :
    body = body' ∧ rest = rest' := by
  cases body with
  | nil =>
    cases body' with
    | nil => exact ⟨rfl, heq⟩
    | cons s' body' =>
      rw [show rest = _ from heq] at hrest
      exact absurd (hrest _ rfl) (Nat.lt_irrefl _)
  | cons s body =>
    cases body' with
    | nil =>
      rw [show rest' = _ from heq.symm] at hrest'
      exact absurd (hrest' _ rfl) (Nat.lt_irrefl _)
    | cons s' body' => exact hbody (List.cons.inj heq).2

mutual

/-- The entries of a statement determine the statement, if nothing deeper follows them. -/
theorem Stmt.entries_append_inj {level : Nat} {rest rest' : List Entry} : (s s' : Stmt) →
    (∀ n ∈ s.exprs, n.IsFaithful) → (∀ n ∈ s'.exprs, n.IsFaithful) →
    StandsAbove (level + 1) rest → StandsAbove (level + 1) rest' →
    s.entries style level ++ rest = s'.entries style level ++ rest' → s = s' ∧ rest = rest'
  | .branch condition body, s', h, h', hrest, hrest', heq => by
    cases s' with
    | branch condition' body' =>
      rw [Stmt.exprs, List.forall_mem_append] at h h'
      rw [Stmt.entries, Stmt.entries, List.cons_append, List.cons_append, List.cons.injEq,
        List.append_assoc, List.append_assoc] at heq
      obtain ⟨rfl, hmore⟩ := Expr.entries_append_inj h.1 h'.1 heq.2
      -- The body is two steps deep, so what follows the statement stands well above it.
      obtain ⟨rfl, hrests⟩ := body_append_inj hrest hrest'
        (Stmt.entriesAll_append_inj body body' h.2 h'.2 (hrest.mono (by omega))
          (hrest'.mono (by omega))) hmore
      exact ⟨rfl, hrests⟩
    | _ => simp [Stmt.entries] at heq
  | .print value, s', h, h', hrest, hrest', heq => by
    cases s' with
    | print value' =>
      obtain ⟨rfl, hrests⟩ := Expr.entries_append_inj h h' (List.cons.inj heq).2
      exact ⟨rfl, hrests⟩
    | _ => simp [Stmt.entries] at heq
  | .ret value, s', h, h', hrest, hrest', heq => by
    cases s' with
    | ret value' =>
      obtain ⟨rfl, hrests⟩ := Expr.entries_append_inj h h' (List.cons.inj heq).2
      exact ⟨rfl, hrests⟩
    | _ => simp [Stmt.entries] at heq
  | .eval value, s', h, h', hrest, hrest', heq => by
    cases s' with
    | eval value' =>
      obtain ⟨rfl, hrests⟩ := Expr.entries_append_inj h h' (List.cons.inj heq).2
      exact ⟨rfl, hrests⟩
    | _ => simp [Stmt.entries] at heq

/-- The entries of a block determine its statements, if what follows stands less deep. -/
theorem Stmt.entriesAll_append_inj {level : Nat} {rest rest' : List Entry} :
    (stmts stmts' : List Stmt) →
    (∀ n ∈ Stmt.exprsAll stmts, n.IsFaithful) → (∀ n ∈ Stmt.exprsAll stmts', n.IsFaithful) →
    StandsAbove level rest → StandsAbove level rest' →
    Stmt.entriesAll style level stmts ++ rest = Stmt.entriesAll style level stmts' ++ rest' →
    stmts = stmts' ∧ rest = rest'
  | [], [], h, h', hrest, hrest', heq => ⟨rfl, heq⟩
  | [], s' :: stmts', h, h', hrest, hrest', heq => by
    rw [Stmt.entriesAll, Stmt.entriesAll, List.nil_append, List.append_assoc] at heq
    exact absurd (heq ▸ hrest) (not_standsAbove_entries s')
  | s :: stmts, [], h, h', hrest, hrest', heq => by
    rw [Stmt.entriesAll, Stmt.entriesAll, List.nil_append, List.append_assoc] at heq
    exact absurd (heq ▸ hrest') (not_standsAbove_entries s)
  | s :: stmts, s' :: stmts', h, h', hrest, hrest', heq => by
    rw [Stmt.exprsAll, List.forall_mem_append] at h h'
    rw [Stmt.entriesAll, Stmt.entriesAll, List.append_assoc, List.append_assoc] at heq
    obtain ⟨rfl, hmore⟩ := Stmt.entries_append_inj s s' h.1 h'.1 (hrest.entriesAll_append stmts)
      (hrest'.entriesAll_append stmts') heq
    obtain ⟨rfl, hrests⟩ := Stmt.entriesAll_append_inj stmts stmts' h.2 h'.2 hrest hrest' hmore
    exact ⟨rfl, hrests⟩

end

end injective

/-! ## Programs -/

/-- The entries of a function. -/
def Function.entries (style : Escaping) (f : Function) : List Entry :=
  ⟨0, heading "function" f.name.name f.name.pos⟩ :: Stmt.entriesAll style 1 f.body

/-- The entries of a program, function by function. -/
def Program.entries (style : Escaping) (p : Program) : List Entry :=
  p.functions.flatMap (Function.entries style)

/-- The dump of a program is made of its entries. -/
theorem Program.dumpWith_eq (style : Escaping) (p : Program) :
    p.dumpWith style = dumpOf (p.entries style) := by
  rw [Program.dumpWith, Program.entries]
  induction p.functions with
  | nil => rfl
  | cons f fs ih =>
    rw [List.map_cons, String.join_cons, ih, List.flatMap_cons, dumpOf_append, Function.dumpWith,
      Function.entries, dumpOf_cons, Stmt.dumpAllWith_eq]
    rfl

theorem standsAbove_flatMap_entries (style : Escaping) (fs : List Function) :
    StandsAbove 1 (fs.flatMap (Function.entries style)) := by
  cases fs with
  | nil => exact nofun
  | cons f fs =>
    intro e he
    cases he
    exact Nat.zero_lt_one

/-- The entries of functions determine the functions. -/
theorem eq_of_flatMap_entries_eq {style : Escaping} {fs fs' : List Function}
    (h : ∀ n ∈ (⟨fs⟩ : Program).exprs, n.IsFaithful)
    (h' : ∀ n ∈ (⟨fs'⟩ : Program).exprs, n.IsFaithful)
    (heq : fs.flatMap (Function.entries style) = fs'.flatMap (Function.entries style)) :
    fs = fs' := by
  induction fs generalizing fs' with
  | nil =>
    cases fs' with
    | nil => rfl
    | cons f' fs' => cases heq
  | cons f fs ih =>
    cases fs' with
    | nil => cases heq
    | cons f' fs' =>
      rw [Program.exprs, List.flatMap_cons, List.forall_mem_append] at h h'
      rw [List.flatMap_cons, List.flatMap_cons, Function.entries, Function.entries,
        List.cons_append, List.cons_append, List.cons.injEq, Entry.mk.injEq] at heq
      obtain ⟨⟨-, hheading⟩, hmore⟩ := heq
      obtain ⟨-, hname, hpos⟩ := heading_inj (by decide) (by decide) hheading
      obtain ⟨hbody, hrest⟩ := Stmt.entriesAll_append_inj f.body f'.body h.1 h'.1
        (standsAbove_flatMap_entries style fs) (standsAbove_flatMap_entries style fs') hmore
      have hf : f = f' := by
        rw [Function.mk.injEq, Ident.mk.injEq]
        exact ⟨⟨hname, hpos⟩, hbody⟩
      rw [hf, ih h.2 h'.2 hrest]

theorem Program.isSound_of_mem_entries {p : Program} (hwell : p.wellFormed = true)
    (h : ∀ n ∈ p.exprs, n.IsFaithful) {style : Escaping} {entry : Entry}
    (hentry : entry ∈ p.entries style) : entry.IsSound := by
  obtain ⟨f, hf, hentry⟩ := List.mem_flatMap.1 hentry
  rw [Program.wellFormed, List.all_eq_true] at hwell
  have hfunction := hwell f hf
  rw [Function.wellFormed, Bool.and_eq_true] at hfunction
  rcases List.mem_cons.1 hentry with rfl | hentry
  · exact isSound_heading 0 f.name.pos (by decide)
      ((isWord_of_isName hfunction.1).1.notMem (by decide))
  · exact Stmt.isSound_of_mem_entriesAll style 1 f.body
      (fun n hn => h n (List.mem_flatMap.2 ⟨f, hf, hn⟩)) entry hentry

/-- The nodes of a program read from a source are faithful. -/
theorem isFaithful_of_parse_lex {source : String} {p : Program}
    (h : Program.parse (lex source) = .ok p) : ∀ n ∈ p.exprs, n.IsFaithful := by
  intro n hn
  refine ⟨Program.wellFormed_of_mem_exprs (wellFormed_of_parse_lex h) hn, fun i hi => ?_⟩
  obtain ⟨fs, hfs, h⟩ := Parse.bind_eq_ok_iff.1 h
  cases h
  have hmeets := meets_program (Parse.isProgram_of_functions hfs) fun t => fits_of_mem_lex
  have hnode := (exprs_sublist_nodes ⟨fs⟩).subset (List.mem_map_of_mem hn)
  obtain ⟨before, t, after, -, hstarts⟩ := hmeets.exists_startsAt hnode
  exact (hstarts.name i hi).trans hstarts.pos.symm

/-- Two programs that were read from sources are equal if their dumps are. -/
theorem eq_of_dumpWith_eq {style : Escaping} {s t : String} {p q : Program}
    (hp : Program.parse (lex s) = .ok p) (hq : Program.parse (lex t) = .ok q)
    (h : p.dumpWith style = q.dumpWith style) : p = q := by
  have hp' := isFaithful_of_parse_lex hp
  have hq' := isFaithful_of_parse_lex hq
  rw [Program.dumpWith_eq, Program.dumpWith_eq] at h
  have hentries := eq_of_dumpOf_eq
    (fun e => Program.isSound_of_mem_entries (wellFormed_of_parse_lex hp) hp')
    (fun e => Program.isSound_of_mem_entries (wellFormed_of_parse_lex hq) hq') h
  rw [Program.mk.injEq]
  exact eq_of_flatMap_entries_eq hp' hq' hentries

/-- **The dump of a tree identifies the tree**: programs that are read from sources and have the
same dump are equal, positions included. This does not depend on which characters are written by
number. -/
theorem program_eq_of_dump_eq {s t : String} {p q : Program}
    (hp : Program.parse (lex s) = .ok p) (hq : Program.parse (lex t) = .ok q) :
    (p.dump = q.dump → p = q) ∧ ∀ style, p.dumpWith style = q.dumpWith style → p = q :=
  ⟨eq_of_dumpWith_eq hp hq, fun _ => eq_of_dumpWith_eq hp hq⟩

/-- An operation, a conditional statement without a body and a string over two lines. -/
def dumpedSource : String := "f() \x7b\n\tif (x + 1) \x7b\n\t\x7d\n\tprint \"a\nb\"\n\x7d\n"

/-- The same tree with the same dump, read from the source with and without a comment behind it. -/
theorem program_eq_of_dump_eq_dumpedSource :
    ∃ p q, Program.parse (lex dumpedSource) = .ok p ∧
      Program.parse (lex (dumpedSource ++ "# f\n")) = .ok q ∧
      p.dump = "function f (1:1)\n  if\n    operation x + (2:6)\n      number 1 (2:10)\n" ++
        "  print\n    string \"a\\nb\" (4:8)\n" ∧
      p.dump = q.dump ∧ p = q := by
  have hparse : ∀ source ∈ [dumpedSource, dumpedSource ++ "# f\n"],
      Program.parse (lex source) = .ok ⟨[⟨⟨"f", ⟨1, 1⟩⟩, [
        .branch (.operation "+" ⟨"x", ⟨2, 6⟩⟩ (.number "1" ⟨2, 10⟩) ⟨2, 6⟩) [],
        .print (.string "a\nb" ⟨4, 8⟩)]⟩]⟩ := by decide +kernel
  have hs := hparse _ List.mem_cons_self
  have ht := hparse _ (List.mem_cons_of_mem _ List.mem_cons_self)
  exact ⟨_, _, hs, ht, by decide +kernel, rfl, (program_eq_of_dump_eq hs ht).1 rfl⟩

end Tabscript
