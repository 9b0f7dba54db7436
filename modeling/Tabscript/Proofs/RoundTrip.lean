import Tabscript.Proofs.WellFormed
import Tabscript.Relocation

/-!
# The canonical source reads back

The canonical source of a well-formed tree is cut into tokens that derive the same tree, positions
apart. The proof follows the layout: `Spells text P` says that a text is cut into tokens with the
property `P` wherever it stands, and the lemmas about `Spells` put the text of a tree together from
words, marks and strings in the same way as its derivation.

* `spells_expr`, `spells_stmt` and `spells_block` are about the parts of a program.
* `wellFormed_iff_exists_source` says that the trees read from sources are, positions apart, exactly
  the well-formed ones, and that each is read from its canonical source.
-/

namespace Tabscript

open Grammar

/-- Moves all positions to one place, so that trees that differ in positions only become equal. -/
def erased (_ : Position) : Position := .start

/-! ## Texts and their tokens -/

/-- The text is cut into tokens with the property `P`, wherever it stands and whatever follows it,
unless that goes on with a word. -/
def Spells (text : List Char) (P : List Token → Prop) : Prop :=
  ∀ (pos : Position) (rest : List Char), (∀ c ∈ rest.head?, isWordChar c = false) →
    ∃ ts pos', place pos (lexemes (text ++ rest)) = ts ++ place pos' (lexemes rest) ∧ P ts

theorem isWordChar_head? {c : Char} {text : List Char} (h : isWordChar c = false) :
    ∀ d ∈ (c :: text).head?, isWordChar d = false := by
  intro d hd
  rwa [← Option.mem_some_iff.1 hd]

namespace Spells

variable {text more : List Char} {P Q : List Token → Prop}

theorem nil : Spells [] fun ts => ts = [] := fun pos _ _ => ⟨[], pos, rfl, rfl⟩

theorem mono (h : Spells text P) (imp : ∀ ts, P ts → Q ts) : Spells text Q := by
  intro pos rest hrest
  obtain ⟨ts, pos', hts, hP⟩ := h pos rest hrest
  exact ⟨ts, pos', hts, imp ts hP⟩

/-- Two texts are spelled one after the other if no word runs from the first into the second. -/
theorem append (h : Spells text P) (h' : Spells more Q)
    (cut : ∀ c ∈ more.head?, isWordChar c = false) :
    Spells (text ++ more) fun ts => ∃ us vs, ts = us ++ vs ∧ P us ∧ Q vs := by
  intro pos rest hrest
  have hcut : ∀ c ∈ (more ++ rest).head?, isWordChar c = false := by
    rcases more with _ | ⟨c, more⟩
    · exact hrest
    · exact cut
  obtain ⟨us, pos', hus, hP⟩ := h pos (more ++ rest) hcut
  obtain ⟨vs, pos'', hvs, hQ⟩ := h' pos' rest hrest
  exact ⟨us ++ vs, pos'', by rw [List.append_assoc, hus, hvs, List.append_assoc], us, vs, rfl,
    hP, hQ⟩

/-- A word is spelled by one token. -/
theorem word {text : String} {kind : TokenKind}
    (h : IsWord text.toList ∧ lexemeKind text.toList = kind) :
    Spells text.toList fun ts => ∃ t, ts = [t] ∧ t.kind = kind ∧ t.value = text := by
  intro pos rest hrest
  rw [lexemes_word h.1 hrest, place]
  exact ⟨[_], _, rfl, _, rfl, h.2, String.ofList_toList⟩

theorem mark {c : Char} {kind : TokenKind} (h : isWordChar c = false)
    (hkind : lexemeKind [c] = kind) (h' : Spells more Q) :
    Spells (c :: more) fun ts =>
      ∃ t us, ts = t :: us ∧ t.kind = kind ∧ t.value = String.ofList [c] ∧ Q us := by
  intro pos rest hrest
  rw [List.cons_append, lexemes_mark _ h, place]
  obtain ⟨us, pos', hus, hQ⟩ := h' (pos.after [c]) rest hrest
  rw [hus]
  exact ⟨_ :: us, pos', rfl, _, us, rfl, hkind, rfl, hQ⟩

theorem marks {cs : List Char} {kinds : List TokenKind} (h : cs.any isWordChar = false)
    (hkinds : cs.map (fun c => lexemeKind [c]) = kinds) (h' : Spells more Q) :
    Spells (cs ++ more) fun ts => ∃ us vs, ts = us ++ vs ∧ HasKinds us kinds ∧ Q vs := by
  induction cs generalizing kinds with
  | nil =>
    subst hkinds
    exact h'.mono fun ts hQ => ⟨[], ts, rfl, rfl, hQ⟩
  | cons c cs ih =>
    subst hkinds
    rw [List.any_cons, Bool.or_eq_false_iff] at h
    refine (mark h.1 rfl (ih h.2 rfl)).mono ?_
    rintro _ ⟨t, _, rfl, hkind, -, us, vs, rfl, hus, hQ⟩
    exact ⟨t :: us, vs, rfl, hasKinds_cons.2 ⟨t, us, rfl, hkind, hus⟩, hQ⟩

/-- Marks end what stands before them, whatever it is. -/
theorem append_marks {c : Char} {cs : List Char} {kinds : List TokenKind} (h : Spells text P)
    (hmarks : (c :: cs).any isWordChar = false)
    (hkinds : (c :: cs).map (fun c => lexemeKind [c]) = kinds) (h' : Spells more Q) :
    Spells (text ++ (c :: cs ++ more)) fun ts =>
      ∃ us vs ws, ts = us ++ vs ++ ws ∧ P us ∧ HasKinds vs kinds ∧ Q ws := by
  have hc : isWordChar c = false := by
    rw [List.any_cons, Bool.or_eq_false_iff] at hmarks
    exact hmarks.1
  refine (h.append (marks hmarks hkinds h') (isWordChar_head? hc)).mono ?_
  rintro _ ⟨us, _, rfl, hP, vs, ws, rfl, hvs, hQ⟩
  exact ⟨us, vs, ws, (List.append_assoc us vs ws).symm, hP, hvs, hQ⟩

/-- A text without quotes is cut into tokens that are no quotes either and cover it. -/
theorem unquoted (h : '"' ∉ text) :
    Spells text fun ts => (∀ t ∈ ts, t.kind ≠ .string) ∧
      String.join (ts.map Token.value) = String.ofList text := by
  intro pos rest hrest
  have hcut : lexemes (text ++ rest) = lexemes text ++ lexemes rest := by
    refine lexemes_append fun a _ b hb => ?_
    rw [joins, hrest b hb, Bool.and_false]
  rw [hcut, place_append]
  obtain ⟨hflatten, hshapes, -⟩ := lexemes_eq_iff.1 (rfl : lexemes text = lexemes text)
  obtain ⟨hmap, hkinds, -⟩ := place_eq_iff.1 (rfl : place pos (lexemes text) = _)
  refine ⟨_, _, rfl, fun t ht hstring => ?_, ?_⟩
  · have hmem : t.text ∈ lexemes text := hmap ▸ List.mem_map_of_mem ht
    have hkind := isKind_lexemeKind (hshapes t.text hmem)
    rw [← hkinds t ht, hstring] at hkind
    refine h (hflatten ▸ List.mem_flatten.2 ⟨t.text, hmem, ?_⟩)
    rw [eq_of_isKind hkind (rfl : breakKind? '"' = _)]
    exact List.mem_singleton_self _
  · rw [← String.toList_inj, toList_join_value, textOf_place, hflatten, String.toList_ofList]

/-- A text without quotes is spelled by what stands between two quotes. -/
theorem string (h : '"' ∉ text) :
    Spells ('"' :: (text ++ ['"'])) fun ts =>
      ∃ opening inner closing, ts = opening :: (inner ++ [closing]) ∧ opening.kind = .string ∧
        (∀ t ∈ inner, t.kind ≠ .string) ∧ closing.kind = .string ∧
        String.join (inner.map Token.value) = String.ofList text := by
  have hclosing : Spells ['"'] _ := mark (by decide) rfl nil
  have hquote : isWordChar '"' = false := by decide
  have htail := (unquoted h).append hclosing (isWordChar_head? hquote)
  refine (mark hquote rfl htail).mono ?_
  rintro _ ⟨opening, _, rfl, hopening, -, inner, _, rfl, ⟨hinner, hjoin⟩, closing, _, rfl, hkind, -,
    rfl⟩
  exact ⟨opening, inner, closing, rfl, hopening, hinner, hkind, hjoin⟩

end Spells

/-! ## Well-formed texts -/

/-- Small letters and the underscore are word characters, and neither digits nor capitals. -/
theorem isWordChar_of_isLower {c : Char} (h : c.isLower = true ∨ c = '_') :
    isWordChar c = true ∧ c.isDigit = false ∧ c.isUpper = false := by
  rcases h with h | rfl
  · have hlow : 'a'.val ≤ c.val := of_decide_eq_true (Bool.and_eq_true_iff.1 h).1
    refine ⟨by simp [isWordChar_eq, h], Bool.eq_false_iff.2 fun hdigit => ?_,
      Bool.eq_false_iff.2 fun hupper => ?_⟩
    · have hhigh : c.val ≤ '9'.val := of_decide_eq_true (Bool.and_eq_true_iff.1 hdigit).2
      exact absurd (UInt32.le_trans hlow hhigh) (by decide)
    · have hhigh : c.val ≤ 'Z'.val := (of_decide_eq_true hupper).2
      exact absurd (UInt32.le_trans hlow hhigh) (by decide)
  · decide

theorem isWord_of_isName {text : String} (h : isName text = true) :
    IsWord text.toList ∧ lexemeKind text.toList = .identifier := by
  simp only [isName, Bool.and_eq_true, List.all_eq_true, Bool.not_eq_true',
    List.isEmpty_eq_false_iff, Bool.or_eq_true, beq_iff_eq] at h
  obtain ⟨hne, hall⟩ := h
  have hword : IsWord text.toList := ⟨hne, fun c hc => (isWordChar_of_isLower (hall c hc)).1⟩
  exact ⟨hword, lexemeKind_of_isKind (.identifier hword
    (fun c hc => (isWordChar_of_isLower (hall c hc)).2.1)
    (fun c hc => (isWordChar_of_isLower (hall c hc)).2.2))⟩

theorem isWord_of_isNumber {text : String} (h : isNumber text = true) :
    IsWord text.toList ∧ lexemeKind text.toList = .number := by
  simp only [isNumber, Bool.and_eq_true, List.all_eq_true, List.any_eq_true] at h
  obtain ⟨hall, hdigit⟩ := h
  obtain ⟨c, hc, -⟩ := id hdigit
  have hword : IsWord text.toList := ⟨List.ne_nil_of_mem hc, hall⟩
  exact ⟨hword, lexemeKind_of_isKind (.number hword hdigit)⟩

/-- An operator is one token, a symbol, and not the sign of assignments. -/
theorem exists_of_isOperator {text : String} (h : isOperator text = true) :
    ∃ c, text.toList = [c] ∧ isWordChar c = false ∧ lexemeKind [c] = .symbol ∧ c ≠ '=' := by
  unfold isOperator at h
  split at h
  · rename_i c hc
    simp only [Bool.and_eq_true, Bool.not_eq_true', Option.isNone_iff_eq_none, bne_iff_ne] at h
    obtain ⟨⟨hmark, hname⟩, hne⟩ := h
    exact ⟨c, hc, hmark, lexemeKind_of_isKind (.symbol hmark hname), hne⟩
  · cases h

/-! ## Expressions -/

/-- The tokens derive an expression that differs from `e` in positions only. -/
def DerivesExpr (e : Expr) (ts : List Token) : Prop :=
  ∃ e', IsExpr ts e' ∧ e'.relocate erased = e.relocate erased

theorem spells_operand {name : String} (h : isOperand name = true) :
    Spells name.toList fun ts => ∃ t, ts = [t] ∧ IsName t ∧ t.value = name := by
  obtain ⟨hname, htruth⟩ := isOperand_iff.1 h
  refine (Spells.word (isWord_of_isName hname)).mono ?_
  rintro _ ⟨t, rfl, hkind, rfl⟩
  exact ⟨t, rfl, ⟨hkind, htruth⟩, rfl⟩

/-- A name, a symbol between spaces and an expression. -/
theorem spells_binary {name : String} {c : Char} {value : Expr} (h : isOperand name = true)
    (hc : isWordChar c = false) (hkind : lexemeKind [c] = .symbol)
    (h' : Spells value.source.toList (DerivesExpr value)) :
    Spells (name.toList ++ ' ' :: c :: ' ' :: value.source.toList) fun ts =>
      ∃ t before symbol after us, ts = t :: before :: symbol :: after :: us ∧ IsName t ∧
        t.value = name ∧ HasKinds [before, symbol, after] [.space, .symbol, .space] ∧
        symbol.value = String.ofList [c] ∧ DerivesExpr value us := by
  have hspace : isWordChar ' ' = false := by decide
  have htail := Spells.mark hspace rfl (.mark hc hkind (.mark hspace rfl h'))
  refine ((spells_operand h).append htail (isWordChar_head? hspace)).mono ?_
  rintro _ ⟨_, _, rfl, ⟨t, rfl, hname, hvalue⟩, before, _, rfl, hbefore, -, symbol, _, rfl, hsymbol,
    htext, after, us, rfl, hafter, -, hus⟩
  refine ⟨t, before, symbol, after, us, rfl, hname, hvalue, ?_, htext, hus⟩
  simp only [HasKinds, List.map_cons, List.map_nil, hbefore, hsymbol, hafter]
  rfl

/-- The source of an expression spells the expression. -/
theorem spells_expr {e : Expr} (h : e.wellFormed = true) :
    Spells e.source.toList (DerivesExpr e) := by
  induction e with
  | bool value pos =>
    have hword : ∀ value : Bool, IsWord (if value then "true" else "false").toList ∧
        lexemeKind (if value then "true" else "false").toList = .identifier := by
      decide
    refine (Spells.word (hword value)).mono ?_
    rintro _ ⟨t, rfl, hkind, hvalue⟩
    exact ⟨.bool value t.pos, .bool hkind hvalue, rfl⟩
  | number text pos =>
    refine (Spells.word (isWord_of_isNumber h)).mono ?_
    rintro _ ⟨t, rfl, hkind, rfl⟩
    exact ⟨.number t.value t.pos, .number hkind, rfl⟩
  | string text pos =>
    have htext : '"' ∉ text.toList := by simpa [Expr.wellFormed, isStringText] using h
    have hsource : (Expr.string text pos).source.toList = '"' :: (text.toList ++ ['"']) := by
      simp [Expr.source]
    rw [hsource]
    refine (Spells.string htext).mono ?_
    rintro _ ⟨opening, inner, closing, rfl, hopening, hinner, hclosing, hjoin⟩
    refine ⟨_, .string hopening hinner hclosing, ?_⟩
    rw [hjoin, String.ofList_toList]
    rfl
  | var name pos =>
    refine (spells_operand h).mono ?_
    rintro _ ⟨t, rfl, hname, hvalue⟩
    refine ⟨_, .var hname, ?_⟩
    simp [Expr.relocate, Ident.relocate, nameOf, hvalue, erased]
  | call callee pos =>
    have hsource : (Expr.call callee pos).source.toList = callee.name.toList ++ ['(', ')'] := by
      simp [Expr.source]
    rw [hsource]
    have hmarks : ['(', ')'].any isWordChar = false := by decide
    refine ((spells_operand h).append_marks hmarks rfl .nil).mono ?_
    rintro _ ⟨_, parens, _, rfl, ⟨t, rfl, hname, hvalue⟩, hkinds, rfl⟩
    rw [List.append_nil]
    refine ⟨_, .call hname hkinds, ?_⟩
    simp only [Expr.relocate, Ident.relocate, nameOf, hvalue, erased]
  | assign target value pos ih =>
    rw [Expr.wellFormed, Bool.and_eq_true] at h
    have hsource : (Expr.assign target value pos).source.toList =
        target.name.toList ++ ' ' :: '=' :: ' ' :: value.source.toList := by
      simp [Expr.source]
    rw [hsource]
    refine (spells_binary h.1 (by decide) rfl (ih h.2)).mono ?_
    rintro _ ⟨t, before, symbol, after, us, rfl, hname, hvalue, hkinds, hsymbol, e, he, herased⟩
    refine ⟨_, .assign hname hkinds hsymbol he, ?_⟩
    simp [Expr.relocate, Ident.relocate, nameOf, hvalue, herased, erased]
  | operation operator lhs rhs pos ih =>
    rw [Expr.wellFormed, Bool.and_eq_true, Bool.and_eq_true] at h
    obtain ⟨⟨hoperator, hlhs⟩, hrhs⟩ := h
    obtain ⟨c, htext, hc, hkind, hne⟩ := exists_of_isOperator hoperator
    have hsource : (Expr.operation operator lhs rhs pos).source.toList =
        lhs.name.toList ++ ' ' :: c :: ' ' :: rhs.source.toList := by
      simp [Expr.source, htext]
    have hoperator : String.ofList [c] = operator := by rw [← htext, String.ofList_toList]
    rw [hsource]
    refine (spells_binary hlhs hc hkind (ih hrhs)).mono ?_
    rintro _ ⟨t, before, symbol, after, us, rfl, hname, hvalue, hkinds, hsymbol, e, he, herased⟩
    have hdiffers : symbol.value ≠ "=" := by
      intro h
      rw [hsymbol, ← String.toList_inj, String.toList_ofList] at h
      exact hne (List.cons.inj h).1
    refine ⟨_, .operation hname hkinds hdiffers he, ?_⟩
    simp only [Expr.relocate, Ident.relocate, nameOf, hvalue, herased, hsymbol, hoperator, erased]

/-! ## Statements and blocks -/

/-- The tokens derive a statement that differs from `s` in positions only. -/
def DerivesStmt (depth : Nat) (s : Stmt) (ts : List Token) : Prop :=
  ∃ s', IsStmt depth ts s' ∧ s'.relocate erased = s.relocate erased

/-- The tokens derive statements that differ from `stmts` in positions only. -/
def DerivesBlock (depth : Nat) (stmts : List Stmt) (ts : List Token) : Prop :=
  ∃ stmts', IsBlock depth ts stmts' ∧ Stmt.relocateAll erased stmts' = Stmt.relocateAll erased stmts

/-- The text of a block: its statements and its closing brace. -/
def blockText (depth : Nat) (stmts : List Stmt) : List Char :=
  (Stmt.sourceAll (depth + 1) stmts).toList ++ (List.replicate depth '\t' ++ ['\x7d'])

/-- The text of a statement without the tabs before it and the end of its line. -/
def stmtText (depth : Nat) : Stmt → List Char
  | .branch condition body =>
    ['i', 'f'] ++ (' ' :: '(' :: (condition.source.toList ++
      (')' :: ' ' :: '\x7b' :: '\n' :: blockText (depth + 1) body)))
  | .print value => ['p', 'r', 'i', 'n', 't'] ++ ' ' :: value.source.toList
  | .ret value => ['r', 'e', 't', 'u', 'r', 'n'] ++ ' ' :: value.source.toList
  | .eval value => value.source.toList

theorem toList_stmt_source (depth : Nat) (s : Stmt) :
    (s.source (depth + 1)).toList =
      List.replicate (depth + 1) '\t' ++ (stmtText depth s ++ ['\n']) := by
  cases s <;> simp [Stmt.source, sourceLine, stmtText, blockText]

theorem blockText_cons (depth : Nat) (s : Stmt) (rest : List Stmt) :
    blockText depth (s :: rest) =
      List.replicate (depth + 1) '\t' ++ (stmtText depth s ++ ('\n' :: blockText depth rest)) := by
  rw [blockText, Stmt.sourceAll, String.toList_append, toList_stmt_source, blockText]
  simp only [List.append_assoc, List.cons_append, List.nil_append]

theorem Spells.tabs {more : List Char} {Q : List Token → Prop} (n : Nat) (h : Spells more Q) :
    Spells (List.replicate n '\t' ++ more) fun ts =>
      ∃ us vs, ts = us ++ vs ∧ HasKinds us (List.replicate n .indent) ∧ Q vs := by
  refine Spells.marks ?_ ?_ h
  · rw [List.any_eq_false]
    intro c hc
    rw [List.eq_of_mem_replicate hc]
    decide
  · rw [List.map_replicate]
    rfl

/-- A word, a space and an expression. -/
theorem spells_wordStmt {word : String} {build : Expr → Stmt} {value : Expr} (depth : Nat)
    (hword : IsWord word.toList ∧ lexemeKind word.toList = .identifier)
    (hbuild : word = "print" ∧ build = .print ∨ word = "return" ∧ build = .ret)
    (h : value.wellFormed = true) :
    Spells (word.toList ++ ' ' :: value.source.toList) (DerivesStmt depth (build value)) := by
  have hspace : isWordChar ' ' = false := by decide
  refine ((Spells.word hword).append (.mark hspace rfl (spells_expr h))
    (isWordChar_head? hspace)).mono ?_
  rintro _ ⟨_, _, rfl, ⟨t, rfl, hkind, hvalue⟩, space, us, rfl, hspace, -, e, he, herased⟩
  have hstmt : Parse.IsWordStmt t build := ⟨hkind, hvalue ▸ hbuild⟩
  refine ⟨build e, Parse.isStmt_word hstmt hspace he, ?_⟩
  rcases hbuild with ⟨-, rfl⟩ | ⟨-, rfl⟩ <;> simp only [Stmt.relocate, herased]

theorem standsAlone_relocate (f : Position → Position) (e : Expr) :
    (e.relocate f).standsAlone = e.standsAlone := by
  cases e <;> rfl

/-- An expression that can stand alone starts with a word that starts no other statement. -/
theorem exists_word_of_standsAlone {ts : List Token} {e : Expr} (h : IsExpr ts e)
    (halone : e.standsAlone = true) :
    ∃ word us, ts = word :: us ∧ word.kind = .identifier ∧
      word.value ∉ ["if", "print", "return"] := by
  have hname : ∀ {t : Token},
      (t.value != "if" && t.value != "print" && t.value != "return") = true →
      t.value ∉ ["if", "print", "return"] := by
    intro t ht
    simpa [and_assoc] using ht
  cases h with
  | number kind => cases halone
  | string opens inside closes => cases halone
  | @bool t value kind word =>
    refine ⟨t, [], rfl, kind, ?_⟩
    rw [word]
    cases value <;> decide
  | var name => exact ⟨_, _, rfl, name.1, hname halone⟩
  | call name kinds => exact ⟨_, _, rfl, name.1, hname halone⟩
  | assign name kinds equals rest => exact ⟨_, _, rfl, name.1, hname halone⟩
  | operation name kinds differs rest => exact ⟨_, _, rfl, name.1, hname halone⟩

theorem noLines : ∀ t ∈ ([] : List Token), t.kind = .line := nofun

mutual

/-- The source of a statement spells the statement, and that of a block the block. -/
theorem spells_stmt (depth : Nat) : (s : Stmt) → s.wellFormed = true →
    Spells (stmtText depth s) (DerivesStmt depth s)
  | .branch condition body, h => by
    rw [Stmt.wellFormed, Bool.and_eq_true] at h
    have hbody := spells_block (depth + 1) body h.2
    have hif : IsWord "if".toList ∧ lexemeKind "if".toList = .identifier :=
      ⟨by decide, by decide⟩
    have hopens : [' ', '('].any isWordChar = false := by decide
    have hcloses : [')', ' ', '\x7b', '\n'].any isWordChar = false := by decide
    have htail := (spells_expr h.1).append_marks hcloses rfl hbody
    refine ((Spells.word hif).append_marks hopens rfl htail).mono ?_
    rintro _ ⟨_, before, _, rfl, ⟨word, rfl, hkind, hvalue⟩, hbefore, us, after, vs, rfl,
      ⟨e, he, herased⟩, hafter, stmts, hstmts, herased'⟩
    refine ⟨.branch e stmts, ?_, by rw [Stmt.relocate, Stmt.relocate, herased, herased']⟩
    have hstmt := IsStmt.branch hkind hvalue hbefore he hafter hstmts
    simpa only [List.append_assoc, List.cons_append, List.nil_append] using hstmt
  | .print value, h =>
    spells_wordStmt depth ⟨by decide, by decide⟩ (.inl ⟨rfl, rfl⟩) h
  | .ret value, h =>
    spells_wordStmt depth ⟨by decide, by decide⟩ (.inr ⟨rfl, rfl⟩) h
  | .eval value, h => by
    rw [Stmt.wellFormed, Bool.and_eq_true] at h
    refine (spells_expr h.1).mono ?_
    rintro ts ⟨e, he, herased⟩
    have halone : e.standsAlone = true := by
      rw [← standsAlone_relocate erased, herased, standsAlone_relocate, h.2]
    obtain ⟨word, us, rfl, hkind, hvalue⟩ := exists_word_of_standsAlone he halone
    exact ⟨.eval e, .eval hkind hvalue he, by rw [Stmt.relocate, Stmt.relocate, herased]⟩

theorem spells_block (depth : Nat) : (stmts : List Stmt) → Stmt.wellFormedAll stmts = true →
    Spells (blockText depth stmts) (DerivesBlock depth stmts)
  | [], _ => by
    have hbrace : Spells ['\x7d'] _ := Spells.mark (by decide) rfl .nil
    refine (Spells.tabs depth hbrace).mono ?_
    rintro _ ⟨tabs, _, rfl, htabs, brace, _, rfl, hbrace, -, rfl⟩
    exact ⟨[], .close noLines htabs hbrace, rfl⟩
  | s :: rest, h => by
    rw [Stmt.wellFormedAll, Bool.and_eq_true] at h
    have hline : isWordChar '\n' = false := by decide
    have htail := Spells.mark hline rfl (spells_block depth rest h.2)
    have hhead := (spells_stmt depth s h.1).append htail (isWordChar_head? hline)
    rw [blockText_cons]
    refine (hhead.tabs (depth + 1)).mono ?_
    rintro _ ⟨tabs, _, rfl, htabs, us, _, rfl, ⟨s', hs', herased⟩, line, vs, rfl, hline, -, stmts',
      hstmts', herased'⟩
    refine ⟨s' :: stmts', ?_, by rw [Stmt.relocateAll, Stmt.relocateAll, herased, herased']⟩
    have hblock := IsBlock.stmt noLines htabs hs' hline hstmts'
    simpa only [List.nil_append, List.append_assoc] using hblock

end

/-! ## Programs -/

theorem toList_function_source (f : Function) :
    f.source.toList = f.name.name.toList ++
      ('(' :: ')' :: ' ' :: '\x7b' :: '\n' :: (blockText 0 f.body ++ ['\n'])) := by
  simp [Function.source, sourceLine, blockText]

theorem spells_functions : (fs : List Function) → (∀ f ∈ fs, f.wellFormed = true) →
    Spells (String.join (fs.map Function.source)).toList fun ts =>
      ∃ fs', IsProgram ts fs' ∧
        fs'.map (Function.relocate erased) = fs.map (Function.relocate erased)
  | [], _ => by
    refine Spells.nil.mono ?_
    rintro _ rfl
    exact ⟨[], .nil, rfl⟩
  | f :: fs, h => by
    have hf := h f List.mem_cons_self
    rw [Function.wellFormed, Bool.and_eq_true] at hf
    have hsource : (String.join ((f :: fs).map Function.source)).toList =
        f.name.name.toList ++ (['(', ')', ' ', '\x7b', '\n'] ++ (blockText 0 f.body ++
          ('\n' :: (String.join (fs.map Function.source)).toList))) := by
      rw [List.map_cons, String.join_cons, String.toList_append, toList_function_source]
      simp only [List.append_assoc, List.cons_append, List.nil_append]
    have hmarks : ['(', ')', ' ', '\x7b', '\n'].any isWordChar = false := by decide
    have hline : isWordChar '\n' = false := by decide
    have htail := Spells.mark hline rfl
      (spells_functions fs fun g hg => h g (List.mem_cons_of_mem f hg))
    have hblock := (spells_block 0 f.body hf.2).append htail (isWordChar_head? hline)
    rw [hsource]
    refine ((Spells.word (isWord_of_isName hf.1)).append_marks hmarks rfl hblock).mono ?_
    rintro _ ⟨_, header, _, rfl, ⟨name, rfl, hkind, hvalue⟩, hheader, us, _, rfl,
      ⟨body, hbody, herased⟩, line, vs, rfl, hline, -, fs', hfs', herased'⟩
    refine ⟨⟨nameOf name, body⟩ :: fs', ?_, ?_⟩
    · have hprogram := IsProgram.function hkind hheader hbody hline hfs'
      simpa only [List.append_assoc, List.cons_append, List.nil_append] using hprogram
    · rw [List.map_cons, List.map_cons, herased']
      simp only [Function.relocate, Ident.relocate, nameOf, hvalue, herased, erased]

/-- The canonical source of a program is read as the program, positions apart. -/
theorem functions_lex_source {p : Program} (h : p.wellFormed = true) :
    ∃ fs, Parse.functions (lex p.source) = .ok fs ∧
      fs.map (Function.relocate erased) = p.functions.map (Function.relocate erased) := by
  rw [Program.wellFormed, List.all_eq_true] at h
  obtain ⟨ts, pos, hts, fs, hfs, herased⟩ := spells_functions p.functions h .start []
    fun c hc => absurd hc (Option.not_mem_none c)
  have hlex : lex p.source = ts := by
    rw [lex, Program.source, ← List.append_nil (String.toList _), hts]
    exact List.append_nil ts
  exact ⟨fs, hlex ▸ Parse.functions_of_isProgram hfs, herased⟩

/-! ## Positions play no part in well-formedness -/

theorem Expr.wellFormed_relocate (f : Position → Position) (e : Expr) :
    (e.relocate f).wellFormed = e.wellFormed := by
  induction e with
  | assign target value pos ih => simp only [Expr.relocate, Expr.wellFormed, Ident.relocate, ih]
  | operation operator lhs rhs pos ih =>
    simp only [Expr.relocate, Expr.wellFormed, Ident.relocate, ih]
  | _ => rfl

mutual

theorem Stmt.wellFormed_relocate (f : Position → Position) :
    (s : Stmt) → (s.relocate f).wellFormed = s.wellFormed
  | .branch condition body => by
    rw [Stmt.relocate, Stmt.wellFormed, Stmt.wellFormed, Expr.wellFormed_relocate,
      Stmt.wellFormedAll_relocateAll f body]
  | .print value => by
    rw [Stmt.relocate, Stmt.wellFormed, Stmt.wellFormed, Expr.wellFormed_relocate]
  | .ret value => by
    rw [Stmt.relocate, Stmt.wellFormed, Stmt.wellFormed, Expr.wellFormed_relocate]
  | .eval value => by
    rw [Stmt.relocate, Stmt.wellFormed, Stmt.wellFormed, Expr.wellFormed_relocate,
      standsAlone_relocate]

theorem Stmt.wellFormedAll_relocateAll (f : Position → Position) :
    (stmts : List Stmt) →
      Stmt.wellFormedAll (Stmt.relocateAll f stmts) = Stmt.wellFormedAll stmts
  | [] => rfl
  | s :: rest => by
    rw [Stmt.relocateAll, Stmt.wellFormedAll, Stmt.wellFormedAll, Stmt.wellFormed_relocate f s,
      Stmt.wellFormedAll_relocateAll f rest]

end

theorem Program.wellFormed_relocate (f : Position → Position) (p : Program) :
    (p.relocate f).wellFormed = p.wellFormed := by
  simp only [Program.wellFormed, Program.relocate, List.all_map]
  congr 1
  funext g
  exact congrArg (isName g.name.name && ·) (Stmt.wellFormedAll_relocateAll f g.body)

/-- **The trees read from sources are, positions apart, exactly the well-formed ones**, and the
canonical source of a well-formed tree reads back as that tree. -/
theorem wellFormed_iff_exists_source :
    (∀ (source : String) (p : Program), Program.parse (lex source) = .ok p → p.wellFormed = true) ∧
      (∀ p : Program, p.wellFormed = true → ∃ q, Program.parse (lex p.source) = .ok q ∧
        q.relocate erased = p.relocate erased) ∧
      ∀ p : Program, p.wellFormed = true ↔ ∃ source q, Program.parse (lex source) = .ok q ∧
        q.relocate erased = p.relocate erased := by
  have hread : ∀ (source : String) (p : Program), Program.parse (lex source) = .ok p →
      p.wellFormed = true := by
    intro source p h
    obtain ⟨fs, hfs, h⟩ := Parse.bind_eq_ok_iff.1 h
    cases h
    exact wellFormed_of_functions_lex hfs
  have hsource : ∀ p : Program, p.wellFormed = true → ∃ q, Program.parse (lex p.source) = .ok q ∧
      q.relocate erased = p.relocate erased := by
    intro p h
    obtain ⟨fs, hfs, herased⟩ := functions_lex_source h
    exact ⟨⟨fs⟩, Parse.bind_eq_ok_iff.2 ⟨fs, hfs, rfl⟩, congrArg Program.mk herased⟩
  refine ⟨hread, hsource, fun p => ⟨fun h => ⟨p.source, hsource p h⟩, ?_⟩⟩
  rintro ⟨source, q, hq, herased⟩
  rw [← Program.wellFormed_relocate erased, ← herased, Program.wellFormed_relocate]
  exact hread source q hq

/-- A function with a nested block, an operation, and a string that holds marks of every kind. -/
def sampleProgram : Program :=
  ⟨[⟨⟨"main", .start⟩, [
    .branch (.var ⟨"print", .start⟩ .start)
      [.branch (.bool true .start) [.print (.string "#if\n\t(\x7d A1" .start)]],
    .eval (.assign ⟨"x", .start⟩
      (.operation "+" ⟨"return", .start⟩ (.number "1a_B" .start) .start) .start),
    .ret (.call ⟨"main", .start⟩ .start)]⟩]⟩

theorem exists_source_sampleProgram : sampleProgram.wellFormed = true ∧
    ∃ q, Program.parse (lex sampleProgram.source) = .ok q ∧ q.wellFormed = true ∧
      q.relocate erased = sampleProgram.relocate erased := by
  have hsample : sampleProgram.wellFormed = true := by decide
  obtain ⟨hread, hsource, -⟩ := wellFormed_iff_exists_source
  obtain ⟨q, hq, herased⟩ := hsource sampleProgram hsample
  exact ⟨hsample, q, hq, hread _ q hq, herased⟩

end Tabscript
