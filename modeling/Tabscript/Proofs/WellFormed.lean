import Tabscript.Proofs.Grammar
import Tabscript.Proofs.Lexing
import Tabscript.Tree.Preorder
import Tabscript.Tree.Source

/-!
# Trees read from a source are well formed

The lexer gives every token a text that fits its kind (`Fits`), and a tree derived from such tokens
is well formed: its names, numbers, strings and operators are texts of tokens of the right kinds.
-/

namespace Tabscript

open Grammar

/-! ## Texts that fit their kinds -/

/-- The text of the token is one that the lexer gives the token's kind. -/
def Fits (t : Token) : Prop := IsKind t.text t.kind

/-- The tokens of a source have the kinds of their texts. -/
theorem fits_of_mem_lex {source : String} {t : Token} (h : t ∈ lex source) : Fits t :=
  (lex_eq_iff.1 (rfl : lex source = lex source)).2.2.2.1 t h

theorem isLower_or_underscore {c : Char} (word : isWordChar c = true) (digit : c.isDigit = false)
    (capital : c.isUpper = false) : (c.isLower || c == '_') = true := by
  rwa [isWordChar_eq, capital, digit, Bool.false_or, Bool.or_false] at word

theorem isName_of_fits {t : Token} (h : Fits t) (kind : t.kind = .identifier) :
    isName t.value = true := by
  rw [Fits, kind, Token.text] at h
  generalize htext : t.value.toList = text at h
  cases h with
  | identifier word digits capitals =>
    rw [isName, htext, Bool.and_eq_true, List.all_eq_true]
    refine ⟨by simpa using word.1, fun c hc => ?_⟩
    exact isLower_or_underscore (word.2 c hc) (digits c hc) (capitals c hc)
  | named mark name => exact absurd name (breakKind?_ne (by decide))

theorem isNumber_of_fits {t : Token} (h : Fits t) (kind : t.kind = .number) :
    isNumber t.value = true := by
  rw [Fits, kind, Token.text] at h
  generalize htext : t.value.toList = text at h
  cases h with
  | number word digit =>
    rw [isNumber, htext, Bool.and_eq_true, List.all_eq_true, List.any_eq_true]
    exact ⟨word.2, digit⟩
  | named mark name => exact absurd name (breakKind?_ne (by decide))

/-- A symbol other than the sign of assignments is an operator. -/
theorem isOperator_of_fits {t : Token} (h : Fits t) (kind : t.kind = .symbol)
    (differs : t.value ≠ "=") : isOperator t.value = true := by
  rw [Fits, kind, Token.text] at h
  generalize htext : t.value.toList = text at h
  cases h with
  | @symbol c mark name =>
    have hc : c ≠ '=' := by
      rintro rfl
      exact differs (String.toList_inj.1 htext)
    rw [isOperator, htext]
    simp [mark, name, hc]
  | named mark name => exact absurd name (breakKind?_ne (by decide))

/-- Only the token that is a quote has one in its text. -/
theorem quote_notMem_of_fits {t : Token} (h : Fits t) (kind : t.kind ≠ .string) : '"' ∉ t.text := by
  have hword : IsWord t.text → '"' ∉ t.text := fun word hmem => nomatch word.2 _ hmem
  rw [Fits] at h
  generalize htext : t.text = text at h hword
  generalize hkind : t.kind = k at h
  cases h with
  | number word _ => exact hword word
  | constant word _ _ => exact hword word
  | identifier word _ _ => exact hword word
  | named mark name =>
    rintro hmem
    obtain rfl := List.mem_singleton.1 hmem
    cases name
    exact kind hkind
  | symbol mark name =>
    rintro hmem
    obtain rfl := List.mem_singleton.1 hmem
    cases name

/-! ## Derived trees -/

theorem isOperand_iff {word : String} :
    isOperand word = true ↔ isName word = true ∧ word ∉ ["true", "false"] := by
  rw [isOperand, Bool.and_eq_true, Option.isNone_iff_eq_none, Keyword.truth?_eq_none_iff]

theorem isOperand_of_isName {t : Token} (h : Fits t) (name : IsName t) :
    isOperand (nameOf t).name = true :=
  isOperand_iff.2 ⟨isName_of_fits h name.1, name.2⟩

theorem isStringText_of_fits {inner : List Token} (h : ∀ t ∈ inner, Fits t)
    (kinds : ∀ t ∈ inner, t.kind ≠ .string) :
    isStringText (String.join (inner.map Token.value)) = true := by
  have hquote : '"' ∉ textOf inner := by
    intro hmem
    obtain ⟨t, ht, hmem⟩ := List.mem_flatMap.1 hmem
    exact quote_notMem_of_fits (h t ht) (kinds t ht) hmem
  rw [isStringText, toList_join_value]
  simpa using hquote

/-- An expression that is derived from tokens of a source is well-formed. -/
theorem wellFormed_of_isExpr {ts : List Token} {e : Expr} (h : IsExpr ts e)
    (fits : ∀ t ∈ ts, Fits t) : e.wellFormed = true := by
  induction h with
  | number kind => exact isNumber_of_fits (fits _ List.mem_cons_self) kind
  | string opens inside closes =>
    exact isStringText_of_fits (fun t ht => fits t (by simp [ht])) inside
  | bool kind word => rfl
  | var name => exact isOperand_of_isName (fits _ List.mem_cons_self) name
  | call name kinds => exact isOperand_of_isName (fits _ List.mem_cons_self) name
  | assign name kinds equals _ ih =>
    rw [Expr.wellFormed, Bool.and_eq_true]
    exact ⟨isOperand_of_isName (fits _ List.mem_cons_self) name,
      ih fun t ht => fits t (by simp [ht])⟩
  | @operation t before symbol after ts value name kinds differs _ ih =>
    have hkind : symbol.kind = .symbol := by
      simp only [HasKinds, List.map_cons, List.cons.injEq] at kinds
      exact kinds.2.1
    rw [Expr.wellFormed, Bool.and_eq_true, Bool.and_eq_true]
    exact ⟨⟨isOperator_of_fits (fits symbol (by simp)) hkind differs,
      isOperand_of_isName (fits _ List.mem_cons_self) name⟩, ih fun t ht => fits t (by simp [ht])⟩

/-- An expression that starts with a word of its own can stand as a statement. -/
theorem standsAlone_of_isExpr {word : Token} {ts : List Token} {e : Expr}
    (h : IsExpr (word :: ts) e) (kind : word.kind = .identifier)
    (value : word.value ∉ ["if", "print", "return"]) : e.standsAlone = true := by
  simp only [List.mem_cons, List.not_mem_nil, or_false, not_or] at value
  cases h with
  | number kind' => rw [kind] at kind'; cases kind'
  | string opens _ _ => rw [kind] at opens; cases opens
  | bool _ _ => rfl
  | _ => simp [Expr.standsAlone, nameOf, value]

theorem wellFormedAll_of_isBlock {depth : Nat} {ts : List Token} {stmts : List Stmt}
    (h : IsBlock depth ts stmts) (fits : ∀ t ∈ ts, Fits t) : Stmt.wellFormedAll stmts = true := by
  revert fits
  -- Statements and blocks together, the tokens of a part being among those of the whole.
  refine @IsBlock.rec (fun _ ts s _ => (∀ t ∈ ts, Fits t) → s.wellFormed = true)
    (fun _ ts stmts _ => (∀ t ∈ ts, Fits t) → Stmt.wellFormedAll stmts = true)
    ?branch ?print ?ret ?eval ?close ?stmt depth ts stmts h
  case branch =>
    intro depth word before condition after body e stmts kind value opens test closes block ih fits
    rw [Stmt.wellFormed, Bool.and_eq_true]
    exact ⟨wellFormed_of_isExpr test fun t ht => fits t (by simp [ht]),
      ih fun t ht => fits t (by simp [ht])⟩
  case print =>
    intro depth word space ts e kinds value test fits
    exact wellFormed_of_isExpr test fun t ht => fits t (by simp [ht])
  case ret =>
    intro depth word space ts e kinds value test fits
    exact wellFormed_of_isExpr test fun t ht => fits t (by simp [ht])
  case eval =>
    intro depth word ts e kind value test fits
    rw [Stmt.wellFormed, Bool.and_eq_true]
    exact ⟨wellFormed_of_isExpr test fits, standsAlone_of_isExpr test kind value⟩
  case close =>
    intro depth lines tabs brace empty margin kind fits
    rfl
  case stmt =>
    intro depth lines tabs ts more line first rest empty margin head kind tail ih ih' fits
    rw [Stmt.wellFormedAll, Bool.and_eq_true]
    exact ⟨ih fun t ht => fits t (by simp [ht]), ih' fun t ht => fits t (by simp [ht])⟩

theorem wellFormed_of_isProgram {ts : List Token} {fs : List Function} (h : IsProgram ts fs)
    (fits : ∀ t ∈ ts, Fits t) : ∀ f ∈ fs, f.wellFormed = true := by
  induction h with
  | nil => exact nofun
  | blank _ _ ih => exact ih fun t ht => fits t (List.mem_cons_of_mem _ ht)
  | comment _ _ _ _ ih => exact ih fun t ht => fits t (by simp [ht])
  | @function name line header block ts body fs kind opens inside ends _ ih =>
    intro f hf
    rcases List.mem_cons.1 hf with rfl | hf
    · rw [Function.wellFormed, Bool.and_eq_true]
      exact ⟨isName_of_fits (fits name List.mem_cons_self) kind,
        wellFormedAll_of_isBlock inside fun t ht => fits t (by simp [ht])⟩
    · exact ih (fun t ht => fits t (by simp [ht])) f hf

/-- A program read from a source is well formed. -/
theorem wellFormed_of_functions_lex {source : String} {fs : List Function}
    (h : Parse.functions (lex source) = .ok fs) : (⟨fs⟩ : Program).wellFormed = true := by
  rw [Program.wellFormed, List.all_eq_true]
  exact wellFormed_of_isProgram (Parse.isProgram_of_functions h) fun t => fits_of_mem_lex

/-- What can be read from a source is well-formed. -/
theorem wellFormed_of_parse_lex {source : String} {p : Program}
    (h : Program.parse (lex source) = .ok p) : p.wellFormed = true := by
  obtain ⟨fs, hfs, h⟩ := Parse.bind_eq_ok_iff.1 h
  cases h
  exact wellFormed_of_functions_lex hfs

/-! ## The expressions of a well-formed tree -/

theorem wellFormed_of_mem_nodes {e n : Expr} (h : e.wellFormed = true) (hn : n ∈ e.nodes) :
    n.wellFormed = true := by
  induction e with
  | assign target value pos ih =>
    rcases List.mem_cons.1 hn with rfl | hn
    · exact h
    · rw [Expr.wellFormed, Bool.and_eq_true] at h
      exact ih h.2 hn
  | operation operator lhs rhs pos ih =>
    rcases List.mem_cons.1 hn with rfl | hn
    · exact h
    · rw [Expr.wellFormed, Bool.and_eq_true] at h
      exact ih h.2 hn
  | _ =>
    obtain rfl := List.mem_singleton.1 hn
    exact h

mutual

theorem wellFormed_of_mem_exprs : (s : Stmt) → s.wellFormed = true → {e : Expr} → e ∈ s.exprs →
    e.wellFormed = true
  | .branch condition body, h, e, he => by
    rw [Stmt.wellFormed, Bool.and_eq_true] at h
    rw [Stmt.exprs, List.mem_append] at he
    rcases he with he | he
    · exact wellFormed_of_mem_nodes h.1 he
    · exact wellFormed_of_mem_exprsAll body h.2 he
  | .print value, h, e, he => wellFormed_of_mem_nodes h he
  | .ret value, h, e, he => wellFormed_of_mem_nodes h he
  | .eval value, h, e, he => by
    rw [Stmt.wellFormed, Bool.and_eq_true] at h
    exact wellFormed_of_mem_nodes h.1 he

theorem wellFormed_of_mem_exprsAll : (stmts : List Stmt) → Stmt.wellFormedAll stmts = true →
    {e : Expr} → e ∈ Stmt.exprsAll stmts → e.wellFormed = true
  | [], h, e, he => absurd he List.not_mem_nil
  | stmt :: rest, h, e, he => by
    rw [Stmt.wellFormedAll, Bool.and_eq_true] at h
    rw [Stmt.exprsAll, List.mem_append] at he
    rcases he with he | he
    · exact wellFormed_of_mem_exprs stmt h.1 he
    · exact wellFormed_of_mem_exprsAll rest h.2 he

end

theorem Program.wellFormed_of_mem_exprs {p : Program} (h : p.wellFormed = true) {e : Expr}
    (he : e ∈ p.exprs) : e.wellFormed = true := by
  rw [Program.wellFormed, List.all_eq_true] at h
  obtain ⟨f, hf, he⟩ := List.mem_flatMap.1 he
  have hbody := h f hf
  rw [Function.wellFormed, Bool.and_eq_true] at hbody
  exact wellFormed_of_mem_exprsAll f.body hbody.2 he

end Tabscript
