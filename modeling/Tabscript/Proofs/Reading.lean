import Mathlib.Data.List.TakeWhile
import Tabscript.Tree.Grammar
import Tabscript.Tree.Parser

/-!
# What the small readers read

The readers of single tokens, of fixed runs of tokens and of line starts succeed exactly on the
tokens that have the right kinds, and then they leave exactly what follows those. The statements
are equivalences, so the same lemma serves to take a reading apart and to put one together.

* `expect_eq_ok_iff` and `consume_eq_ok_iff` are about tokens of given kinds.
* `upTo_eq_ok_iff` is about everything before the next token of a given kind.
* `lineStart_eq_ok_iff` is about the empty lines, the tabs and the brace or tab that start a line
  of a block.
* `parse_expr_eq_ok_iff` is about a single expression and the line break that may follow it.
-/

namespace Tabscript

/-! ## Keywords -/

/-- The word of a keyword. -/
def Keyword.word : Keyword → String
  | ifWord => "if"
  | printWord => "print"
  | returnWord => "return"
  | trueWord => "true"
  | falseWord => "false"

theorem Keyword.ofWord?_eq_some_iff {word : String} {k : Keyword} :
    Keyword.ofWord? word = some k ↔ word = k.word := by
  constructor
  · intro h
    unfold Keyword.ofWord? at h
    split at h <;> cases h <;> rfl
  · rintro rfl
    cases k <;> rfl

/-- A word that starts no statement of its own kind is none of the keywords that do. -/
theorem Keyword.ofWord?_ne_some {word : String} (h : word ∉ ["if", "print", "return"]) :
    ofWord? word ≠ some ifWord ∧ ofWord? word ≠ some printWord ∧
      ofWord? word ≠ some returnWord := by
  simp only [List.mem_cons, List.not_mem_nil, or_false, not_or] at h
  simpa only [ne_eq, ofWord?_eq_some_iff, Keyword.word] using h

/-- The words that stand for truth values. -/
theorem Keyword.truth?_eq_some_iff {word : String} {value : Bool} :
    truth? word = some value ↔ word = if value then "true" else "false" := by
  constructor
  · intro h
    unfold truth? at h
    split at h
    · rename_i hword
      cases h
      exact ofWord?_eq_some_iff.1 hword
    · rename_i hword
      cases h
      exact ofWord?_eq_some_iff.1 hword
    · cases h
  · rintro rfl
    cases value <;> rfl

theorem Keyword.truth?_eq_none_iff {word : String} :
    truth? word = none ↔ word ∉ ["true", "false"] := by
  rw [Option.eq_none_iff_forall_ne_some, Bool.forall_bool, ne_eq, ne_eq, truth?_eq_some_iff,
    truth?_eq_some_iff, List.mem_cons, List.mem_singleton, not_or, and_comm]
  rfl

/-! ## Expressions and kinds -/

/-- The expression that a name, a symbol and a value form. -/
def Expr.binary (name : Ident) (symbol : String) (value : Expr) : Expr :=
  if symbol = "=" then .assign name value name.pos else .operation symbol name value name.pos

namespace Grammar

theorem hasKinds_nil {ts : List Token} : HasKinds ts [] ↔ ts = [] := List.map_eq_nil_iff

theorem hasKinds_cons {ts : List Token} {kind : TokenKind} {kinds : List TokenKind} :
    HasKinds ts (kind :: kinds) ↔
      ∃ t rest, ts = t :: rest ∧ t.kind = kind ∧ HasKinds rest kinds := by
  simp only [HasKinds, List.map_eq_cons_iff]

theorem hasKinds_singleton {ts : List Token} {kind : TokenKind} :
    HasKinds ts [kind] ↔ ∃ t, ts = [t] ∧ t.kind = kind := List.map_eq_singleton_iff

theorem HasKinds.append {ts us : List Token} {kinds kinds' : List TokenKind}
    (h : HasKinds ts kinds) (h' : HasKinds us kinds') : HasKinds (ts ++ us) (kinds ++ kinds') := by
  rw [HasKinds, List.map_append, h, h']

/-- A name is no word that the reader of expressions takes for a truth value. -/
theorem IsName.truth?_eq_none {t : Token} (name : IsName t) : Keyword.truth? t.value = none :=
  Keyword.truth?_eq_none_iff.2 name.2

end Grammar

namespace Parse

open Grammar

theorem refuse_ne_ok {α : Type} {expected : List TokenKind} {ts : List Token} {a : α} :
    refuse expected ts ≠ .ok a := by
  cases ts <;> exact nofun

/-! ## Sequences of readers

A reading is taken apart into what was read and what is left, so that no proof has to carry the
fact that something was read. -/

@[simp] theorem ok_bind {ε α β : Type} (a : α) (f : α → Except ε β) : (.ok a >>= f) = f a := rfl

@[simp] theorem error_bind {ε α β : Type} (e : ε) (f : α → Except ε β) :
    (.error e >>= f) = .error e := rfl

theorem refuse_bind {α β : Type} (expected : List TokenKind) (ts : List Token)
    (f : α → Except ParseError β) : (refuse expected ts >>= f) = refuse expected ts := by
  cases ts <;> rfl

/-- A sequence succeeds exactly if both of its steps do. -/
theorem bind_eq_ok_iff {ε α β : Type} {x : Except ε α} {f : α → Except ε β} {b : β} :
    x >>= f = .ok b ↔ ∃ a, x = .ok a ∧ f a = .ok b := by
  cases x with
  | error e => simp
  | ok a => simp

theorem mapError_eq_ok_iff {ε ε' α : Type} {x : Except ε α} {f : ε → ε'} {a : α} :
    x.mapError f = .ok a ↔ x = .ok a := by
  cases x <;> simp [Except.mapError]

theorem mapError_eq_error_iff {ε ε' α : Type} {x : Except ε α} {f : ε → ε'} {e' : ε'} :
    x.mapError f = .error e' ↔ ∃ e, x = .error e ∧ f e = e' := by
  cases x <;> simp [Except.mapError]

theorem mapError_bind {ε ε' α β : Type} (g : ε → ε') (x : Except ε α) (f : α → Except ε β) :
    (x >>= f).mapError g = x.mapError g >>= fun a => (f a).mapError g := by
  cases x <;> rfl

theorem bind_parsed_eq_ok_iff {α β : Type} {ts : List Token} {b : β}
    {x : Except ParseError (Parsed α ts)} {f : Parsed α ts → Except ParseError β} :
    x >>= f = .ok b ↔
      ∃ value rest shorter, x = .ok ⟨value, rest, shorter⟩ ∧ f ⟨value, rest, shorter⟩ = .ok b := by
  rw [bind_eq_ok_iff]
  exact ⟨fun ⟨r, h⟩ => ⟨r.value, r.rest, r.shorter, h⟩, fun ⟨_, _, _, h⟩ => ⟨_, h⟩⟩

theorem bind_consumed_eq_ok_iff {β : Type} {kinds : List TokenKind} {ts : List Token} {b : β}
    {x : Except ParseError (Consumed kinds ts)} {f : Consumed kinds ts → Except ParseError β} :
    x >>= f = .ok b ↔
      ∃ rest length_le, x = .ok ⟨rest, length_le⟩ ∧ f ⟨rest, length_le⟩ = .ok b := by
  rw [bind_eq_ok_iff]
  exact ⟨fun ⟨r, h⟩ => ⟨r.rest, r.length_le, h⟩, fun ⟨_, _, h⟩ => ⟨_, h⟩⟩

/-! ## Tokens -/

theorem expect_eq_ok_iff {kind : TokenKind} {t : Token} {ts rest : List Token}
    {shorter : rest.length < ts.length} :
    expect kind ts = .ok ⟨t, rest, shorter⟩ ↔ ts = t :: rest ∧ t.kind = kind := by
  cases ts with
  | nil => simp [expect, refuse]
  | cons u us =>
    by_cases hu : u.kind = kind
    · simp only [expect, hu, if_true, Except.ok.injEq, Parsed.mk.injEq, List.cons.injEq]
      exact ⟨fun ⟨ht, hrest⟩ => ⟨⟨ht, hrest⟩, ht ▸ hu⟩, And.left⟩
    · simp only [expect, hu, if_false, refuse, List.cons.injEq, false_iff, reduceCtorEq]
      rintro ⟨⟨rfl, -⟩, hkind⟩
      exact hu hkind

theorem length_add_le_of_hasKinds {ts rest : List Token} {kinds : List TokenKind}
    (h : HasKinds ts kinds) : rest.length + kinds.length ≤ (ts ++ rest).length := by
  rw [← h, List.length_map, List.length_append, Nat.add_comm]

/-- A run of tokens is read exactly if it has the kinds. -/
theorem consume_eq_ok_iff {kinds : List TokenKind} {ts rest : List Token}
    {length_le : rest.length + kinds.length ≤ ts.length} :
    consume kinds ts = .ok ⟨rest, length_le⟩ ↔ ∃ read, HasKinds read kinds ∧ ts = read ++ rest := by
  induction kinds generalizing ts rest with
  | nil =>
    simp only [consume, Except.ok.injEq, Consumed.mk.injEq, hasKinds_nil, exists_eq_left,
      List.nil_append]
  | cons kind kinds ih =>
    simp only [consume, bind_parsed_eq_ok_iff, bind_consumed_eq_ok_iff, expect_eq_ok_iff, ih,
      hasKinds_cons, Except.ok.injEq, Consumed.mk.injEq]
    constructor
    · rintro ⟨t, _, _, ⟨rfl, hkind⟩, rest, _, ⟨read, hread, rfl⟩, rfl⟩
      exact ⟨t :: read, ⟨t, read, rfl, hkind, hread⟩, rfl⟩
    · rintro ⟨_, ⟨t, read, rfl, hkind, hread⟩, rfl⟩
      exact ⟨t, read ++ rest, Nat.lt_succ_self _, ⟨rfl, hkind⟩, rest,
        length_add_le_of_hasKinds hread, ⟨read, hread, rfl⟩, rfl⟩

/-- What is read is everything before the first token of the kind, and that token is taken too. -/
theorem upTo_eq_ok_iff {kind : TokenKind} {ts inner rest : List Token}
    {shorter : rest.length < ts.length} :
    upTo kind ts = .ok ⟨inner, rest, shorter⟩ ↔
      (∀ t ∈ inner, t.kind ≠ kind) ∧ ∃ t, t.kind = kind ∧ ts = inner ++ t :: rest := by
  constructor
  · intro h
    unfold upTo at h
    split at h
    · cases h
    · rename_i t rest hdrop
      cases h
      have hkind := List.head?_dropWhile_not (fun t : Token => decide (t.kind ≠ kind)) ts
      rw [hdrop] at hkind
      refine ⟨fun u hu => by simpa using List.mem_takeWhile_imp hu, t, by simpa using hkind, ?_⟩
      rw [← hdrop, List.takeWhile_append_dropWhile]
  · rintro ⟨hinner, t, hkind, rfl⟩
    have hpos : ∀ u ∈ inner, decide (u.kind ≠ kind) = true := fun u hu => by simpa using hinner u hu
    have hdrop : (inner ++ t :: rest).dropWhile (·.kind ≠ kind) = t :: rest := by
      rw [List.dropWhile_append_of_pos hpos, List.dropWhile_cons_of_neg (by simpa using hkind)]
    have htake : (inner ++ t :: rest).takeWhile (·.kind ≠ kind) = inner := by
      rw [List.takeWhile_append_of_pos hpos, List.takeWhile_cons_of_neg (by simpa using hkind),
        List.append_nil]
    unfold upTo
    split
    · rename_i h
      cases hdrop.symm.trans h
    · rename_i h
      cases hdrop.symm.trans h
      simp only [htake]

/-- The reading fails exactly if no token has the kind. -/
theorem upTo_eq_error_iff {kind : TokenKind} {ts : List Token} {e : ParseError} :
    upTo kind ts = .error e ↔ e = .endOfInput [kind] ∧ ∀ t ∈ ts, t.kind ≠ kind := by
  have hnil : ts.dropWhile (·.kind ≠ kind) = [] ↔ ∀ t ∈ ts, t.kind ≠ kind := by
    simp only [List.dropWhile_eq_nil_iff, decide_eq_true_eq]
  unfold upTo
  split
  · rename_i h
    rw [← hnil, Except.error.injEq, eq_comm]
    exact ⟨fun he => ⟨he, h⟩, And.left⟩
  · rename_i h
    exact ⟨nofun, fun he => nomatch h.symm.trans (hnil.2 he.2)⟩

theorem upTo_cons_of_eq {kind : TokenKind} {t : Token} (ts : List Token) (h : t.kind = kind) :
    upTo kind (t :: ts) = .ok ⟨[], ts, Nat.lt_succ_self _⟩ :=
  upTo_eq_ok_iff.2 ⟨nofun, t, h, rfl⟩

theorem upTo_cons_of_ne {kind : TokenKind} {t : Token} (ts : List Token) (h : t.kind ≠ kind) :
    upTo kind (t :: ts) = upTo kind ts >>= fun inner =>
      .ok ⟨t :: inner.value, inner.rest, Nat.lt_succ_of_lt inner.shorter⟩ := by
  cases hread : upTo kind ts with
  | error e =>
    obtain ⟨rfl, hts⟩ := upTo_eq_error_iff.1 hread
    exact upTo_eq_error_iff.2 ⟨rfl, List.forall_mem_cons.2 ⟨h, hts⟩⟩
  | ok inner =>
    obtain ⟨hinner, u, hu, heq⟩ := upTo_eq_ok_iff.1 hread
    exact upTo_eq_ok_iff.2 ⟨List.forall_mem_cons.2 ⟨h, hinner⟩, u, hu, congrArg (t :: ·) heq⟩

/-! ## Line starts -/

theorem braceOrTab_eq_ok_iff {more : Bool} {ts rest : List Token}
    {shorter : rest.length < ts.length} :
    braceOrTab ts = .ok ⟨more, rest, shorter⟩ ↔
      ∃ t, t.kind = (if more then .indent else .braceClose) ∧ ts = t :: rest := by
  constructor
  · intro h
    unfold braceOrTab at h
    split at h
    · cases h
      exact ⟨_, rfl, rfl⟩
    · cases h
      exact ⟨_, rfl, rfl⟩
    · exact absurd h refuse_ne_ok
  · rintro ⟨⟨kind, value, pos⟩, hkind, rfl⟩
    cases more <;> cases hkind <;> rfl

/-- Neither a tab nor a closing brace is a line break, so the empty lines end before them. -/
theorem dropWhile_line {lines tabs : List Token} (rest : List Token) {t : Token} {depth : Nat}
    (hlines : ∀ line ∈ lines, line.kind = .line)
    (htabs : HasKinds tabs (List.replicate depth .indent)) (ht : t.kind ≠ .line) :
    (lines ++ tabs ++ t :: rest).dropWhile (·.kind = .line) = tabs ++ t :: rest := by
  rw [List.append_assoc, List.dropWhile_append_of_pos fun u hu => by simpa using hlines u hu]
  cases depth with
  | zero =>
    rw [hasKinds_nil.1 htabs]
    exact List.dropWhile_cons_of_neg (by simpa using ht)
  | succ depth =>
    obtain ⟨tab, tabs, rfl, htab, -⟩ := hasKinds_cons.1 htabs
    exact List.dropWhile_cons_of_neg (by simp [htab])

/-- A line starts with any number of empty lines, its tabs, and one more tab or the brace. -/
theorem lineStart_eq_ok_iff {depth : Nat} {more : Bool} {ts rest : List Token}
    {shorter : rest.length < ts.length} :
    lineStart depth ts = .ok ⟨more, rest, shorter⟩ ↔
      ∃ lines tabs t, (∀ line ∈ lines, line.kind = .line) ∧
        HasKinds tabs (List.replicate depth .indent) ∧
        t.kind = (if more then .indent else .braceClose) ∧ ts = lines ++ tabs ++ t :: rest := by
  simp only [lineStart, bind_parsed_eq_ok_iff, bind_consumed_eq_ok_iff, consume_eq_ok_iff,
    braceOrTab_eq_ok_iff, Except.ok.injEq, Parsed.mk.injEq]
  constructor
  · rintro ⟨_, _, ⟨tabs, htabs, hdrop⟩, more, rest, _, ⟨t, hkind, rfl⟩, rfl, rfl⟩
    refine ⟨ts.takeWhile (·.kind = .line), tabs, t, ?_, htabs, hkind, ?_⟩
    · exact fun line h => by simpa using List.mem_takeWhile_imp h
    · rw [List.append_assoc, ← hdrop, List.takeWhile_append_dropWhile]
  · rintro ⟨lines, tabs, t, hlines, htabs, hkind, rfl⟩
    have ht : t.kind ≠ .line := by
      rw [hkind]
      cases more <;> nofun
    have hdrop := dropWhile_line rest hlines htabs ht
    exact ⟨t :: rest, hdrop ▸ length_add_le_of_hasKinds htabs, ⟨tabs, htabs, hdrop⟩, more, rest,
      Nat.lt_succ_self _, ⟨t, hkind, rfl⟩, rfl, rfl⟩

/-! ## Expressions -/

theorem expr_number {t : Token} (ts : List Token) (kind : t.kind = .number) :
    expr (t :: ts) = .ok ⟨.number t.value t.pos, ts, Nat.lt_succ_self _⟩ := by
  obtain ⟨_, text, pos⟩ := t
  cases kind
  rw [expr]

theorem expr_string {t : Token} (ts : List Token) (kind : t.kind = .string) :
    expr (t :: ts) = stringText ts >>= fun text =>
      .ok ⟨.string text.value t.pos, text.rest, Nat.lt_succ_of_lt text.shorter⟩ := by
  obtain ⟨_, text, pos⟩ := t
  cases kind
  rw [expr]

theorem expr_bool {t : Token} {value : Bool} (ts : List Token) (kind : t.kind = .identifier)
    (truth : Keyword.truth? t.value = some value) :
    expr (t :: ts) = .ok ⟨.bool value t.pos, ts, Nat.lt_succ_self _⟩ := by
  obtain ⟨_, word, pos⟩ := t
  cases kind
  rw [expr.eq_def]
  simp only [truth]

/-- The token behind a variable is looked at and left. -/
theorem expr_var {t next : Token} (ts : List Token) (name : IsName t)
    (kind : next.kind = .line ∨ next.kind = .parenClose) :
    expr (t :: next :: ts) = .ok ⟨.var (nameOf t) t.pos, next :: ts, Nat.lt_succ_self _⟩ := by
  obtain ⟨_, word, pos⟩ := t
  obtain ⟨_, text, pos'⟩ := next
  have truth : Keyword.truth? word = none := name.truth?_eq_none
  obtain ⟨kind', -⟩ := name
  cases kind'
  rcases kind with kind | kind
  all_goals
    cases kind
    rw [expr.eq_def]
    simp only [truth, nameOf]

theorem expr_call {t next : Token} (ts : List Token) (name : IsName t)
    (kind : next.kind = .parenOpen) :
    expr (t :: next :: ts) = consume [.parenClose] ts >>= fun close =>
      .ok ⟨.call (nameOf t) t.pos, close.rest,
        Nat.lt_succ_of_lt (Nat.lt_succ_of_le close.le)⟩ := by
  obtain ⟨_, word, pos⟩ := t
  obtain ⟨_, text, pos'⟩ := next
  have truth : Keyword.truth? word = none := name.truth?_eq_none
  obtain ⟨kind', -⟩ := name
  cases kind'
  cases kind
  rw [expr.eq_def]
  simp only [truth, nameOf]

theorem expr_binary {t next : Token} (ts : List Token) (name : IsName t)
    (kind : next.kind = .space) :
    expr (t :: next :: ts) = expect .symbol ts >>= fun symbol =>
      consume [.space] symbol.rest >>= fun space => expr space.rest >>= fun value =>
      .ok ⟨.binary (nameOf t) symbol.value.value value.value, value.rest,
        Nat.lt_trans value.shorter
          (Nat.lt_of_le_of_lt space.le (Nat.lt_add_right 2 symbol.shorter))⟩ := by
  obtain ⟨_, word, pos⟩ := t
  obtain ⟨_, text, pos'⟩ := next
  have truth : Keyword.truth? word = none := name.truth?_eq_none
  obtain ⟨kind', -⟩ := name
  cases kind'
  cases kind
  rw [expr.eq_def]
  simp only [truth, nameOf, Expr.binary]
  congr! 7 with symbol space value
  split <;> rfl

/-- A name has to be followed by something, also at the end of the tokens. -/
theorem expr_bare {t : Token} {ts : List Token} (name : IsName t)
    (kinds : ∀ next ∈ ts.head?, next.kind ∉ [.line, .parenClose, .parenOpen, .space]) :
    expr (t :: ts) = refuse [.line, .parenClose, .parenOpen, .space] ts := by
  obtain ⟨_, word, pos⟩ := t
  have truth : Keyword.truth? word = none := name.truth?_eq_none
  obtain ⟨kind', -⟩ := name
  cases kind'
  rw [expr.eq_def]
  simp only [truth]
  split <;> simp_all

theorem expr_refuse {ts : List Token}
    (kinds : ∀ t ∈ ts.head?, t.kind ∉ [.identifier, .number, .string]) :
    expr ts = refuse [.identifier, .number, .string] ts := by
  rw [expr.eq_def]
  split <;> simp_all

/-- The ways in which the reader of expressions goes on, as an induction principle. -/
@[elab_as_elim]
theorem expr_induction {motive : List Token → Prop}
    (number : ∀ t ts, t.kind = .number → motive (t :: ts))
    (string : ∀ t ts, t.kind = .string → motive (t :: ts))
    (bool : ∀ t ts value, t.kind = .identifier → Keyword.truth? t.value = some value →
      motive (t :: ts))
    (var : ∀ t next ts, IsName t → next.kind = .line ∨ next.kind = .parenClose →
      motive (t :: next :: ts))
    (call : ∀ t next ts, IsName t → next.kind = .parenOpen → motive (t :: next :: ts))
    (binary : ∀ t next ts, IsName t → next.kind = .space →
      (∀ us : List Token, us.length < ts.length → motive us) → motive (t :: next :: ts))
    (bare : ∀ t ts, IsName t →
      (∀ next ∈ ts.head?, next.kind ∉ [.line, .parenClose, .parenOpen, .space]) →
      motive (t :: ts))
    (refused : ∀ ts : List Token, (∀ t ∈ ts.head?, t.kind ∉ [.identifier, .number, .string]) →
      motive ts)
    (ts : List Token) : motive ts := by
  induction hn : ts.length using Nat.strongRecOn generalizing ts with
  | ind n ih =>
    subst hn
    rcases ts with _ | ⟨t, ts⟩
    · exact refused [] nofun
    by_cases hnumber : t.kind = .number
    · exact number t ts hnumber
    by_cases hstring : t.kind = .string
    · exact string t ts hstring
    by_cases hword : t.kind ≠ .identifier
    · exact refused _ (by simp [hnumber, hstring, hword])
    rw [ne_eq, not_not] at hword
    cases truth : Keyword.truth? t.value with
    | some value => exact bool t ts value hword truth
    | none =>
      have name : IsName t := ⟨hword, Keyword.truth?_eq_none_iff.1 truth⟩
      rcases ts with _ | ⟨next, ts⟩
      · exact bare t [] name nofun
      by_cases hend : next.kind = .line ∨ next.kind = .parenClose
      · exact var t next ts name hend
      by_cases hopen : next.kind = .parenOpen
      · exact call t next ts name hopen
      by_cases hspace : next.kind = .space
      · refine binary t next ts name hspace fun us hus => ih us.length ?_ us rfl
        simp only [List.length_cons]
        omega
      · exact bare t _ name (by simp_all)

/-! ## Single expressions -/

/-- The tokens behind a line break, or all of them if they start with none. -/
def afterLine : List Token → List Token
  | [] => []
  | t :: ts => if t.kind = .line then ts else t :: ts

theorem afterLine_eq_nil_iff {ts : List Token} :
    afterLine ts = [] ↔ ts = [] ∨ ∃ line, ts = [line] ∧ line.kind = .line := by
  cases ts with
  | nil => simp [afterLine]
  | cons t ts =>
    by_cases kind : t.kind = .line
    · simp only [afterLine, kind, if_true, List.cons.injEq, reduceCtorEq, false_or]
      exact ⟨fun h => ⟨t, ⟨rfl, h⟩, kind⟩, fun ⟨_, h, _⟩ => h.2⟩
    · simp [afterLine, kind]

theorem parse_expr_eq (ts : List Token) :
    Expr.parse ts = expr ts >>= fun read =>
      match afterLine read.rest with
      | [] => .ok read.value
      | t :: _ => .error (.unexpected t []) := by
  unfold Expr.parse
  congr 1
  funext ⟨value, rest, shorter⟩
  rcases rest with _ | ⟨⟨kind, text, pos⟩, rest⟩
  · rfl
  · cases kind <;> rfl

/-- An expression is read to its end, and one line break may follow. -/
theorem parse_expr_eq_ok_iff {ts : List Token} {e : Expr} :
    Expr.parse ts = .ok e ↔
      ∃ rest shorter, expr ts = .ok ⟨e, rest, shorter⟩ ∧ afterLine rest = [] := by
  rw [parse_expr_eq, bind_parsed_eq_ok_iff]
  constructor
  · rintro ⟨value, rest, shorter, hread, hend⟩
    cases hrest : afterLine rest with
    | nil =>
      simp only [hrest, Except.ok.injEq] at hend
      exact ⟨rest, shorter, hend ▸ hread, hrest⟩
    | cons t ts => simp [hrest] at hend
  · rintro ⟨rest, shorter, hread, hrest⟩
    exact ⟨e, rest, shorter, hread, by simp only [hrest]⟩

/-! ## Statements -/

theorem stmt_refuse {depth : Nat} {ts : List Token} (kind : ∀ t ∈ ts.head?, t.kind ≠ .identifier) :
    stmt depth ts = refuse [.identifier] ts := by
  rw [stmt]
  cases ts with
  | nil => rfl
  | cons t ts =>
    have hkind : t.kind ≠ .identifier := kind t rfl
    rw [expect, if_neg hkind]
    rfl

theorem stmt_if {depth : Nat} {word : Token} (ts : List Token) (kind : word.kind = .identifier)
    (value : word.value = "if") :
    stmt depth (word :: ts) = consume [.space, .parenOpen] ts >>= fun header =>
      expr header.rest >>= fun condition =>
      consume [.parenClose, .space, .braceOpen, .line] condition.rest >>= fun opened =>
      block (depth + 1) opened.rest >>= fun body =>
      .ok ⟨.branch condition.value body.value, body.rest,
        Nat.lt_trans body.shorter (Nat.lt_of_le_of_lt opened.le
          (Nat.lt_trans condition.shorter (Nat.lt_succ_of_le header.le)))⟩ := by
  have hword : Keyword.ofWord? word.value = some .ifWord := Keyword.ofWord?_eq_some_iff.2 value
  rw [stmt, expect, if_pos kind]
  simp only [ok_bind, hword]

/-- The statements that are a word, a space and an expression: printing and returning. -/
def IsWordStmt (word : Token) (build : Expr → Stmt) : Prop :=
  word.kind = .identifier ∧
    (word.value = "print" ∧ build = .print ∨ word.value = "return" ∧ build = .ret)

theorem stmt_word {depth : Nat} {word : Token} {build : Expr → Stmt} (ts : List Token)
    (h : IsWordStmt word build) :
    stmt depth (word :: ts) = consume [.space] ts >>= fun space => expr space.rest >>= fun value =>
      .ok ⟨build value.value, value.rest,
        Nat.lt_trans value.shorter (Nat.lt_succ_of_le space.le)⟩ := by
  obtain ⟨kind, h⟩ := h
  rw [stmt, expect, if_pos kind]
  rcases h with ⟨value, rfl⟩ | ⟨value, rfl⟩
  · have hword := (Keyword.ofWord?_eq_some_iff (k := .printWord)).2 value
    simp only [ok_bind, hword]
  · have hword := (Keyword.ofWord?_eq_some_iff (k := .returnWord)).2 value
    simp only [ok_bind, hword]

/-- A word that starts no other statement is read again as the start of an expression. -/
theorem stmt_eval {depth : Nat} {word : Token} (ts : List Token) (kind : word.kind = .identifier)
    (value : word.value ∉ ["if", "print", "return"]) :
    stmt depth (word :: ts) = expr (word :: ts) >>= fun value =>
      .ok ⟨.eval value.value, value.rest, value.shorter⟩ := by
  obtain ⟨hif, hprint, hreturn⟩ := Keyword.ofWord?_ne_some value
  rw [stmt, expect, if_pos kind]
  -- the three facts rule out the other rows of the match
  simp only [ok_bind]

/-- The ways in which the reader of statements goes on, as a case analysis. -/
@[elab_as_elim]
theorem stmt_cases {motive : List Token → Prop}
    (branch : ∀ word ts, word.kind = .identifier → word.value = "if" → motive (word :: ts))
    (word : ∀ word build ts, IsWordStmt word build → motive (word :: ts))
    (eval : ∀ word ts, word.kind = .identifier → word.value ∉ ["if", "print", "return"] →
      motive (word :: ts))
    (refused : ∀ ts : List Token, (∀ t ∈ ts.head?, t.kind ≠ .identifier) → motive ts)
    (ts : List Token) : motive ts := by
  rcases ts with _ | ⟨t, ts⟩
  · exact refused [] nofun
  by_cases kind : t.kind ≠ .identifier
  · exact refused _ (by simpa using kind)
  rw [ne_eq, not_not] at kind
  by_cases hif : t.value = "if"
  · exact branch t ts kind hif
  by_cases hprint : t.value = "print"
  · exact word t .print ts ⟨kind, .inl ⟨hprint, rfl⟩⟩
  by_cases hreturn : t.value = "return"
  · exact word t .ret ts ⟨kind, .inr ⟨hreturn, rfl⟩⟩
  · exact eval t ts kind (by simp [hif, hprint, hreturn])

/-! ## Functions -/

theorem functions_comment {mark : Token} (ts : List Token) (kind : mark.kind = .comment) :
    functions (mark :: ts) = comment ts >>= fun skipped => functions skipped.rest := by
  obtain ⟨_, text, pos⟩ := mark
  cases kind
  rw [functions]

theorem functions_function {name : Token} (ts : List Token) (kind : name.kind = .identifier) :
    functions (name :: ts) = function (nameOf name) ts >>= fun first =>
      functions first.rest >>= fun more => .ok (first.value :: more) := by
  obtain ⟨_, text, pos⟩ := name
  cases kind
  rw [functions]
  rfl

theorem functions_line {line : Token} (ts : List Token) (kind : line.kind = .line) :
    functions (line :: ts) = functions ts := by
  obtain ⟨_, text, pos⟩ := line
  cases kind
  rw [functions]

theorem functions_refuse {t : Token} (ts : List Token)
    (kinds : t.kind ∉ [.comment, .identifier, .line]) :
    functions (t :: ts) = refuse [.comment, .identifier, .line] (t :: ts) := by
  rw [functions.eq_def]
  split <;> simp_all

/-- The ways in which the reader of functions goes on, as an induction principle. -/
@[elab_as_elim]
theorem functions_induction {motive : List Token → Prop} (nil : motive [])
    (comment : ∀ mark ts, mark.kind = .comment →
      (∀ us : List Token, us.length < ts.length → motive us) → motive (mark :: ts))
    (function : ∀ name ts, name.kind = .identifier →
      (∀ us : List Token, us.length < ts.length → motive us) → motive (name :: ts))
    (line : ∀ line ts, line.kind = .line → motive ts → motive (line :: ts))
    (refused : ∀ t ts, t.kind ∉ [.comment, .identifier, .line] → motive (t :: ts))
    (ts : List Token) : motive ts := by
  induction hn : ts.length using Nat.strongRecOn generalizing ts with
  | ind n ih =>
    subst hn
    rcases ts with _ | ⟨t, ts⟩
    · exact nil
    have shorter : ∀ us : List Token, us.length ≤ ts.length → motive us :=
      fun us hus => ih us.length (Nat.lt_succ_of_le hus) us rfl
    by_cases hcomment : t.kind = .comment
    · exact comment t ts hcomment fun us hus => shorter us hus.le
    by_cases hword : t.kind = .identifier
    · exact function t ts hword fun us hus => shorter us hus.le
    by_cases hline : t.kind = .line
    · exact line t ts hline (shorter ts le_rfl)
    · exact refused t ts (by simp [hcomment, hword, hline])

end Parse

end Tabscript
