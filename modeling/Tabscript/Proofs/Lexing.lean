import Mathlib.Data.List.SplitBy
import Tabscript.Proofs.Positions
import Tabscript.Token.Lexer

/-!
# What the lexer does to a text

The tokens of a text are determined by five facts that mention no scan: the texts of the tokens
make up the source, each is a word or a single other character, no two words are neighbours, each
kind follows from the token's text, and each position from the text before it.

* `lexemes_eq_iff` characterises the cut into lexemes, `lexemes_append`, `lexemes_word` and
  `lexemes_mark` compute it.
* `place_eq_iff` characterises the tokens of given lexemes.
* `lex_eq_iff_lexes` puts the two together.
-/

namespace Tabscript

/-! ## Texts of tokens -/

/-- The characters of a token. -/
def Token.text (t : Token) : List Char := t.value.toList

/-- The characters that tokens cover, one token after the other. -/
def textOf (ts : List Token) : List Char := ts.flatMap Token.text

theorem isWordChar_eq (c : Char) :
    isWordChar c = (c.isUpper || c.isLower || c.isDigit || c == '_') := rfl

/-- A word is a non-empty run of word characters. -/
def IsWord (text : List Char) : Prop := text ≠ [] ∧ ∀ c ∈ text, isWordChar c = true

instance (text : List Char) : Decidable (IsWord text) :=
  decidable_of_iff (text ≠ [] ∧ text.all isWordChar = true) (by rw [IsWord, List.all_eq_true])

theorem IsWord.notMem {text : List Char} (h : IsWord text) {c : Char} (hc : isWordChar c = false) :
    c ∉ text := by
  intro hmem
  rw [h.2 c hmem] at hc
  cases hc

/-- A mark is a single character that is no word character. -/
def IsMark (text : List Char) : Prop := ∃ c, text = [c] ∧ isWordChar c = false

@[simp] theorem textOf_nil : textOf [] = [] := rfl

@[simp] theorem textOf_cons (t : Token) (ts : List Token) :
    textOf (t :: ts) = t.text ++ textOf ts := List.flatMap_cons

theorem textOf_append (ts us : List Token) : textOf (ts ++ us) = textOf ts ++ textOf us :=
  List.flatMap_append

theorem toList_join_value (ts : List Token) :
    (String.join (ts.map Token.value)).toList = textOf ts := by
  rw [String.toList_join, List.flatMap_map]
  rfl

theorem flatten_map_text (ts : List Token) : (ts.map Token.text).flatten = textOf ts :=
  List.flatMap_def.symm

/-! ## Lexemes -/

/-- Neighbours that are not cut apart. -/
def joins (a b : Char) : Bool := isWordChar a && isWordChar b

theorem isChain_joins_of_forall {text : List Char} (h : ∀ c ∈ text, isWordChar c = true) :
    text.IsChain fun a b => joins a b := by
  induction text with
  | nil => exact .nil
  | cons c text ih =>
    refine List.isChain_cons.2 ⟨fun d hd => ?_, ih fun d hd => h d (List.mem_cons_of_mem c hd)⟩
    rw [joins, h c List.mem_cons_self, h d (List.mem_cons_of_mem c (List.mem_of_mem_head? hd))]
    rfl

theorem forall_of_isChain_joins {a b : Char} {text : List Char}
    (h : (a :: b :: text).IsChain fun a b => joins a b) :
    ∀ c ∈ a :: b :: text, isWordChar c = true := by
  induction text generalizing a b with
  | nil =>
    have := List.isChain_pair.1 h
    simpa [joins] using this
  | cons d text ih =>
    obtain ⟨hab, htail⟩ := List.isChain_cons_cons.1 h
    intro c hc
    rcases List.mem_cons.1 hc with rfl | hc
    · simp only [joins, Bool.and_eq_true] at hab
      exact hab.1
    · exact ih htail c hc

/-- The runs that are not cut are the words and the marks. -/
theorem isChain_joins_iff {text : List Char} (hne : text ≠ []) :
    text.IsChain (fun a b => joins a b) ↔ IsWord text ∨ IsMark text := by
  constructor
  · intro h
    rcases text with _ | ⟨a, _ | ⟨b, text⟩⟩
    · exact absurd rfl hne
    · cases ha : isWordChar a with
      | true => exact .inl ⟨hne, by simpa using ha⟩
      | false => exact .inr ⟨a, rfl, ha⟩
    · exact .inl ⟨hne, forall_of_isChain_joins h⟩
  · rintro (h | ⟨c, rfl, -⟩)
    · exact isChain_joins_of_forall h.2
    · exact .singleton c

/-- No lexeme is empty. -/
theorem ne_nil_of_isWord_or_isMark {text : List Char} (h : IsWord text ∨ IsMark text) :
    text ≠ [] := by
  rcases h with h | ⟨c, rfl, -⟩
  · exact h.1
  · exact List.cons_ne_nil c []

/-- A cut between two lexemes is a place where at most one of them is a word. -/
theorem joins_getLast_head_iff {a b : List Char} (ha : IsWord a ∨ IsMark a)
    (hb : IsWord b ∨ IsMark b) :
    (∃ ha hb, joins (a.getLast ha) (b.head hb) = false) ↔ ¬(IsWord a ∧ IsWord b) := by
  constructor
  · rintro ⟨hna, hnb, h⟩ ⟨hwa, hwb⟩
    rw [joins, hwa.2 _ (List.getLast_mem hna), hwb.2 _ (List.head_mem hnb)] at h
    cases h
  · intro h
    refine ⟨ne_nil_of_isWord_or_isMark ha, ne_nil_of_isWord_or_isMark hb, ?_⟩
    rcases ha with ha | ⟨c, rfl, hc⟩
    · rcases hb with hb | ⟨d, rfl, hd⟩
      · exact absurd ⟨ha, hb⟩ h
      · rw [joins, List.head_singleton, hd, Bool.and_false]
    · rw [joins, List.getLast_singleton, hc, Bool.false_and]

/-- The cut of a text into lexemes. -/
theorem lexemes_eq_iff {text : List Char} {ls : List (List Char)} :
    lexemes text = ls ↔ ls.flatten = text ∧ (∀ l ∈ ls, IsWord l ∨ IsMark l) ∧
      ls.IsChain fun a b => ¬(IsWord a ∧ IsWord b) := by
  have hsplit := List.splitBy_eq_iff (r := joins) (m := text) (l := ls)
  change lexemes text = ls ↔ _ at hsplit
  rw [hsplit, eq_comm (a := text)]
  refine and_congr_right fun _ => ?_
  have hshape : ([] ∉ ls ∧ ∀ l ∈ ls, l.IsChain fun a b => joins a b) ↔
      ∀ l ∈ ls, IsWord l ∨ IsMark l := by
    constructor
    · rintro ⟨hnil, hchain⟩ l hl
      exact (isChain_joins_iff fun h => hnil (h ▸ hl)).1 (hchain l hl)
    · intro h
      exact ⟨fun hnil => ne_nil_of_isWord_or_isMark (h [] hnil) rfl,
        fun l hl => (isChain_joins_iff (ne_nil_of_isWord_or_isMark (h l hl))).2 (h l hl)⟩
  rw [← and_assoc, hshape]
  refine and_congr_right fun h => ?_
  exact List.IsChain.iff_of_mem_imp fun a b ha hb => joins_getLast_head_iff (h a ha) (h b hb)

/-- A cut between two texts that do not join is a cut of the whole. -/
theorem lexemes_append {text more : List Char}
    (h : ∀ a ∈ text.getLast?, ∀ b ∈ more.head?, joins a b = false) :
    lexemes (text ++ more) = lexemes text ++ lexemes more := List.splitBy_append h

/-- A word ends before the first character that is no word character. -/
theorem lexemes_word {word rest : List Char} (h : IsWord word)
    (hrest : ∀ c ∈ rest.head?, isWordChar c = false) :
    lexemes (word ++ rest) = word :: lexemes rest := by
  have hword : lexemes word = [word] :=
    List.splitBy_of_isChain h.1 (isChain_joins_of_forall h.2)
  rw [lexemes_append, hword, List.singleton_append]
  intro a _ b hb
  rw [joins, hrest b hb, Bool.and_false]

/-- A character that is no word character is a lexeme of its own. -/
theorem lexemes_mark {c : Char} (rest : List Char) (h : isWordChar c = false) :
    lexemes (c :: rest) = [c] :: lexemes rest := by
  rw [← List.singleton_append, lexemes_append]
  · rfl
  · intro a ha b _
    rw [List.getLast?_singleton, Option.mem_some_iff] at ha
    rw [joins, ← ha, h, Bool.false_and]

/-! ## Kinds -/

/-- The kinds of lexemes. A word is a number if it has a digit, else a constant if it has a
capital, else an identifier; a mark has the kind by its name, and is a symbol if it has none. -/
inductive IsKind : List Char → TokenKind → Prop
  | number {text : List Char} (word : IsWord text) (digit : ∃ c ∈ text, c.isDigit = true) :
      IsKind text .number
  | constant {text : List Char} (word : IsWord text) (digits : ∀ c ∈ text, c.isDigit = false)
      (capital : ∃ c ∈ text, c.isUpper = true) : IsKind text .constant
  | identifier {text : List Char} (word : IsWord text) (digits : ∀ c ∈ text, c.isDigit = false)
      (capitals : ∀ c ∈ text, c.isUpper = false) : IsKind text .identifier
  | named {c : Char} {kind : TokenKind} (mark : isWordChar c = false)
      (name : breakKind? c = some kind) : IsKind [c] kind
  | symbol {c : Char} (mark : isWordChar c = false) (name : breakKind? c = none) :
      IsKind [c] .symbol

/-- The third rule for words is never reached: it asks for a capital, and any capital has met the
second one. -/
theorem wordKind_eq (word : List Char) :
    wordKind word = if word.any Char.isDigit then .number
      else if word.any Char.isUpper then .constant else .identifier := by
  have hpair : word.any Char.isUpper = false →
      ((word.zip word.tail).any fun pair => pair.1.isUpper && isWordChar pair.2) = false := by
    intro hcapital
    rw [List.any_eq_false] at hcapital ⊢
    rintro ⟨a, b⟩ hmem
    simp [hcapital a (List.of_mem_zip hmem).1]
  unfold wordKind
  cases hcapital : word.any Char.isUpper with
  | true => rfl
  | false =>
    rw [hpair hcapital]
    rfl

theorem lexemeKind_of_isWord {text : List Char} (h : IsWord text) :
    lexemeKind text = wordKind text := by
  rcases text with _ | ⟨c, _ | ⟨d, text⟩⟩
  · exact absurd rfl h.1
  · rw [lexemeKind, if_pos (h.2 c (List.mem_singleton_self c))]
  · rfl

theorem lexemeKind_mark {c : Char} (h : isWordChar c = false) :
    lexemeKind [c] = (breakKind? c).getD .symbol := by
  rw [lexemeKind, if_neg (by rw [h]; exact Bool.false_ne_true)]

theorem isKind_lexemeKind {text : List Char} (h : IsWord text ∨ IsMark text) :
    IsKind text (lexemeKind text) := by
  rcases h with h | ⟨c, rfl, hc⟩
  · rw [lexemeKind_of_isWord h, wordKind_eq]
    split_ifs with hdigit hcapital
    · exact .number h (by simpa using hdigit)
    · exact .constant h (by simpa using hdigit) (by simpa using hcapital)
    · exact .identifier h (by simpa using hdigit) (by simpa using hcapital)
  · rw [lexemeKind_mark hc]
    cases hname : breakKind? c with
    | none => exact .symbol hc hname
    | some kind => exact .named hc hname

/-- No lexeme has another kind than the one that is computed for it. -/
theorem lexemeKind_of_isKind {text : List Char} {kind : TokenKind} (h : IsKind text kind) :
    lexemeKind text = kind := by
  cases h with
  | number word digit =>
    rw [lexemeKind_of_isWord word, wordKind_eq, if_pos (by simpa using digit)]
  | constant word digits capital =>
    rw [lexemeKind_of_isWord word, wordKind_eq, if_neg (by simpa using digits),
      if_pos (by simpa using capital)]
  | identifier word digits capitals =>
    rw [lexemeKind_of_isWord word, wordKind_eq, if_neg (by simpa using digits),
      if_neg (by simpa using capitals)]
  | named mark name => rw [lexemeKind_mark mark, name, Option.getD_some]
  | symbol mark name => rw [lexemeKind_mark mark, name, Option.getD_none]

/-- A kind by name is none of words, and not that of symbols. -/
theorem breakKind?_ne {c : Char} {kind : TokenKind}
    (kinds : kind ∈ [.identifier, .number, .constant, .className, .symbol]) :
    breakKind? c ≠ some kind := by
  intro h
  unfold breakKind? at h
  split at h <;> cases h <;> revert kinds <;> decide

/-- A character is determined by its kind by name. -/
theorem eq_of_breakKind?_eq {c d : Char} {kind : TokenKind} (h : breakKind? c = some kind)
    (h' : breakKind? d = some kind) : c = d := by
  unfold breakKind? at h
  split at h <;> cases h
  all_goals
    unfold breakKind? at h'
    split at h' <;> cases h'
    rfl

/-- A lexeme whose kind is the one of a character by name is that character. -/
theorem eq_of_isKind {text : List Char} {c : Char} {kind : TokenKind} (h : IsKind text kind)
    (name : breakKind? c = some kind) : text = [c] := by
  cases h with
  | named mark name' => rw [eq_of_breakKind?_eq name' name]
  | _ => exact absurd name (breakKind?_ne (by decide))

/-- No lexeme has the kind of class names. -/
theorem IsKind.ne_className {text : List Char} {kind : TokenKind} (h : IsKind text kind) :
    kind ≠ .className := by
  cases h with
  | named mark name =>
    rintro rfl
    exact breakKind?_ne (by decide) name
  | _ => nofun

/-! ## Tokens of lexemes -/

/-- Lexemes are placed behind the text of those before them. -/
theorem place_append (pos : Position) (ls ms : List (List Char)) :
    place pos (ls ++ ms) = place pos ls ++ place (pos.after ls.flatten) ms := by
  induction ls generalizing pos with
  | nil => rfl
  | cons l ls ih =>
    rw [List.cons_append, place, place, ih, List.flatten_cons, Position.after_append,
      List.cons_append]

/-- The tokens of given lexemes. -/
theorem place_eq_iff {pos : Position} {ls : List (List Char)} {ts : List Token} :
    place pos ls = ts ↔ ts.map Token.text = ls ∧ (∀ t ∈ ts, t.kind = lexemeKind t.text) ∧
      ∀ before t after, ts = before ++ t :: after → t.pos = pos.after (textOf before) := by
  induction ts generalizing pos ls with
  | nil => cases ls <;> simp [place]
  | cons t ts ih =>
    rcases ls with _ | ⟨l, ls⟩
    · simp [place]
    rw [place, List.cons.injEq, ih]
    constructor
    · rintro ⟨rfl, hmap, hkinds, hpos⟩
      have htext : (⟨lexemeKind l, String.ofList l, pos⟩ : Token).text = l := String.toList_ofList
      refine ⟨by rw [List.map_cons, htext, hmap], ?_, ?_⟩
      · intro u hu
        rcases List.mem_cons.1 hu with rfl | hu
        · rw [htext]
        · exact hkinds u hu
      · intro before u after h
        rcases before with _ | ⟨b, before⟩
        · cases h
          rfl
        · obtain ⟨rfl, hts⟩ := List.cons.inj h
          rw [hpos before u after hts, textOf_cons, htext, Position.after_append]
    · rintro ⟨hmap, hkinds, hpos⟩
      obtain ⟨rfl, hls⟩ := List.cons.inj hmap
      refine ⟨?_, hls, fun u hu => hkinds u (List.mem_cons_of_mem t hu), ?_⟩
      · rw [← hkinds t List.mem_cons_self, Token.text, String.ofList_toList]
        have := hpos [] t ts rfl
        rw [textOf_nil, Position.after_nil] at this
        rw [← this]
      · intro before u after h
        rw [hpos (t :: before) u after (by rw [h, List.cons_append]), textOf_cons,
          Position.after_append]

theorem map_text_place (pos : Position) (ls : List (List Char)) :
    (place pos ls).map Token.text = ls := (place_eq_iff.1 rfl).1

theorem textOf_place (pos : Position) (ls : List (List Char)) :
    textOf (place pos ls) = ls.flatten := by
  rw [← flatten_map_text, map_text_place]

/-! ## The characterisation -/

/-- The tokens `ts` are those of the source. -/
structure Lexes (source : String) (ts : List Token) : Prop where
  /-- The texts of the tokens make up the source. -/
  covers : String.join (ts.map Token.value) = source
  /-- Every token is a word or a single other character. -/
  shapes : ∀ t ∈ ts, IsWord t.text ∨ IsMark t.text
  /-- Words are as long as they can be: no two of them are neighbours. -/
  longest : ts.IsChain fun a b => ¬(IsWord a.text ∧ IsWord b.text)
  /-- The kind of a token follows from its text. -/
  kinds : ∀ t ∈ ts, IsKind t.text t.kind
  /-- The position of a token counts the line feeds before it, and the characters between it and
  the last of these. -/
  places : ∀ before t after, ts = before ++ t :: after →
    t.pos.line.toNat = Position.lineAfter (textOf before) ∧
      t.pos.column.toNat = Position.columnAfter (textOf before)

/-- The cut, the kinds and the positions of the tokens of a source, the latter in 32-bit words. -/
theorem lex_eq_iff {source : String} {ts : List Token} :
    lex source = ts ↔ textOf ts = source.toList ∧ (∀ t ∈ ts, IsWord t.text ∨ IsMark t.text) ∧
      (ts.IsChain fun a b => ¬(IsWord a.text ∧ IsWord b.text)) ∧
      (∀ t ∈ ts, IsKind t.text t.kind) ∧
      ∀ before t after, ts = before ++ t :: after →
        t.pos = Position.start.after (textOf before) := by
  rw [lex, place_eq_iff, eq_comm, lexemes_eq_iff, flatten_map_text, List.forall_mem_map,
    List.isChain_map, and_assoc, and_assoc]
  refine and_congr_right fun _ => and_congr_right fun hshapes => and_congr_right fun _ => ?_
  refine and_congr_left fun _ => forall₂_congr fun t ht => ?_
  exact ⟨fun h => h ▸ isKind_lexemeKind (hshapes t ht), fun h => (lexemeKind_of_isKind h).symm⟩

/-- The tokens before a token cover less than the whole source. -/
theorem length_textOf_le {source : String} {before after : List Token}
    (h : textOf (before ++ after) = source.toList) : (textOf before).length ≤ source.length := by
  rw [← String.length_toList, ← h, textOf_append, List.length_append]
  exact Nat.le_add_right _ _

/-- For a short text, counting in 32-bit words is counting. -/
theorem eq_after_start_iff {p : Position} {text : List Char} (short : text.length < 2 ^ 32 - 1) :
    p = Position.start.after text ↔
      p.line.toNat = Position.lineAfter text ∧ p.column.toNat = Position.columnAfter text := by
  obtain ⟨hline, hcolumn⟩ := Position.toNat_after_start short
  rw [← hline, ← hcolumn, UInt32.toNat_inj, UInt32.toNat_inj]
  exact Position.mk.injEq .. ▸ Iff.rfl

/-- The five facts determine the tokens of a short source. -/
theorem lex_eq_iff_of_short {source : String} (short : source.length < 2 ^ 32 - 1)
    {ts : List Token} : lex source = ts ↔ Lexes source ts := by
  have hcovers : textOf ts = source.toList ↔ String.join (ts.map Token.value) = source := by
    rw [← toList_join_value, String.toList_inj]
  rw [lex_eq_iff]
  constructor
  · rintro ⟨htext, hshapes, hlongest, hkinds, hplaces⟩
    refine ⟨hcovers.1 htext, hshapes, hlongest, hkinds, fun before t after h => ?_⟩
    have hlt := (length_textOf_le (h ▸ htext)).trans_lt short
    exact (eq_after_start_iff hlt).1 (hplaces before t after h)
  · rintro ⟨hjoin, hshapes, hlongest, hkinds, hplaces⟩
    refine ⟨hcovers.2 hjoin, hshapes, hlongest, hkinds, fun before t after h => ?_⟩
    have hlt := (length_textOf_le (h ▸ hcovers.2 hjoin)).trans_lt short
    exact (eq_after_start_iff hlt).2 (hplaces before t after h)

/-- Every token stands after all tokens before it. -/
theorem pairwise_before_lex {source : String} (short : source.length < 2 ^ 32 - 1) :
    (lex source).Pairwise fun a b => a.pos.Before b.pos := by
  obtain ⟨htext, hshapes, -, -, hplaces⟩ := lex_eq_iff.1 (rfl : lex source = lex source)
  have hchain : ((lex source).map Token.pos).IsChain Position.Before := by
    rw [List.isChain_map, List.isChain_iff_forall_rel_of_append_cons_cons]
    intro a b before after h
    have h' : lex source = (before ++ [a]) ++ b :: after := by rw [h]; simp
    have ha : a.text ≠ [] := ne_nil_of_isWord_or_isMark (hshapes a (by rw [h]; simp))
    rw [hplaces before a (b :: after) h, hplaces (before ++ [a]) b after h', textOf_append]
    refine Position.before_after_append (by simpa using ha) ?_
    rw [← textOf_append]
    exact (length_textOf_le (h' ▸ htext)).trans_lt short
  exact List.pairwise_map.1 hchain.pairwise

/-- **The lexer is determined by what its tokens are**: the tokens of a source are the only ones
that cover it, are words and marks with no two words side by side, and have the kinds and positions
that the text gives them. Positions grow from each token to the next, the kind of class names does
not occur, and no count of lines or columns wraps around. -/
theorem lex_eq_iff_lexes (source : String) (short : source.length < 2 ^ 32 - 1) :
    (∀ ts, lex source = ts ↔ Lexes source ts) ∧
      ((lex source).Pairwise fun a b => a.pos.Before b.pos) ∧
      (∀ t ∈ lex source, t.kind ≠ .className) ∧
      ∀ text, text <+: source.toList →
        (Position.start.after text).line.toNat = Position.lineAfter text ∧
          (Position.start.after text).column.toNat = Position.columnAfter text := by
  refine ⟨fun ts => lex_eq_iff_of_short short, pairwise_before_lex short, fun t ht => ?_,
    fun text htext => Position.toNat_after_start ?_⟩
  · exact (((lex_eq_iff_of_short short).1 rfl).kinds t ht).ne_className
  · rw [← String.length_toList] at short
    exact htext.length_le.trans_lt short

theorem lexes_two_lines : ("if\n A1é" : String).length < 2 ^ 32 - 1 ∧
    Lexes "if\n A1é" [⟨.identifier, "if", ⟨1, 1⟩⟩, ⟨.line, "\n", ⟨1, 3⟩⟩, ⟨.space, " ", ⟨2, 1⟩⟩,
      ⟨.number, "A1", ⟨2, 2⟩⟩, ⟨.symbol, "é", ⟨2, 4⟩⟩] :=
  ⟨by decide, ((lex_eq_iff_lexes _ (by decide)).1 _).1 (by decide)⟩

end Tabscript
