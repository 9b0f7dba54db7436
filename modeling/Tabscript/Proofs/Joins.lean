import Tabscript.Proofs.Concatenation

/-!
# Lexing across a join

The tokens of two texts put together are the tokens of the first and those of the second, further
down and, in their first line, further on. Only a word that ends the first text and one that starts
the second become one token. That is so because the lexer keeps nothing between two lexemes but the
position it has reached.

* `Position.behind` moves a position behind a text, and `Position.behind_start_after` says that this
  is how positions are counted on.
* `lexemes_append_of_word` is the cut of two texts between which a word goes on.
* `lex_append_eq` says what the tokens of two texts put together are.
-/

namespace Tabscript

/-! ## Positions behind a source -/

/-- The number of characters behind the last line break of a source. -/
def lastLineLength (source : String) : Nat := (source.toList.reverse.takeWhile (· ≠ '\n')).length

theorem lastLineLength_le (source : String) : lastLineLength source ≤ source.length := by
  rw [← String.length_toList, ← List.length_reverse]
  exact (List.takeWhile_prefix _).length_le

namespace Position

/-- A line feed makes the column forget what stood before it. -/
theorem columnAfter_append_of_mem (text : List Char) {more : List Char} (h : '\n' ∈ more) :
    columnAfter (text ++ more) = columnAfter more := by
  have hshort : (more.reverse.takeWhile (· ≠ '\n')).length ≠ more.reverse.length := by
    intro hlength
    have hall := (List.takeWhile_prefix (l := more.reverse) (· ≠ '\n')).eq_of_length hlength
    have hne := List.mem_takeWhile_imp (hall.symm ▸ List.mem_reverse.2 h)
    simp at hne
  rw [columnAfter, columnAfter, List.reverse_append, List.takeWhile_append, if_neg hshort]

/-- Only the first line of the second text is counted on from the last line of the first. -/
theorem columnAfter_append_eq (text more : List Char) : columnAfter (text ++ more) =
    columnAfter more + if more.count '\n' = 0 then columnAfter text - 1 else 0 := by
  by_cases h : '\n' ∈ more
  · have hcount := List.count_pos_iff.2 h
    rw [columnAfter_append_of_mem text h, if_neg (by omega), Nat.add_zero]
  · have hmore : columnAfter more = 1 + more.length := @columnAfter_append [] more h
    rw [columnAfter_append h, if_pos (List.count_eq_zero_of_not_mem h), hmore, columnAfter]
    omega

/-- The position as it is behind a source: as many lines further down as the source has line breaks
and, in the first line, as many columns further on as the source has characters behind the last
of them. -/
def behind (source : String) (p : Position) : Position :=
  ⟨p.line + UInt32.ofNat (lineBreaks source),
    p.column + UInt32.ofNat (if p.line = 1 then lastLineLength source else 0)⟩

/-- Behind a source every line moves down, and the first one to the right as well. -/
theorem toNat_behind {source : String} {p : Position}
    (hline : p.line.toNat + lineBreaks source < 2 ^ 32)
    (hcolumn : p.column.toNat + lastLineLength source < 2 ^ 32) :
    (p.behind source).line.toNat = p.line.toNat + lineBreaks source ∧
      (p.behind source).column.toNat =
        p.column.toNat + if p.line = 1 then lastLineLength source else 0 := by
  simp only [behind, UInt32.toNat_add, UInt32.toNat_ofNat']
  split <;> omega

/-- Behind a source a text leads on from where the source has led. -/
theorem behind_start_after {source : String} {text : List Char}
    (short : (source.toList ++ text).length < 2 ^ 32 - 1) :
    (start.after text).behind source = start.after (source.toList ++ text) := by
  have hlength : source.length + text.length < 2 ^ 32 - 1 := by
    rwa [List.length_append, String.length_toList] at short
  have htext : text.length < 2 ^ 32 - 1 := by omega
  obtain ⟨hline, hcolumn⟩ := toNat_after_start htext
  have hfirst : (start.after text).line = 1 ↔ text.count '\n' = 0 := by
    rw [← UInt32.toNat_inj, hline, lineAfter, UInt32.toNat_one]
    omega
  have hline_le := lineAfter_le text
  have hcolumn_le := columnAfter_le text
  have hbreaks_le := lineBreaks_le source
  have hlast_le := lastLineLength_le source
  have hline_lt : (start.after text).line.toNat + lineBreaks source < 2 ^ 32 := by omega
  have hcolumn_lt : (start.after text).column.toNat + lastLineLength source < 2 ^ 32 := by omega
  obtain ⟨hline', hcolumn'⟩ := toNat_behind hline_lt hcolumn_lt
  rw [eq_after_start_iff short, hline', hcolumn', hline, hcolumn, lineAfter_append,
    columnAfter_append_eq]
  refine ⟨?_, ?_⟩
  · rw [lineAfter, lineAfter, lineBreaks]
    omega
  · have hlast : columnAfter source.toList - 1 = lastLineLength source := Nat.add_sub_cancel_left ..
    simp only [hfirst, hlast]

end Position

/-! ## The cut at the join -/

/-- The last character of the source is a word character. -/
def endsInWord (source : String) : Bool := source.toList.getLast?.any isWordChar

/-- The first character of the source is a word character. -/
def startsWithWord (source : String) : Bool := source.toList.head?.any isWordChar

/-- A source that ends in a word character has a word for its last lexeme. -/
theorem exists_lexemes_concat {source : String} (h : endsInWord source = true) :
    ∃ ls a, lexemes source.toList = ls ++ [a] ∧ IsWord a := by
  obtain ⟨hflatten, hshapes, -⟩ := lexemes_eq_iff.1 (rfl : lexemes source.toList = _)
  rcases List.eq_nil_or_concat' (lexemes source.toList) with hnil | ⟨ls, a, hconcat⟩
  · rw [endsInWord, ← hflatten, hnil] at h
    cases h
  · refine ⟨ls, a, hconcat, (hshapes a (by simp [hconcat])).resolve_right ?_⟩
    rintro ⟨c, rfl, hc⟩
    rw [endsInWord, ← hflatten, hconcat, List.flatten_concat, List.getLast?_concat,
      Option.any_some, hc] at h
    cases h

theorem exists_lexemes_cons {source : String} (h : startsWithWord source = true) :
    ∃ b ms, lexemes source.toList = b :: ms ∧ IsWord b := by
  obtain ⟨hflatten, hshapes, -⟩ := lexemes_eq_iff.1 (rfl : lexemes source.toList = _)
  cases hcons : lexemes source.toList with
  | nil =>
    rw [startsWithWord, ← hflatten, hcons] at h
    cases h
  | cons b ms =>
    refine ⟨b, ms, rfl, (hshapes b (by simp [hcons])).resolve_right ?_⟩
    rintro ⟨c, rfl, hc⟩
    rw [startsWithWord, ← hflatten, hcons, List.flatten_cons, List.singleton_append,
      List.head?_cons, Option.any_some, hc] at h
    cases h

/-- A word at the end of one text and a word at the start of the next become one lexeme, and all
other lexemes stay. -/
theorem lexemes_append_of_word {text more : List Char} {ls ms : List (List Char)}
    {a b : List Char} (htext : lexemes text = ls ++ [a]) (hmore : lexemes more = b :: ms)
    (ha : IsWord a) (hb : IsWord b) : lexemes (text ++ more) = ls ++ (a ++ b) :: ms := by
  obtain ⟨hflatten, hshapes, hchain⟩ := lexemes_eq_iff.1 htext
  obtain ⟨hflatten', hshapes', hchain'⟩ := lexemes_eq_iff.1 hmore
  have hab : IsWord (a ++ b) := ⟨by simp [ha.1], List.forall_mem_append.2 ⟨ha.2, hb.2⟩⟩
  rw [List.isChain_append] at hchain
  rw [List.isChain_cons] at hchain'
  rw [lexemes_eq_iff]
  refine ⟨?_, ?_, ?_⟩
  · rw [← hflatten, ← hflatten']
    simp
  · simp only [List.forall_mem_append, List.forall_mem_cons] at hshapes hshapes' ⊢
    exact ⟨hshapes.1, .inl hab, hshapes'.2⟩
  · rw [List.isChain_append, List.isChain_cons]
    -- the neighbours of the joined word were neighbours of a word before, so they are marks
    refine ⟨hchain.1, ⟨fun m hm h => hchain'.1 m hm ⟨hb, h.2⟩, hchain'.2⟩, fun l hl m hm h => ?_⟩
    exact hchain.2.2 l hl a rfl ⟨h.1, ha⟩

/-! ## Tokens behind a source -/

theorem place_behind {s : String} {before : List Char} {ls : List (List Char)}
    (short : (s.toList ++ (before ++ ls.flatten)).length < 2 ^ 32 - 1) :
    place (Position.start.after (s.toList ++ before)) ls =
      (place (Position.start.after before) ls).map (Token.relocate (.behind s)) := by
  refine place_relocate fun text htext => ?_
  rw [← Position.after_append, ← Position.after_append, List.append_assoc]
  refine Position.behind_start_after (lt_of_le_of_lt ?_ short)
  have hle := htext.length_le
  simp only [List.length_append]
  omega

/-- The token of a word that goes on in the next token. -/
def Token.join (a b : Token) : Token := ⟨lexemeKind (a.text ++ b.text), a.value ++ b.value, a.pos⟩

/-- Where no word is cut in two, the tokens of both sources stay, and those of the second move. -/
theorem lex_append_of_cut {s t : String} (short : (s ++ t).length < 2 ^ 32 - 1)
    (h : endsInWord s = false ∨ startsWithWord t = false) :
    lex (s ++ t) = lex s ++ (lex t).map (Token.relocate (.behind s)) := by
  have hcut : ∀ a ∈ s.toList.getLast?, ∀ b ∈ t.toList.head?, joins a b = false := by
    intro a ha b hb
    rw [Option.mem_def] at ha hb
    rw [joins]
    rcases h with h | h
    · rw [endsInWord, ha, Option.any_some] at h
      rw [h, Bool.false_and]
    · rw [startsWithWord, hb, Option.any_some] at h
      rw [h, Bool.and_false]
  have hflatten : (lexemes t.toList).flatten = t.toList := (lexemes_eq_iff.1 rfl).1
  have hshort : (s.toList ++ ([] ++ (lexemes t.toList).flatten)).length < 2 ^ 32 - 1 := by
    rwa [List.nil_append, hflatten, ← String.toList_append, String.length_toList]
  have hplace := place_behind hshort
  rw [List.append_nil] at hplace
  rw [lex_append_of_not_joins hcut, hplace]
  rfl

/-- Where a word is cut in two, its halves become one token. -/
theorem lex_append_of_word {s t : String} (short : (s ++ t).length < 2 ^ 32 - 1)
    (hs : endsInWord s = true) (ht : startsWithWord t = true) :
    ∃ before a b after, lex s = before ++ [a] ∧ lex t = b :: after ∧
      lex (s ++ t) = before ++ a.join b :: after.map (Token.relocate (.behind s)) := by
  obtain ⟨ls, a, hls, ha⟩ := exists_lexemes_concat hs
  obtain ⟨b, ms, hms, hb⟩ := exists_lexemes_cons ht
  have hflatten : ls.flatten ++ a = s.toList := by
    rw [← (lexemes_eq_iff.1 hls).1, List.flatten_concat]
  have hflatten' : b ++ ms.flatten = t.toList := (lexemes_eq_iff.1 hms).1
  have hshort : (s.toList ++ (b ++ ms.flatten)).length < 2 ^ 32 - 1 := by
    rwa [hflatten', ← String.toList_append, String.length_toList]
  have hplace := place_behind hshort
  have hlex : lex s = place .start ls ++
      [⟨lexemeKind a, String.ofList a, Position.start.after ls.flatten⟩] := by
    rw [lex, hls, place_append]
    rfl
  have hlex' : lex t = ⟨lexemeKind b, String.ofList b, .start⟩ ::
      place (Position.start.after b) ms := by
    rw [lex, hms, place]
  refine ⟨_, _, _, _, hlex, hlex', ?_⟩
  rw [lex, String.toList_append, lexemes_append_of_word hls hms ha hb, place_append, place,
    ← Position.after_append, ← List.append_assoc, hflatten, hplace]
  simp only [Token.join, Token.text, String.toList_ofList, String.ofList_append]

/-- Positions behind a source are counted on without wrapping around. -/
theorem toNat_behind_of_mem_lex {s t : String} (short : (s ++ t).length < 2 ^ 32 - 1)
    {u : Token} (hu : u ∈ lex t) :
    (u.pos.behind s).line.toNat = u.pos.line.toNat + lineBreaks s ∧
      (u.pos.behind s).column.toNat =
        u.pos.column.toNat + if u.pos.line = 1 then lastLineLength s else 0 := by
  rw [String.length_append] at short
  obtain ⟨hline, hcolumn⟩ := toNat_pos_le_of_mem_lex (by omega) hu
  have hbreaks_le := lineBreaks_le s
  have hlast_le := lastLineLength_le s
  exact Position.toNat_behind (by omega) (by omega)

/-- **The tokens of two texts put together.** If the first text does not end in a word, or the
second does not start with one, they are the tokens of the first and those of the second behind
them. Otherwise the last token of the first text and the first token of the second become one, at
the place of the former, and the others are as before. A position behind the first text is as many
lines further down as this has line breaks and, in the first line, as many columns further on as it
has characters behind the last of them. -/
theorem lex_append_eq (s t : String) (short : (s ++ t).length < 2 ^ 32 - 1) :
    (endsInWord s = false ∨ startsWithWord t = false →
        lex (s ++ t) = lex s ++ (lex t).map (Token.relocate (.behind s))) ∧
      (endsInWord s = true → startsWithWord t = true →
        ∃ before a b after, lex s = before ++ [a] ∧ lex t = b :: after ∧
          lex (s ++ t) = before ++ a.join b :: after.map (Token.relocate (.behind s))) ∧
      ∀ u ∈ lex t, (u.pos.behind s).line.toNat = u.pos.line.toNat + lineBreaks s ∧
        (u.pos.behind s).column.toNat =
          u.pos.column.toNat + if u.pos.line = 1 then lastLineLength s else 0 :=
  ⟨lex_append_of_cut short, lex_append_of_word short, fun _ => toNat_behind_of_mem_lex short⟩

/-- A text that starts in the middle of a line, and one that goes on in the middle of a word. -/
theorem lex_append_eq_mid_line :
    ("a\n\té " ++ "b\nc" : String).length < 2 ^ 32 - 1 ∧
      lex ("a\n\té " ++ "b\nc") = lex "a\n\té " ++
        [⟨.identifier, "b", ⟨2, 4⟩⟩, ⟨.line, "\n", ⟨2, 5⟩⟩, ⟨.identifier, "c", ⟨3, 1⟩⟩] ∧
      ∃ before after, lex "a\n\tif" = before ++ [⟨.identifier, "if", ⟨2, 2⟩⟩] ∧
        lex "x1 y" = ⟨.number, "x1", ⟨1, 1⟩⟩ :: after ∧
        lex ("a\n\tif" ++ "x1 y") = before ++ ⟨.number, "ifx1", ⟨2, 2⟩⟩ ::
          after.map (Token.relocate (.behind "a\n\tif")) := by
  refine ⟨by decide, ?_, ?_⟩
  · exact ((lex_append_eq "a\n\té " "b\nc" (by decide)).1 (by decide)).trans (by decide)
  · obtain ⟨before, a, b, after, ha, hb, hab⟩ :=
      (lex_append_eq "a\n\tif" "x1 y" (by decide)).2.1 (by decide) (by decide)
    have hlast : (lex "a\n\tif").getLast? = some a := by rw [ha, List.getLast?_concat]
    have hfirst : (lex "x1 y").head? = some b := by rw [hb, List.head?_cons]
    cases hlast.symm.trans (by decide : _ = some ⟨.identifier, "if", ⟨2, 2⟩⟩)
    cases hfirst.symm.trans (by decide : _ = some ⟨.number, "x1", ⟨1, 1⟩⟩)
    exact ⟨before, after, ha, hb, hab⟩

end Tabscript
