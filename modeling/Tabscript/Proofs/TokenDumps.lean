import Tabscript.Command.Run
import Tabscript.Proofs.Lexing
import Tabscript.Proofs.Quoting

/-!
# The dump of the tokens determines the source

A token is dumped on one line, with its text in quotes and escaped. The kind before the text has no
comma and the place after it has no quote, so the text is found between the first comma and the last
quote of the line, and it can be read back from there. Nothing is lost in the tokens, so the dump of
the tokens of a source determines the source.

* `Token.dumpWith_injective` is about single tokens, and `Token.dumpLinesWith_injective` about lists
  of tokens, whether they come from a source or not.
* `lex_injective` says that tokens determine their source.
* `source_eq_of_dump_eq` puts the two together.
-/

namespace Tabscript

open Text

/-! ## Single tokens -/

theorem TokenKind.title_injective {kind kind' : TokenKind} (h : kind.title = kind'.title) :
    kind = kind' := by
  have hall : ∀ a ∈ all, ∀ b ∈ all, a.title = b.title → a = b := by decide
  exact hall kind (mem_all kind) kind' (mem_all kind') h

theorem TokenKind.notMem_title (kind : TokenKind) :
    ',' ∉ kind.title.toList ∧ '\n' ∉ kind.title.toList := by
  have hall : ∀ a ∈ all, ',' ∉ a.title.toList ∧ '\n' ∉ a.title.toList := by decide
  exact hall kind (mem_all kind)

namespace Token

variable (style : Escaping)

/-- What stands behind the text of a token. -/
def dumpEnd (t : Token) : List Char := ',' :: ' ' :: (t.pos.text.toList ++ [')'])

theorem toList_dumpWith (t : Token) : (t.dumpWith style).toList = "Token(".toList ++
    (t.kind.title.toList ++ ',' :: ' ' :: '"' :: (style.escape t.text ++ '"' :: t.dumpEnd)) := by
  simp [dumpWith, Escaping.toList_quote, dumpEnd, text]

theorem notMem_dumpEnd {c : Char} (t : Token) (hdigit : c.isDigit = false)
    (hmarks : c ∉ [',', ' ', ':', ')']) : c ∉ t.dumpEnd := by
  have hpos := t.pos.notMem_text hdigit fun h => hmarks (by simp [h])
  intro hmem
  simp_all [dumpEnd]

/-- The dump of a token determines the token. -/
theorem dumpWith_injective {t u : Token} (h : t.dumpWith style = u.dumpWith style) : t = u := by
  have hlist := congrArg String.toList h
  rw [toList_dumpWith, toList_dumpWith] at hlist
  obtain ⟨hkind, hrest⟩ := append_cons_inj_of_notMem_left t.kind.notMem_title.1
    u.kind.notMem_title.1 (List.append_cancel_left hlist)
  rw [List.cons.injEq, List.cons.injEq] at hrest
  obtain ⟨htext, hend⟩ := append_cons_inj_of_notMem_right
    (t.notMem_dumpEnd (by decide) (by decide)) (u.notMem_dumpEnd (by decide) (by decide))
    hrest.2.2
  have hvalue : t.value = u.value := String.toList_inj.1 (style.escape_injective htext)
  have hpos : t.pos = u.pos := by
    simp only [dumpEnd, List.cons.injEq, true_and] at hend
    exact Position.text_injective (String.toList_inj.1 (List.append_cancel_right hend))
  rw [Token.mk.injEq]
  exact ⟨TokenKind.title_injective (String.toList_inj.1 hkind), hvalue, hpos⟩

/-- A token is dumped on one line. -/
theorem newline_notMem_dumpWith (t : Token) : '\n' ∉ (t.dumpWith style).toList := by
  have htitle := t.kind.notMem_title.2
  have htext := style.newline_notMem_escape t.text
  have hend := t.notMem_dumpEnd (c := '\n') (by decide) (by decide)
  rw [toList_dumpWith]
  simp [htitle, htext, hend]

/-! ## Lists of tokens -/

theorem dumpLinesWith_eq (ts : List Token) :
    dumpLinesWith style ts = String.join ((ts.map (dumpWith style)).map (· ++ "\n")) := by
  rw [dumpLinesWith, List.map_map]
  rfl

theorem newline_notMem_of_mem_dumps {ts : List Token} {line : String}
    (h : line ∈ ts.map (dumpWith style)) : '\n' ∉ line.toList := by
  obtain ⟨t, -, rfl⟩ := List.mem_map.1 h
  exact t.newline_notMem_dumpWith style

/-- The dump of tokens has one line for each token. -/
theorem splitOn_dumpLinesWith (ts : List Token) :
    (dumpLinesWith style ts).toList.splitOn '\n' =
      ts.map (fun t => (t.dumpWith style).toList) ++ [[]] := by
  rw [dumpLinesWith_eq, splitOn_join_lines fun line => newline_notMem_of_mem_dumps style,
    List.map_map]
  rfl

/-- The dump of tokens determines the tokens. -/
theorem dumpLinesWith_injective {ts us : List Token}
    (h : dumpLinesWith style ts = dumpLinesWith style us) : ts = us := by
  rw [dumpLinesWith_eq, dumpLinesWith_eq] at h
  have hlines := eq_of_join_lines_eq (fun line => newline_notMem_of_mem_dumps style)
    (fun line => newline_notMem_of_mem_dumps style) h
  exact (List.map_inj_right fun t u => dumpWith_injective style).1 hlines

end Token

/-! ## Sources -/

/-- The tokens of a source determine the source, however long it is. -/
theorem lex_injective {s t : String} (h : lex s = lex t) : s = t := by
  obtain ⟨hs, -⟩ := lex_eq_iff.1 (rfl : lex s = lex s)
  obtain ⟨ht, -⟩ := lex_eq_iff.1 (rfl : lex t = lex t)
  exact String.toList_inj.1 (by rw [← hs, h, ht])

/-- **The dump of the tokens identifies the source**, whichever characters are written by number.
It has one line for each token, whatever the source holds: cut at its line breaks it falls into the
dumps of the tokens and an empty rest. So two sources from which a run produces the same tokens are
equal. -/
theorem source_eq_of_dump_eq (s t : String) :
    (∀ style, Token.dumpLinesWith style (lex s) = Token.dumpLinesWith style (lex t) → s = t) ∧
      (∀ style, (Token.dumpLinesWith style (lex s)).toList.splitOn '\n' =
        (lex s).map (fun token => (token.dumpWith style).toList) ++ [[]]) ∧
      ∀ i j : Invocation, i.emit = .tokens → j.emit = .tokens → i.artifact s = j.artifact t →
        s = t := by
  have hdumps : ∀ style, Token.dumpLinesWith style (lex s) = Token.dumpLinesWith style (lex t) →
      s = t := fun style h => lex_injective (Token.dumpLinesWith_injective style h)
  refine ⟨hdumps, fun style => Token.splitOn_dumpLinesWith style (lex s), fun i j hi hj h => ?_⟩
  simp only [Invocation.artifact, hi, hj, Except.ok.injEq] at h
  exact hdumps .quoted h

/-- A raw line break, and a backslash with an `n`, in place of each other. -/
theorem artifact_ne_two_breaks :
    (⟨"in", none, .javaScript, .tokens, false⟩ : Invocation).artifact "a\nb" ≠
        (⟨"in", none, .javaScript, .tokens, false⟩ : Invocation).artifact "a\\nb" ∧
      Token.dumpLines (lex "a\nb") = "Token(Identifier, \"a\", 1:1)\n" ++
        "Token(Line, \"\\n\", 1:2)\n" ++ "Token(Identifier, \"b\", 2:1)\n" := by
  refine ⟨fun h => ?_, by decide +kernel⟩
  exact absurd ((source_eq_of_dump_eq "a\nb" "a\\nb").2.2 _ _ rfl rfl h) (by decide)

end Tabscript
