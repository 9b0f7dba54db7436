import Mathlib.Data.List.SplitBy
import Tabscript.Position
import Tabscript.Text.Quoted

/-!
# Written texts can be read back

A dump is worth something only if it can be told from it what was dumped. This module has what dumps
are made of: lines, positions and quoted texts.

* `append_cons_inj_of_notMem_left` and `append_cons_inj_of_notMem_right` cut a text at the first and
  at the last place where a character stands.
* `splitOn_join_lines` cuts a text into its lines.
* `Position.text_injective` is about positions.
* `readEscaped` reads one character of an escaped text, and `Escaping.escape_injective` follows for
  every choice of what is escaped: where the reader stops never depends on the choice.
-/

namespace Tabscript

namespace Text

/-! ## Cuts -/

section

variable {a : Char} {x y z w : List Char}

/-- A text is cut in one way at the first place where a character stands. -/
theorem append_cons_inj_of_notMem_left (hx : a ∉ x) (hy : a ∉ y)
    (h : x ++ a :: z = y ++ a :: w) : x = y ∧ z = w := by
  induction x generalizing y with
  | nil =>
    cases y with
    | nil => exact ⟨rfl, (List.cons.inj h).2⟩
    | cons c y => exact absurd ((List.cons.inj h).1 ▸ List.mem_cons_self) hy
  | cons b x ih =>
    cases y with
    | nil => exact absurd ((List.cons.inj h).1 ▸ List.mem_cons_self) hx
    | cons c y =>
      obtain ⟨rfl, htail⟩ := List.cons.inj h
      rw [List.mem_cons, not_or] at hx hy
      obtain ⟨rfl, hrest⟩ := ih hx.2 hy.2 htail
      exact ⟨rfl, hrest⟩

/-- A text is cut in one way at the last place where a character stands. -/
theorem append_cons_inj_of_notMem_right (hz : a ∉ z) (hw : a ∉ w)
    (h : x ++ a :: z = y ++ a :: w) : x = y ∧ z = w := by
  have hreverse := congrArg List.reverse h
  simp only [List.reverse_append, List.reverse_cons, List.append_assoc,
    List.singleton_append] at hreverse
  obtain ⟨hright, hleft⟩ := append_cons_inj_of_notMem_left (by simpa using hz) (by simpa using hw)
    hreverse
  exact ⟨List.reverse_injective hleft, List.reverse_injective hright⟩

end

/-! ## Lines -/

/-- The lines of a text that ends every line are the pieces between its line breaks, the last piece
being empty. -/
theorem splitOn_join_lines {lines : List String} (h : ∀ line ∈ lines, '\n' ∉ line.toList) :
    (String.join (lines.map (· ++ "\n"))).toList.splitOn '\n' =
      lines.map String.toList ++ [[]] := by
  have htext : (String.join (lines.map (· ++ "\n"))).toList =
      ['\n'].intercalate (lines.map String.toList ++ [[]]) := by
    clear h
    induction lines with
    | nil => rfl
    | cons line lines ih =>
      rw [List.map_cons, String.join_cons, String.toList_append, String.toList_append, ih,
        List.map_cons, List.cons_append, List.intercalate_cons_of_ne_nil (by simp)]
      rfl
  rw [htext]
  refine List.splitOn_intercalate '\n' (fun line hline => ?_) (by simp)
  rw [List.mem_append, List.mem_singleton] at hline
  rcases hline with hline | rfl
  · obtain ⟨line, hmem, rfl⟩ := List.mem_map.1 hline
    exact h line hmem
  · exact List.not_mem_nil

theorem eq_of_join_lines_eq {lines lines' : List String} (h : ∀ line ∈ lines, '\n' ∉ line.toList)
    (h' : ∀ line ∈ lines', '\n' ∉ line.toList)
    (heq : String.join (lines.map (· ++ "\n")) = String.join (lines'.map (· ++ "\n"))) :
    lines = lines' := by
  have hpieces := splitOn_join_lines h
  rw [heq, splitOn_join_lines h'] at hpieces
  have hmap := List.append_cancel_right hpieces.symm
  exact (List.map_inj_right fun _ _ => String.toList_inj.1).1 hmap

/-! ## Numbers and positions -/

theorem exists_of_mem_toDigits {base n : Nat} (hbase : 1 < base) {c : Char}
    (h : c ∈ Nat.toDigits base n) : ∃ d, c = Nat.digitChar d := by
  induction n using Nat.strongRecOn with
  | ind n ih =>
    rw [Nat.toDigits_eq_if hbase] at h
    split at h
    · exact ⟨n, List.mem_singleton.1 h⟩
    · rcases List.mem_append.1 h with h | h
      · exact ih (n / base) (Nat.div_lt_self (by omega) hbase) h
      · exact ⟨n % base, List.mem_singleton.1 h⟩

theorem repr_injective {m n : Nat} (h : m.repr = n.repr) : m = n := by
  have hdigits : Nat.toDigits 10 m = Nat.toDigits 10 n := by
    rw [Nat.repr_eq_ofList_toDigits, Nat.repr_eq_ofList_toDigits] at h
    exact String.ofList_injective h
  calc m = Nat.ofDigitChars 10 (Nat.toDigits 10 m) 0 := Nat.ofDigitChars_ten_toDigits.symm
    _ = Nat.ofDigitChars 10 (Nat.toDigits 10 n) 0 := by rw [hdigits]
    _ = n := Nat.ofDigitChars_ten_toDigits

theorem isDigit_of_mem_repr {n : Nat} {c : Char} (h : c ∈ n.repr.toList) : c.isDigit = true := by
  rw [Nat.repr_eq_ofList_toDigits, String.toList_ofList] at h
  exact Nat.isDigit_of_mem_toDigits (by omega) (by omega) h

end Text

namespace Position

open Text

theorem toList_text (p : Position) :
    p.text.toList = p.line.toNat.repr.toList ++ ':' :: p.column.toNat.repr.toList := by
  simp [text]

/-- A position is written in digits and a colon. -/
theorem notMem_text {c : Char} (p : Position) (hdigit : c.isDigit = false) (hcolon : c ≠ ':') :
    c ∉ p.text.toList := by
  rw [toList_text, List.mem_append, List.mem_cons]
  rintro (h | rfl | h)
  · rw [isDigit_of_mem_repr h] at hdigit
    cases hdigit
  · exact hcolon rfl
  · rw [isDigit_of_mem_repr h] at hdigit
    cases hdigit

/-- A position is determined by its written form. -/
theorem text_injective {p q : Position} (h : p.text = q.text) : p = q := by
  have hcolon : ∀ n : Nat, ':' ∉ n.repr.toList := fun n hmem =>
    absurd (isDigit_of_mem_repr hmem) (by decide)
  have hlist := congrArg String.toList h
  rw [toList_text, toList_text] at hlist
  obtain ⟨hline, hcolumn⟩ := append_cons_inj_of_notMem_left (hcolon _) (hcolon _) hlist
  rw [Position.mk.injEq, ← UInt32.toNat_inj, ← UInt32.toNat_inj]
  exact ⟨repr_injective (String.toList_inj.1 hline), repr_injective (String.toList_inj.1 hcolumn)⟩

end Position

namespace Text

/-! ## Hexadecimal numbers -/

/-- The value of a digit in lower-case hexadecimal. -/
def hexValue (c : Char) : Nat := if c.isDigit then c.toNat - '0'.toNat else c.toNat - 'a'.toNat + 10

/-- The number that hexadecimal digits stand for. -/
def ofHexDigits (digits : List Char) : Nat := digits.foldl (fun n c => 16 * n + hexValue c) 0

theorem hexValue_digitChar : ∀ n < 16, hexValue (Nat.digitChar n) = n := by decide

/-- A number can be read back from its digits to the base sixteen. -/
theorem ofHexDigits_toDigits (n : Nat) : ofHexDigits (Nat.toDigits 16 n) = n := by
  induction n using Nat.strongRecOn with
  | ind n ih =>
    rw [Nat.toDigits_eq_if (by omega)]
    split
    case isTrue hlt => exact (Nat.zero_add _).trans (hexValue_digitChar n hlt)
    case isFalse hle =>
      have hquotient := ih (n / 16) (by omega)
      rw [ofHexDigits] at hquotient ⊢
      rw [List.foldl_append, hquotient, List.foldl_cons, List.foldl_nil,
        hexValue_digitChar _ (Nat.mod_lt n (by omega))]
      omega

/-! ## Escaped texts -/

/-- The character that a backslash and a letter stand for. -/
def shortMeaning : Char → Char
  | '0' => '\x00'
  | 't' => '\t'
  | 'r' => '\r'
  | 'n' => '\n'
  | c => c

/-- The first character of an escaped text, and what follows it. -/
def readEscaped : List Char → Option (Char × List Char)
  | [] => none
  | '\\' :: 'u' :: '{' :: rest =>
    some (Char.ofNat (ofHexDigits (rest.takeWhile (· ≠ '}'))), (rest.dropWhile (· ≠ '}')).tail)
  | '\\' :: letter :: rest => some (shortMeaning letter, rest)
  | c :: rest => some (c, rest)

theorem shortEscape?_eq_some {c letter : Char} (h : shortEscape? c = some letter) :
    shortMeaning letter = c ∧ letter ≠ 'u' ∧ letter ≠ '\n' := by
  unfold shortEscape? at h
  split at h <;> cases h <;> decide

theorem readEscaped_pair {letter : Char} (rest : List Char) (h : letter ≠ 'u') :
    readEscaped ('\\' :: letter :: rest) = some (shortMeaning letter, rest) := by
  rw [readEscaped]
  exact fun _ hletter => absurd hletter h

theorem readEscaped_plain {c : Char} (rest : List Char) (h : c ≠ '\\') :
    readEscaped (c :: rest) = some (c, rest) := by
  rw [readEscaped.eq_def]
  split <;> simp_all

/-- A character that is written by number can be read back. -/
theorem readEscaped_numericEscape (c : Char) (rest : List Char) :
    readEscaped (numericEscape c ++ rest) = some (c, rest) := by
  have hdigits : ∀ d ∈ Nat.toDigits 16 c.toNat, decide (d ≠ '}') = true := by
    intro d hd
    obtain ⟨n, rfl⟩ := exists_of_mem_toDigits (by omega) hd
    exact decide_eq_true (Nat.digitChar_ne '}' rfl)
  have htext : numericEscape c ++ rest =
      '\\' :: 'u' :: '{' :: (Nat.toDigits 16 c.toNat ++ '}' :: rest) := by
    simp [numericEscape]
  rw [htext, readEscaped, List.takeWhile_append_of_pos hdigits,
    List.dropWhile_append_of_pos hdigits, List.takeWhile_cons_of_neg (by decide),
    List.dropWhile_cons_of_neg (by decide), List.append_nil, ofHexDigits_toDigits, Char.ofNat_toNat,
    List.tail_cons]

namespace Escaping

variable (style : Escaping)

/-- An escaped character is read back, whatever follows it. -/
theorem readEscaped_char (first : Bool) (c : Char) (rest : List Char) :
    readEscaped (style.char first c ++ rest) = some (c, rest) := by
  rw [char]
  split
  case h_1 letter hshort =>
    obtain ⟨hmeaning, hletter, -⟩ := shortEscape?_eq_some hshort
    exact hmeaning ▸ readEscaped_pair rest hletter
  case h_2 hshort =>
    have hslash : c ≠ '\\' := by
      rintro rfl
      cases hshort
    split
    case isTrue happly =>
      rw [Bool.and_eq_true, beq_iff_eq] at happly
      obtain rfl := happly.2
      exact readEscaped_pair rest (by decide)
    case isFalse =>
      split
      · exact readEscaped_numericEscape c rest
      · exact readEscaped_plain rest hslash

/-- An escaped character can be told from what follows it. -/
theorem char_append_inj {first : Bool} {c d : Char} {text more : List Char}
    (h : style.char first c ++ text = style.char first d ++ more) : c = d ∧ text = more := by
  have hread := style.readEscaped_char first c text
  rw [h, readEscaped_char] at hread
  cases hread
  exact ⟨rfl, rfl⟩

theorem char_ne_nil (first : Bool) (c : Char) : style.char first c ≠ [] := by
  intro h
  have hread := style.readEscaped_char first c []
  rw [h] at hread
  cases hread

/-- The rest of an escaped text. The flag says that nothing stands before it. -/
def escapeFrom (first : Bool) : List Char → List Char
  | [] => []
  | c :: rest => style.char first c ++ escapeFrom false rest

theorem escape_eq_escapeFrom (text : List Char) :
    style.escape text = style.escapeFrom true text := by
  have hrest : ∀ rest, style.escapeFrom false rest = rest.flatMap (style.char false) := by
    intro rest
    induction rest with
    | nil => rfl
    | cons c rest ih => rw [escapeFrom, ih, List.flatMap_cons]
  cases text with
  | nil => rfl
  | cons c rest => rw [escape, escapeFrom, hrest]

/-- A text is determined by what is written for it, at the start of a text and inside one. -/
theorem escapeFrom_injective {first : Bool} {text more : List Char}
    (h : style.escapeFrom first text = style.escapeFrom first more) : text = more := by
  induction text generalizing first more with
  | nil =>
    cases more with
    | nil => rfl
    | cons d more => exact absurd (List.append_eq_nil_iff.1 h.symm).1 (style.char_ne_nil first d)
  | cons c text ih =>
    cases more with
    | nil => exact absurd (List.append_eq_nil_iff.1 h).1 (style.char_ne_nil first c)
    | cons d more =>
      obtain ⟨rfl, hrest⟩ := style.char_append_inj h
      rw [ih hrest]

/-- Texts that are escaped alike are equal. -/
theorem escape_injective {text more : List Char} (h : style.escape text = style.escape more) :
    text = more := by
  rw [escape_eq_escapeFrom, escape_eq_escapeFrom] at h
  exact style.escapeFrom_injective h

theorem newline_notMem_char (first : Bool) (c : Char) : '\n' ∉ style.char first c := by
  rw [char]
  split
  case h_1 letter hshort =>
    obtain ⟨-, -, hletter⟩ := shortEscape?_eq_some hshort
    simpa using Ne.symm hletter
  case h_2 hshort =>
    have hnewline : '\n' ≠ c := by
      rintro rfl
      cases hshort
    have hdigits : '\n' ∉ Nat.toDigits 16 c.toNat := by
      intro hmem
      obtain ⟨n, hn⟩ := exists_of_mem_toDigits (by omega) hmem
      exact Nat.digitChar_ne '\n' rfl hn.symm
    split
    · simpa using hnewline
    · split
      · simpa [numericEscape] using hdigits
      · simpa using hnewline

/-- An escaped text stands on one line. -/
theorem newline_notMem_escape (text : List Char) : '\n' ∉ style.escape text := by
  rw [escape_eq_escapeFrom]
  generalize true = first
  induction text generalizing first with
  | nil => exact List.not_mem_nil
  | cons c text ih =>
    rw [escapeFrom, List.mem_append, not_or]
    exact ⟨style.newline_notMem_char first c, ih false⟩

theorem toList_quote (text : String) :
    (style.quote text).toList = '"' :: (style.escape text.toList ++ ['"']) := by
  simp [quote]

theorem quote_injective {text more : String} (h : style.quote text = style.quote more) :
    text = more := by
  have hlist := congrArg String.toList h
  rw [toList_quote, toList_quote] at hlist
  have hescape := List.append_cancel_right (List.cons.inj hlist).2
  exact String.toList_inj.1 (style.escape_injective hescape)

theorem newline_notMem_quote (text : String) : '\n' ∉ (style.quote text).toList := by
  rw [toList_quote, List.mem_cons, List.mem_append, List.mem_singleton]
  rintro (h | h | h)
  · cases h
  · exact style.newline_notMem_escape text.toList h
  · cases h

end Escaping

end Text

end Tabscript
