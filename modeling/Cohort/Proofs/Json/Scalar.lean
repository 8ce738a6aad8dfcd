import Cohort.Json.Decode
import Cohort.Json.Encode

/-!
# Strings and whole numbers read back

A character of a JSON string is written as itself, as a short escape, or as one
or two codes.  The reader gathers codes first and makes characters of them
afterwards, so a string is read back in two steps: the codes that were written
are the codes that are read, and the codes of a text are assembled to the text.

A whole number is read up to the first character that could not belong to it.
That is why what follows matters here, while the end of a string is a mark of
its own.
-/

namespace Cohort.Json

open Cohort.Decimal

/-! ## Codes of four digits -/

theorem hexValue?_digitChar : ∀ d < 16, Text.hexValue? d.digitChar = some d := by
  decide

/-- Padding writes the last digit behind the padded other digits. -/
theorem hexPadded_succ (width n : Nat) :
    Text.hexPadded (width + 2) n = Text.hexPadded (width + 1) (n / 16) ++ [(n % 16).digitChar] := by
  rw [Text.hexPadded, Nat.toDigits_eq_if (by decide)]
  by_cases h : n < 16
  · rw [if_pos h, Nat.mod_eq_of_lt h, Nat.div_eq_of_lt h, Text.hexPadded, Nat.toDigits_zero]
    simp [List.replicate_succ']
  · rw [if_neg h, Text.hexPadded]
    simp

/-- A code of the basic plane is written with exactly four digits. -/
theorem hexPadded_four {n : Nat} (h : n < 0x10000) :
    Text.hexPadded 4 n = [(n / 16 / 16 / 16).digitChar, (n / 16 / 16 % 16).digitChar,
      (n / 16 % 16).digitChar, (n % 16).digitChar] := by
  have hfirst : Text.hexPadded 1 (n / 16 / 16 / 16) = [(n / 16 / 16 / 16).digitChar] := by
    rw [Text.hexPadded, Nat.toDigits_of_lt_base (by omega)]
    rfl
  rw [hexPadded_succ, hexPadded_succ, hexPadded_succ, hfirst]
  rfl

theorem hexQuad?_digitChar {a b c d : Nat} (ha : a < 16) (hb : b < 16) (hc : c < 16)
    (hd : d < 16) :
    hexQuad? a.digitChar b.digitChar c.digitChar d.digitChar =
      some (a * 4096 + b * 256 + c * 16 + d) := by
  rw [hexQuad?, hexValue?_digitChar a ha, hexValue?_digitChar b hb, hexValue?_digitChar c hc,
    hexValue?_digitChar d hd]
  rfl

/-! ## Characters of a string -/

section Codes

variable {opening rest : List Char}

/-- A code of four digits is read back. -/
theorem readCodes_codeEscape {n : Nat} (h : n < 0x10000) (hrest : rest ≠ []) :
    readCodes opening (codeEscape n ++ rest) =
      (readCodes opening rest).map fun r => (n :: r.1, r.2) := by
  cases rest with
  | nil => exact absurd rfl hrest
  | cons e rest =>
    have hcode :
        n / 16 / 16 / 16 * 4096 + n / 16 / 16 % 16 * 256 + n / 16 % 16 * 16 + n % 16 = n := by
      omega
    rw [codeEscape, hexPadded_four h]
    simp only [List.cons_append, List.nil_append]
    rw [readCodes, hexQuad?_digitChar (by omega) (by omega) (by omega) (by omega), hcode]

theorem readCodes_shortEscape {c x : Char} (h : shortEscape? x = some c) :
    readCodes opening ('\\' :: x :: rest) =
      (readCodes opening rest).map fun r => (c.toNat :: r.1, r.2) := by
  have hcode : x ≠ 'u' := by
    rintro rfl
    cases h
  rw [readCodes, h]
  all_goals simp [hcode]

theorem readCodes_self {c : Char} (hquote : c ≠ '"') (hslash : c ≠ '\\') (h : ¬ c.toNat < 0x20) :
    readCodes opening (c :: rest) =
      (readCodes opening rest).map fun r => (c.toNat :: r.1, r.2) := by
  rw [readCodes, if_neg h]
  all_goals simp [hquote, hslash]

end Codes

/-- The codes that a character is written as: beyond the basic plane a surrogate pair, where no
character beyond ASCII may stand. -/
def codesOf (asciiOnly : Bool) (c : Char) : List Nat :=
  if asciiOnly ∧ 0x10000 ≤ c.toNat then
    [0xD800 + (c.toNat - 0x10000) / 0x400, 0xDC00 + (c.toNat - 0x10000) % 0x400]
  else [c.toNat]

theorem toNat_lt (c : Char) : c.toNat < 0x110000 := by
  rcases c.valid with h | h
  · exact Nat.lt_trans h (by decide)
  · exact h.2

theorem codesOf_of_lt (asciiOnly : Bool) {c : Char} (h : c.toNat < 0x10000) :
    codesOf asciiOnly c = [c.toNat] := by
  have hbasic : ¬ (asciiOnly = true ∧ 0x10000 ≤ c.toNat) := fun hwide => by omega
  rw [codesOf, if_neg hbasic]

theorem codesOf_of_le {c : Char} (h : 0x10000 ≤ c.toNat) :
    codesOf true c =
      [0xD800 + (c.toNat - 0x10000) / 0x400, 0xDC00 + (c.toNat - 0x10000) % 0x400] := by
  have hwide : true = true ∧ 0x10000 ≤ c.toNat := ⟨rfl, h⟩
  rw [codesOf, if_pos hwide]

theorem codeEscape_append_ne_nil (n : Nat) (rest : List Char) : codeEscape n ++ rest ≠ [] :=
  List.cons_ne_nil _ _

/-- A character beyond ASCII is read back, as one code or as two. -/
theorem readCodes_wideEscape {opening rest : List Char} (c : Char) (hrest : rest ≠ []) :
    readCodes opening (wideEscape c ++ rest) =
      (readCodes opening rest).map fun r => (codesOf true c ++ r.1, r.2) := by
  have hvalid := toNat_lt c
  unfold wideEscape
  dsimp only
  split
  case isTrue hbasic =>
    rw [readCodes_codeEscape hbasic hrest, codesOf_of_lt true hbasic]
    rfl
  case isFalse hwide =>
    -- the first half of a pair is followed by the second, which is not empty
    rw [List.append_assoc, readCodes_codeEscape (by omega) (codeEscape_append_ne_nil _ rest),
      readCodes_codeEscape (by omega) hrest, codesOf_of_le (Nat.not_lt.mp hwide)]
    cases readCodes opening rest with
    | error f => rfl
    | ok r => rfl

/-- How a character is written: by a short escape, by codes, or as itself. -/
theorem escapeChar_cases (asciiOnly : Bool) (c : Char) :
    (∃ x, escapeChar asciiOnly c = ['\\', x] ∧ shortEscape? x = some c ∧ c.toNat < 0x80) ∨
    (escapeChar asciiOnly c = codeEscape c.toNat ∧ c.toNat < 0x20) ∨
    (asciiOnly = true ∧ escapeChar asciiOnly c = wideEscape c) ∨
    (escapeChar asciiOnly c = [c] ∧ c ≠ '"' ∧ c ≠ '\\' ∧ ¬ c.toNat < 0x20 ∧
      (asciiOnly = true → c.toNat < 0x80)) := by
  unfold escapeChar
  split
  case isTrue h => subst h; exact .inl ⟨'"', rfl, rfl, by decide⟩
  split
  case isTrue h => subst h; exact .inl ⟨'\\', rfl, rfl, by decide⟩
  split
  case isTrue h => subst h; exact .inl ⟨'n', rfl, rfl, by decide⟩
  split
  case isTrue h => subst h; exact .inl ⟨'r', rfl, rfl, by decide⟩
  split
  case isTrue h => subst h; exact .inl ⟨'t', rfl, rfl, by decide⟩
  split
  case isTrue h => subst h; exact .inl ⟨'b', rfl, rfl, by decide⟩
  split
  case isTrue h => subst h; exact .inl ⟨'f', rfl, rfl, by decide⟩
  split
  case isTrue h => exact .inr (.inl ⟨rfl, h⟩)
  split
  case isTrue h => exact .inr (.inr (.inl ⟨(Bool.and_eq_true_iff.mp h).1, rfl⟩))
  case isFalse hquote hslash _ _ _ _ _ hcontrol hwide =>
    refine .inr (.inr (.inr ⟨rfl, hquote, hslash, hcontrol, ?_⟩))
    rintro rfl
    simp only [Bool.true_and, decide_eq_true_eq] at hwide
    omega

/-- The codes of a character that is written are the codes that are read. -/
theorem readCodes_escapeChar {opening rest : List Char} (asciiOnly : Bool) (c : Char)
    (hrest : rest ≠ []) :
    readCodes opening (escapeChar asciiOnly c ++ rest) =
      (readCodes opening rest).map fun r => (codesOf asciiOnly c ++ r.1, r.2) := by
  rcases escapeChar_cases asciiOnly c with ⟨x, hwritten, hshort, hascii⟩ | ⟨hwritten, hcontrol⟩ |
    ⟨rfl, hwritten⟩ | ⟨hwritten, hquote, hslash, hcontrol, hascii⟩
  · rw [hwritten, codesOf_of_lt asciiOnly (Nat.lt_trans hascii (by decide))]
    exact readCodes_shortEscape hshort
  · have hbasic : c.toNat < 0x10000 := Nat.lt_trans hcontrol (by decide)
    rw [hwritten, codesOf_of_lt asciiOnly hbasic]
    exact readCodes_codeEscape hbasic hrest
  · rw [hwritten]
    exact readCodes_wideEscape c hrest
  · have hcodes : codesOf asciiOnly c = [c.toNat] := by
      cases asciiOnly with
      | false => rfl
      | true => exact codesOf_of_lt true (Nat.lt_trans (hascii rfl) (by decide))
    rw [hwritten, hcodes]
    exact readCodes_self hquote hslash hcontrol

/-- The codes of a text that is written up to a quote are the codes that are read. -/
theorem readCodes_flatMap {opening : List Char} (asciiOnly : Bool) (cs rest : List Char) :
    readCodes opening (cs.flatMap (escapeChar asciiOnly) ++ '"' :: rest) =
      .ok (cs.flatMap (codesOf asciiOnly), rest) := by
  induction cs with
  | nil => rw [List.flatMap_nil, List.nil_append, readCodes, List.flatMap_nil]
  | cons c cs ih =>
    have hquote : cs.flatMap (escapeChar asciiOnly) ++ '"' :: rest ≠ [] := by simp
    rw [List.flatMap_cons, List.append_assoc, readCodes_escapeChar asciiOnly c hquote, ih,
      List.flatMap_cons]
    rfl

/-! ## From codes to characters -/

theorem assemble_code (c : Char) (codes : List Nat) :
    assemble (c.toNat :: codes) = c :: assemble codes := by
  have hvalid : c.toNat < 0xD800 ∨ 0xDFFF < c.toNat ∧ c.toNat < 0x110000 := c.valid
  have hhigh : isHighSurrogate c.toNat = false := by
    rw [isHighSurrogate, Bool.and_eq_false_iff, decide_eq_false_iff_not, decide_eq_false_iff_not]
    omega
  have hlow : isLowSurrogate c.toNat = false := by
    rw [isLowSurrogate, Bool.and_eq_false_iff, decide_eq_false_iff_not, decide_eq_false_iff_not]
    omega
  cases codes with
  | nil => simp [assemble, hhigh, hlow, Char.ofNat_toNat]
  | cons m codes => simp [assemble, hhigh, hlow, Char.ofNat_toNat]

/-- A surrogate pair is put together again. -/
theorem assemble_pair {c : Char} (h : 0x10000 ≤ c.toNat) (codes : List Nat) :
    assemble ((0xD800 + (c.toNat - 0x10000) / 0x400) ::
      (0xDC00 + (c.toNat - 0x10000) % 0x400) :: codes) = c :: assemble codes := by
  have hvalid := toNat_lt c
  generalize hhi : 0xD800 + (c.toNat - 0x10000) / 0x400 = hi
  generalize hlo : 0xDC00 + (c.toNat - 0x10000) % 0x400 = lo
  have hhigh : isHighSurrogate hi = true := by
    rw [isHighSurrogate, Bool.and_eq_true_iff, decide_eq_true_iff, decide_eq_true_iff]
    omega
  have hlow : isLowSurrogate lo = true := by
    rw [isLowSurrogate, Bool.and_eq_true_iff, decide_eq_true_iff, decide_eq_true_iff]
    omega
  have hcode : 0x10000 + (hi - 0xD800) * 0x400 + (lo - 0xDC00) = c.toNat := by omega
  rw [assemble, hhigh, hlow, hcode, Char.ofNat_toNat]
  rfl

/-- The codes of a text are assembled to the text. -/
theorem assemble_flatMap (asciiOnly : Bool) (cs : List Char) :
    assemble (cs.flatMap (codesOf asciiOnly)) = cs := by
  induction cs with
  | nil => rfl
  | cons c cs ih =>
    rw [List.flatMap_cons]
    by_cases hwide : asciiOnly = true ∧ 0x10000 ≤ c.toNat
    · obtain ⟨rfl, hwide⟩ := hwide
      rw [codesOf_of_le hwide]
      exact (assemble_pair hwide _).trans (congrArg _ ih)
    · rw [codesOf, if_neg hwide]
      exact (assemble_code c _).trans (congrArg _ ih)

/-- A text is read back from its string. -/
theorem readString_flatMap (asciiOnly : Bool) (t : String) (rest : List Char) :
    readString (t.toList.flatMap (escapeChar asciiOnly) ++ '"' :: rest) = .ok (t, rest) := by
  rw [readString, readCodes_flatMap]
  change Except.ok (String.ofList (assemble (t.toList.flatMap (codesOf asciiOnly))), rest) = _
  rw [assemble_flatMap, String.ofList_toList]

theorem toList_encodeString (asciiOnly : Bool) (t : String) :
    (encodeString asciiOnly t).toList =
      '"' :: (t.toList.flatMap (escapeChar asciiOnly) ++ ['"']) := by
  rw [encodeString, String.toList_ofList, List.cons_append]

/-! ## Whole numbers -/

/-- What stands behind a value: nothing, a blank, or a mark of the text around it. -/
def Ends : List Char → Prop
  | [] => True
  | c :: _ => isSpace c = true ∨ c = ',' ∨ c = ']' ∨ c = '\x7d'

theorem digitsValue_toDigits (n : Nat) : digitsValue (Nat.toDigits 10 n) = n := by
  rw [digitsValue, ofDigits, List.foldl_map]
  exact (Nat.ofDigitChars_eq_foldl.symm).trans Nat.ofDigitChars_ten_toDigits

theorem toList_signed (n : Int) :
    (Layout.signed n).toList =
      if n < 0 then '-' :: Nat.toDigits 10 n.natAbs else Nat.toDigits 10 n.natAbs := by
  unfold Layout.signed
  split <;> simp [Layout.digits]

/-- A number is written with a digit in front, which is a zero only for zero. -/
theorem exists_toDigits (n : Nat) :
    ∃ c cs, Nat.toDigits 10 n = c :: cs ∧ c.isDigit = true ∧ (c = '0' → n = 0) := by
  induction n using Nat.strongRecOn with
  | ind n ih =>
    rw [Nat.toDigits_eq_if (by decide)]
    split
    case isTrue h =>
      have hdigit : n.digitChar.isDigit = true := by
        rw [Nat.isDigit_digitChar, decide_eq_true h]
      exact ⟨n.digitChar, [], rfl, hdigit, Nat.digitChar_eq_zero.mp⟩
    case isFalse h =>
      obtain ⟨c, cs, hdigits, hdigit, hzero⟩ := ih (n / 10) (by omega)
      refine ⟨c, cs ++ [(n % 10).digitChar], by rw [hdigits]; rfl, hdigit, ?_⟩
      intro hc
      have := hzero hc
      omega

section Number

variable {rest : List Char}

/-- Behind a value stands nothing that could belong to a number. -/
theorem Ends.not_numeral {c : Char} (h : Ends (c :: rest)) :
    c.isDigit = false ∧ c ≠ '.' ∧ ¬ (c = 'e' ∨ c = 'E') := by
  have hcases : c = ' ' ∨ c = '\t' ∨ c = '\n' ∨ c = '\r' ∨ c = ',' ∨ c = ']' ∨ c = '\x7d' := by
    simpa [Ends, isSpace, or_assoc] using h
  rcases hcases with rfl | rfl | rfl | rfl | rfl | rfl | rfl <;> decide

theorem takeDigits_toDigits (h : Ends rest) (n : Nat) :
    takeDigits (Nat.toDigits 10 n ++ rest) = (Nat.toDigits 10 n, rest) := by
  have hdigits : ∀ c ∈ Nat.toDigits 10 n, c.isDigit = true := fun c hc =>
    Nat.isDigit_of_mem_toDigits (by decide) (by decide) hc
  rw [takeDigits, List.takeWhile_append_of_pos hdigits, List.dropWhile_append_of_pos hdigits]
  cases rest with
  | nil => simp
  | cons c rest => simp [h.not_numeral.1]

theorem readWhole?_toDigits (h : Ends rest) (n : Nat) :
    readWhole? (Nat.toDigits 10 n ++ rest) = some (Nat.toDigits 10 n, rest) := by
  have htake := takeDigits_toDigits h n
  obtain ⟨c, cs, hdigits, hdigit, hzero⟩ := exists_toDigits n
  rw [hdigits, List.cons_append] at htake ⊢
  by_cases hc : c = '0'
  · subst hc
    cases hzero rfl
    cases hdigits
    rfl
  · rw [readWhole?, if_pos hdigit, htake]
    exact hc

theorem readFraction_of_ends (h : Ends rest) : readFraction rest = ([], rest) := by
  cases rest with
  | nil => rfl
  | cons c rest =>
    rw [readFraction]
    intro cs hcs
    cases hcs
    exact h.not_numeral.2.1 rfl

theorem readPower_of_ends (h : Ends rest) : readPower rest = (none, rest) := by
  cases rest with
  | nil => rfl
  | cons c rest => rw [readPower, if_neg h.not_numeral.2.2]

/-- Digits are read back as a number, with a sign in front or without. -/
theorem readNumber_toDigits {m : Nat} (hm : (Nat.toDigits 10 m).length ≤ maxIntegerDigits)
    (h : Ends rest) :
    readNumber (Nat.toDigits 10 m ++ rest) = .ok (.int m, rest) ∧
    readNumber ('-' :: (Nat.toDigits 10 m ++ rest)) = .ok (.int (-m), rest) := by
  have hlength : ¬ maxIntegerDigits < (Nat.toDigits 10 m).length := Nat.not_lt.mpr hm
  have hwhole := readWhole?_toDigits h m
  constructor
  · have hminus : ∀ cs, Nat.toDigits 10 m ++ rest ≠ '-' :: cs := by
      obtain ⟨c, ds, hdigits, hdigit, -⟩ := exists_toDigits m
      intro cs hcs
      rw [hdigits, List.cons_append, List.cons.injEq] at hcs
      exact Text.ne_of_isDigit hdigit (by decide) hcs.1
    rw [readNumber]
    · simp [hwhole, readFraction_of_ends h, readPower_of_ends h, hlength, digitsValue_toDigits]
    · exact hminus
  · rw [readNumber]
    simp [hwhole, readFraction_of_ends h, readPower_of_ends h, hlength, digitsValue_toDigits]

/-- The digits of a number, with a minus in front or not, are read as the number. -/
theorem readNumber_signed {n : Int}
    (hn : (Nat.toDigits 10 n.natAbs).length ≤ maxIntegerDigits) (h : Ends rest) :
    readNumber ((Layout.signed n).toList ++ rest) = .ok (.int n, rest) := by
  obtain ⟨hplain, hminus⟩ := readNumber_toDigits hn h
  rw [toList_signed]
  split
  case isTrue hneg =>
    have habs : -(n.natAbs : Int) = n := by omega
    rwa [habs] at hminus
  case isFalse hneg =>
    have habs : (n.natAbs : Int) = n := by omega
    rwa [habs] at hplain

end Number

/-! ## Words -/

theorem readScalar_null (rest : List Char) :
    readScalar ("null".toList ++ rest) = .ok (.null, rest) := rfl

theorem readScalar_bool (b : Bool) (rest : List Char) :
    readScalar ((if b then "true" else "false").toList ++ rest) = .ok (.bool b, rest) := by
  cases b with
  | true => rfl
  | false => rfl

/-- No word starts like a number. -/
theorem find?_words_of_digit {c : Char} (h : c.isDigit = true) (cs : List Char) :
    words.find? (fun w => w.1.isPrefixOf (c :: cs)) = none ∧
    words.find? (fun w => w.1.isPrefixOf ('-' :: c :: cs)) = none := by
  have hne : ∀ x : Char, x.isDigit = false → (x == c) = false := fun x hx =>
    beq_eq_false_iff_ne.mpr (Text.ne_of_isDigit h hx).symm
  simp [words, List.find?, List.isPrefixOf, hne]

/-- A whole number of few enough digits is read back as one. -/
theorem readScalar_signed {n : Int}
    (hn : (Nat.toDigits 10 n.natAbs).length ≤ maxIntegerDigits) {rest : List Char}
    (h : Ends rest) : readScalar ((Layout.signed n).toList ++ rest) = .ok (.int n, rest) := by
  have hwords :
      words.find? (fun w => w.1.isPrefixOf ((Layout.signed n).toList ++ rest)) = none := by
    obtain ⟨c, cs, hdigits, hdigit, -⟩ := exists_toDigits n.natAbs
    rw [toList_signed, hdigits]
    split
    · exact (find?_words_of_digit hdigit (cs ++ rest)).2
    · exact (find?_words_of_digit hdigit (cs ++ rest)).1
  rw [readScalar, hwords]
  exact readNumber_signed hn h

end Cohort.Json
