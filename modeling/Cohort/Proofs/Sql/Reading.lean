import Cohort.Proofs.Sql.Reader
import Cohort.Proofs.Sql.Template

/-!
# Reading the tests

Where columns have names that are words, the text of every test is read as one
atom: a test keeps its brackets and its AND for itself.
-/

namespace Cohort.Sql

/-! ## Words -/

def keywords : List String := ["AND", "OR", "NOT", "TRUE", "FALSE"]

/-- A name is one word and no keyword.  All characters but blanks, parentheses and double quotes may
stand in it. -/
structure IsName (s : String) : Prop where
  isBareWord : isBareWord s = true
  not_keyword : s ∉ keywords

instance (s : String) : Decidable (IsName s) :=
  decidable_of_iff (isBareWord s = true ∧ s ∉ keywords)
    ⟨fun ⟨h, h'⟩ => ⟨h, h'⟩, fun h => ⟨h.isBareWord, h.not_keyword⟩⟩

/-- A text is read as one word that is no keyword. -/
structure ReadsName (s : String) : Prop where
  reads : Reads s [.word s]
  not_keyword : s ∉ keywords

namespace ReadsName

variable {s : String}

/-- A name is none of the words that formulas are made of. -/
theorem ne (h : ReadsName s) {k : String} (hk : k ∈ keywords) : s ≠ k := by
  rintro rfl
  exact h.not_keyword hk

theorem ne_and (h : ReadsName s) : s ≠ "AND" := h.ne (by decide)

theorem ne_or (h : ReadsName s) : s ≠ "OR" := h.ne (by decide)

theorem ne_not (h : ReadsName s) : s ≠ "NOT" := h.ne (by decide)

end ReadsName

/-- A name is read as one word, quoted or not. -/
theorem IsName.readsName {s : String} (h : IsName s) : ReadsName s :=
  ⟨.word h.isBareWord, h.not_keyword⟩

/-- Keywords are made of capitals alone. -/
theorem not_keyword_of_mem {s : String} {c : Char} (hc : c ∈ s.toList) (h : c.isUpper = false) :
    s ∉ keywords := by
  intro hs
  have hupper : ∀ k ∈ keywords, k.toList.all Char.isUpper = true := by decide
  rw [List.all_eq_true.mp (hupper s hs) c hc] at h
  cases h

/-- A bare word has no quotes in it. -/
theorem not_quote_of_isBareWord {s : String} (h : isBareWord s = true) : '"' ∉ s.toList := by
  intro hmem
  rw [isBareWord, Bool.and_eq_true] at h
  cases List.all_eq_true.mp h.2 _ hmem

/-- Quoting doubles nothing where there is no quote. -/
theorem doubleQuotes_of_not_mem {cs : List Char} (h : '"' ∉ cs) : doubleQuotes cs = cs := by
  induction cs with
  | nil => rfl
  | cons c cs ih =>
    rw [List.mem_cons, not_or] at h
    rw [doubleQuotes, if_neg (Ne.symm h.1), ih h.2]

/-- A column whose name is a word is read as one word, quoted or not. -/
theorem IsName.readsName_column {s : String} (h : IsName s) (d : Dialect) :
    ReadsName (d.columnText (.text s)) := by
  cases hq : d.quoteColumns with
  | false =>
    rw [Dialect.columnText, hq]
    exact h.readsName
  | true =>
    have hquote := not_quote_of_isBareWord h.isBareWord
    have hcolumn : d.columnText (.text s) = "\"" ++ s ++ "\"" := by
      rw [Dialect.columnText, hq, if_pos rfl, Value.shown_text, quoteIdentifier,
        doubleQuotes_of_not_mem hquote]
      apply String.toList_injective
      simp
    rw [hcolumn]
    exact ⟨.ofLexeme (lexemes?_quoted hquote), not_keyword_of_mem (c := '"') (by simp) (by decide)⟩

theorem isWordChar_of_isDigit {c : Char} (h : c.isDigit = true) : isWordChar c = true := by
  have hne : ∀ x : Char, x.isDigit = false → c ≠ x := by
    rintro x hx rfl
    cases h.symm.trans hx
  simp [isWordChar, separator?, Char.isWhitespace, hne]

theorem isBareWord_mark_append (slots : SlotStyle) (n : Nat) {s : String}
    (hs : s.toList.all isWordChar = true) : isBareWord (slots.mark n ++ s) = true := by
  cases slots with
  | question =>
    have hquestion : isWordChar '?' = true := by decide
    simp [isBareWord, SlotStyle.mark, hs, hquestion]
  | numbered =>
    have hdollar : isWordChar '$' = true := by decide
    have hdigits : (Nat.toDigits 10 n).all isWordChar = true := List.all_eq_true.mpr fun c hc =>
      isWordChar_of_isDigit (Nat.isDigit_of_mem_toDigits (by decide) (by decide) hc)
    simp [isBareWord, SlotStyle.mark, Decimal.Layout.digits, hs, hdollar, hdigits]

/-- The mark of a slot is one word, in every style. -/
theorem readsName_mark (slots : SlotStyle) (n : Nat) : ReadsName (slots.mark n) := by
  have hword := isBareWord_mark_append slots n (s := "") rfl
  rw [String.append_empty] at hword
  refine ⟨.word hword, ?_⟩
  cases slots with
  | question => exact not_keyword_of_mem (c := '?') (by simp [SlotStyle.mark]) rfl
  | numbered => exact not_keyword_of_mem (c := '$') (by simp [SlotStyle.mark]) rfl

/-- A mark stays one word with a comma behind it. -/
theorem reads_mark_comma (slots : SlotStyle) (n : Nat) :
    Reads (slots.mark n ++ ",") [.word (slots.mark n ++ ",")] :=
  .word (isBareWord_mark_append slots n (by decide))

/-- The sign of a comparison is one word. -/
theorem readsName_sign {op : Operator} {sign : String} (h : comparison? op = some sign) :
    ReadsName sign := by
  cases op <;> cases h <;> exact IsName.readsName (by decide)

/-! ## Tests -/

/-- A text is read as the atom that its own words make. -/
def ReadsAtom (text : String) : Prop := ReadsAs text (.atom (words text))

/-- A name and what follows it are an atom if the word AND in it separates nothing. -/
theorem ReadsAtom.of_conjuncts {s text : String} (hs : ReadsName s) {i : Item} {is : List Item}
    (h : Reads text (.word s :: i :: is)) (hor : ∀ j ∈ i :: is, j.isWord "OR" = false)
    (hand : conjuncts false [] (.word s :: i :: is) = [.word s :: i :: is]) : ReadsAtom text := by
  refine ⟨_, h, readLevel_piece ?_ hand ?_⟩
  · rw [List.forall_mem_cons]
    exact ⟨by simpa using hs.ne_or, hor⟩
  · rw [readPiece, h.words_eq] <;> simp [hs.ne_not]

/-- A name with words behind it that are neither AND nor OR is an atom. -/
theorem ReadsAtom.of_name {s text : String} (hs : ReadsName s) {i : Item} {is : List Item}
    (h : Reads text (.word s :: i :: is)) (hor : ∀ j ∈ i :: is, j.isWord "OR" = false)
    (hand : ∀ j ∈ i :: is, j.isWord "AND" = false) : ReadsAtom text := by
  refine .of_conjuncts hs h hor (conjuncts_of_not_and ?_ false [])
  rw [List.forall_mem_cons]
  exact ⟨by simpa using hs.ne_and, hand⟩

theorem isWord_of_not_mem {k : String} {ws : List String} (h : k ∉ ws) :
    ∀ i ∈ ws.map Item.word, i.isWord k = false := by
  intro i hi
  obtain ⟨w, hw, rfl⟩ := List.mem_map.mp hi
  rw [isWord_word, beq_eq_false_iff_ne]
  rintro rfl
  exact h hw

/-- Slots with commas between them are read as some words. -/
theorem reads_slotList (d : Dialect) (next count : Nat) :
    ∃ items, Reads (d.render (Clause.slotList next count)) items := by
  induction count generalizing next with
  | zero => exact ⟨[], .nil⟩
  | succ count ih =>
    cases count with
    | zero =>
      refine ⟨[.word (d.slots.mark next)], ?_⟩
      simpa [Clause.slotList, Dialect.token] using (readsName_mark d.slots next).reads
    | succ k =>
      obtain ⟨items, h⟩ := ih (next + 1)
      refine ⟨.word (d.slots.mark next ++ ",") :: items, ?_⟩
      have htext : d.render (Clause.slotList next (k + 2)) =
          d.slots.mark next ++ "," ++ " " ++ d.render (Clause.slotList (next + 1) (k + 1)) := by
        apply String.toList_injective
        simp [Clause.slotList, Dialect.token]
      rw [htext]
      exact (reads_mark_comma d.slots next).blank h

section Tests

variable (d : Dialect) {s : String} (hs : IsName s) (next : Nat)

include hs

/-- A comparison of a column with a parameter is one atom. -/
theorem readsAtom_compare (sign : Token) (hsign : ReadsName (d.token sign)) (v : Value) :
    ReadsAtom (d.render (Clause.compare (.text s) sign next v).tokens) := by
  have hcolumn := hs.readsName_column d
  have hmark := readsName_mark d.slots next
  have htext : d.render (Clause.compare (.text s) sign next v).tokens =
      d.columnText (.text s) ++ " " ++ d.token sign ++ " " ++ d.slots.mark next := by
    simp [Clause.compare, Dialect.token, String.append_assoc]
  rw [htext]
  refine .of_name hcolumn ((hcolumn.reads.blank hsign.reads).blank hmark.reads) ?_ ?_
  · simp [hsign.ne_or, hmark.ne_or]
  · simp [hsign.ne_and, hmark.ne_and]

/-- The first AND behind a BETWEEN is no border. -/
theorem readsAtom_between {v : Value} (h : fits .between v = true) :
    ReadsAtom (d.render (Clause.between (.text s) next v).tokens) := by
  obtain ⟨low, high, hv⟩ := fits_between_iff.mp h
  have hcolumn := hs.readsName_column d
  have hlow := readsName_mark d.slots next
  have hhigh := readsName_mark d.slots (next + 1)
  have hbetween : Reads "BETWEEN" [.word "BETWEEN"] := .word (by decide)
  have hand : Reads "AND" [.word "AND"] := .word (by decide)
  have h := (((hcolumn.reads.blank hbetween).blank hlow.reads).blank hand).blank hhigh.reads
  have htext : d.render (Clause.between (.text s) next v).tokens =
      d.columnText (.text s) ++ " " ++ "BETWEEN" ++ " " ++ d.slots.mark next ++ " " ++ "AND" ++ " "
        ++ d.slots.mark (next + 1) := by
    apply String.toList_injective
    simp [Clause.between, hv, Dialect.token]
  rw [htext]
  refine .of_conjuncts hcolumn h ?_ ?_
  · simp [hlow.ne_or, hhigh.ne_or]
  · simp [conjuncts, hcolumn.ne_and, hlow.ne_and, hhigh.ne_and]

/-- Words behind a column, with no parentheses in them. -/
theorem readsAtom_constant {test rest w : String} {ws : List String} (htest : test = " " ++ rest)
    (hrest : lexemes? rest = some ((w :: ws).map .word)) (hor : "OR" ∉ w :: ws)
    (hand : "AND" ∉ w :: ws) :
    ReadsAtom (d.render (Clause.constant (.text s) test).tokens) := by
  have hcolumn := hs.readsName_column d
  have htext : d.render (Clause.constant (.text s) test).tokens =
      d.columnText (.text s) ++ " " ++ rest := by
    simp [Clause.constant, Dialect.token, htest, String.append_assoc]
  rw [htext]
  exact .of_name hcolumn (hcolumn.reads.blank (.ofLexemes hrest)) (isWord_of_not_mem hor)
    (isWord_of_not_mem hand)

/-- A list of slots in parentheses is a part of its atom. -/
theorem readsAtom_list (negated : Bool) {v w : Value} {ws : List Value}
    (hv : v.sequence? = some (w :: ws)) :
    ReadsAtom (d.render (Clause.member negated (.text s) next v).tokens) := by
  have hcolumn := hs.readsName_column d
  obtain ⟨items, hslots⟩ := reads_slotList d next (w :: ws).length
  have hin : Reads (if negated then "NOT IN" else "IN")
      ((if negated then ["NOT", "IN"] else ["IN"]).map .word) := by
    cases negated <;> exact .ofLexemes (by decide +kernel)
  have h := ((hcolumn.reads.blank hin).blank .nil).parenthesized hslots .nil
  have htext : d.render (Clause.member negated (.text s) next v).tokens =
      d.columnText (.text s) ++ " " ++ (if negated then "NOT IN" else "IN") ++ " " ++ "" ++ "("
        ++ d.render (Clause.slotList next (w :: ws).length) ++ ")" ++ "" := by
    apply String.toList_injective
    cases negated <;> simp [Clause.member, hv, Dialect.token]
  rw [htext]
  cases negated <;> exact .of_name hcolumn h (by simp) (by simp)

/-- A membership test is one atom; that of the empty list is a constant instead. -/
theorem readsAtom_member (negated : Bool) {v : Value} (hv : v.sequence? ≠ some []) :
    ReadsAtom (d.render (Clause.member negated (.text s) next v).tokens) := by
  cases hv' : v.sequence? with
  | none =>
    have hsign : ReadsName (if negated then "!=" else "=") := by
      cases negated <;> exact IsName.readsName (by decide)
    have h := readsAtom_compare d hs next (.words (if negated then "!=" else "=")) hsign v
    simpa only [Clause.member, hv'] using h
  | some items =>
    cases items with
    | nil => exact absurd hv' hv
    | cons w ws => exact readsAtom_list d hs next negated hv'

/-- A call with its parentheses is a part of its atom. -/
theorem readsAtom_withinRadius {v : Value} (h : fits .withinRadius v = true) :
    ReadsAtom (d.render (Clause.withinRadius (.text s) next v).tokens) := by
  obtain ⟨lat, lng, radius, hlat, hlng, hradius⟩ := fits_withinRadius_iff.mp h
  have hcolumn := hs.readsName_column d
  have hmark := readsName_mark d.slots (next + 2)
  have hcomma : Reads "," [.word ","] := .word (by decide)
  have hle : Reads "<=" [.word "<="] := .word (by decide)
  have hfactor : Reads "* 1000" [.word "*", .word "1000"] :=
    .ofLexemes (by decide +kernel : lexemes? "* 1000" = some (["*", "1000"].map .word))
  have hdistance : ReadsName "earth_distance" := IsName.readsName (by decide)
  have hpoint : Reads "ll_to_earth" [.word "ll_to_earth"] := .word (by decide)
  have hslots := (reads_mark_comma d.slots next).blank (readsName_mark d.slots (next + 1)).reads
  have hcall := hpoint.parenthesized hslots (hcomma.blank hcolumn.reads)
  have hbound := ((Reads.nil.blank hle).blank hmark.reads).blank hfactor
  have h := hdistance.reads.parenthesized hcall hbound
  have htext : d.render (Clause.withinRadius (.text s) next v).tokens =
      "earth_distance" ++ "(" ++ ("ll_to_earth" ++ "(" ++ (d.slots.mark next ++ "," ++ " "
        ++ d.slots.mark (next + 1)) ++ ")" ++ ("," ++ " " ++ d.columnText (.text s))) ++ ")"
        ++ ("" ++ " " ++ "<=" ++ " " ++ d.slots.mark (next + 2) ++ " " ++ "* 1000") := by
    apply String.toList_injective
    simp [Clause.withinRadius, hlat, hlng, hradius, Dialect.token]
  rw [htext]
  refine .of_name hdistance h ?_ ?_
  · simp [hmark.ne_or]
  · simp [hmark.ne_and]

/-- The test of a comparison operator is one atom. -/
theorem readsAtom_comparison {op : Operator} {sign : String} (h : comparison? op = some sign)
    (v : Value) : ReadsAtom (d.render (Clause.ofTest op (.text s) next v).tokens) := by
  have hclause : Clause.ofTest op (.text s) next v =
      Clause.compare (.text s) (.words sign) next v := by
    cases op <;> cases h <;> rfl
  rw [hclause]
  exact readsAtom_compare d hs next (.words sign) (readsName_sign h) v

/-- Every test of a column that is no constant is read as one atom. -/
theorem readsAtom_ofTest (hlike : ReadsName d.likeWord) {op : Operator}
    (hsupports : supports op = true) {v : Value} (hfits : fits op v = true)
    (htest : emptyTest? op v = none) :
    ReadsAtom (d.render (Clause.ofTest op (.text s) next v).tokens) := by
  cases op
  case between => exact readsAtom_between d hs next hfits
  case withinRadius => exact readsAtom_withinRadius d hs next hfits
  case isIn =>
    refine readsAtom_member d hs next false fun hv => ?_
    simp [emptyTest?, hv] at htest
  case notIn =>
    refine readsAtom_member d hs next true fun hv => ?_
    simp [emptyTest?, hv] at htest
  case present =>
    have hrest : lexemes? "IS NOT NULL" = some (["IS", "NOT", "NULL"].map .word) := by
      decide +kernel
    exact readsAtom_constant d hs (by decide) hrest (by decide) (by decide)
  case absent =>
    have hrest : lexemes? "IS NULL" = some (["IS", "NULL"].map .word) := by decide +kernel
    exact readsAtom_constant d hs (by decide) hrest (by decide) (by decide)
  case isTrue =>
    have hrest : lexemes? "= true" = some (["=", "true"].map .word) := by decide +kernel
    exact readsAtom_constant d hs (by decide) hrest (by decide) (by decide)
  case isFalse =>
    have hrest : lexemes? "= false" = some (["=", "false"].map .word) := by decide +kernel
    exact readsAtom_constant d hs (by decide) hrest (by decide) (by decide)
  case matchText | matchAny => cases hsupports
  case contains | containsAnyCase | startsWith | endsWith =>
    exact readsAtom_compare d hs next .likeWord hlike _
  all_goals exact readsAtom_comparison d hs next rfl v

end Tests

end Cohort.Sql
