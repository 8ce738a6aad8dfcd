import Mathlib.Data.List.Forall2
import Cohort.Proofs.Json.Scalar

/-!
# Brackets read back

A written value is read back wherever a value may end behind it, if there is
fuel for twice the text that is left.  Such texts between brackets, with a
comma and blanks between them, are again such a text.

The bound on the fuel is on all that is left and not on the value alone: each
step of the reader leaves a shorter text, so one bound serves at every depth.
-/

namespace Cohort

namespace Entries

def named (ms : List (String × Value)) : Entries := ms.map fun m => (.text m.1, m.2)

end Entries

namespace Json

/-! ## Blanks -/

/-- Blanks alone. -/
def IsGap (cs : List Char) : Prop := ∀ c ∈ cs, isSpace c = true

instance (cs : List Char) : Decidable (IsGap cs) :=
  List.decidableBAll (isSpace · = true) cs

/-- Whether a value may start with a character: one of ASCII, and so no byte order mark, that
neither is blank nor closes a bracket. -/
def isOpening (c : Char) : Bool := 0x20 < c.toNat && c.toNat < 0x7F && c ≠ ']' && c ≠ '\x7d'

/-- A text that starts like a value. -/
def Opens : List Char → Prop
  | [] => False
  | c :: _ => isOpening c = true

section Blanks

variable {gap cs ds : List Char} {c : Char}

theorem IsGap.append (hcs : IsGap cs) (hds : IsGap ds) : IsGap (cs ++ ds) :=
  List.forall_mem_append.mpr ⟨hcs, hds⟩

/-- A gap is skipped. -/
theorem skipSpace_gap (hgap : IsGap gap) (cs : List Char) : skipSpace (gap ++ cs) = skipSpace cs :=
  List.dropWhile_append_of_pos hgap

theorem Ends.afterGap (h : Ends cs) (hgap : IsGap gap) : Ends (gap ++ cs) := by
  cases gap with
  | nil => exact h
  | cons c gap => exact .inl (hgap c List.mem_cons_self)

theorem Opens.append (h : Opens cs) (ds : List Char) : Opens (cs ++ ds) := by
  cases cs with
  | nil => exact h.elim
  | cons c cs => exact h

theorem not_isSpace_of_isOpening (h : isOpening c = true) : ¬ isSpace c = true := by
  intro hspace
  have hcases : c = ' ' ∨ c = '\t' ∨ c = '\n' ∨ c = '\r' := by
    simpa [isSpace, or_assoc] using hspace
  rcases hcases with rfl | rfl | rfl | rfl <;> exact absurd h (by decide)

theorem isOpening_of_isDigit (h : c.isDigit = true) : isOpening c = true := by
  obtain ⟨hlow, hhigh⟩ := Char.isDigit_iff_toNat.mp h
  have hlow : 0x20 < c.toNat := Nat.lt_of_lt_of_le (by decide) hlow
  have hhigh : c.toNat < 0x7F := Nat.lt_of_le_of_lt hhigh (by decide)
  have hne : ∀ x : Char, x.isDigit = false → c ≠ x := fun x hx => Text.ne_of_isDigit h hx
  simp [isOpening, hlow, hhigh, hne]

theorem Opens.skipSpace_eq (h : Opens cs) : skipSpace cs = cs := by
  cases cs with
  | nil => exact h.elim
  | cons c cs => exact List.dropWhile_cons_of_neg (not_isSpace_of_isOpening h)

end Blanks

/-! ## Texts that are read as values -/

/-- A text that is read as a value wherever a value may end behind it. -/
structure Reads (t : List Char) (v : Value) : Prop where
  opens : Opens t
  read : ∀ fuel rest, Ends rest → 2 * (t ++ rest).length ≤ fuel →
    readValue fuel (t ++ rest) = .ok (v, rest)

/-- What is neither a string nor between brackets is read as a scalar. -/
theorem Reads.ofScalar {c : Char} {cs : List Char} {v : Value} (hopens : Opens (c :: cs))
    (hmark : c ∉ ['"', '[', '\x7b'])
    (h : ∀ rest, Ends rest → readScalar (c :: cs ++ rest) = .ok (v, rest)) :
    Reads (c :: cs) v where
  opens := hopens
  read fuel rest hends hfuel := by
    cases fuel with
    | zero => simp at hfuel
    | succ fuel =>
      rw [List.cons_append, readValue]
      · exact h rest hends
      all_goals
        rintro ds hds
        cases hds
        exact hmark (by decide)

theorem reads_null : Reads "null".toList .null :=
  .ofScalar rfl (by decide) fun rest _ => readScalar_null rest

theorem reads_bool (b : Bool) : Reads (if b then "true" else "false").toList (.bool b) := by
  have hread := readScalar_bool b
  cases b with
  | true => exact .ofScalar rfl (by decide) fun rest _ => hread rest
  | false => exact .ofScalar rfl (by decide) fun rest _ => hread rest

/-- A whole number of few enough digits is read back. -/
theorem reads_signed {n : Int}
    (hn : (Nat.toDigits 10 n.natAbs).length ≤ Decimal.maxIntegerDigits) :
    Reads (Decimal.Layout.signed n).toList (.int n) := by
  have hread : ∀ rest, Ends rest →
      readScalar ((Decimal.Layout.signed n).toList ++ rest) = .ok (.int n, rest) :=
    fun rest hends => readScalar_signed hn hends
  obtain ⟨c, cs, hdigits, hdigit, -⟩ := exists_toDigits n.natAbs
  rw [toList_signed, hdigits] at hread ⊢
  by_cases hneg : n < 0
  · rw [if_pos hneg] at hread ⊢
    exact .ofScalar rfl (by decide) hread
  · rw [if_neg hneg] at hread ⊢
    have hmark : c ∉ ['"', '[', '\x7b'] := by
      have hne : ∀ x : Char, x.isDigit = false → c ≠ x := fun x hx => Text.ne_of_isDigit hdigit hx
      simp [hne]
    exact .ofScalar (isOpening_of_isDigit hdigit) hmark hread

/-- A text is read back, whether or not it is written in ASCII alone. -/
theorem reads_string (asciiOnly : Bool) (t : String) :
    Reads (encodeString asciiOnly t).toList (.text t) where
  opens := by
    rw [toList_encodeString]
    exact (rfl : isOpening '"' = true)
  read fuel rest hends hfuel := by
    rw [toList_encodeString] at hfuel ⊢
    cases fuel with
    | zero => simp at hfuel
    | succ fuel =>
      rw [List.cons_append, List.append_assoc, readValue]
      change (readString (t.toList.flatMap (escapeChar asciiOnly) ++ '"' :: rest)).map _ = _
      rw [readString_flatMap]
      rfl

/-- A text that is read as a value is a document of its own. -/
theorem decode_of_reads {text : String} {v : Value} (h : Reads text.toList v) :
    decode text = .ok v := by
  have hread : readValue (2 * text.toList.length + 2) text.toList = .ok (v, []) := by
    have hread := h.read (2 * text.toList.length + 2) [] trivial
    rw [List.append_nil] at hread
    exact hread (Nat.le_add_right _ 2)
  unfold decode
  dsimp only
  split
  case h_1 hmark =>
    have hopens := h.opens
    rw [hmark] at hopens
    exact absurd hopens Bool.false_ne_true
  case h_2 =>
    rw [h.opens.skipSpace_eq, hread]
    rfl

/-! ## Items and members

The readers of items and of members have one shape: an element, and behind it
the closing mark or a comma and further elements.  `IsElement` is that step,
and the elements are followed once for both.
-/

/-- A text that a reader of elements reads as one element, whatever is behind it. -/
structure IsElement {β : Type} (read : Nat → List Char → Except Fault (List β × List Char))
    (closing : Char) (t : List Char) (b : β) : Prop where
  opens : Opens t
  last : ∀ fuel gap rest, IsGap gap → 2 * (t ++ (gap ++ closing :: rest)).length ≤ fuel →
    read (fuel + 1) (t ++ (gap ++ closing :: rest)) = .ok ([b], rest)
  next : ∀ fuel rest, 2 * (t ++ ',' :: rest).length ≤ fuel →
    read (fuel + 1) (t ++ ',' :: rest) =
      (read fuel (skipSpace rest)).map fun r => (b :: r.1, r.2)

def memberText (asciiOnly : Bool) (colon name text : String) : String :=
  encodeString asciiOnly name ++ colon ++ text

section Elements

variable {fuel : Nat} {t rest : List Char} {v : Value}

/-- An item is read, and then what follows it tells whether there is another one. -/
theorem readItems_reads (h : Reads t v) (hends : Ends rest)
    (hfuel : 2 * (t ++ rest).length ≤ fuel) :
    readItems (fuel + 1) (t ++ rest) = match skipSpace rest with
      | ']' :: rest => .ok ([v], rest)
      | ',' :: rest => (readItems fuel (skipSpace rest)).map fun r => (v :: r.1, r.2)
      | rest => fail .expectedComma rest := by
  rw [readItems, h.read fuel rest hends hfuel]
  rfl

theorem Reads.isItem (h : Reads t v) : IsElement readItems ']' t v where
  opens := h.opens
  last fuel gap rest hgap hfuel := by
    have hends : Ends (gap ++ ']' :: rest) := Ends.afterGap (.inr (.inr (.inl rfl))) hgap
    rw [readItems_reads h hends hfuel, skipSpace_gap hgap]
    rfl
  next fuel rest hfuel := by
    have hends : Ends (',' :: rest) := .inr (.inl rfl)
    rw [readItems_reads h hends hfuel]
    rfl

variable {colon : String} {gap : List Char}

theorem toList_memberText (hcolon : colon.toList = ':' :: gap) (asciiOnly : Bool)
    (name text : String) :
    (memberText asciiOnly colon name text).toList =
      '"' :: (name.toList.flatMap (escapeChar asciiOnly) ++
        '"' :: ':' :: (gap ++ text.toList)) := by
  rw [memberText, String.toList_append, String.toList_append, toList_encodeString, hcolon]
  simp

theorem readMembers_reads {text : String} (hcolon : colon.toList = ':' :: gap) (hgap : IsGap gap)
    (asciiOnly : Bool) (name : String) (h : Reads text.toList v) (hends : Ends rest)
    (hfuel : 2 * ((memberText asciiOnly colon name text).toList ++ rest).length ≤ fuel) :
    readMembers (fuel + 1) ((memberText asciiOnly colon name text).toList ++ rest) =
      match skipSpace rest with
      | '\x7d' :: rest => .ok ([(.text name, v)], rest)
      | ',' :: rest =>
        (readMembers fuel (skipSpace rest)).map fun r => ((.text name, v) :: r.1, r.2)
      | rest => fail .expectedComma rest := by
  have hvalue : skipSpace (gap ++ (text.toList ++ rest)) = text.toList ++ rest := by
    rw [skipSpace_gap hgap, (h.opens.append rest).skipSpace_eq]
  rw [toList_memberText hcolon] at hfuel ⊢
  have hshorter : 2 * (text.toList ++ rest).length ≤ fuel := by
    simp only [List.length_append, List.length_cons] at hfuel ⊢
    omega
  rw [List.cons_append, List.append_assoc, List.cons_append, List.cons_append, List.append_assoc,
    readMembers]
  change ((readString (name.toList.flatMap (escapeChar asciiOnly) ++ '"' :: _)).bind _) = _
  rw [readString_flatMap]
  change (readValue fuel (skipSpace (gap ++ (text.toList ++ rest)))).bind _ = _
  rw [hvalue, h.read fuel rest hends hshorter]
  rfl

/-- A value that is read back is read back as a member too. -/
theorem Reads.isMember {text : String} (h : Reads text.toList v)
    (hcolon : colon.toList = ':' :: gap) (hgap : IsGap gap) (asciiOnly : Bool) (name : String) :
    IsElement readMembers '\x7d' (memberText asciiOnly colon name text).toList
      (Value.text name, v) where
  opens := by
    rw [toList_memberText hcolon]
    exact (rfl : isOpening '"' = true)
  last fuel gap rest hgap' hfuel := by
    have hends : Ends (gap ++ '\x7d' :: rest) := Ends.afterGap (.inr (.inr (.inr rfl))) hgap'
    rw [readMembers_reads hcolon hgap asciiOnly name h hends hfuel, skipSpace_gap hgap']
    rfl
  next fuel rest hfuel := by
    have hends : Ends (',' :: rest) := .inr (.inl rfl)
    rw [readMembers_reads hcolon hgap asciiOnly name h hends hfuel]
    rfl

end Elements

/-! ## Elements with commas between them -/

section Commas

variable {β : Type} {read : Nat → List Char → Except Fault (List β × List Char)}
  {closing : Char} {sep : String} {gap behind : List Char}

theorem toList_intercalate_cons_cons (sep t u : String) (texts : List String) :
    (sep.intercalate (t :: u :: texts)).toList =
      t.toList ++ (sep.toList ++ (sep.intercalate (u :: texts)).toList) := by
  rw [String.intercalate_cons_cons, String.toList_append, String.toList_append, List.append_assoc]

theorem opens_intercalate {t : String} (h : Opens t.toList) (sep : String) (texts : List String) :
    Opens (sep.intercalate (t :: texts)).toList := by
  cases texts with
  | nil => rwa [String.intercalate_singleton]
  | cons u texts =>
    rw [toList_intercalate_cons_cons]
    exact h.append _

/-- Elements with a comma and blanks between them are read one after the other. -/
theorem read_intercalate (hsep : sep.toList = ',' :: gap) (hgap : IsGap gap)
    (hbehind : IsGap behind) {texts : List String} {bs : List β}
    (h : List.Forall₂ (fun t b => IsElement read closing t.toList b) texts bs) (hne : texts ≠ [])
    (rest : List Char) (fuel : Nat)
    (hfuel :
      2 * ((sep.intercalate texts).toList ++ (behind ++ closing :: rest)).length + 1 ≤ fuel) :
    read fuel ((sep.intercalate texts).toList ++ (behind ++ closing :: rest)) = .ok (bs, rest) := by
  induction h generalizing fuel with
  | nil => exact absurd rfl hne
  | @cons t b texts bs ht htexts ih =>
    cases fuel with
    | zero => omega
    | succ fuel =>
      -- only between two elements is there a comma, so the rest is looked at before the step
      cases htexts with
      | nil =>
        rw [String.intercalate_singleton] at hfuel ⊢
        exact ht.last fuel behind rest hbehind (by omega)
      | @cons u c texts bs hu htexts =>
        have hopens := (opens_intercalate hu.opens sep texts).append (behind ++ closing :: rest)
        rw [toList_intercalate_cons_cons, hsep, List.append_assoc, List.cons_append,
          List.cons_append, List.append_assoc] at hfuel ⊢
        have hshorter : 2 * ((sep.intercalate (u :: texts)).toList ++
            (behind ++ closing :: rest)).length + 1 ≤ fuel := by
          simp only [List.length_append, List.length_cons] at hfuel ⊢
          omega
        rw [ht.next fuel _ (by omega), skipSpace_gap hgap, hopens.skipSpace_eq,
          ih (List.cons_ne_nil _ _) fuel hshorter]
        rfl

end Commas

/-! ## Brackets -/

/-- A style that writes nothing but blanks beside the commas and colons. -/
structure Style.IsLoose (s : Style) : Prop where
  indent : ∀ unit, s.indent = some unit → IsGap unit.toList
  item : ∃ gap, s.itemSeparator.toList = ',' :: gap ∧ IsGap gap
  name : ∃ gap, s.nameSeparator.toList = ':' :: gap ∧ IsGap gap

/-- A style without line breaks has gaps of blanks alone. -/
theorem Style.isLoose_line (sortNames asciiOnly : Bool) : IsLoose { sortNames, asciiOnly } where
  indent := nofun
  item := ⟨[' '], (by decide : ", ".toList = [',', ' ']), by decide⟩
  name := ⟨[' '], (by decide : ": ".toList = [':', ' ']), by decide⟩

section Brackets

variable {s : Style}

theorem Style.IsLoose.isGap_break (hs : s.IsLoose) (level : Nat) :
    IsGap (s.break level).toList := by
  unfold Style.break
  cases hindent : s.indent with
  | none => exact fun c hc => nomatch hc
  | some unit =>
    intro c hc
    rw [String.toList_append, String.toList_join, List.mem_append, List.mem_flatMap] at hc
    rcases hc with hc | ⟨t, ht, hc⟩
    · cases List.mem_singleton.mp hc
      rfl
    · cases List.eq_of_mem_replicate ht
      exact hs.indent unit hindent c hc

/-- The separator of a style is a comma with blanks behind it. -/
theorem Style.IsLoose.exists_separator (hs : s.IsLoose) (level : Nat) :
    ∃ gap, (s.itemSeparator ++ s.break level).toList = ',' :: gap ∧ IsGap gap := by
  obtain ⟨gap, heq, hgap⟩ := hs.item
  refine ⟨gap ++ (s.break level).toList, ?_, hgap.append (hs.isGap_break level)⟩
  rw [String.toList_append, heq, List.cons_append]

/-- What stands behind the opening bracket: the parts, with a closing bracket behind them. -/
def Style.inside (s : Style) (level : Nat) (parts : List String) (closing : Char)
    (rest : List Char) : List Char :=
  ((s.itemSeparator ++ s.break (level + 1)).intercalate parts).toList ++
    ((s.break level).toList ++ closing :: rest)

theorem toList_bracket (s : Style) {parts : List String} (hne : parts ≠ []) (level : Nat)
    (opening closing : Char) (rest : List Char) :
    (s.bracket level (String.singleton opening) (String.singleton closing) parts).toList ++ rest =
      opening :: ((s.break (level + 1)).toList ++ s.inside level parts closing rest) := by
  have hparts : ¬ parts.isEmpty = true := by simpa using hne
  rw [Style.bracket, if_neg hparts, Style.inside]
  simp

variable {β : Type} {read : Nat → List Char → Except Fault (List β × List Char)}
  {closing : Char} {parts : List String} {bs : List β}

/-- The elements between brackets are read up to the closing bracket. -/
theorem read_inside (hs : s.IsLoose)
    (h : List.Forall₂ (fun t b => IsElement read closing t.toList b) parts bs) (hne : parts ≠ [])
    (level : Nat) (rest : List Char) :
    Opens (s.inside level parts closing rest) ∧
    ∀ fuel, 2 * (s.inside level parts closing rest).length + 1 ≤ fuel →
      read fuel (s.inside level parts closing rest) = .ok (bs, rest) := by
  obtain ⟨gap, hsep, hgap⟩ := hs.exists_separator (level + 1)
  constructor
  · cases h with
    | nil => exact absurd rfl hne
    | cons ht => exact (opens_intercalate ht.opens _ _).append _
  · exact fun fuel => read_intercalate hsep hgap (hs.isGap_break level) h hne rest fuel

/-- What a reader of values does between brackets: blanks, then elements up to the closing mark,
unless there is none. -/
structure ReadsInside (opening closing : Char)
    (read : Nat → List Char → Except Fault (List β × List Char)) (make : List β → Value) :
    Prop where
  opens : isOpening opening = true
  empty : ∀ fuel rest, readValue (fuel + 1) (opening :: closing :: rest) = .ok (make [], rest)
  elements : ∀ fuel gap cs bs rest, IsGap gap → Opens cs → read fuel cs = .ok (bs, rest) →
    readValue (fuel + 1) (opening :: (gap ++ cs)) = .ok (make bs, rest)

theorem readsInside_array : ReadsInside '[' ']' readItems Value.list where
  opens := rfl
  empty fuel rest := by
    rw [readValue]
    rfl
  elements fuel gap cs vs rest hgap hopens hread := by
    rw [readValue, skipSpace_gap hgap, hopens.skipSpace_eq]
    split
    case h_1 => exact absurd hopens Bool.false_ne_true
    case h_2 =>
      rw [hread]
      rfl

theorem readsInside_object :
    ReadsInside '\x7b' '\x7d' readMembers fun es => .map (Entries.ofPairs es) where
  opens := rfl
  empty fuel rest := by
    rw [readValue]
    rfl
  elements fuel gap cs es rest hgap hopens hread := by
    rw [readValue, skipSpace_gap hgap, hopens.skipSpace_eq]
    split
    case h_1 => exact absurd hopens Bool.false_ne_true
    case h_2 =>
      rw [hread]
      rfl

/-- Elements between brackets are read as what is made of them. -/
theorem reads_bracket {opening : Char} {make : List β → Value}
    (hinside : ReadsInside opening closing read make) (hs : s.IsLoose)
    (h : List.Forall₂ (fun t b => IsElement read closing t.toList b) parts bs) (level : Nat) :
    Reads (s.bracket level (String.singleton opening) (String.singleton closing) parts).toList
      (make bs) := by
  by_cases hne : parts = []
  · subst hne
    cases h
    have htext : (s.bracket level (String.singleton opening) (String.singleton closing) []).toList =
        [opening, closing] := by simp [Style.bracket]
    rw [htext]
    refine ⟨hinside.opens, ?_⟩
    intro fuel rest _ hfuel
    cases fuel with
    | zero => simp at hfuel
    | succ fuel => exact hinside.empty fuel rest
  · constructor
    · have htext := toList_bracket s hne level opening closing []
      rw [List.append_nil] at htext
      rw [htext]
      exact hinside.opens
    · intro fuel rest _ hfuel
      obtain ⟨hopens, hread⟩ := read_inside hs h hne level rest
      rw [toList_bracket s hne] at hfuel ⊢
      cases fuel with
      | zero => simp at hfuel
      | succ fuel =>
        have hshorter : 2 * (s.inside level parts closing rest).length + 1 ≤ fuel := by
          simp only [List.length_append, List.length_cons] at hfuel
          omega
        exact hinside.elements fuel _ _ bs rest (hs.isGap_break _) hopens (hread fuel hshorter)

/-- Values that are read back are read back as an array. -/
theorem Reads.array {texts : List String} {vs : List Value} (hs : s.IsLoose)
    (h : List.Forall₂ (fun t v => Reads t.toList v) texts vs) (level : Nat) :
    Reads (s.bracket level "[" "]" texts).toList (.list vs) :=
  reads_bracket readsInside_array hs (h.imp fun _ _ ht => ht.isItem) level

/-- Members that are read back are read back as an object. -/
theorem Reads.object {asciiOnly : Bool} {texts : List String} {es : List (String × Value)}
    (hs : s.IsLoose)
    (h : List.Forall₂ (fun t e => ∃ text : String,
      t = memberText asciiOnly s.nameSeparator e.1 text ∧ Reads text.toList e.2) texts es)
    (level : Nat) :
    Reads (s.bracket level "\x7b" "\x7d" texts).toList
      (.map (Entries.ofPairs (Entries.named es))) := by
  obtain ⟨gap, hcolon, hgap⟩ := hs.name
  refine reads_bracket readsInside_object hs ?_ level
  rw [Entries.named, List.forall₂_map_right_iff]
  refine h.imp ?_
  rintro t ⟨name, v⟩ ⟨text, rfl, hread⟩
  exact hread.isMember hcolon hgap asciiOnly name

end Brackets

end Json

end Cohort
