import Cohort.Proofs.Sql.Alignment
import Mathlib.Data.List.Chain

/-!
# Marks and identifiers

A text is read by one who knows of quoted identifiers only: whatever stands
between double quotes is a name, and a question mark outside of them is the mark
of a parameter.  The texts that templates are rendered to are read back token by
token, whatever names their columns have: no two columns stand side by side, and
no word of the language has a double quote or a question mark in it.
-/

namespace Cohort.Sql

/-! ## The reader -/

inductive Part where
  | identifier (name : String)
  | char (c : Char)
  deriving DecidableEq, Repr

namespace Part

def name? : Part → Option String
  | identifier name => some name
  | char _ => none

def ofChars (cs : List Char) : List Part := cs.map .char

end Part

theorem length_lt_of_unquoteRest? {cs name rest : List Char}
    (h : unquoteRest? cs = some (name, rest)) : rest.length < cs.length := by
  induction cs using unquoteRest?.induct generalizing name rest with
  | case1 => simp [unquoteRest?] at h
  | case2 cs ih =>
    rw [unquoteRest?] at h
    obtain ⟨r, hr, heq⟩ := Option.map_eq_some_iff.mp h
    have hlt := ih hr
    cases heq
    simp only [List.length_cons]
    omega
  | case3 cs hdouble =>
    rw [unquoteRest?] at h
    · cases h
      simp
    · exact hdouble
  | case4 c cs hdouble hquote ih =>
    rw [unquoteRest?] at h
    · obtain ⟨r, hr, heq⟩ := Option.map_eq_some_iff.mp h
      have hlt := ih hr
      cases heq
      simp only [List.length_cons]
      omega
    · exact hdouble
    · exact hquote

theorem length_lt_of_unquote? {cs name rest : List Char}
    (h : unquote? cs = some (name, rest)) : rest.length < cs.length := by
  unfold unquote? at h
  split at h
  case h_1 cs =>
    have hlt := length_lt_of_unquoteRest? h
    simp only [List.length_cons]
    omega
  case h_2 => cases h

/-- The parts of a text, unless an identifier is left open. -/
def parts? (cs : List Char) : Option (List Part) :=
  match cs with
  | [] => some []
  | c :: cs =>
    if c = '"' then
      match _h : unquote? (c :: cs) with
      | some (name, rest) => (parts? rest).map (.identifier (String.ofList name) :: ·)
      | none => none
    else (parts? cs).map (.char c :: ·)
termination_by cs.length
decreasing_by
  · exact length_lt_of_unquote? ‹_›
  · simp

def marks? (text : String) : Option Nat := (parts? text.toList).map (·.count (.char '?'))

def identifiers? (text : String) : Option (List String) :=
  (parts? text.toList).map (·.filterMap Part.name?)

/-! ## Reading back -/

section ReadBack

variable {cs rest : List Char}

theorem unquoteRest?_cons {c : Char} (hc : c ≠ '"') :
    unquoteRest? (c :: cs) = (unquoteRest? cs).map fun r => (c :: r.1, r.2) := by
  rw [unquoteRest?]
  · rintro cs' rfl -
    exact hc rfl
  · exact hc

/-- A name between double quotes is read back with what follows, unless that is one more quote. -/
theorem unquoteRest?_doubleQuotes (hrest : rest.head? ≠ some '"') :
    unquoteRest? (doubleQuotes cs ++ '"' :: rest) = some (cs, rest) := by
  induction cs with
  | nil =>
    rw [doubleQuotes_nil, List.nil_append, unquoteRest?]
    rintro cs rfl
    exact hrest rfl
  | cons c cs ih =>
    by_cases hquote : c = '"'
    · rw [doubleQuotes, if_pos hquote, List.cons_append, List.cons_append, unquoteRest?, ih,
        hquote]
      rfl
    · rw [doubleQuotes, if_neg hquote, List.cons_append, unquoteRest?_cons hquote, ih]
      rfl

theorem parts?_cons {c : Char} (hc : c ≠ '"') :
    parts? (c :: cs) = (parts? cs).map (.char c :: ·) := by
  rw [parts?, if_neg hc]

/-- Text without a quote is read character by character. -/
theorem parts?_append (h : '"' ∉ cs) :
    parts? (cs ++ rest) = (parts? rest).map (Part.ofChars cs ++ ·) := by
  induction cs with
  | nil =>
    rw [List.nil_append]
    exact Option.map_id'.symm
  | cons c cs ih =>
    rw [List.mem_cons, not_or] at h
    rw [List.cons_append, parts?_cons (Ne.symm h.1), ih h.2, Option.map_map]
    rfl

/-- A quoted name is read as one identifier, whatever is in it, unless a quote follows. -/
theorem parts?_quoteIdentifier (name : String) (hrest : rest.head? ≠ some '"') :
    parts? ((quoteIdentifier name).toList ++ rest) = (parts? rest).map (.identifier name :: ·) := by
  have hread : unquote? ('"' :: (doubleQuotes name.toList ++ '"' :: rest)) =
      some (name.toList, rest) := by
    rw [unquote?]
    exact unquoteRest?_doubleQuotes hrest
  rw [toList_quoteIdentifier, List.append_assoc, List.singleton_append, List.cons_append, parts?,
    if_pos rfl]
  split
  case h_1 name' rest' h =>
    cases hread.symm.trans h
    rw [String.ofList_toList]
  case h_2 h => cases hread.symm.trans h

end ReadBack

/-! ## Templates -/

/-- A text of the language: it has no quotes and no marks, and it separates. -/
structure IsPlain (s : String) : Prop where
  ne_empty : s ≠ ""
  not_quote : '"' ∉ s.toList
  not_mark : '?' ∉ s.toList

instance (s : String) : Decidable (IsPlain s) :=
  decidable_of_iff (s ≠ "" ∧ '"' ∉ s.toList ∧ '?' ∉ s.toList)
    ⟨fun ⟨h₁, h₂, h₃⟩ => ⟨h₁, h₂, h₃⟩, fun h => ⟨h.ne_empty, h.not_quote, h.not_mark⟩⟩

namespace Token

def isColumn : Token → Bool
  | column _ => true
  | _ => false

/-- The words of a token are plain. -/
def IsPlain : Token → Prop
  | words s => Sql.IsPlain s
  | _ => True

/-- What a token is read as in a preview. -/
def parts : Token → List Part
  | words s => Part.ofChars s.toList
  | column name => [.identifier name.shown]
  | likeWord => Part.ofChars "LIKE".toList
  | slot _ => [.char '?']

def column? : Token → Option Value
  | column name => some name
  | _ => none

end Token

/-- No two columns stand side by side. -/
def Spaced (ts : List Token) : Prop := ts.IsChain fun t u => (t.isColumn && u.isColumn) = false

section Spaced

variable {t : Token} {ts us : List Token} {s : String}

theorem spaced_nil : Spaced [] := .nil

theorem spaced_cons (ht : t.isColumn = false) : Spaced (t :: ts) ↔ Spaced ts := by
  rw [Spaced, List.isChain_cons, ht]
  simp [Spaced]

/-- A token that is no column keeps apart what stands before and behind it. -/
theorem spaced_append_cons (ht : t.isColumn = false) :
    Spaced (ts ++ t :: us) ↔ Spaced ts ∧ Spaced us := by
  have hbehind : Spaced (t :: us) ↔ Spaced us := spaced_cons ht
  rw [← hbehind, Spaced, List.isChain_append]
  simp [Spaced, ht]

end Spaced

/-! ## Rendered templates -/

def columnsOf (ts : List Token) : List Value := ts.filterMap Token.column?

namespace Token

variable {t : Token}

/-- All but columns are written without quotes. -/
theorem not_quote_of_not_isColumn (h : t.IsPlain) (ht : t.isColumn = false) :
    '"' ∉ (Dialect.preview.token t).toList ∧ Dialect.preview.token t ≠ "" := by
  cases t with
  | words s => exact ⟨h.not_quote, h.ne_empty⟩
  | column name => cases ht
  | likeWord => decide
  | slot n => exact (by decide : '"' ∉ "?".toList ∧ "?" ≠ "")

theorem parts_of_not_isColumn (ht : t.isColumn = false) :
    t.parts = Part.ofChars (Dialect.preview.token t).toList := by
  cases t with
  | words s => rfl
  | column name => cases ht
  | likeWord => rfl
  | slot n => exact congrArg Part.ofChars (by decide : ['?'] = "?".toList)

/-- A plain token shows as many marks as it has slots. -/
theorem count_parts (h : t.IsPlain) :
    t.parts.count (.char '?') = (slotNumbers [t]).length := by
  cases t with
  | words s =>
    rw [List.count_eq_zero_of_not_mem]
    · rfl
    · intro hmem
      obtain ⟨c, hc, heq⟩ := List.mem_map.mp hmem
      cases heq
      exact h.not_mark hc
  | column name => rfl
  | likeWord => rfl
  | slot n => rfl

/-- A token shows an identifier just if it is a column. -/
theorem names_parts (t : Token) :
    t.parts.filterMap Part.name? = t.column?.toList.map Value.shown := by
  have hchars : ∀ cs : List Char, (Part.ofChars cs).filterMap Part.name? = [] := by
    intro cs
    simp [Part.ofChars, Part.name?]
  cases t with
  | words s => exact hchars _
  | column name => rfl
  | likeWord => exact hchars _
  | slot n => rfl

end Token

section Rendered

variable {ts : List Token}

/-- A template that does not start with a column does not start with a quote. -/
theorem head?_render_ne (hplain : ∀ t ∈ ts, t.IsPlain)
    (hfirst : ∀ t ∈ ts.head?, t.isColumn = false) :
    (Dialect.preview.render ts).toList.head? ≠ some '"' := by
  cases ts with
  | nil => simp
  | cons t ts =>
    obtain ⟨hquote, hne⟩ :=
      Token.not_quote_of_not_isColumn (hplain t List.mem_cons_self) (hfirst t rfl)
    rw [Dialect.render_cons, String.toList_append]
    cases htext : (Dialect.preview.token t).toList with
    | nil => exact absurd (String.toList_eq_nil_iff.mp htext) hne
    | cons c cs =>
      rw [htext, List.mem_cons, not_or] at hquote
      simpa using Ne.symm hquote.1

/-- A rendered template is read back token by token. -/
theorem parts?_render (hplain : ∀ t ∈ ts, t.IsPlain) (hspaced : Spaced ts) :
    parts? (Dialect.preview.render ts).toList = some (ts.flatMap Token.parts) := by
  induction ts with
  | nil => rw [Dialect.render_nil, String.toList_empty, parts?, List.flatMap_nil]
  | cons t ts ih =>
    obtain ⟨ht, hts⟩ := List.forall_mem_cons.mp hplain
    obtain ⟨hnext, hrest⟩ := List.isChain_cons.mp hspaced
    rw [Dialect.render_cons, String.toList_append, List.flatMap_cons]
    cases hcolumn : t.isColumn with
    | false =>
      rw [parts?_append (Token.not_quote_of_not_isColumn ht hcolumn).1, ih hts hrest,
        Token.parts_of_not_isColumn hcolumn]
      rfl
    | true =>
      cases t with
      | words s => cases hcolumn
      | likeWord => cases hcolumn
      | slot n => cases hcolumn
      | column name =>
        have hhead := head?_render_ne hts fun u hu => by
          have hu := hnext u hu
          rwa [hcolumn, Bool.true_and] at hu
        have htoken : Dialect.preview.token (.column name) = quoteIdentifier name.shown := rfl
        rw [htoken, parts?_quoteIdentifier _ hhead, ih hts hrest]
        rfl

/-- A preview of a template of plain tokens shows one mark for each slot. -/
theorem marks?_render (hplain : ∀ t ∈ ts, t.IsPlain) (hspaced : Spaced ts) :
    marks? (Dialect.preview.render ts) = some (slotNumbers ts).length := by
  rw [marks?, parts?_render hplain hspaced, Option.map_some, Option.some.injEq]
  clear hspaced
  induction ts with
  | nil => rfl
  | cons t ts ih =>
    obtain ⟨ht, hts⟩ := List.forall_mem_cons.mp hplain
    have hsplit : slotNumbers (t :: ts) = slotNumbers [t] ++ slotNumbers ts :=
      slotNumbers_append [t] ts
    rw [List.flatMap_cons, List.count_append, Token.count_parts ht, ih hts, hsplit,
      List.length_append]

/-- A preview of a template of plain tokens shows its columns, each as one identifier. -/
theorem identifiers?_render (hplain : ∀ t ∈ ts, t.IsPlain) (hspaced : Spaced ts) :
    identifiers? (Dialect.preview.render ts) = some ((columnsOf ts).map Value.shown) := by
  rw [identifiers?, parts?_render hplain hspaced, Option.map_some, Option.some.injEq]
  clear hplain hspaced
  induction ts with
  | nil => rfl
  | cons t ts ih =>
    rw [List.flatMap_cons, List.filterMap_append, ih, t.names_parts, columnsOf, columnsOf,
      ← List.map_append]
    cases hcolumn : t.column? with
    | none => rw [List.filterMap_cons_none hcolumn]; rfl
    | some name => rw [List.filterMap_cons_some hcolumn]; rfl

end Rendered

/-! ## Clauses -/

/-- The words of the language hold neither a mark nor a quote. -/
theorem isPlain_of_isOf {cat : Catalog} {t : Token} (h : t.IsOf cat) : t.IsPlain := by
  have hvocabulary : ∀ s ∈ vocabulary, IsPlain s := by decide
  cases t with
  | words s => exact hvocabulary s h
  | _ => trivial

namespace Clause

theorem Spaced.parenthesized {c : Clause} (h : Spaced c.tokens) :
    Spaced c.parenthesized.tokens := by
  rw [tokens_parenthesized, spaced_append_cons rfl, spaced_cons rfl]
  exact ⟨h, spaced_nil⟩

theorem Spaced.negateIf {c : Clause} (h : Spaced c.tokens) (negated : Bool) :
    Spaced (c.negateIf negated).tokens := by
  cases negated with
  | false => exact h
  | true =>
    rw [Clause.negateIf, if_pos rfl, negate, spaced_append_cons rfl, spaced_cons rfl]
    exact ⟨h, spaced_nil⟩

/-- Without columns there is nothing to keep apart. -/
theorem spaced_of_isColumn {ts : List Token} (h : ∀ t ∈ ts, t.isColumn = false) :
    Spaced ts := by
  induction ts with
  | nil => exact spaced_nil
  | cons t ts ih =>
    obtain ⟨ht, hts⟩ := List.forall_mem_cons.mp h
    exact (spaced_cons ht).mpr (ih hts)

theorem isColumn_slotList (next count : Nat) :
    ∀ t ∈ slotList next count, t.isColumn = false := by
  induction count generalizing next with
  | zero => simp [slotList]
  | succ count ih =>
    cases count with
    | zero => simp [slotList, Token.isColumn]
    | succ k =>
      intro t ht
      rw [slotList, List.mem_cons, List.mem_cons] at ht
      rcases ht with rfl | rfl | ht
      · rfl
      · rfl
      · exact ih (next + 1) t ht

/-- A column stands apart from what is no column. -/
theorem spaced_column_cons {name : Value} {ts : List Token} (h : ∀ t ∈ ts, t.isColumn = false) :
    Spaced (.column name :: ts) := by
  refine List.isChain_cons.mpr ⟨?_, spaced_of_isColumn h⟩
  intro t ht
  rw [h t (List.mem_of_mem_head? ht), Bool.and_false]

theorem spaced_compare (column : Value) {sign : Token} (hs : sign.isColumn = false) (next : Nat)
    (v : Value) : Spaced (compare column sign next v).tokens := by
  refine spaced_column_cons ?_
  intro t ht
  simp only [List.mem_cons, List.not_mem_nil, or_false] at ht
  rcases ht with rfl | rfl | rfl | rfl
  · rfl
  · exact hs
  · rfl
  · rfl

theorem spaced_member (negated : Bool) (column : Value) (next : Nat) (v : Value) :
    Spaced (member negated column next v).tokens := by
  unfold member
  cases v.sequence? with
  | none => exact spaced_compare column rfl next v
  | some items =>
    cases items with
    | nil => cases negated <;> exact List.isChain_singleton _
    | cons w ws =>
      refine spaced_column_cons ?_
      intro t ht
      replace ht := List.mem_append.mp ht
      rw [List.mem_cons, List.mem_singleton] at ht
      rcases ht with (rfl | ht) | rfl
      · rfl
      · exact isColumn_slotList next _ t ht
      · rfl

/-- Every test keeps the columns of its clause apart. -/
theorem spaced_ofTest (op : Operator) (column : Value) (next : Nat) (v : Value) :
    Spaced (ofTest op column next v).tokens := by
  cases op
  case between =>
    simp only [ofTest, between]
    split
    · exact spaced_column_cons (by simp [Token.isColumn])
    · exact List.isChain_singleton _
  case withinRadius =>
    simp only [ofTest, withinRadius]
    split
    · simp [Spaced, Token.isColumn]
    · exact List.isChain_singleton _
  case isIn => exact spaced_member false column next v
  case notIn => exact spaced_member true column next v
  case present | absent | isTrue | isFalse =>
    exact spaced_column_cons (by simp [Token.isColumn])
  case matchText | matchAny => exact List.isChain_singleton _
  all_goals exact spaced_compare column rfl next _

/-- The column of a condition stands alone in its clause. -/
theorem spaced_ofCondition (cat : Catalog) (next : Nat) (c : Condition) :
    Spaced (ofCondition cat next c).tokens := by
  rcases ofCondition_cases cat c with ⟨_, -, h⟩ | ⟨f, op, -, -, -, -, -, h⟩
  · rw [h]
    exact List.isChain_singleton _
  · rw [h]
    exact Spaced.negateIf (spaced_ofTest op f.column next c.value) c.negated

theorem spaced_join (op : Connective) {cs : List Clause} (h : ∀ c ∈ cs, Spaced c.tokens) :
    Spaced (join op cs).tokens := by
  induction cs with
  | nil => exact List.isChain_singleton _
  | cons c cs ih =>
    obtain ⟨hc, hcs⟩ := List.forall_mem_cons.mp h
    cases cs with
    | nil => exact Spaced.parenthesized hc
    | cons d ds => exact (spaced_append_cons rfl).mpr ⟨Spaced.parenthesized hc, ih hcs⟩

mutual

/-- In a clause no two columns stand side by side. -/
theorem spaced_ofNode (cat : Catalog) (next : Nat) (n : Node) :
    Spaced (ofNode cat next n).tokens :=
  match n with
  | .condition c => spaced_ofCondition cat next c
  | .group op cs negated => Spaced.negateIf (spaced_join op (spaced_ofNodes cat next cs)) negated

theorem spaced_ofNodes (cat : Catalog) (next : Nat) (ns : List Node) :
    ∀ c ∈ ofNodes cat next ns, Spaced c.tokens :=
  match ns with
  | [] => by simp [ofNodes]
  | n :: ns => by
    rw [ofNodes, List.forall_mem_cons]
    exact ⟨spaced_ofNode cat next n, spaced_ofNodes cat _ ns⟩

end

end Clause

/-! ## Texts -/

/-- A text is read as having a number of marks and some identifiers, and so it is next to words of
the language. -/
def Shows (text : String) (marks : Nat) (names : List String) : Prop :=
  ∃ ts, text = Dialect.preview.render ts ∧ (∀ t ∈ ts, t.IsPlain) ∧ Spaced ts ∧
    (slotNumbers ts).length = marks ∧ (columnsOf ts).map Value.shown = names

namespace Shows

variable {text text' word : String} {marks marks' : Nat} {names names' : List String}

/-- The marks that a text shows are counted. -/
theorem marks?_eq (h : Shows text marks names) : marks? text = some marks := by
  obtain ⟨ts, rfl, hplain, hspaced, rfl, -⟩ := h
  exact marks?_render hplain hspaced

/-- The identifiers that a text shows are read, in order. -/
theorem identifiers?_eq (h : Shows text marks names) : identifiers? text = some names := by
  obtain ⟨ts, rfl, hplain, hspaced, -, rfl⟩ := h
  exact identifiers?_render hplain hspaced

/-- A plain word shows nothing. -/
theorem words (h : IsPlain word) : Shows word 0 [] :=
  ⟨[.words word], by simp [Dialect.token], by simpa [Token.IsPlain] using h,
    List.isChain_singleton _, rfl, rfl⟩

/-- A mark shows itself. -/
theorem mark : Shows "?" 1 [] :=
  ⟨[.slot 1], by simp [Dialect.token, SlotStyle.mark, Dialect.preview], by simp [Token.IsPlain],
    List.isChain_singleton _, rfl, rfl⟩

/-- A quoted name shows the name, whatever is in it. -/
theorem identifier (name : String) : Shows (quoteIdentifier name) 0 [name] := by
  refine ⟨[.column (.text name)], ?_, by simp [Token.IsPlain], List.isChain_singleton _, rfl, rfl⟩
  rw [Dialect.render_cons, Dialect.render_nil, String.append_empty]
  rfl

/-- Texts with a word between them. -/
theorem between (h : Shows text marks names) (hword : IsPlain word)
    (h' : Shows text' marks' names') :
    Shows (text ++ word ++ text') (marks + marks') (names ++ names') := by
  obtain ⟨ts, rfl, hplain, hspaced, rfl, rfl⟩ := h
  obtain ⟨us, rfl, hplain', hspaced', rfl, rfl⟩ := h'
  refine ⟨ts ++ .words word :: us, ?_, ?_, ?_, ?_, ?_⟩
  · rw [Dialect.render_append, Dialect.render_cons, String.append_assoc]
    rfl
  · rw [List.forall_mem_append, List.forall_mem_cons]
    exact ⟨hplain, hword, hplain'⟩
  · exact (spaced_append_cons rfl).mpr ⟨hspaced, hspaced'⟩
  · rw [slotNumbers_append, List.length_append]
    rfl
  · rw [columnsOf, List.filterMap_append, List.map_append]
    rfl

theorem nil : Shows "" 0 [] :=
  ⟨[], Dialect.preview.render_nil.symm, nofun, spaced_nil, rfl, rfl⟩

/-- A plain word in front of a text changes nothing in what it shows. -/
theorem before (hword : IsPlain word) (h : Shows text marks names) :
    Shows (word ++ text) marks names := by
  have hboth := nil.between hword h
  rwa [String.empty_append, Nat.zero_add, List.nil_append] at hboth

/-- A plain word behind a text changes nothing in what it shows. -/
theorem behind (h : Shows text marks names) (hword : IsPlain word) :
    Shows (text ++ word) marks names := by
  have hboth := h.between hword nil
  rwa [String.append_empty, Nat.add_zero, List.append_nil] at hboth

/-- Texts with one identifier each, and a word between them. -/
theorem intercalate {texts : List String} (hword : IsPlain word)
    (h : List.Forall₂ (fun text name => Shows text 0 [name]) texts names) :
    Shows (word.intercalate texts) 0 names := by
  induction h with
  | nil => exact nil
  | @cons text name texts names htext htexts ih =>
    cases htexts with
    | nil => simpa using htext
    | cons =>
      rw [String.intercalate_cons_cons]
      exact htext.between hword ih

end Shows

/-- A query for a preview has one mark for each parameter, and its identifiers are columns of
fields. -/
theorem exists_shows_of_compile {cat : Catalog} {e : Expression} {q : Query}
    (hq : (compile .preview cat e).query = .ok q) :
    ∃ names, Shows q.text q.params.length names ∧
      ∀ name ∈ names, ∃ f ∈ cat.fields, f.column.shown = name := by
  rw [compile_eq] at hq
  cases hnone : hindrance? .preview cat e with
  | some m =>
    rw [hnone] at hq
    cases hq
  | none =>
    rw [hnone] at hq
    cases hq
    have hisOf := Clause.isOf_ofNode cat 1 e.toNode
    have hnumbers := congrArg List.length (Clause.numberedFrom_ofNode cat 1 e.toNode)
    rw [List.length_range'] at hnumbers
    refine ⟨_, ⟨(Clause.ofExpression cat e).tokens, rfl, fun t ht => isPlain_of_isOf (hisOf t ht),
      Clause.spaced_ofNode cat 1 e.toNode, hnumbers, rfl⟩, ?_⟩
    intro name hname
    obtain ⟨column, hcolumn, rfl⟩ := List.mem_map.mp hname
    obtain ⟨t, ht, htoken⟩ := List.mem_filterMap.mp hcolumn
    cases t with
    | column name =>
      cases htoken
      obtain ⟨f, hf, rfl⟩ := hisOf _ ht
      exact ⟨f, hf, rfl⟩
    | words s => cases htoken
    | likeWord => cases htoken
    | slot n => cases htoken

end Cohort.Sql
