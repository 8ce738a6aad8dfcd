import Cohort.Proofs.Sql.Formula

/-!
# Reading a clause

The text of a clause is read back as a formula in three steps.  Its characters
are scanned into lexemes, parentheses nest lexemes into items, and the items of
one level are read with the usual precedence: OR binds weakest, then AND, then
NOT, and what is left between them is an atom.  The AND behind a BETWEEN belongs
to its atom.  Nothing is known here of how clauses are made.
-/

namespace Cohort.Sql

/-! ## Lexemes -/

inductive Lexeme where
  | opening
  | closing
  | word (s : String)
  deriving DecidableEq, Repr

def separator? (c : Char) : Option (List Lexeme) :=
  if c = '(' then some [.opening]
  else if c = ')' then some [.closing]
  else if c.isWhitespace then some []
  else none

/-- The lexemes that are complete, and the word under way. -/
structure Scanner where
  lexemes : List Lexeme := []
  pending : List Char := []
  quoted : Bool := false

namespace Scanner

def flush (s : Scanner) : List Lexeme :=
  if s.pending.isEmpty then s.lexemes else s.lexemes ++ [.word (String.ofList s.pending)]

def keep (s : Scanner) (c : Char) : Scanner := { s with pending := s.pending ++ [c] }

/-- Takes a character.  Nothing ends a word between double quotes. -/
def step (s : Scanner) (c : Char) : Scanner :=
  if c = '"' then { s.keep c with quoted := !s.quoted }
  else if s.quoted then s.keep c
  else match separator? c with
    | some ls => { lexemes := s.flush ++ ls }
    | none => s.keep c

def scan (s : Scanner) (cs : List Char) : Scanner := cs.foldl step s

end Scanner

/-- The lexemes of a text, unless a quote is left open. -/
def lexemes? (text : String) : Option (List Lexeme) :=
  let s := Scanner.scan {} text.toList
  if s.quoted then none else some s.flush

/-! ## Items -/

/-- A word, or what stands between two parentheses, with its reading. -/
inductive Item where
  | word (s : String)
  | enclosed (words : List String) (reading : Option Formula)

namespace Item

def words : Item → List String
  | word s => [s]
  | enclosed ws _ => "(" :: ws ++ [")"]

def isWord (w : String) : Item → Bool
  | word s => s == w
  | enclosed .. => false

end Item

/-- The pieces between the words AND.  Behind a BETWEEN, the first AND is no border. -/
def conjuncts (between : Bool) (piece : List Item) : List Item → List (List Item)
  | [] => [piece]
  | i :: is =>
    if i.isWord "AND" && !between then piece :: conjuncts false [] is
    else conjuncts (i.isWord "BETWEEN" || between && !i.isWord "AND") (piece ++ [i]) is

def disjuncts (level : List Item) : List (List Item) := level.splitOnP (·.isWord "OR")

def readPiece : List Item → Option Formula
  | [] => none
  | [.enclosed _ reading] => reading
  | [.word "TRUE"] => some (.constant true)
  | [.word "FALSE"] => some (.constant false)
  | i :: is =>
    if i.isWord "NOT" then (readPiece is).map .not else some (.atom ((i :: is).flatMap Item.words))

def readLevel (level : List Item) : Option Formula := do
  let fs ← (disjuncts level).mapM fun piece =>
    (.ofGroup .and) <$> (conjuncts false [] piece).mapM readPiece
  return .ofGroup .or fs

def enclose (level : List Item) : Item := .enclosed (level.flatMap Item.words) (readLevel level)

/-- The items of a whole text from its lexemes, where `level` holds the items of the level under way
and `outer` those of the levels around it.  Parentheses have to match. -/
def nest : List (List Item) → List Item → List Lexeme → Option (List Item)
  | outer, level, [] => if outer.isEmpty then some level else none
  | outer, level, .word s :: ls => nest outer (level ++ [.word s]) ls
  | outer, level, .opening :: ls => nest (level :: outer) [] ls
  | [], _, .closing :: _ => none
  | around :: outer, level, .closing :: ls => nest outer (around ++ [enclose level]) ls

def items? (text : String) : Option (List Item) := (lexemes? text).bind (nest [] [])

def words (text : String) : List String := ((items? text).getD []).flatMap Item.words

def read (text : String) : Option Formula := (items? text).bind readLevel

/-! ## Scanning -/

namespace Scanner

/-- The scanner with lexemes put before its own. -/
def behind (ls : List Lexeme) (s : Scanner) : Scanner := { s with lexemes := ls ++ s.lexemes }

/-- What was scanned before stays in front of what is flushed. -/
theorem flush_behind (ls : List Lexeme) (s : Scanner) : (s.behind ls).flush = ls ++ s.flush := by
  unfold flush behind
  split <;> simp

theorem step_behind (ls : List Lexeme) (s : Scanner) (c : Char) :
    (s.behind ls).step c = (s.step c).behind ls := by
  by_cases hquote : c = '"'
  · simp [step, hquote, behind, keep]
  · cases hs : s.quoted with
    | true => simp [step, hquote, hs, behind, keep]
    | false =>
      cases hc : separator? c with
      | none => simp [step, hquote, hs, hc, behind, keep]
      | some sep =>
        have hflush := flush_behind ls s
        simp only [behind, hs] at hflush
        simp [step, hquote, hs, hc, hflush, behind]

/-- What was scanned before stays in front of what is scanned now, so texts can be scanned one by
one. -/
theorem scan_behind (ls : List Lexeme) (s : Scanner) (cs : List Char) :
    (s.behind ls).scan cs = (s.scan cs).behind ls := by
  induction cs generalizing s with
  | nil => rfl
  | cons c cs ih =>
    simp only [scan, List.foldl_cons] at ih ⊢
    rw [step_behind, ih]

end Scanner

/-- A separator ends the lexemes before it, and those behind it do not depend on them. -/
theorem lexemes?_separated {a b : String} {c : Char} {ls sep ms : List Lexeme}
    (ha : lexemes? a = some ls) (hc : separator? c = some sep) (hb : lexemes? b = some ms) :
    lexemes? (a ++ String.singleton c ++ b) = some (ls ++ sep ++ ms) := by
  have hquote : c ≠ '"' := by
    rintro rfl
    cases hc
  simp only [lexemes?, Option.ite_none_left_eq_some, Option.some.injEq] at ha hb ⊢
  obtain ⟨haq, rfl⟩ := ha
  obtain ⟨hbq, rfl⟩ := hb
  -- the scanner is as fresh behind the separator as at the start, but for the lexemes it has
  have hscan : Scanner.scan {} (a ++ String.singleton c ++ b).toList =
      (Scanner.scan {} b.toList).behind ((Scanner.scan {} a.toList).flush ++ sep) := by
    rw [← Scanner.scan_behind]
    simp only [String.toList_append, String.toList_singleton, Scanner.scan, List.foldl_append,
      List.foldl_cons, List.foldl_nil] at haq ⊢
    rw [Scanner.step, if_neg hquote, if_neg haq, hc]
    simp [Scanner.behind]
  rw [hscan, Scanner.flush_behind]
  exact ⟨hbq, rfl⟩

def isWordChar (c : Char) : Bool := c ≠ '"' && (separator? c).isNone

def isBareWord (s : String) : Bool := !s.isEmpty && s.toList.all isWordChar

/-- Characters of words add to the word under way. -/
theorem scan_of_isWordChar {cs : List Char} (h : cs.all isWordChar = true) (s : Scanner)
    (hs : s.quoted = false) : s.scan cs = { s with pending := s.pending ++ cs } := by
  induction cs generalizing s with
  | nil => simp [Scanner.scan]
  | cons c cs ih =>
    simp only [List.all_cons, Bool.and_eq_true, isWordChar, decide_eq_true_eq,
      Option.isNone_iff_eq_none] at h
    obtain ⟨⟨hquote, hsep⟩, hcs⟩ := h
    have hstep : s.step c = s.keep c := by simp [Scanner.step, hquote, hs, hsep]
    rw [Scanner.scan, List.foldl_cons, hstep]
    exact (ih hcs (s.keep c) hs).trans (by simp [Scanner.keep])

/-- Inside of quotes everything but a quote adds to the word under way. -/
theorem scan_of_quoted {cs : List Char} (h : '"' ∉ cs) (s : Scanner) (hs : s.quoted = true) :
    s.scan cs = { s with pending := s.pending ++ cs } := by
  induction cs generalizing s with
  | nil => simp [Scanner.scan]
  | cons c cs ih =>
    rw [List.mem_cons, not_or] at h
    obtain ⟨hquote, hcs⟩ := h
    have hstep : s.step c = s.keep c := by simp [Scanner.step, Ne.symm hquote, hs]
    rw [Scanner.scan, List.foldl_cons, hstep]
    exact (ih hcs (s.keep c) hs).trans (by simp [Scanner.keep])

/-- A bare word is one lexeme. -/
theorem lexemes?_word {w : String} (hw : isBareWord w = true) :
    lexemes? w = some [.word w] := by
  rw [isBareWord, Bool.and_eq_true] at hw
  rw [lexemes?, scan_of_isWordChar hw.2 _ rfl]
  have hne : w ≠ "" := by simpa using hw.1
  simp [Scanner.flush, hne]

/-- Text between quotes is one lexeme, whatever is in it but quotes. -/
theorem lexemes?_quoted {w : String} (hw : '"' ∉ w.toList) :
    lexemes? ("\"" ++ w ++ "\"") = some [.word ("\"" ++ w ++ "\"")] := by
  have hscan : Scanner.scan {} ("\"" ++ w ++ "\"").toList =
      { pending := ("\"" ++ w ++ "\"").toList } := by
    have hopen : Scanner.scan {} "\"".toList = { pending := ['"'], quoted := true } := rfl
    have h := scan_of_quoted hw _ (congrArg Scanner.quoted hopen)
    simp only [Scanner.scan, String.toList_append, List.foldl_append] at hopen h ⊢
    rw [h, hopen]
    simp [Scanner.step, Scanner.keep]
  rw [lexemes?, hscan]
  simp [Scanner.flush, String.append_assoc]

/-! ## Nesting -/

/-- A text has the items `items` as a part of a level, wherever it stands. -/
def Reads (text : String) (items : List Item) : Prop :=
  ∃ ls, lexemes? text = some ls ∧
    ∀ outer level rest, nest outer level (ls ++ rest) = nest outer (level ++ items) rest

namespace Reads

variable {a b c : String} {is js ks : List Item}

theorem items?_eq (h : Reads a is) : items? a = some is := by
  obtain ⟨ls, hls, hnest⟩ := h
  have h := hnest [] [] []
  rw [List.append_nil, List.nil_append] at h
  rw [items?, hls, Option.bind_some, h]
  rfl

theorem words_eq (h : Reads a is) : words a = is.flatMap Item.words := by
  rw [words, h.items?_eq, Option.getD_some]

theorem nil : Reads "" [] := ⟨[], rfl, by simp⟩

/-- Words without parentheses are read as they stand. -/
theorem ofLexemes {text : String} {ws : List String} (h : lexemes? text = some (ws.map .word)) :
    Reads text (ws.map .word) := by
  refine ⟨_, h, fun outer level rest => ?_⟩
  clear h
  induction ws generalizing level with
  | nil => simp
  | cons w ws ih =>
    rw [List.map_cons, List.cons_append, nest, ih, List.append_assoc]
    rfl

theorem ofLexeme {w : String} (h : lexemes? w = some [.word w]) : Reads w [.word w] := by
  have hone : lexemes? w = some ([w].map .word) := h
  exact ofLexemes hone

theorem word {w : String} (hw : isBareWord w = true) : Reads w [.word w] :=
  ofLexeme (lexemes?_word hw)

/-- A blank separates. -/
theorem blank (ha : Reads a is) (hb : Reads b js) : Reads (a ++ " " ++ b) (is ++ js) := by
  obtain ⟨ls, hls, hnest⟩ := ha
  obtain ⟨ms, hms, hnest'⟩ := hb
  refine ⟨ls ++ [] ++ ms, lexemes?_separated hls (c := ' ') rfl hms, fun outer level rest => ?_⟩
  rw [List.append_nil, List.append_assoc, hnest, hnest', List.append_assoc]

/-- Parentheses enclose a level. -/
theorem parenthesized (ha : Reads a is) (hb : Reads b js) (hc : Reads c ks) :
    Reads (a ++ "(" ++ b ++ ")" ++ c) (is ++ enclose js :: ks) := by
  obtain ⟨ls, hls, hnest⟩ := ha
  obtain ⟨ms, hms, hnest'⟩ := hb
  obtain ⟨ns, hns, hnest''⟩ := hc
  have hopen := lexemes?_separated hls (c := '(') rfl hms
  refine ⟨_, lexemes?_separated hopen (c := ')') rfl hns, fun outer level rest => ?_⟩
  simp only [List.append_assoc, List.cons_append, List.nil_append]
  rw [hnest, nest, hnest', nest, hnest'', List.nil_append, List.append_assoc, List.append_assoc]
  rfl

end Reads

/-- A text has items that are read as a formula. -/
def ReadsAs (text : String) (f : Formula) : Prop :=
  ∃ items, Reads text items ∧ readLevel items = some f

/-- Reading a text gives the formula that it is read as. -/
theorem ReadsAs.read_eq {text : String} {f : Formula} (h : ReadsAs text f) :
    read text = some f := by
  obtain ⟨items, hreads, hlevel⟩ := h
  rw [read, hreads.items?_eq, Option.bind_some, hlevel]

/-! ## Levels -/

@[simp] theorem isWord_word (w s : String) : (Item.word s).isWord w = (s == w) := rfl

@[simp] theorem isWord_enclose (w : String) (level : List Item) :
    (enclose level).isWord w = false := rfl

theorem readPiece_enclose (level : List Item) : readPiece [enclose level] = readLevel level := rfl

/-- A level without the word AND is one piece. -/
theorem conjuncts_of_not_and {is : List Item} (h : ∀ i ∈ is, i.isWord "AND" = false)
    (between : Bool) (piece : List Item) : conjuncts between piece is = [piece ++ is] := by
  induction is generalizing between piece with
  | nil => simp [conjuncts]
  | cons i is ih =>
    obtain ⟨hi, his⟩ := List.forall_mem_cons.mp h
    rw [conjuncts, hi, Bool.false_and, if_neg Bool.false_ne_true, ih his, List.append_assoc,
      List.singleton_append]

/-- A level that is one piece has the reading of the piece. -/
theorem readLevel_piece {is : List Item} {f : Formula} (hor : ∀ i ∈ is, i.isWord "OR" = false)
    (hand : conjuncts false [] is = [is]) (h : readPiece is = some f) : readLevel is = some f := by
  simp [readLevel, disjuncts, List.splitOnP_eq_singleton hor, hand, h, Formula.ofGroup]

/-- Levels joined by the word AND are taken apart again. -/
theorem conjuncts_intersperse (level : List Item) (levels : List (List Item)) :
    conjuncts false [] (((level :: levels).map enclose).intersperse (.word "AND")) =
      (level :: levels).map fun l => [enclose l] := by
  induction levels generalizing level with
  | nil => simp [conjuncts]
  | cons l ls ih =>
    have h := ih l
    simp only [List.map_cons] at h ⊢
    rw [List.intersperse_cons_cons, conjuncts, if_neg (by simp), conjuncts, if_pos (by simp), h]
    rfl

/-- Levels joined by the word OR are taken apart again. -/
theorem disjuncts_intersperse (level : List Item) (levels : List (List Item)) :
    disjuncts (((level :: levels).map enclose).intersperse (.word "OR")) =
      (level :: levels).map fun l => [enclose l] := by
  induction levels generalizing level with
  | nil => rfl
  | cons l ls ih =>
    have h := ih l
    simp only [disjuncts, List.map_cons] at h ⊢
    rw [List.intersperse_cons_cons, ← List.singleton_append,
      List.splitOnP_append_cons_of_forall_mem (by simp) _ (by simp), h]

/-- Levels joined by the word AND hold no word OR at their own depth. -/
theorem isWord_or_of_mem_intersperse (levels : List (List Item)) :
    ∀ i ∈ (levels.map enclose).intersperse (.word "AND"), i.isWord "OR" = false := by
  induction levels with
  | nil => simp
  | cons l ls ih =>
    cases ls with
    | nil => simp
    | cons m ms =>
      rw [List.map_cons, List.map_cons, List.intersperse_cons_cons, List.forall_mem_cons,
        List.forall_mem_cons]
      exact ⟨rfl, rfl, ih⟩

/-- Levels in parentheses with a connective between them are read as a group. -/
theorem readLevel_group (op : Connective) {levels : List (List Item)} {fs : List Formula}
    (hne : levels ≠ []) (h : levels.mapM readLevel = some fs) :
    readLevel ((levels.map enclose).intersperse (.word op.word)) = some (.ofGroup op fs) := by
  obtain ⟨level, levels, rfl⟩ := List.exists_cons_of_ne_nil hne
  cases op with
  | and =>
    have hor := isWord_or_of_mem_intersperse (level :: levels)
    have hpieces : ((level :: levels).map fun l => [enclose l]).mapM readPiece = some fs := by
      rw [List.mapM_map]
      exact h
    simp only [Connective.word, readLevel, disjuncts, List.splitOnP_eq_singleton hor,
      conjuncts_intersperse, hpieces, List.mapM_cons, List.mapM_nil]
    rfl
  | or =>
    have hpieces : ((level :: levels).map fun l => [enclose l]).mapM
        (fun piece => (.ofGroup .and) <$> (conjuncts false [] piece).mapM readPiece) = some fs := by
      rw [List.mapM_map, ← h]
      congr 1
      funext l
      cases hl : readLevel l <;> simp [conjuncts, readPiece_enclose, hl, Formula.ofGroup]
    rw [readLevel, Connective.word, disjuncts_intersperse, hpieces]
    rfl

/-- NOT before a level in parentheses is its negation. -/
theorem readLevel_not {level : List Item} {f : Formula} (h : readLevel level = some f) :
    readLevel [.word "NOT", enclose level] = some f.not := by
  refine readLevel_piece (by simp) rfl ?_
  simp [readPiece, readPiece_enclose, h]

example : read "NOT (TRUE) OR a IS NULL AND b BETWEEN ? AND ? AND FALSE" =
    some (.joined .or (.not (.constant true))
      (.joined .and (.atom ["a", "IS", "NULL"])
        (.joined .and (.atom ["b", "BETWEEN", "?", "AND", "?"]) (.constant false)))) := by
  decide +kernel

end Cohort.Sql
