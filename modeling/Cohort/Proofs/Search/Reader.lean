import Cohort.Proofs.Sql.Formula

/-!
# Reading a filter

The text of a filter is read back as a formula.  One walk over its characters
matches the parentheses that do not stand between backticks; what lies between
two of them is a level, and a level is read by its shape alone: the sign for
everything, a negation, levels with one connective between them, or else an
atom, whatever its text.  Nothing is known here of how filters are made.
-/

namespace Cohort.Search

open Sql (Formula)

/-! ## Levels -/

/-- A run of characters without parentheses, or what stands between two parentheses, with its
reading. -/
inductive Item where
  | text (cs : List Char)
  | enclosed (cs : List Char) (reading : Formula)

def Item.chars : Item → List Char
  | text cs => cs
  | enclosed cs _ => '(' :: cs ++ [')']

def sign : Connective → String
  | .and => " && "
  | .or => " || "

/-- The readings of the levels that a connective joins, if nothing else is between them. -/
def operands? (op : Connective) : List Item → Option (List Formula)
  | [.enclosed _ f] => some [f]
  | .enclosed _ f :: .text cs :: is =>
    if cs = (sign op).toList then (operands? op is).map (f :: ·) else none
  | _ => none

def readLevel (level : List Item) : Formula :=
  match level with
  | [.text ['*', ':', '*']] => .constant true
  | [.text ['!'], .enclosed _ f] => f.not
  | _ =>
    match operands? .and level, operands? .or level with
    | some fs, _ => .ofGroup .and fs
    | none, some fs => .ofGroup .or fs
    | none, none => .atom [String.ofList (level.flatMap Item.chars)]

def enclose (level : List Item) : Item := .enclosed (level.flatMap Item.chars) (readLevel level)

/-! ## The walk -/

/-- Where a character stands: outside of backticks, between them, or there behind a backslash. -/
inductive Place where
  | bare
  | quoted
  | escaped
  deriving DecidableEq

def Place.next : Place → Char → Place
  | bare, c => if c = '\x60' then quoted else bare
  | quoted, c => if c = '\x60' then bare else if c = '\\' then escaped else quoted
  | escaped, c => if c = '\\' then escaped else quoted

/-- The level under way with the levels around it, innermost first. -/
structure Scanner where
  outer : List (List Item) := []
  level : List Item := []
  /-- The characters of the run under way. -/
  pending : List Char := []
  place : Place := .bare

namespace Scanner

def items (s : Scanner) : List Item :=
  if s.pending.isEmpty then s.level else s.level ++ [.text s.pending]

def keep (s : Scanner) (c : Char) : Scanner :=
  { s with pending := s.pending ++ [c], place := s.place.next c }

/-- Takes a character.  A parenthesis that closes nothing is refused. -/
def step (s : Scanner) (c : Char) : Option Scanner :=
  if s.place = .bare ∧ c = '(' then some { outer := s.items :: s.outer }
  else if s.place = .bare ∧ c = ')' then
    match s.outer with
    | [] => none
    | around :: outer => some { outer := outer, level := around ++ [enclose s.items] }
  else some (s.keep c)

def scan (s : Scanner) (text : String) : Option Scanner := text.toList.foldlM step s

end Scanner

/-- The formula that a text is, unless its parentheses or backticks do not match. -/
def read (text : String) : Option Formula := do
  let s ← Scanner.scan {} text
  if s.place = .bare ∧ s.outer.isEmpty then some (readLevel s.items) else none

example : read "(a:[1, 2]) && (!((b:=\x60) || (\\\x60\x60) || (*:*)))" =
    some (.joined .and (.atom ["a:[1, 2]"])
      (.not (.joined .or (.atom ["b:=\x60) || (\\\x60\x60"]) (.constant true)))) := by
  decide +kernel

/-! ## Runs -/

namespace Scanner

/-- Texts behind each other are walked over one after the other. -/
theorem scan_append (s : Scanner) (a b : String) :
    s.scan (a ++ b) = (s.scan a).bind fun s' => s'.scan b := by
  rw [scan, String.toList_append, List.foldlM_append]
  rfl

theorem items_of_pending {s : Scanner} (h : s.pending = []) : s.items = s.level := by
  rw [items, h]
  rfl

end Scanner

/-- The characters of a text are kept as they are, wherever it stands outside of backticks. -/
def Kept (text : String) : Prop :=
  ∀ s : Scanner, s.place = .bare → s.scan text = some { s with pending := s.pending ++ text.toList }

def isPlain (c : Char) : Bool := c ≠ '(' && c ≠ ')' && c ≠ '\x60'

/-- No character of a text means anything to the walk. -/
def IsPlain (text : String) : Prop := ∀ c ∈ text.toList, isPlain c = true

instance (text : String) : Decidable (IsPlain text) :=
  decidable_of_iff (text.toList.all isPlain = true) List.all_eq_true

namespace Kept

theorem append {a b : String} (ha : Kept a) (hb : Kept b) : Kept (a ++ b) := by
  intro s hs
  have hb := hb { s with pending := s.pending ++ a.toList } hs
  rw [Scanner.scan_append, ha s hs, Option.bind_some, hb]
  simp

end Kept

/-- A text that means nothing to the walk is passed over as a whole. -/
theorem IsPlain.kept {text : String} (h : IsPlain text) : Kept text := by
  intro s hs
  unfold Scanner.scan
  unfold IsPlain at h
  generalize text.toList = cs at h ⊢
  induction cs generalizing s with
  | nil => simp
  | cons c cs ih =>
    obtain ⟨hc, hcs⟩ := List.forall_mem_cons.mp h
    simp only [isPlain, Bool.and_eq_true, decide_eq_true_eq] at hc
    have hstep : s.step c = some { s with pending := s.pending ++ [c] } := by
      simp [Scanner.step, Scanner.keep, hs, hc, Place.next]
    rw [List.foldlM_cons, hstep]
    refine (ih { s with pending := s.pending ++ [c] } hs hcs).trans ?_
    simp

/-- A text is a run of items that ends with a parenthesis. -/
def Encloses (text : String) (is : List Item) : Prop :=
  ∀ s : Scanner, s.place = .bare →
    s.scan text = some { s with level := s.items ++ is, pending := [] }

/-- A text has the items of a whole level. -/
def Reads (text : String) (is : List Item) : Prop :=
  ∀ s : Scanner, s.place = .bare → s.pending = [] →
    ∃ s', s.scan text = some s' ∧ s'.place = .bare ∧ s'.outer = s.outer ∧ s'.items = s.level ++ is

namespace Encloses

variable {a b : String} {is js : List Item}

/-- A text in parentheses has the items of a level. -/
theorem reads (h : Encloses a is) : Reads a is := by
  intro s hs hpending
  refine ⟨_, h s hs, hs, rfl, ?_⟩
  rw [Scanner.items_of_pending rfl, Scanner.items_of_pending hpending]

theorem append (ha : Encloses a is) {between : String} (hbetween : Kept between)
    (hne : between ≠ "") (hb : Encloses b js) :
    Encloses (a ++ between ++ b) (is ++ .text between.toList :: js) := by
  intro s hs
  have hmid := hbetween { s with level := s.items ++ is, pending := [] } hs
  have hend := hb { s with level := s.items ++ is, pending := between.toList } hs
  rw [Scanner.scan_append, Scanner.scan_append, ha s hs, Option.bind_some, hmid, Option.bind_some]
  refine hend.trans ?_
  have hpending : between.toList.isEmpty = false := by simpa using hne
  simp [Scanner.items, hpending]

theorem after {text : String} (htext : Kept text) (hne : text ≠ "") (hb : Encloses b js) :
    Reads (text ++ b) (.text text.toList :: js) := by
  intro s hs hpending
  have hend := hb { s with pending := s.pending ++ text.toList } hs
  have hpending' : text.toList.isEmpty = false := by simpa using hne
  rw [Scanner.scan_append, htext s hs, Option.bind_some]
  refine ⟨_, hend, hs, rfl, ?_⟩
  simp [Scanner.items, hpending, hpending']

end Encloses

namespace Reads

/-- A text that is passed over as a whole is one item. -/
theorem of_kept {text : String} (h : Kept text) (hne : text ≠ "") :
    Reads text [.text text.toList] := by
  intro s hs hpending
  refine ⟨_, h s hs, hs, rfl, ?_⟩
  have hpending' : text.toList.isEmpty = false := by simpa using hne
  simp [Scanner.items, hpending, hpending']

/-- Parentheses enclose a level. -/
theorem parenthesized {text : String} {is : List Item} (h : Reads text is) :
    Encloses ("(" ++ text ++ ")") [enclose is] := by
  intro s hs
  have hopen : s.scan "(" = some { outer := s.items :: s.outer } := by
    simp [Scanner.scan, Scanner.step, hs]
  obtain ⟨s', hscan, hplace, houter, hitems⟩ := h { outer := s.items :: s.outer } rfl rfl
  have hclose : s'.scan ")" = some { s with level := s.items ++ [enclose is], pending := [] } := by
    simp [Scanner.scan, Scanner.step, hplace, houter, hitems, hs]
  rw [Scanner.scan_append, Scanner.scan_append, hopen, Option.bind_some, hscan, Option.bind_some,
    hclose]

end Reads

/-! ## Readings -/

/-- A text has items that are read as a formula. -/
def ReadsAs (text : String) (f : Formula) : Prop := ∃ is, Reads text is ∧ readLevel is = f

/-- Reading a text gives the formula that it is read as. -/
theorem ReadsAs.read_eq {text : String} {f : Formula} (h : ReadsAs text f) :
    read text = some f := by
  obtain ⟨is, hreads, rfl⟩ := h
  obtain ⟨s, hscan, hplace, houter, hitems⟩ := hreads {} rfl rfl
  have hitems : s.items = is := hitems
  simp [read, hscan, hplace, houter, hitems]

theorem readLevel_text {cs : List Char} (h : cs ≠ "*:*".toList) :
    readLevel [.text cs] = .atom [String.ofList cs] := by
  unfold readLevel
  split
  case h_1 heq => simp_all
  case h_2 heq => cases heq
  case h_3 => simp [operands?, Item.chars]

/-- An exclamation mark negates the level behind it. -/
theorem readLevel_not (level : List Item) :
    readLevel [.text ['!'], enclose level] = (readLevel level).not := rfl

theorem readLevel_enclose_cons (level : List Item) (is : List Item) :
    readLevel (enclose level :: is) =
      match operands? .and (enclose level :: is), operands? .or (enclose level :: is) with
      | some fs, _ => .ofGroup .and fs
      | none, some fs => .ofGroup .or fs
      | none, none => .atom [String.ofList ((enclose level :: is).flatMap Item.chars)] := rfl

/-- Levels with the sign of a connective between them are its operands. -/
theorem operands?_intersperse (op : Connective) (level : List Item) (levels : List (List Item)) :
    operands? op (((level :: levels).map enclose).intersperse (.text (sign op).toList)) =
      some ((level :: levels).map readLevel) := by
  induction levels generalizing level with
  | nil => rfl
  | cons l ls ih =>
    have h := ih l
    simp only [List.map_cons] at h ⊢
    rw [List.intersperse_cons_cons, enclose, operands?, if_pos rfl, h]
    rfl

/-- They are no operands of the other connective. -/
theorem operands?_intersperse_of_ne (op op' : Connective) (hne : op' ≠ op)
    (level level' : List Item) (levels : List (List Item)) :
    operands? op' (((level :: level' :: levels).map enclose).intersperse
      (.text (sign op).toList)) = none := by
  have hsign : (sign op).toList ≠ (sign op').toList := by
    cases op <;> cases op' <;> first | exact absurd rfl hne | decide
  rw [List.map_cons, List.map_cons, List.intersperse_cons_cons, enclose, operands?, if_neg hsign]

/-- Levels with a connective between them are read as a group. -/
theorem readLevel_group (op : Connective) (level : List Item) (levels : List (List Item)) :
    readLevel (((level :: levels).map enclose).intersperse (.text (sign op).toList)) =
      .ofGroup op ((level :: levels).map readLevel) := by
  cases levels with
  | nil => rfl
  | cons l ls =>
    have hsome := operands?_intersperse op level (l :: ls)
    cases op with
    | and =>
      simp only [List.map_cons, List.intersperse_cons_cons] at hsome ⊢
      rw [readLevel_enclose_cons, hsome]
    | or =>
      have hnone := operands?_intersperse_of_ne .or .and nofun level l ls
      simp only [List.map_cons, List.intersperse_cons_cons] at hsome hnone ⊢
      rw [readLevel_enclose_cons, hsome, hnone]

namespace ReadsAs

variable {text : String} {f : Formula}

theorem of_kept (h : Kept text) (hne : text ≠ "") (hall : text ≠ "*:*") :
    ReadsAs text (.atom [text]) := by
  refine ⟨_, .of_kept h hne, ?_⟩
  rw [readLevel_text, String.ofList_toList]
  intro heq
  exact hall (String.toList_inj.mp heq)

/-- An exclamation mark in front of parentheses is read as a negation. -/
theorem not (h : ReadsAs text f) : ReadsAs ("!(" ++ text ++ ")") f.not := by
  obtain ⟨is, hreads, rfl⟩ := h
  have hmark : IsPlain "!" := by decide
  have htext : "!(" ++ text ++ ")" = "!" ++ ("(" ++ text ++ ")") := by
    apply String.toList_injective
    simp
  rw [htext]
  exact ⟨_, hreads.parenthesized.after hmark.kept (by decide), readLevel_not is⟩

end ReadsAs

end Cohort.Search
