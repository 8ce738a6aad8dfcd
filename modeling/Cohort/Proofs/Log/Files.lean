import Cohort.Proofs.Log.Naming

/-!
# What records leave in the files

Setting up a logger makes sure that its files are there and writes nothing.  Logging a record leaves
the loggers alone and appends to files that are there: to those of the handlers that the record
reaches, which are only the handlers of its logger if no other logger has a dotted beginning of that
logger's name.
-/

namespace Cohort.Log.Book

variable {b b' b'' : Book} {file other : String} {l : Logger}

def HasFile (b : Book) (file : String) : Prop := file ∈ b.files.map (·.1)

def text (b : Book) (file : String) : String := (b.files.lookup file).getD ""

/-! ## Files that are there -/

theorem any_eq_true_iff : b.files.any (·.1 == file) = true ↔ b.HasFile file := by
  simp [HasFile]

theorem hasFile_touch_iff : (b.touch file).HasFile other ↔ b.HasFile other ∨ other = file := by
  unfold touch
  split
  case isTrue h =>
    have hfile := any_eq_true_iff.mp h
    exact ⟨.inl, fun h => h.elim id fun heq => heq ▸ hfile⟩
  case isFalse => simp [HasFile]

theorem lookup_cons_of_ne {fs : List (String × String)} {content : String} (h : other ≠ file) :
    ((file, content) :: fs).lookup other = fs.lookup other := by
  rw [List.lookup_cons, beq_false_of_ne h]

/-- Making sure of a file changes no text. -/
theorem text_touch (b : Book) (file other : String) : (b.touch file).text other = b.text other := by
  unfold touch
  split
  case isTrue => rfl
  case isFalse =>
    rw [text, text, List.lookup_append]
    cases b.files.lookup other with
    | some content => rfl
    | none =>
      by_cases h : other = file
      · simp [h]
      · rw [lookup_cons_of_ne h]
        rfl

theorem lookup_map_append (fs : List (String × String)) (file other content : String) :
    (fs.map fun f => if f.1 == file then (f.1, f.2 ++ content) else f).lookup other =
      (fs.lookup other).map fun old => if other = file then old ++ content else old := by
  induction fs with
  | nil => rfl
  | cons f fs ih =>
    obtain ⟨name, old⟩ := f
    rw [List.map_cons]
    by_cases hfile : name = file
    · rw [if_pos (by simpa using hfile)]
      by_cases hother : other = name
      · rw [hother, List.lookup_cons_self, List.lookup_cons_self, Option.map_some, if_pos hfile]
      · rw [lookup_cons_of_ne hother, lookup_cons_of_ne hother, ih]
    · rw [if_neg (by simpa using hfile)]
      by_cases hother : other = name
      · rw [hother, List.lookup_cons_self, List.lookup_cons_self, Option.map_some, if_neg hfile]
      · rw [lookup_cons_of_ne hother, lookup_cons_of_ne hother, ih]

/-- Appending to a file changes the text of this file alone. -/
theorem text_append (h : b.HasFile file) (other content : String) :
    (b.append file content).text other =
      b.text other ++ if other = file then content else "" := by
  rw [text, append, lookup_map_append, text]
  cases hold : b.files.lookup other with
  | some old => split <;> simp
  | none =>
    have hother : other ≠ file := by
      rintro rfl
      obtain ⟨f, hf, rfl⟩ := List.mem_map.mp h
      simpa using List.lookup_eq_none_iff.mp hold f hf
    simp [hother]

/-! ## Books that differ in the contents of files -/

/-- One book has been written to since it was the other one. -/
structure IsRewritten (b b' : Book) : Prop where
  debug : b'.debug = b.debug
  hasFolder : b'.hasFolder = b.hasFolder
  loggers : b'.loggers = b.loggers
  hasFile : ∀ file, b'.HasFile file ↔ b.HasFile file

namespace IsRewritten

theorem refl (b : Book) : IsRewritten b b := ⟨rfl, rfl, rfl, fun _ => Iff.rfl⟩

theorem trans (h : IsRewritten b b') (h' : IsRewritten b' b'') : IsRewritten b b'' where
  debug := h'.debug.trans h.debug
  hasFolder := h'.hasFolder.trans h.hasFolder
  loggers := h'.loggers.trans h.loggers
  hasFile file := (h'.hasFile file).trans (h.hasFile file)

end IsRewritten

theorem isRewritten_append (b : Book) (file content : String) :
    IsRewritten b (b.append file content) := by
  refine ⟨rfl, rfl, rfl, fun other => ?_⟩
  have hnames : (b.append file content).files.map (·.1) = b.files.map (·.1) := by
    rw [append, List.map_map]
    refine List.map_congr_left fun f _ => ?_
    simp only [Function.comp_apply]
    split <;> rfl
  rw [HasFile, HasFile, hnames]

variable {seconds : Int} {site : Site} {r : Record} {h : Handler}

theorem isRewritten_emit (b : Book) (seconds : Int) (site : Site) (levelName : String) (r : Record)
    (h : Handler) : IsRewritten b (b.emit seconds site levelName r h) := by
  unfold emit
  split
  case isTrue => exact .refl b
  case isFalse => exact isRewritten_append b _ _

def emitAll (b : Book) (seconds : Int) (site : Site) (levelName : String) (r : Record)
    (handlers : List Handler) : Book :=
  handlers.foldl (fun b h => b.emit seconds site levelName r h) b

/-- Writing a record changes the texts of files and nothing else. -/
theorem isRewritten_emitAll (b : Book) (seconds : Int) (site : Site) (levelName : String)
    (r : Record) (handlers : List Handler) :
    IsRewritten b (b.emitAll seconds site levelName r handlers) := by
  induction handlers generalizing b with
  | nil => exact .refl b
  | cons h handlers ih => exact (isRewritten_emit b seconds site levelName r h).trans (ih _)

/-! ## Where a record lands -/

/-- A record reaches the handlers of its logger alone if the name of no other logger stands before a
dot of that logger's name. -/
theorem reached_eq (hnamed : b.named? l.name = some l)
    (flat : ∀ above ∈ b.loggers, ¬ IsDottedBeginning above.name l.name) :
    b.reached l.name = l.handlers := by
  have hancestors : (ancestors l.name).flatMap b.handlersOf = [] := by
    rw [List.flatMap_eq_nil_iff]
    intro n hn
    cases hfind : b.named? n with
    | none => rw [handlersOf, hfind]; rfl
    | some above =>
      have hname : above.name = n := by simpa using List.find?_some hfind
      have hdotted := isDottedBeginning_of_mem_ancestors hn
      exact absurd (hname ▸ hdotted) (flat above (List.mem_of_find?_eq_some hfind))
  rw [reached, List.flatMap_cons, hancestors, List.append_nil, handlersOf, hnamed]
  rfl

/-- What a record leaves in a file, if its logger has a file of its own: a line in that file, and an
entry in the file of all errors if it is an error. -/
def landing (b : Book) (own : String) (seconds : Int) (site : Site) (levelName : String)
    (r : Record) (file : String) : String :=
  (if file = own then b.line seconds site levelName r else "") ++
    if file = errorFile ∧ Level.error ≤ r.level then errorEntry seconds site levelName r else ""

/-- A record is written to the file of its logger, and to that of the errors if it is one. -/
theorem text_emitAll {own levelName : String} (hown : b.HasFile own)
    (herror : b.HasFile errorFile) (hlevel : 0 ≤ r.level) (file : String) :
    (b.emitAll seconds site levelName r [⟨own, 0⟩, ⟨errorFile, Level.error⟩]).text file =
      b.text file ++ b.landing own seconds site levelName r file := by
  have hline : b.emit seconds site levelName r ⟨own, 0⟩ =
      b.append own (b.line seconds site levelName r) := by
    rw [emit, if_neg (Int.not_lt.mpr hlevel), if_pos rfl]
  have herror' : (b.append own (b.line seconds site levelName r)).HasFile errorFile :=
    ((isRewritten_append b _ _).hasFile _).mpr herror
  rw [emitAll, List.foldl_cons, List.foldl_cons, List.foldl_nil, hline, emit, landing]
  by_cases hminor : r.level < Level.error
  · have hno : ¬ (file = errorFile ∧ Level.error ≤ r.level) := fun h =>
      Int.not_le.mpr hminor h.2
    rw [if_pos hminor, if_neg hno, text_append hown, String.append_empty]
  · have hmajor : Level.error ≤ r.level := Int.not_lt.mp hminor
    have hnonzero : Level.error ≠ 0 := by decide
    rw [if_neg hminor, if_neg hnonzero, text_append herror', text_append hown, String.append_assoc]
    simp only [hmajor, and_true]

end Cohort.Log.Book
