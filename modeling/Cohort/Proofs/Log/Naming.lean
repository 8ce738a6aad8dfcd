import Cohort.Log.Book

/-!
# Names of loggers and their files

A name that holds no slash makes the name of one file, which can be opened in the folder of its
component, and which is the file of all errors for no name but "error" in some letter case.  The
records of a logger reach those loggers alone whose names are dotted beginnings of its name.
-/

namespace Cohort

namespace Text

/-- Every capital has its lower-case letter above the slash. -/
theorem slash_lt_of_mem_capitalRuns :
    ∀ r ∈ capitalRuns, ('/'.toNat : Int) < r.1 + r.2.2.2 := by
  decide +kernel

theorem ofNat_ne_slash {n : Nat} (h : '/'.toNat < n) : Char.ofNat n ≠ '/' := by
  intro heq
  by_cases hn : n.isValidChar
  · rw [Char.ofNat, dif_pos hn] at heq
    exact absurd (congrArg Char.toNat heq) (Nat.ne_of_gt h)
  · rw [Char.ofNat, dif_neg hn] at heq
    cases heq

/-- Lower-casing makes no slashes. -/
theorem eq_slash_of_lowerChar {c : Char} (h : lowerChar c = '/') : c = '/' := by
  unfold lowerChar at h
  dsimp only at h
  split at h
  case h_1 r hr =>
    have hbelow := slash_lt_of_mem_capitalRuns r (Array.mem_of_find?_eq_some hr)
    have hrun := Array.find?_some hr
    simp only [Bool.and_eq_true, decide_eq_true_eq] at hrun
    exact absurd h (ofNat_ne_slash (by omega))
  case h_2 => exact h

/-- Lower-casing makes no slashes. -/
theorem slash_mem_of_mem_lowerAfter {cs before : List Char} (h : '/' ∈ lowerAfter before cs) :
    '/' ∈ cs := by
  induction cs generalizing before with
  | nil => exact h
  | cons c cs ih =>
    rw [lowerAfter, List.mem_append] at h
    rcases h with h | h
    · refine List.mem_cons.mpr (.inl ?_)
      split at h
      · split at h <;> cases List.mem_singleton.mp h
      · split at h
        · simp at h
        · exact (eq_slash_of_lowerChar (List.mem_singleton.mp h).symm).symm
    · exact List.mem_cons_of_mem c (ih h)

theorem slash_not_mem_lower {s : String} (h : '/' ∉ s.toList) : '/' ∉ (lower s).toList := by
  rw [lower, String.toList_ofList]
  exact fun hmem => h (slash_mem_of_mem_lowerAfter hmem)

end Text

namespace Log

/-! ## Files -/

section Files

variable {folder file : String}

/-- A name without a slash is one part. -/
theorem fileParts_of_not_mem (hslash : '/' ∉ file.toList) (hne : file ≠ "") (hdot : file ≠ ".") :
    fileParts file = [file] := by
  have hall : ∀ c ∈ file.toList, (c == '/') = false := fun c hc =>
    beq_false_of_ne fun heq => hslash (heq ▸ hc)
  rw [fileParts, List.splitOn, List.splitOnP_eq_singleton hall]
  simp [hne, hdot]

theorem fileParts_append (hslash : '/' ∉ folder.toList) (hne : folder ≠ "") (hdot : folder ≠ ".") :
    fileParts (folder ++ "/" ++ file) = folder :: fileParts file := by
  have hall : ∀ c ∈ folder.toList, (c == '/') = false := fun c hc =>
    beq_false_of_ne fun heq => hslash (heq ▸ hc)
  have hsplit : (folder ++ "/" ++ file).toList = folder.toList ++ '/' :: file.toList := by simp
  rw [fileParts, List.splitOn, hsplit,
    List.splitOnP_append_cons_of_forall_mem hall '/' (beq_self_eq_true '/')]
  simp [fileParts, List.splitOn, hne, hdot]

end Files

/-- A name that makes a file name other than that of the file of all errors. -/
structure IsName (name : String) : Prop where
  ne_empty : name ≠ ""
  no_slash : '/' ∉ name.toList
  no_nul : Char.ofNat 0 ∉ name.toList
  not_error : Text.lower name ≠ "error"

namespace IsName

variable {name : String}

/-- The file stands in the folder for log files or in one of the folders below. -/
theorem fileOf_cases (component : Option String) (name : String) :
    fileOf component name = Text.lower name ++ ".log" ∨
      ∃ folder ∈ folders, fileOf component name = folder ++ "/" ++ (Text.lower name ++ ".log") := by
  unfold fileOf
  cases component with
  | none => exact .inl rfl
  | some c =>
    by_cases hfolder : folders.contains c = true
    · exact .inr ⟨c, List.contains_iff_mem.mp hfolder, if_pos hfolder⟩
    · exact .inl (if_neg hfolder)

variable (h : IsName name)

include h

theorem fileParts_lower : fileParts (Text.lower name ++ ".log") = [Text.lower name ++ ".log"] := by
  have hlength : 4 ≤ (Text.lower name ++ ".log").length := by
    rw [String.length_append]
    exact Nat.le_add_left 4 _
  refine fileParts_of_not_mem ?_ ?_ ?_
  · have hslash := Text.slash_not_mem_lower h.no_slash
    simpa using hslash
  · intro heq
    rw [heq] at hlength
    exact absurd hlength (by decide)
  · intro heq
    rw [heq] at hlength
    exact absurd hlength (by decide)

theorem fileParts_folder {folder : String} (hfolder : folder ∈ folders) :
    fileParts (folder ++ "/" ++ (Text.lower name ++ ".log")) =
      [folder, Text.lower name ++ ".log"] := by
  have hplain : ∀ f ∈ folders, '/' ∉ f.toList ∧ f ≠ "" ∧ f ≠ "." := by decide
  obtain ⟨hslash, hne, hdot⟩ := hplain folder hfolder
  rw [fileParts_append hslash hne hdot, h.fileParts_lower]

/-- The file of a logger has no empty parts. -/
theorem plainFile_fileOf (component : Option String) :
    plainFile (fileOf component name) = fileOf component name := by
  obtain hfile | ⟨folder, hfolder, hfile⟩ := fileOf_cases component name
  · rw [hfile, plainFile, h.fileParts_lower, String.intercalate_singleton]
  · rw [hfile, plainFile, h.fileParts_folder hfolder, String.intercalate_cons_cons,
      String.intercalate_singleton]

/-- The folder of every logger's file is there. -/
theorem folderExists_fileOf (component : Option String) :
    folderExists (fileOf component name) = true := by
  obtain hfile | ⟨folder, hfolder, hfile⟩ := fileOf_cases component name
  · rw [hfile, folderExists, h.fileParts_lower]
    rfl
  · rw [hfile, folderExists, h.fileParts_folder hfolder]
    simpa using hfolder

/-- No logger has the file of the errors as its own. -/
theorem fileOf_ne_errorFile (component : Option String) :
    fileOf component name ≠ errorFile := by
  obtain hfile | ⟨folder, hfolder, hfile⟩ := fileOf_cases component name
  · rw [hfile]
    intro heq
    exact h.not_error ((String.append_left_inj ".log").mp heq)
  · rw [hfile]
    intro heq
    have hslash : '/' ∈ errorFile.toList := by simp [← heq]
    exact absurd hslash (by decide)

end IsName

/-! ## Dotted beginnings -/

/-- A name stands before a dot of another name. -/
def IsDottedBeginning (above below : String) : Prop := ∃ rest, below = above ++ "." ++ rest

theorem isDottedBeginning_iff {above below : String} :
    IsDottedBeginning above below ↔ (above ++ ".").toList <+: below.toList := by
  constructor
  · rintro ⟨rest, rfl⟩
    rw [@String.toList_append (above ++ ".")]
    exact List.prefix_append _ _
  · rintro ⟨rest, hrest⟩
    refine ⟨String.ofList rest, String.toList_injective ?_⟩
    rw [String.toList_append, String.toList_ofList, hrest]

instance (above below : String) : Decidable (IsDottedBeginning above below) :=
  decidable_of_iff _ isDottedBeginning_iff.symm

namespace Book

theorem exists_of_mem_beginnings {front cs : List Char} (h : front ∈ beginnings cs) :
    ∃ rest, cs = front ++ '.' :: rest := by
  induction cs generalizing front with
  | nil => cases h
  | cons c cs ih =>
    have hcases : c = '.' ∧ front = [] ∨ front ∈ (beginnings cs).map (c :: ·) := by
      rw [beginnings] at h
      split at h
      case isTrue hdot => exact (List.mem_cons.mp h).imp (⟨hdot, ·⟩) id
      case isFalse => exact .inr h
    obtain ⟨rfl, rfl⟩ | hlonger := hcases
    · exact ⟨cs, rfl⟩
    · obtain ⟨front, hfront, rfl⟩ := List.mem_map.mp hlonger
      obtain ⟨rest, rfl⟩ := ih hfront
      exact ⟨rest, rfl⟩

/-- The ancestors of a name stand before a dot of it. -/
theorem isDottedBeginning_of_mem_ancestors {above below : String} (h : above ∈ ancestors below) :
    IsDottedBeginning above below := by
  obtain ⟨front, hfront, rfl⟩ := List.mem_map.mp (List.mem_filter.mp h).1
  obtain ⟨rest, hrest⟩ := exists_of_mem_beginnings (List.mem_reverse.mp hfront)
  refine ⟨String.ofList rest, String.toList_injective ?_⟩
  simp [hrest]

end Book

end Log

end Cohort
