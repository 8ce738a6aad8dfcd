import Cohort.Catalog.Bundled
import Cohort.Proofs.Traversal
import Cohort.Search.Compile

/-!
# Lists of literals

The literals of a membership test are read back: items with a comma and a blank
between them up to a closing bracket, each of them a run without signs or a text
between backticks.  Reading gives the texts that were written, whatever follows
the bracket, unless a text between backticks ends in a backslash: then its last
backtick is taken for a part of it, and so is what stands behind.
-/

namespace Cohort.Search

/-! ## The reader -/

/-- Reads up to the first backtick that has no backslash before it.  One that has stands for itself
without the backslash. -/
def readQuoted? : List Char → Option (List Char × List Char)
  | [] => none
  | '\\' :: '\x60' :: cs => (readQuoted? cs).map fun r => ('\x60' :: r.1, r.2)
  | '\x60' :: cs => some ([], cs)
  | c :: cs => (readQuoted? cs).map fun r => (c :: r.1, r.2)

def readLiteral? : List Char → Option (List Char × List Char)
  | '\x60' :: cs => readQuoted? cs
  | cs =>
    match cs.takeWhile (!isSpecial ·) with
    | [] => none
    | run => some (run, cs.dropWhile (!isSpecial ·))

/-- Reading between backticks takes at least the closing one. -/
theorem length_lt_of_readQuoted? {cs item rest : List Char}
    (h : readQuoted? cs = some (item, rest)) : rest.length < cs.length := by
  induction cs using readQuoted?.induct generalizing item rest with
  | case1 => simp [readQuoted?] at h
  | case2 cs ih =>
    rw [readQuoted?] at h
    obtain ⟨r, hr, heq⟩ := Option.map_eq_some_iff.mp h
    have hlt := ih hr
    cases heq
    simp only [List.length_cons]
    omega
  | case3 cs =>
    rw [readQuoted?] at h
    cases h
    simp
  | case4 c cs hback htick ih =>
    rw [readQuoted?] at h
    · obtain ⟨r, hr, heq⟩ := Option.map_eq_some_iff.mp h
      have hlt := ih hr
      cases heq
      simp only [List.length_cons]
      omega
    · exact hback
    · exact htick

/-- Reading a literal takes at least a character. -/
theorem length_lt_of_readLiteral? {cs item rest : List Char}
    (h : readLiteral? cs = some (item, rest)) : rest.length < cs.length := by
  unfold readLiteral? at h
  split at h
  case h_1 cs =>
    have hlt := length_lt_of_readQuoted? h
    simp only [List.length_cons]
    omega
  case h_2 =>
    split at h
    case h_1 => cases h
    case h_2 run hne =>
      cases h
      have hlength := congrArg List.length
        (List.takeWhile_append_dropWhile (p := fun c => !isSpecial c) (l := cs))
      have hpos := List.length_pos_iff.mpr hne
      simp only [List.length_append] at hlength
      omega

/-- Reads literals up to the closing bracket and returns what follows it. -/
def readLiterals? (cs : List Char) : Option (List String × List Char) :=
  match _h : readLiteral? cs with
  | some (item, ',' :: ' ' :: rest) =>
    (readLiterals? rest).map fun r => (String.ofList item :: r.1, r.2)
  | some (item, ']' :: rest) => some ([String.ofList item], rest)
  | _ => none
termination_by cs.length
decreasing_by
  have hlt := length_lt_of_readLiteral? ‹_›
  simp only [List.length_cons] at hlt
  omega

/-! ## Between backticks -/

/-- A character between backticks is read as itself, unless it is a backtick or escapes one. -/
theorem readQuoted?_cons {c : Char} {cs : List Char} (hc : c ≠ '\x60')
    (hback : c = '\\' → cs.head? ≠ some '\x60') :
    readQuoted? (c :: cs) = (readQuoted? cs).map fun r => (c :: r.1, r.2) := by
  rw [readQuoted?]
  · rintro cs' rfl rfl
    exact hback rfl rfl
  · exact hc

theorem map_cons_eq_some_iff {o : Option (List Char × List Char)} {c : Char}
    {cs rest : List Char} :
    (o.map fun r => (c :: r.1, r.2)) = some (c :: cs, rest) ↔ o = some (cs, rest) := by
  rcases o with _ | ⟨a, b⟩ <;> simp

/-- An escaped text does not start with a backtick. -/
theorem head?_escapeBackticks_append {c : Char} {cs tail : List Char} :
    (escapeBackticks (c :: cs) ++ tail).head? ≠ some '\x60' := by
  by_cases htick : c = '\x60' <;> simp [escapeBackticks, htick]

/-- The text between backticks is read back with what follows, unless it ends in a backslash. -/
theorem readQuoted?_escapeBackticks_eq_some_iff {cs rest rest' : List Char} :
    readQuoted? (escapeBackticks cs ++ '\x60' :: rest) = some (cs, rest') ↔
      rest = rest' ∧ cs.getLast? ≠ some '\\' := by
  induction cs with
  | nil => simp [escapeBackticks, readQuoted?]
  | cons c cs ih =>
    by_cases htick : c = '\x60'
    · subst htick
      rw [escapeBackticks, if_pos rfl, List.cons_append, List.cons_append, readQuoted?,
        map_cons_eq_some_iff, ih]
      cases cs <;> simp [List.getLast?_cons]
    · rw [escapeBackticks, if_neg htick, List.cons_append]
      cases cs with
      | nil =>
        by_cases hback : c = '\\'
        · subst hback
          simp [escapeBackticks, readQuoted?]
        · simp [escapeBackticks, hback, readQuoted?]
      | cons d ds =>
        rw [readQuoted?_cons htick fun _ => head?_escapeBackticks_append, map_cons_eq_some_iff, ih,
          List.getLast?_cons_cons]

/-! ## Literals -/

/-- Whether the literal of a text ends where it is written to: between backticks, the text does not
end in a backslash. -/
def isSealed (s : String) : Bool := !(s.toList.any isSpecial && s.toList.getLast? == some '\\')

/-- A run without special characters is read up to the first special character. -/
theorem readLiteral?_bare {run : List Char} {c : Char} {cs : List Char} (hne : run ≠ [])
    (hrun : run.any isSpecial = false) (hc : isSpecial c = true) :
    readLiteral? (run ++ c :: cs) = some (run, c :: cs) := by
  have hbare : ∀ d ∈ run, (!isSpecial d) = true := by simpa using hrun
  have htake : (run ++ c :: cs).takeWhile (!isSpecial ·) = run := by
    rw [List.takeWhile_append_of_pos hbare]
    simp [hc]
  have hdrop : (run ++ c :: cs).dropWhile (!isSpecial ·) = c :: cs := by
    rw [List.dropWhile_append_of_pos hbare]
    simp [hc]
  unfold readLiteral?
  split
  case h_1 heq =>
    cases run with
    | nil => exact absurd rfl hne
    | cons d ds =>
      cases heq
      exact absurd (hbare '\x60' (by simp)) (by decide)
  case h_2 =>
    rw [htake, hdrop]
    cases run with
    | nil => exact absurd rfl hne
    | cons d ds => rfl

/-- Before a special character that is no backtick, a literal is read back with what follows, unless
it is empty or not sealed. -/
theorem readLiteral?_literalText_eq_some_iff {s : String} {c : Char} {cs rest : List Char}
    (hc : isSpecial c = true) (htick : c ≠ '\x60') :
    readLiteral? (literalText s.toList ++ c :: cs) = some (s.toList, rest) ↔
      c :: cs = rest ∧ s ≠ "" ∧ isSealed s = true := by
  unfold literalText isSealed
  cases hspecial : s.toList.any isSpecial with
  | true =>
    have hne : s ≠ "" := by
      rintro rfl
      cases hspecial
    have htext : '\x60' :: escapeBackticks s.toList ++ ['\x60'] ++ c :: cs =
        '\x60' :: (escapeBackticks s.toList ++ '\x60' :: c :: cs) := by simp
    rw [if_pos rfl, htext, readLiteral?, readQuoted?_escapeBackticks_eq_some_iff]
    simp [hne]
  | false =>
    rw [if_neg Bool.false_ne_true]
    by_cases hne : s = ""
    · subst hne
      simp [readLiteral?, htick, hc]
    · rw [readLiteral?_bare (by simpa using hne) hspecial hc]
      simp [hne]

/-! ## Lists -/

/-- All that reading a list can find: a last literal, or one with a list behind it. -/
theorem readLiterals?_eq_cons_iff {cs rest : List Char} {s : String} {ss : List String} :
    readLiterals? cs = some (s :: ss, rest) ↔
      (ss = [] ∧ readLiteral? cs = some (s.toList, ']' :: rest)) ∨
      ∃ tail, readLiteral? cs = some (s.toList, ',' :: ' ' :: tail) ∧
        readLiterals? tail = some (ss, rest) := by
  have hitem : ∀ item : List Char, String.ofList item = s ↔ item = s.toList := by
    intro item
    rw [← String.toList_inj, String.toList_ofList]
  rw [readLiterals?]
  split
  case h_1 item tail h =>
    rw [h]
    rcases hrest : readLiterals? tail with _ | ⟨ss', rest'⟩ <;> simp [hitem, hrest, and_assoc]
  case h_2 item tail h =>
    rw [h]
    simp [hitem, and_assoc, and_left_comm]
  case h_3 h h' =>
    simp only [reduceCtorEq, false_iff]
    rintro (⟨-, heq⟩ | ⟨tail, heq, -⟩)
    · exact h' _ _ heq
    · exact h _ _ heq

/-- A list that is read has an item. -/
theorem readLiterals?_ne_nil {cs rest : List Char} : readLiterals? cs ≠ some ([], rest) := by
  unfold readLiterals?
  split <;> simp

def listed (ss : List String) : String :=
  ", ".intercalate (ss.map fun s => String.ofList (literalText s.toList))

/-- Texts always have literals. -/
theorem literals_texts (ss : List String) : literals ", " (ss.map .text) = .ok (listed ss) := by
  have hmapM : (ss.map Value.text).mapM literal =
      .ok (ss.map fun s => String.ofList (literalText s.toList)) := by
    rw [mapM_eq_ok_iff, List.forall₂_map_left_iff, List.forall₂_map_right_iff, List.forall₂_same]
    exact fun s _ => rfl
  rw [literals, hmapM]
  rfl

/-- A comma and a blank follow every literal but the last. -/
theorem toList_listed_cons_cons (s s' : String) (ss : List String) :
    (listed (s :: s' :: ss)).toList =
      literalText s.toList ++ ',' :: ' ' :: (listed (s' :: ss)).toList := by
  simp [listed, String.intercalate_cons_cons]

theorem toList_listed_singleton (s : String) : (listed [s]).toList = literalText s.toList := by
  simp [listed]

/-- A list of texts is read back from their literals up to the bracket, whatever follows, just if
there is one, and none of them is empty or not sealed. -/
theorem readLiterals?_listed_eq_some_iff {ss : List String} {rest : List Char} :
    readLiterals? ((listed ss).toList ++ ']' :: rest) = some (ss, rest) ↔
      ss ≠ [] ∧ ∀ s ∈ ss, s ≠ "" ∧ isSealed s = true := by
  induction ss with
  | nil => simp [readLiterals?_ne_nil]
  | cons s ss ih =>
    cases ss with
    | nil =>
      rw [toList_listed_singleton, readLiterals?_eq_cons_iff,
        readLiteral?_literalText_eq_some_iff (by decide) (by decide)]
      simp only [readLiterals?_ne_nil]
      simp
    | cons s' ss =>
      rw [toList_listed_cons_cons, List.append_assoc, List.cons_append, List.cons_append,
        readLiterals?_eq_cons_iff, List.forall_mem_cons]
      simp only [readLiteral?_literalText_eq_some_iff (c := ',') (by decide) (by decide)]
      constructor
      · rintro (⟨hnil, -⟩ | ⟨tail, ⟨heq, hs⟩, hss⟩)
        · cases hnil
        · cases heq
          exact ⟨List.cons_ne_nil _ _, hs, (ih.mp hss).2⟩
      · rintro ⟨-, hs, hss⟩
        exact .inr ⟨_, ⟨rfl, hs⟩, ih.mpr ⟨List.cons_ne_nil _ _, hss⟩⟩

/-- The filter of a membership test has the literals of its texts between brackets, behind its path.
They are read back as these texts, whatever follows the closing bracket, just if none of them is
empty or not sealed. -/
theorem member_literals_read_back {cat : Catalog} {c : Condition} {f : Field} {op : Operator}
    (hf : cat.find? c.field = some f) (hpath : f.searchPath.truthy = true)
    (hop : Operator.ofValue? c.operator = some op) (hmember : op = .isIn ∨ op = .notIn)
    {ss : List String} (hne : ss ≠ []) (hv : c.value.sequence? = some (ss.map .text)) :
    ∃ text : String,
      outcome cat c = f.searchPath.display.map (fun path =>
        .filter ((if op = .notIn then "!" else "") ++ path ++ ":[" ++ text ++ "]")) ∧
      ∀ rest : List Char, readLiterals? (text.toList ++ ']' :: rest) = some (ss, rest) ↔
        ∀ s ∈ ss, s ≠ "" ∧ isSealed s = true := by
  obtain ⟨s, ss, rfl⟩ := List.exists_cons_of_ne_nil hne
  refine ⟨listed (s :: ss), ?_, fun rest => ?_⟩
  · have htexts := literals_texts (s :: ss)
    rw [List.map_cons] at hv htexts
    cases hdisplay : f.searchPath.display <;> rcases hmember with rfl | rfl <;>
      simp [outcome, hf, hpath, hop, lower?, member?, hv, htexts, hdisplay, bind, Except.bind, pure,
        Except.pure, Except.map]
  · rw [readLiterals?_listed_eq_some_iff, and_iff_right hne]

theorem member_literals_read_back_mixed :
    let ss := ["a\x60b\\c", "back\\", "\\\x60], x:=["]
    let c : Condition := {
      field := .text "intent.topics"
      operator := .text "nin"
      value := .tuple (ss.map .text) }
    (∀ s ∈ ss, s ≠ "" ∧ isSealed s = true) ∧
    ∃ text : String,
      outcome .bundled c = .ok (.filter ("!" ++ "intent.topics" ++ ":[" ++ text ++ "]")) ∧
      ∀ rest : List Char, readLiterals? (text.toList ++ ']' :: rest) = some (ss, rest) := by
  intro ss c
  have hss : ∀ s ∈ ss, s ≠ "" ∧ isSealed s = true := by decide
  obtain ⟨text, htext, hread⟩ :=
    @member_literals_read_back .bundled c _ .notIn rfl rfl rfl (.inr rfl) ss (by decide) rfl
  exact ⟨hss, text, htext, fun rest => (hread rest).mpr hss⟩

/-- A text that is not sealed takes the comma behind its literal for a part of it, and the text
behind that one stands in the filter as it is. -/
theorem member_literals_swallow :
    let c : Condition := {
      field := .text "intent.topics"
      operator := .text "in"
      value := .list [.text "a \\", .text "] || b:=[c"] }
    outcome .bundled c = .ok (.filter "intent.topics:[\x60a \\\x60, \x60] || b:=[c\x60]") ∧
    readLiterals? "\x60a \\\x60, \x60] || b:=[c\x60]".toList =
      some (["a \x60, "], " || b:=[c\x60]".toList) := by
  refine ⟨rfl, ?_⟩
  decide +kernel

end Cohort.Search
