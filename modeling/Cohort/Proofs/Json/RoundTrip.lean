import Mathlib.Data.List.Nodup
import Cohort.Proofs.Json.Bracket
import Cohort.Proofs.Traversal

/-!
# Values read back from JSON text

Null, truth values, whole numbers, texts, lists, and maps with distinct texts
as keys are read back from the text that is written of them, in every style
that adds nothing but blanks.  A style that sorts the members gives the maps
back in the order in which it wrote them, and is no different otherwise.
-/

namespace Cohort

/-! ## Values that the text keeps -/

namespace Value

/-- The values that JSON text keeps.  A whole number may have as many digits as are read. -/
inductive IsJson : Value → Prop
  | null : IsJson .null
  | bool (b : Bool) : IsJson (.bool b)
  | int {n : Int} (small : (Nat.toDigits 10 n.natAbs).length ≤ Decimal.maxIntegerDigits) :
      IsJson (.int n)
  | text (t : String) : IsJson (.text t)
  | list {xs : List Value} (items : ∀ x ∈ xs, IsJson x) : IsJson (.list xs)
  | map {ms : List (String × Value)} (distinct : (ms.map Prod.fst).Nodup)
      (members : ∀ m ∈ ms, IsJson m.2) : IsJson (.map (Entries.named ms))

/-- The same value but for the order of the entries of maps, at any depth. -/
inductive Reordered : Value → Value → Prop
  | same (v : Value) : Reordered v v
  | list {xs ys : List Value} (items : List.Forall₂ Reordered xs ys) :
      Reordered (.list xs) (.list ys)
  | map {es fs gs : Entries} (keys : es.map Prod.fst = fs.map Prod.fst)
      (values : List.Forall₂ Reordered (es.map Prod.snd) (fs.map Prod.snd)) (order : fs.Perm gs) :
      Reordered (.map es) (.map gs)

end Value

namespace Entries

theorem put_named {acc : List (String × Value)} {name : String} (h : name ∉ acc.map Prod.fst)
    (v : Value) : put (named acc) (.text name) v = named (acc ++ [(name, v)]) := by
  induction acc with
  | nil => rfl
  | cons m acc ih =>
    rw [List.map_cons, List.mem_cons, not_or] at h
    have hother : ¬ (Value.text m.1).sameKey (.text name) = true := by
      simpa [Value.sameKey] using Ne.symm h.1
    rw [named, List.map_cons, put, if_neg hother]
    exact congrArg _ (ih h.2)

/-- Members of distinct names are written one behind the other. -/
theorem foldl_put_named {acc ms : List (String × Value)}
    (h : ((acc ++ ms).map Prod.fst).Nodup) :
    (named ms).foldl (fun es e => put es e.1 e.2) (named acc) = named (acc ++ ms) := by
  induction ms generalizing acc with
  | nil =>
    rw [List.append_nil]
    rfl
  | cons m ms ih =>
    have hnew : m.1 ∉ acc.map Prod.fst := by
      rw [List.map_append, List.map_cons, List.nodup_middle, List.nodup_cons, List.mem_append,
        not_or] at h
      exact h.1.1
    rw [List.append_cons] at h ⊢
    change (named ms).foldl _ (put (named acc) (.text m.1) m.2) = _
    rw [put_named hnew]
    exact ih h

/-- Distinct names are written one behind the other. -/
theorem ofPairs_named {ms : List (String × Value)} (h : (ms.map Prod.fst).Nodup) :
    ofPairs (named ms) = named ms :=
  @foldl_put_named [] ms h

theorem get?_named_eq_some_iff {ms : List (String × Value)} (h : (ms.map Prod.fst).Nodup)
    {name : String} {v : Value} : (named ms).get? name = some v ↔ (name, v) ∈ ms := by
  induction ms with
  | nil => simp [named]
  | cons m ms ih =>
    obtain ⟨name', w⟩ := m
    rw [List.map_cons, List.nodup_cons] at h
    change (if some name' = some name then some w else get? (named ms) name) = _ ↔ _
    rw [List.mem_cons, Prod.mk.injEq]
    by_cases hname : name = name'
    · subst hname
      have habsent : (name, v) ∉ ms := fun hmem =>
        h.1 (List.mem_map.mpr ⟨(name, v), hmem, rfl⟩)
      rw [if_pos rfl, Option.some.injEq, or_iff_left habsent, eq_comm]
      exact (and_iff_right rfl).symm
    · have hother : ¬ some name' = some name := fun h => hname (Option.some.inj h).symm
      rw [if_neg hother, ih h.2, or_iff_right fun h => hname h.1]

/-- The value under a name does not depend on the order of the entries. -/
theorem get?_named_of_perm {ms ns : List (String × Value)} (hperm : ms.Perm ns)
    (h : (ms.map Prod.fst).Nodup) (name : String) :
    (named ms).get? name = (named ns).get? name := by
  have h' : (ns.map Prod.fst).Nodup := (hperm.map Prod.fst).nodup_iff.mp h
  ext v
  rw [get?_named_eq_some_iff h, get?_named_eq_some_iff h', hperm.mem_iff]

end Entries

namespace Json

/-! ## The order in which members are written -/

namespace Style

variable (s : Style)

/-- Names with what stands under them in the order in which a style writes them. -/
def arrangeNames {α : Type} (ms : List (String × α)) : List (String × α) :=
  if s.sortNames then ms.mergeSort fun a b => a.1 ≤ b.1 else ms

/-- Arranging members drops none and adds none. -/
theorem arrangeNames_perm {α : Type} (ms : List (String × α)) : (s.arrangeNames ms).Perm ms := by
  rw [arrangeNames]
  split
  · exact List.mergeSort_perm ms _
  · exact .refl ms

/-- The order of members depends on their names alone. -/
theorem arrangeNames_map {α β : Type} (f : α → β) (ms : List (String × α)) :
    s.arrangeNames (ms.map fun m => (m.1, f m.2)) =
      (s.arrangeNames ms).map fun m => (m.1, f m.2) := by
  rw [arrangeNames, arrangeNames]
  split
  · exact (List.map_mergeSort (f := fun m : String × α => (m.1, f m.2)) fun a _ b _ => rfl).symm
  · rfl

/-- Texts can be compared with each other, so that members under texts are always arranged. -/
theorem arrange_texts {α β : Type} (f : String × α → β) (ms : List (String × α)) :
    s.arrange (ms.map fun m => (Value.text m.1, f m)) =
      .ok ((s.arrangeNames ms).map fun m => (Value.text m.1, f m)) := by
  rw [arrange, arrangeNames]
  cases hsort : s.sortNames with
  | false => simp
  | true =>
    have hcomparable : (ms.map fun m => (Value.text m.1, f m)).all (fun a =>
        (ms.map fun m => (Value.text m.1, f m)).all fun b =>
          (keyAtMost? a.1 b.1).isSome) = true := by
      simp [keyAtMost?]
    have hsorted : (ms.map fun m => (Value.text m.1, f m)).mergeSort
        (fun a b => (keyAtMost? a.1 b.1).getD true) =
          (ms.mergeSort fun a b => a.1 ≤ b.1).map fun m => (Value.text m.1, f m) :=
      (List.map_mergeSort (f := fun m => (Value.text m.1, f m)) fun a _ b _ => rfl).symm
    simp only [Bool.not_true, Bool.false_or, decide_eq_true_eq, if_true, hcomparable, hsorted]
    split
    case isTrue hshort =>
      rw [List.length_map] at hshort
      match ms, hshort with
      | [], _ => rw [List.mergeSort_nil]
      | [m], _ => rw [List.mergeSort_singleton]
    case isFalse => rfl

mutual

/-- A value with its maps as they are written: the members under texts, in the order of the
style. -/
def arranged : Value → Value
  | .list xs => .list (arrangedItems xs)
  | .map es => .map (Entries.named (s.arrangeNames (arrangedMembers es)))
  | v => v

def arrangedItems : List Value → List Value
  | [] => []
  | x :: xs => arranged x :: arrangedItems xs

def arrangedMembers : List (Value × Value) → List (String × Value)
  | [] => []
  | (k, v) :: es => (k.text?.getD "", arranged v) :: arrangedMembers es

end

theorem arrangedItems_eq (xs : List Value) : s.arrangedItems xs = xs.map s.arranged := by
  induction xs with
  | nil => rfl
  | cons x xs ih => rw [arrangedItems, ih, List.map_cons]

theorem arrangedMembers_named (ms : List (String × Value)) :
    s.arrangedMembers (Entries.named ms) = ms.map fun m => (m.1, s.arranged m.2) := by
  induction ms with
  | nil => rfl
  | cons m ms ih => exact congrArg _ ih

theorem arranged_list (xs : List Value) : s.arranged (.list xs) = .list (xs.map s.arranged) := by
  rw [arranged, arrangedItems_eq]

theorem arranged_map (ms : List (String × Value)) :
    s.arranged (.map (Entries.named ms)) =
      .map (Entries.named ((s.arrangeNames ms).map fun m => (m.1, s.arranged m.2))) := by
  rw [arranged, arrangedMembers_named, arrangeNames_map]

/-- A style that does not sort names leaves a value as it is. -/
theorem arranged_eq_self (hs : s.sortNames = false) {v : Value} (hv : v.IsJson) :
    s.arranged v = v := by
  induction hv with
  | null => rfl
  | bool b => rfl
  | int small => rfl
  | text t => rfl
  | list items ih => rw [arranged_list, List.map_congr_left ih, List.map_id']
  | @map ms distinct members ih =>
    have horder : s.arrangeNames ms = ms := if_neg (Bool.eq_false_iff.mp hs)
    rw [arranged_map, horder, List.map_congr_left fun m hm => by rw [ih m hm], List.map_id']

/-- Arranging a value changes nothing but the order of entries. -/
theorem reordered_arranged {v : Value} (hv : v.IsJson) : v.Reordered (s.arranged v) := by
  induction hv with
  | null => exact .same _
  | bool b => exact .same _
  | int small => exact .same _
  | text t => exact .same _
  | list items ih =>
    rw [arranged_list]
    refine .list ?_
    rw [List.forall₂_map_right_iff, List.forall₂_same]
    exact ih
  | @map ms distinct members ih =>
    rw [arranged_map, ← arrangeNames_map]
    refine .map ?_ ?_ ((s.arrangeNames_perm _).symm.map _)
    · simp [Entries.named]
    · simp only [Entries.named, List.map_map, List.forall₂_map_left_iff,
        List.forall₂_map_right_iff, List.forall₂_same]
      exact ih

end Style

/-! ## Written values -/

section Written

variable {s : Style}

theorem encodeItems_eq (s : Style) (level : Nat) (xs : List Value) :
    encodeItems s level xs = xs.mapM (encodeAt s level) := by
  induction xs with
  | nil => rfl
  | cons x xs ih =>
    rw [encodeItems, ih, List.mapM_cons]

/-- The text of a member under a name, if its value can be written. -/
def encodeMember (s : Style) (level : Nat) (m : String × Value) : Except Misuse String :=
  return memberText s.asciiOnly s.nameSeparator m.1 (← encodeAt s level m.2)

theorem encodeMembers_named (s : Style) (level : Nat) (ms : List (String × Value)) :
    encodeMembers s level (Entries.named ms) =
      ms.map fun m => (.text m.1, encodeMember s level m) := by
  induction ms with
  | nil => rfl
  | cons m ms ih => exact congrArg _ ih

/-- Members are asked for in the order in which they are written. -/
theorem encodeAt_map_named (s : Style) (level : Nat) (ms : List (String × Value)) :
    encodeAt s level (.map (Entries.named ms)) = do
      let texts ← (s.arrangeNames ms).mapM (encodeMember s (level + 1))
      return s.bracket level "\x7b" "\x7d" texts := by
  rw [encodeAt, encodeMembers_named, s.arrange_texts (encodeMember s (level + 1))]
  change (((s.arrangeNames ms).map fun m =>
    (Value.text m.1, encodeMember s (level + 1) m)).mapM (·.2)) >>= _ = _
  rw [List.mapM_map]
  rfl

/-- A value has a text, which is read as the value is arranged for it. -/
theorem exists_encodeAt (hs : s.IsLoose) {v : Value} (hv : v.IsJson) (level : Nat) :
    ∃ text, encodeAt s level v = .ok text ∧ Reads text.toList (s.arranged v) := by
  induction hv generalizing level with
  | null => exact ⟨_, rfl, reads_null⟩
  | bool b => exact ⟨_, rfl, reads_bool b⟩
  | int small => exact ⟨_, if_pos small, reads_signed small⟩
  | text t => exact ⟨_, rfl, reads_string s.asciiOnly t⟩
  | @list xs items ih =>
    obtain ⟨texts, htexts, hread⟩ := exists_mapM_eq_ok fun x hx => ih x hx (level + 1)
    refine ⟨s.bracket level "[" "]" texts, ?_, ?_⟩
    · rw [encodeAt, encodeItems_eq, htexts]
      rfl
    · rw [Style.arranged_list]
      refine .array hs ?_ level
      rw [List.forall₂_map_right_iff]
      exact hread.flip
  | @map ms distinct members ih =>
    have hdistinct :
        (((s.arrangeNames ms).map fun m => (m.1, s.arranged m.2)).map Prod.fst).Nodup := by
      rw [List.map_map]
      exact ((s.arrangeNames_perm ms).map Prod.fst).nodup_iff.mpr distinct
    have hmember : ∀ m ∈ s.arrangeNames ms, ∃ t, encodeMember s (level + 1) m = .ok t ∧
        ∃ text : String, t = memberText s.asciiOnly s.nameSeparator m.1 text ∧
          Reads text.toList (s.arranged m.2) := by
      intro m hm
      obtain ⟨text, htext, hread⟩ := ih m ((s.arrangeNames_perm ms).mem_iff.mp hm) (level + 1)
      refine ⟨_, ?_, text, rfl, hread⟩
      rw [encodeMember, htext]
      rfl
    obtain ⟨texts, htexts, hread⟩ := exists_mapM_eq_ok hmember
    refine ⟨s.bracket level "\x7b" "\x7d" texts, ?_, ?_⟩
    · rw [encodeAt_map_named, htexts]
      rfl
    · rw [Style.arranged_map, ← Entries.ofPairs_named hdistinct]
      refine @Reads.object s s.asciiOnly _ _ hs ?_ level
      rw [List.forall₂_map_right_iff]
      exact hread.flip

/-- The text of a value is read as the value, arranged as it was written. -/
theorem exists_encode (hs : s.IsLoose) {v : Value} (hv : v.IsJson) :
    ∃ text, encode v s = .ok text ∧ decode text = .ok (s.arranged v) := by
  obtain ⟨text, htext, hread⟩ := exists_encodeAt hs hv 0
  exact ⟨text, htext, decode_of_reads hread⟩

end Written

end Json

end Cohort
