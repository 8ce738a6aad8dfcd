import Cohort.Proofs.Search.Fate

/-!
# The tests in a filter

The filter of a condition, its negation left aside, is a test: one run of
characters that the walk keeps as it is.  It starts with the path of the field,
behind the sign for exclusion where a list of values is excluded, and the rest
is made of the signs of the operators and of literals.
-/

namespace Cohort.Search

/-! ## Tests -/

/-- A text that is kept, and is not the sign for everything. -/
structure IsTest (text : String) : Prop where
  kept : Kept text
  head : ∃ c cs, text.toList = c :: cs ∧ c ≠ '*'

namespace IsTest

variable {a b : String}

theorem append (ha : IsTest a) (hb : Kept b) : IsTest (a ++ b) := by
  obtain ⟨c, cs, hc, hne⟩ := ha.head
  exact ⟨ha.kept.append hb, c, cs ++ b.toList, by simp [hc], hne⟩

/-- A test is read as one atom. -/
theorem readsAs (h : IsTest a) : ReadsAs a (.atom [a]) := by
  obtain ⟨c, cs, hc, hne⟩ := h.head
  refine .of_kept h.kept ?_ ?_
  · rintro rfl
    cases hc
  · rintro rfl
    cases hc
    exact hne rfl

end IsTest

/-- A word without a blank or a sign of the language. -/
def IsPath (path : String) : Prop := path ≠ "" ∧ ∀ c ∈ path.toList, isSpecial c = false

instance (path : String) : Decidable (IsPath path) :=
  decidable_of_iff (path ≠ "" ∧ path.toList.any isSpecial = false) (by simp [IsPath])

/-- A path is passed over as a whole. -/
theorem IsPath.kept {path : String} (h : IsPath path) : Kept path := by
  refine IsPlain.kept ?_
  intro c hc
  exact isPlain_of_not_isSpecial (h.2 c hc)

theorem IsPath.isTest {path : String} (h : IsPath path) : IsTest path := by
  refine ⟨h.kept, ?_⟩
  obtain ⟨hne, hplain⟩ := h
  cases hpath : path.toList with
  | nil => exact absurd (String.toList_eq_nil_iff.mp hpath) hne
  | cons c cs =>
    refine ⟨c, cs, rfl, ?_⟩
    rintro rfl
    have hstar := hplain '*' (by simp [hpath])
    cases hstar.symm.trans (by decide : isSpecial '*' = true)

/-! ## Values -/

theorem kept_intercalate {separator : String} (hsep : Kept separator) {texts : List String}
    (h : ∀ text ∈ texts, Kept text) : Kept (separator.intercalate texts) := by
  induction texts with
  | nil =>
    have hempty : IsPlain "" := by decide
    exact hempty.kept
  | cons text texts ih =>
    obtain ⟨htext, htexts⟩ := List.forall_mem_cons.mp h
    cases texts with
    | nil => simpa using htext
    | cons text' texts =>
      rw [String.intercalate_cons_cons]
      exact (htext.append hsep).append (ih htexts)

/-- Literals of safe values are passed over with what separates them. -/
theorem kept_literals {separator : String} (hsep : Kept separator) {vs : List Value}
    (hvs : ∀ v ∈ vs, isSafe v = true) {t : String} (ht : literals separator vs = .ok t) :
    Kept t := by
  obtain ⟨texts, htexts, htext⟩ := exists_of_bind_eq_ok ht
  cases htext
  refine kept_intercalate hsep ?_
  clear ht
  induction mapM_eq_ok_iff.mp htexts with
  | nil => nofun
  | cons hv hrest ih =>
    obtain ⟨hsafe, hvs⟩ := List.forall_mem_cons.mp hvs
    exact List.forall_mem_cons.mpr ⟨kept_literal hsafe hv, ih hvs (mapM_eq_ok_iff.mpr hrest)⟩

section Lowering

variable {path v : Value} {start t : String}

theorem isTest_test (hstart : path.display = .ok start) (hpath : IsPath start)
    {text : Except Misuse String} (htext : ∀ rest, text = .ok rest → Kept rest)
    (h : test path text = .ok (some t)) : IsTest t := by
  obtain ⟨start', hstart', rest, hrest, rfl⟩ := test_eq_ok_iff.mp h
  obtain rfl : start = start' := Except.ok.inj (hstart.symm.trans hstart')
  exact hpath.isTest.append (htext rest hrest)

theorem kept_map {text : Except Misuse String} (htext : ∀ s, text = .ok s → Kept s)
    {g : String → String} (hg : ∀ s, Kept s → Kept (g s)) {rest : String}
    (h : text.map g = .ok rest) : Kept rest := by
  cases text with
  | error e => cases h
  | ok s =>
    cases h
    exact hg s (htext s rfl)

/-- A comparison of a path with a safe value is a test. -/
theorem isTest_signed (hstart : path.display = .ok start) (hpath : IsPath start) {sign : String}
    (hsign : IsPlain sign) (hv : isSafe v = true) (h : signed path sign v = .ok (some t)) :
    IsTest t :=
  isTest_test hstart hpath
    (fun _ => kept_map (fun _ => kept_literal hv) fun _ => hsign.kept.append) h

/-- A membership test of a path and safe values is a test. -/
theorem isTest_member? (hstart : path.display = .ok start) (hpath : IsPath start) {negated : Bool}
    (hv : ∀ w ∈ v.sequence?.getD [v], isSafe w = true)
    (h : member? negated path v = .ok (some t)) : IsTest t := by
  cases hseq : v.sequence? with
  | none =>
    rw [hseq, Option.getD_none, List.forall_mem_singleton] at hv
    rw [member?, hseq] at h
    refine isTest_signed hstart hpath ?_ hv h
    cases negated <;> decide
  | some items =>
    rw [hseq, Option.getD_some] at hv
    cases items with
    | nil =>
      rw [member?, hseq] at h
      cases h
    | cons w ws =>
      rw [member?_of_items hseq] at h
      have hlist : ∀ {t'}, test path ((literals ", " (w :: ws)).map fun s => ":[" ++ s ++ "]") =
          .ok (some t') → IsTest t' := by
        refine isTest_test hstart hpath
          fun _ => kept_map (fun _ => kept_literals ?_ hv) fun s hs => ?_
        · exact IsPlain.kept (by decide)
        · exact ((IsPlain.kept (by decide)).append hs).append (IsPlain.kept (by decide))
      rcases htest : test path ((literals ", " (w :: ws)).map fun s => ":[" ++ s ++ "]") with
        e | _ | t' <;> rw [htest] at h <;> cases h
      cases negated with
      | false => simpa using hlist htest
      | true =>
        have hmark : IsTest "!" := ⟨IsPlain.kept (by decide), '!', [], rfl, by decide⟩
        exact hmark.append (hlist htest).kept

/-- A search on a path for any of some safe words is a test. -/
theorem isTest_matchAny? (hstart : path.display = .ok start) (hpath : IsPath start)
    (hv : ∀ w ∈ v.sequence?.getD [v], isSafe w = true) (h : matchAny? path v = .ok (some t)) :
    IsTest t := by
  unfold matchAny? at h
  cases hseq : v.sequence? with
  | none =>
    rw [hseq, Option.getD_none, List.forall_mem_singleton] at hv
    rw [hseq] at h
    exact isTest_signed hstart hpath (by decide) hv h
  | some items =>
    rw [hseq, Option.getD_some] at hv
    rw [hseq] at h
    cases items with
    | nil => cases h
    | cons w ws =>
      refine isTest_test hstart hpath (fun _ => kept_map (fun _ => kept_literals ?_ hv) ?_) h
      · exact IsPlain.kept (by decide)
      · exact fun _ => (IsPlain.kept (by decide)).append

/-- A range test of a path and safe bounds is a test. -/
theorem isTest_between (hstart : path.display = .ok start) (hpath : IsPath start)
    (hv : ∀ w ∈ rendered .between v, isSafe w = true) (h : lower? .between path v = .ok (some t)) :
    IsTest t := by
  unfold lower? at h
  dsimp only at h
  split at h
  case h_1 low high hseq =>
    simp only [rendered, hseq, Option.getD_some, List.forall_mem_cons] at hv
    obtain ⟨hlow, hhigh, -⟩ := hv
    refine isTest_test hstart hpath (fun rest hrest => ?_) h
    obtain ⟨a, ha, hrest⟩ := exists_of_bind_eq_ok hrest
    obtain ⟨b, hb, hrest⟩ := exists_of_bind_eq_ok hrest
    cases hrest
    refine ((((IsPlain.kept ?_).append (kept_literal hlow ha)).append ?_).append
      (kept_literal hhigh hb)).append ?_
    · decide
    · exact IsPlain.kept (by decide)
    · exact IsPlain.kept (by decide)
  case h_2 => cases h

/-- What an operator makes of a path and of values that can be read back is a test. -/
theorem isTest_lower? (hstart : path.display = .ok start) (hpath : IsPath start) {op : Operator}
    (hv : ∀ w ∈ rendered op v, isSafe w = true) (h : lower? op path v = .ok (some t)) :
    IsTest t := by
  cases op with
  | eq | neq | gt | gte | lt | lte | contains | containsAnyCase | matchText | endsWith =>
    exact isTest_signed hstart hpath (by decide) (hv v (by simp [rendered])) h
  | startsWith =>
    refine isTest_test hstart hpath
      (fun _ => kept_map (fun _ => kept_literal (hv v (by simp [rendered]))) fun s hs => ?_) h
    exact ((IsPlain.kept (by decide)).append hs).append (IsPlain.kept (by decide))
  | isIn | notIn => exact isTest_member? hstart hpath hv h
  | matchAny => exact isTest_matchAny? hstart hpath hv h
  | present | absent | isTrue | isFalse =>
    refine isTest_test hstart hpath (fun rest hrest => ?_) h
    cases hrest
    exact IsPlain.kept (by decide)
  | between => exact isTest_between hstart hpath hv h
  | withinRadius =>
    unfold lower? at h
    dsimp only at h
    split at h
    case h_1 lat lng radius hlat hlng hradius =>
      have hplaces : rendered .withinRadius v = [lat, lng, radius] := by
        simp [rendered, hlat, hlng, hradius]
      rw [hplaces] at hv
      refine isTest_test hstart hpath
        (fun _ => kept_map (fun _ => kept_literals ?_ hv) fun s hs => ?_) h
      · exact IsPlain.kept (by decide)
      · exact ((IsPlain.kept (by decide)).append hs).append (IsPlain.kept (by decide))
    case h_2 => cases h

end Lowering

/-! ## Conditions -/

/-- Whether every path of a catalog into the index is a word. -/
def HasPaths (cat : Catalog) : Prop :=
  ∀ f ∈ cat.fields, f.searchPath.truthy = true → ∃ s ∈ f.searchPath.text?, IsPath s

instance (cat : Catalog) : Decidable (HasPaths cat) :=
  inferInstanceAs (Decidable (∀ f ∈ cat.fields, f.searchPath.truthy = true →
    ∃ s ∈ f.searchPath.text?, IsPath s))

/-- The values of a condition that its test writes as literals. -/
def handed (cat : Catalog) (c : Condition) : List Value :=
  match fate cat c with
  | .tested _ op => rendered op c.value
  | _ => []

/-- The test of a condition whose literals are safe is read as one atom. -/
theorem isTest_of_test? {cat : Catalog} (hcat : HasPaths cat) {c : Condition}
    (hc : ∀ v ∈ handed cat c, isSafe v = true) {t : String} (h : test? cat c = some t) :
    IsTest t := by
  obtain ⟨path, op, hfate, hlower⟩ := test?_eq_some_iff.mp h
  obtain ⟨f, hf, rfl, htruthy, -, -⟩ := exists_of_fate_tested hfate
  obtain ⟨s, hs, hpath⟩ := hcat f (Catalog.mem_fields_of_find? hf) htruthy
  have hdisplay : f.searchPath.display = .ok s := by
    cases hvalue : f.searchPath <;> rw [hvalue] at hs <;> cases hs
    rfl
  have hhanded : handed cat c = rendered op c.value := by rw [handed, hfate]
  rw [hhanded] at hc
  exact isTest_lower? hdisplay hpath hc hlower

end Cohort.Search
