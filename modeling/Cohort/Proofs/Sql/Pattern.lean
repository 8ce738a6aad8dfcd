import Cohort.Catalog.Bundled
import Cohort.Proofs.Sql.Alignment

/-!
# What patterns select

The text operators match a column against a pattern: `%` stands for any run of
characters, `_` for any one character, and every other character for itself,
letter case aside.  What is asked for is the value itself, somewhere in the
text, at its front or at its end.  The pattern finds all of these texts.  It
finds no others just if neither of the two wildcards occurs in the value, for
the value goes into the pattern as it is.
-/

namespace Cohort

namespace Operator

def isPattern : Operator → Bool
  | contains | containsAnyCase | startsWith | endsWith => true
  | _ => false

/-- Where a text operator looks for a text in another one. -/
def Finds : Operator → List Char → List Char → Prop
  | contains, s, t | containsAnyCase, s, t => s <:+: t
  | startsWith, s, t => s <+: t
  | endsWith, s, t => s <:+ t
  | _, _, _ => False

variable {op : Operator}

/-- Every text operator finds a text in itself. -/
theorem finds_self (h : op.isPattern = true) (s : List Char) : op.Finds s s := by
  cases op
  case contains | containsAnyCase => exact List.infix_refl s
  case startsWith => exact List.prefix_refl s
  case endsWith => exact List.suffix_refl s
  all_goals cases h

/-- What a text operator finds occurs in the text. -/
theorem Finds.isInfix {s t : List Char} (h : op.Finds s t) : s <:+: t := by
  cases op
  case contains | containsAnyCase => exact h
  case startsWith => exact List.IsPrefix.isInfix h
  case endsWith => exact List.IsSuffix.isInfix h
  all_goals cases h

/-- What is found in a text whose characters are replaced is found in the text itself. -/
theorem finds_map_iff {fold : Char → Char} {s t : List Char} :
    op.Finds s (t.map fold) ↔ ∃ r, op.Finds r t ∧ r.map fold = s := by
  cases op
  case contains | containsAnyCase => simp only [Finds, List.infix_map_iff, eq_comm]
  case startsWith => simp only [Finds, List.prefix_map_iff, eq_comm]
  case endsWith => simp only [Finds, List.suffix_map_iff, eq_comm]
  all_goals simp [Finds]

end Operator

namespace Sql

/-! ## Patterns -/

/-- A pattern matches a text.  Characters are the same if they are folded alike, as the two cases of
a letter are. -/
inductive Like (fold : Char → Char) : List Char → List Char → Prop
  | nil : Like fold [] []
  | run {p t : List Char} (s : List Char) : Like fold p t → Like fold ('%' :: p) (s ++ t)
  | any {p t : List Char} (d : Char) : Like fold p t → Like fold ('_' :: p) (d :: t)
  | same {c d : Char} {p t : List Char} : c ≠ '%' → c ≠ '_' → fold c = fold d →
      Like fold p t → Like fold (c :: p) (d :: t)

/-- A text has no wildcards. -/
def IsLiteral (v : List Char) : Prop := '%' ∉ v ∧ '_' ∉ v

/-- A text operator with a value selects a text, whatever the folding makes the same. -/
def Selects (fold : Char → Char) (op : Operator) (v t : List Char) : Prop :=
  op.Finds (v.map fold) (t.map fold)

section Like

variable {fold : Char → Char} {p q s t v : List Char}

/-- Patterns behind each other match texts behind each other. -/
theorem Like.append (hp : Like fold p s) (hq : Like fold q t) : Like fold (p ++ q) (s ++ t) := by
  induction hp with
  | nil => exact hq
  | run r _ ih =>
    rw [List.append_assoc]
    exact ih.run r
  | any d _ ih => exact ih.any d
  | same hrun hany hfold _ ih => exact ih.same hrun hany hfold

/-- A text that two patterns match behind each other splits where the first one ends. -/
theorem Like.exists_of_append (h : Like fold (p ++ q) t) :
    ∃ a b, t = a ++ b ∧ Like fold p a ∧ Like fold q b := by
  induction p generalizing t with
  | nil => exact ⟨[], t, rfl, .nil, h⟩
  | cons c p ih =>
    cases h with
    | run r h =>
      obtain ⟨a, b, rfl, ha, hb⟩ := ih h
      exact ⟨r ++ a, b, (List.append_assoc r a b).symm, ha.run r, hb⟩
    | any d h =>
      obtain ⟨a, b, rfl, ha, hb⟩ := ih h
      exact ⟨d :: a, b, rfl, ha.any d, hb⟩
    | same hrun hany hfold h =>
      obtain ⟨a, b, rfl, ha, hb⟩ := ih h
      exact ⟨_ :: a, b, rfl, ha.same hrun hany hfold, hb⟩

theorem like_append_iff :
    Like fold (p ++ q) t ↔ ∃ a b, t = a ++ b ∧ Like fold p a ∧ Like fold q b := by
  refine ⟨Like.exists_of_append, ?_⟩
  rintro ⟨a, b, rfl, ha, hb⟩
  exact ha.append hb

/-- A percent sign matches any text. -/
theorem like_run (t : List Char) : Like fold ['%'] t := by
  have h : Like fold ['%'] (t ++ []) := Like.nil.run t
  rwa [List.append_nil] at h

/-- A text is matched by itself, wildcards and all. -/
theorem like_of_map_eq (h : v.map fold = t.map fold) : Like fold v t := by
  induction v generalizing t with
  | nil =>
    rw [List.map_nil, eq_comm, List.map_eq_nil_iff] at h
    rw [h]
    exact .nil
  | cons c v ih =>
    cases t with
    | nil => cases h
    | cons d t =>
      obtain ⟨hfold, htail⟩ := List.cons.inj h
      by_cases hrun : c = '%'
      · subst hrun
        exact (ih htail).run [d]
      by_cases hany : c = '_'
      · subst hany
        exact (ih htail).any d
      exact (ih htail).same hrun hany hfold

/-- A pattern without wildcards matches the texts that differ from it in case alone. -/
theorem map_eq_of_like (hv : IsLiteral v) (h : Like fold v t) : v.map fold = t.map fold := by
  induction h with
  | nil => rfl
  | run => exact absurd List.mem_cons_self hv.1
  | any => exact absurd List.mem_cons_self hv.2
  | same _ _ hfold _ ih =>
    have htail := ih ⟨fun h => hv.1 (List.mem_cons_of_mem _ h),
      fun h => hv.2 (List.mem_cons_of_mem _ h)⟩
    rw [List.map_cons, List.map_cons, hfold, htail]

/-! ## Misread values -/

/-- A value as the pattern may take it: nothing for a run, and another character for any one. -/
def misread (x : Char) : List Char → List Char
  | [] => []
  | c :: v =>
    if c = '%' then misread x v
    else if c = '_' then x :: misread x v
    else c :: misread x v

variable {x : Char}

/-- A value matches, as a pattern, the text that it is misread as. -/
theorem like_misread (x : Char) (v : List Char) : Like fold v (misread x v) := by
  induction v with
  | nil => exact .nil
  | cons c v ih =>
    rw [misread]
    split
    case isTrue hrun =>
      subst hrun
      exact ih.run []
    case isFalse hrun =>
      split
      case isTrue hany =>
        subst hany
        exact ih.any x
      case isFalse hany => exact ih.same hrun hany rfl

/-- Misreading drops the runs and makes nothing longer. -/
theorem length_misread_le (x : Char) (v : List Char) : (misread x v).length ≤ v.length := by
  induction v with
  | nil => exact Nat.le_refl 0
  | cons c v ih =>
    rw [misread]
    split
    · exact Nat.le_succ_of_le ih
    · split <;> exact Nat.succ_le_succ ih

/-- Only a value without wildcards cannot be misread. -/
theorem isLiteral_of_map_eq_misread (hx : fold x ≠ fold '_')
    (h : v.map fold = (misread x v).map fold) : IsLiteral v := by
  induction v with
  | nil => exact ⟨List.not_mem_nil, List.not_mem_nil⟩
  | cons c v ih =>
    by_cases hrun : c = '%'
    · have hlength := congrArg List.length h
      rw [List.length_map, List.length_map, misread, if_pos hrun, List.length_cons] at hlength
      have hle := length_misread_le x v
      omega
    by_cases hany : c = '_'
    · rw [misread, if_neg hrun, if_pos hany, List.map_cons, List.map_cons, hany] at h
      exact absurd (List.cons.inj h).1.symm hx
    rw [misread, if_neg hrun, if_neg hany] at h
    obtain ⟨hrun', hany'⟩ := ih (List.cons.inj h).2
    constructor
    · rw [List.mem_cons, not_or]
      exact ⟨Ne.symm hrun, hrun'⟩
    · rw [List.mem_cons, not_or]
      exact ⟨Ne.symm hany, hany'⟩

end Like

/-! ## Patterns of operators -/

section Operators

variable {fold : Char → Char} {op : Operator} {v p : String} {t : List Char}

/-- The pattern of an operator matches what the operator finds a match of its value in. -/
theorem like_pattern_iff (hp : pattern? (.text v) op = some (.ok p)) :
    Like fold p.toList t ↔ ∃ s, op.Finds s t ∧ Like fold v.toList s := by
  have hwild : "%".toList = ['%'] := rfl
  cases op
  case contains | containsAnyCase =>
    cases hp
    rw [String.toList_append, String.toList_append, hwild, like_append_iff]
    constructor
    · rintro ⟨ab, c, rfl, hab, -⟩
      obtain ⟨a, b, rfl, -, hb⟩ := like_append_iff.mp hab
      exact ⟨b, ⟨a, c, rfl⟩, hb⟩
    · rintro ⟨s, ⟨a, c, rfl⟩, hs⟩
      exact ⟨a ++ s, c, rfl, (like_run a).append hs, like_run c⟩
  case startsWith =>
    cases hp
    rw [String.toList_append, hwild, like_append_iff]
    constructor
    · rintro ⟨s, c, rfl, hs, -⟩
      exact ⟨s, ⟨c, rfl⟩, hs⟩
    · rintro ⟨s, ⟨c, rfl⟩, hs⟩
      exact ⟨s, c, rfl, hs, like_run c⟩
  case endsWith =>
    cases hp
    rw [String.toList_append, hwild, like_append_iff]
    constructor
    · rintro ⟨a, s, rfl, -, hs⟩
      exact ⟨s, ⟨a, rfl⟩, hs⟩
    · rintro ⟨s, ⟨a, rfl⟩, hs⟩
      exact ⟨a, s, rfl, like_run a, hs⟩
  all_goals cases hp

theorem selects_iff {v : List Char} :
    Selects fold op v t ↔ ∃ s, op.Finds s t ∧ s.map fold = v.map fold :=
  Operator.finds_map_iff

/-- What is intended is matched: no text that an operator should find is missed. -/
theorem like_of_selects (hp : pattern? (.text v) op = some (.ok p))
    (h : Selects fold op v.toList t) : Like fold p.toList t := by
  obtain ⟨s, hs, hmap⟩ := selects_iff.mp h
  exact (like_pattern_iff hp).mpr ⟨s, hs, like_of_map_eq hmap.symm⟩

/-- Without wildcards in the value, what is matched is intended. -/
theorem selects_of_like (hp : pattern? (.text v) op = some (.ok p)) (hv : IsLiteral v.toList)
    (h : Like fold p.toList t) : Selects fold op v.toList t := by
  obtain ⟨s, hs, hlike⟩ := (like_pattern_iff hp).mp h
  exact selects_iff.mpr ⟨s, hs, (map_eq_of_like hv hlike).symm⟩

/-- A value with a wildcard finds a text that it does not select. -/
theorem exists_like_not_selects (hop : op.isPattern = true)
    (hp : pattern? (.text v) op = some (.ok p)) (hv : ¬IsLiteral v.toList) {x : Char}
    (hx : fold x ≠ fold '_') : ∃ t, Like fold p.toList t ∧ ¬Selects fold op v.toList t := by
  refine ⟨misread x v.toList, ?_, ?_⟩
  · exact (like_pattern_iff hp).mpr ⟨_, op.finds_self hop _, like_misread x _⟩
  · intro hselects
    have hoccurs := Operator.Finds.isInfix hselects
    have hlength : ((misread x v.toList).map fold).length ≤ (v.toList.map fold).length := by
      rw [List.length_map, List.length_map]
      exact length_misread_le x v.toList
    exact hv (isLiteral_of_map_eq_misread hx (hoccurs.eq_of_length_le hlength))

/-- A condition with a text operator matches its column against the pattern. -/
theorem query_compile_pattern {d : Dialect} {cat : Catalog} {c : Condition} {f : Field}
    {column : String} (hf : cat.find? c.field = some f)
    (hcolumn : d.column f.column >>= Value.display = .ok column)
    (hop : Operator.ofValue? c.operator = some op) (hv : c.value = .text v)
    (hp : pattern? (.text v) op = some (.ok p)) :
    (compile d cat (.alone c)).query = .ok ⟨"(" ++ negateIf c.negated
      (column ++ " " ++ d.likeWord ++ " " ++ d.slots.mark 1) ++ ")", [.text p]⟩ := by
  obtain ⟨written, hwritten, hdisplay⟩ := exists_of_bind_eq_ok hcolumn
  have hwritable : written.isWritable = true :=
    (Value.isWriting_display written).exists_ok_iff.mp ⟨column, hdisplay⟩
  obtain rfl : column = d.columnText f.column :=
    Except.ok.inj (hdisplay.symm.trans (Dialect.display_of_column hwritten hwritable))
  have hclause : supports op = true ∧ fits op (.text v) = true ∧
      writtenFor op written (.text v) = [written, .text v] ∧
      Clause.ofTest op f.column 1 (.text v) = .compare f.column .likeWord 1 (.text p) := by
    cases op
    case contains | containsAnyCase | startsWith | endsWith =>
      cases hp
      exact ⟨rfl, rfl, rfl, rfl⟩
    all_goals cases hp
  obtain ⟨hs, hfits, hwrites, htest⟩ := hclause
  have htarget : target cat c = .ok (op, f.column) := by simp [target, hf, hop, hs]
  have hcondition : Clause.ofCondition cat 1 c =
      (Clause.compare f.column .likeWord 1 (.text p)).negateIf c.negated := by
    simp [Clause.ofCondition, htarget, hv, hfits, htest]
  have hnone : obstacle? d cat c = none := by
    rw [obstacle?_of_column htarget hwritten, hv, hfits, if_pos rfl, hwrites]
    simp [hwritable]
  rw [query_compile_alone hnone, hcondition]
  simp [Clause.render_negateIf, Dialect.token, String.append_assoc, Clause.compare]

end Operators

/-- A condition with a text operator matches its column against one pattern, which finds all that
the operator selects by the value.  It finds nothing else if the value has no wildcards, and with
one it does find something else. -/
theorem pattern_selects_iff_isLiteral {d : Dialect} {cat : Catalog} {c : Condition} {f : Field}
    {op : Operator} {column v : String} (hf : cat.find? c.field = some f)
    (hcolumn : d.column f.column >>= Value.display = .ok column)
    (hop : Operator.ofValue? c.operator = some op) (hpattern : op.isPattern = true)
    (hv : c.value = .text v) :
    ∃ p : String,
      (compile d cat (.alone c)).query = .ok ⟨"(" ++ negateIf c.negated
        (column ++ " " ++ d.likeWord ++ " " ++ d.slots.mark 1) ++ ")", [.text p]⟩ ∧
      ∀ fold : Char → Char,
        (∀ t, Selects fold op v.toList t → Like fold p.toList t) ∧
        (IsLiteral v.toList → ∀ t, Like fold p.toList t → Selects fold op v.toList t) ∧
        (¬IsLiteral v.toList → (∃ x, fold x ≠ fold '_') →
          ∃ t, Like fold p.toList t ∧ ¬Selects fold op v.toList t) := by
  obtain ⟨p, hp⟩ : ∃ p, pattern? (.text v) op = some (.ok p) := by
    cases op
    case contains | containsAnyCase | startsWith | endsWith => exact ⟨_, rfl⟩
    all_goals cases hpattern
  refine ⟨p, query_compile_pattern hf hcolumn hop hv hp, fun fold => ⟨?_, ?_, ?_⟩⟩
  · exact fun t => like_of_selects hp
  · exact fun hliteral t => selects_of_like hp hliteral
  · rintro hwild ⟨x, hx⟩
    exact exists_like_not_selects hpattern hp hwild hx

/-- A suffix without wildcards, and what it selects. -/
theorem pattern_selects_iff_isLiteral_suffix :
    let c : Condition := {
      field := .text "business.job_title", operator := .text "ends_with",
      value := .text "(O'Brien's \\ \"VP\")", negated := true }
    ∃ p : String,
      (compile .preview .bundled (.alone c)).query =
        .ok ⟨"(NOT (\"business.job_title\" LIKE ?))", [.text p]⟩ ∧
      Like Char.toLower p.toList "ex (o'brien's \\ \"vp\")".toList ∧
      ¬Like Char.toLower p.toList "(o'brien's \\ \"vp\"), retired".toList := by
  intro c
  obtain ⟨f, hf, hname⟩ : ∃ f, Catalog.bundled.find? c.field = some f ∧
      f.column = .text "business.job_title" := ⟨_, rfl, rfl⟩
  have hcolumn : Dialect.preview.column f.column >>= Value.display =
      .ok "\"business.job_title\"" := by
    rw [hname]
    rfl
  obtain ⟨p, hquery, hp⟩ := pattern_selects_iff_isLiteral hf hcolumn
    (show Operator.ofValue? c.operator = some .endsWith from rfl) rfl
    (show c.value = .text "(O'Brien's \\ \"VP\")" from rfl)
  obtain ⟨hfound, hliteral, -⟩ := hp Char.toLower
  have hvalue : IsLiteral "(O'Brien's \\ \"VP\")".toList := by
    constructor <;> decide
  refine ⟨p, ?_, hfound _ ?_, fun h => ?_⟩
  · rw [hquery]
    rfl
  · rw [Selects, Operator.Finds]
    decide
  · have hselects := hliteral hvalue _ h
    rw [Selects, Operator.Finds] at hselects
    revert hselects
    decide

/-- A percent sign in the value is taken for a wildcard, so that a text is found without it. -/
theorem pattern_selects_more :
    let c : Condition := {
      field := .text "business.company_name", operator := .text "contains",
      value := .text "50%" }
    ∃ p : String,
      (compile {} .bundled (.alone c)).query =
        .ok ⟨"(business.company_name ILIKE ?)", [.text p]⟩ ∧
      Like Char.toLower p.toList "500".toList ∧
      ¬Selects Char.toLower .contains "50%".toList "500".toList := by
  intro c
  refine ⟨"%50%%", rfl, ?_, ?_⟩
  · have hrest : Like Char.toLower ['5', '0', '%', '%'] ['5', '0', '0'] :=
      .same (by decide) (by decide) rfl (.same (by decide) (by decide) rfl
        (.run [] (like_run ['0'])))
    exact .run [] hrest
  · rw [Selects, Operator.Finds]
    decide

end Sql

end Cohort
