import Cohort.Proofs.Filters.Adaptation
import Mathlib.Data.List.Nodup

/-!
# Leaf by leaf

The condition of a leaf depends on the leaf alone and, for a leaf about business
contacts, on whether those are asked for.  So the conditions of a form are in the
order of the leaves, and a change of one leaf leaves the conditions of all others
as they are.
-/

namespace Cohort.SimpleForm

/-! ## Ways through maps -/

/-- A way through maps leads from a value to a value. -/
inductive Leads : Value → List String → Value → Prop where
  | here (v : Value) : Leads v [] v
  | down {es : Entries} {key : String} {path : List String} {v w : Value} :
      Entries.get? es key = some v → Leads v path w → Leads (.map es) (key :: path) w

theorem reach_null (path : List String) : reach .null path = .null := by
  induction path with
  | nil => rfl
  | cons key path ih => exact ih

/-- What a way leads to is reached. -/
theorem reach_of_leads {form v : Value} {path : List String} (h : Leads form path v) :
    reach form path = v := by
  induction h with
  | here => rfl
  | @down es key path v w hv _ ih =>
    have hget : (Value.map es).get? key = some v := hv
    rw [reach, hget, Option.getD_some, ih]

/-- What is reached and is not null is what the way leads to. -/
theorem leads_reach {form : Value} {path : List String} (h : reach form path ≠ .null) :
    Leads form path (reach form path) := by
  induction path generalizing form with
  | nil => exact .here form
  | cons key path ih =>
    rw [reach] at h ⊢
    cases hget : form.get? key with
    | none =>
      rw [hget, Option.getD_none, reach_null] at h
      exact absurd rfl h
    | some v =>
      rw [hget, Option.getD_some] at h
      cases form with
      | map es => exact .down hget (ih h)
      | _ => cases hget

/-- What is reached has a property that null does not have just if a way leads to such a value. -/
theorem reach_iff_exists_leads {form : Value} {path : List String} {P : Value → Prop}
    (hnull : ¬P .null) : P (reach form path) ↔ ∃ v, Leads form path v ∧ P v := by
  constructor
  · intro h
    refine ⟨_, leads_reach ?_, h⟩
    intro heq
    rw [heq] at h
    exact hnull h
  · rintro ⟨v, hv, h⟩
    rwa [reach_of_leads hv]

/-! ## Leaves that contribute -/

/-- Null, the empty text and empty sequences do not fill in a leaf; other values do, also false,
zero and an empty map. -/
def IsFilled (v : Value) : Prop := v ≠ .null ∧ v ≠ .text "" ∧ v ≠ .list [] ∧ v ≠ .tuple []

/-- A map with at least one bound. -/
def HasBound (v : Value) : Prop :=
  ∃ es bound, v = .map es ∧ bound ≠ .null ∧
    (Entries.get? es "min" = some bound ∨ Entries.get? es "max" = some bound)

/-- A value is filled in just if it does not count as blank. -/
theorem isFilled_iff {v : Value} : IsFilled v ↔ isBlank v = false := by
  unfold IsFilled
  cases v with
  | list xs => cases xs <;> simp [isBlank]
  | tuple xs => cases xs <;> simp [isBlank]
  | _ => simp [isBlank]

/-- A range has bounds just if one is given. -/
theorem bounds?_isSome_iff {ceiling : Int} {v : Value} :
    (bounds? ceiling v).isSome = true ↔ HasBound v := by
  have hget {es : Entries} {name : String} :
      ¬Entries.get es name = .null ↔
        ∃ bound, bound ≠ .null ∧ Entries.get? es name = some bound := by
    unfold Entries.get
    cases Entries.get? es name <;> simp
  cases v with
  | map es =>
    have hbound : HasBound (.map es) ↔
        ¬(Entries.get es "min" = .null ∧ Entries.get es "max" = .null) := by
      rw [not_and_or, hget, hget]
      simp [HasBound, and_or_left, exists_or]
    rw [hbound]
    obtain ⟨hlow, hhigh, hnone⟩ | ⟨hsome, hpair⟩ := bounds?_cases ceiling es
    · simp [hnone, hlow, hhigh]
    · simp [hpair, hsome]
  | _ => simp [bounds?, HasBound]

/-- A leaf has a test of every value, but that of a range only if a bound is given. -/
theorem Leaf.test?_isSome_iff {l : Leaf} {raw : Value} :
    (l.test? raw).isSome = true ↔ ∀ ceiling, l.kind = .range ceiling → HasBound raw := by
  unfold Leaf.test?
  cases hkind : l.kind with
  | range ceiling => simp [bounds?_isSome_iff]
  | toggle => simp
  | value op => simp

/-- A leaf of a form contributes a condition: there is its field, business contacts are asked for if
it is about them, and it is filled in, a range with a bound. -/
structure Leaf.Contributes (cat : Catalog) (form : Value) (l : Leaf) : Prop where
  registered : ∃ f, cat.find? (.text l.field) = some f
  asked : l.isBusiness = true → ∃ v, Leads form ["audience", "b2b"] v ∧ v.truthy = true
  filled : ∃ v, Leads form l.path v ∧ IsFilled v ∧ ∀ ceiling, l.kind = .range ceiling → HasBound v

/-- A leaf of a form cannot be passed over: it would contribute a condition if a bound were given,
and the note that none is cannot be written. -/
structure Leaf.Stuck (cat : Catalog) (form : Value) (l : Leaf) : Prop where
  registered : ∃ f, cat.find? (.text l.field) = some f
  asked : l.isBusiness = true → ∃ v, Leads form ["audience", "b2b"] v ∧ v.truthy = true
  unbounded : ∃ v, Leads form l.path v ∧ IsFilled v ∧ v.isWritable = false ∧
    ∃ ceiling, l.kind = .range ceiling ∧ ¬HasBound v

section Leaves

variable {cat : Catalog} {form form' : Value} {l : Leaf} {c : Condition}

theorem Leaf.counts_iff : l.counts form = true ↔
    (l.isBusiness = true → ∃ v, Leads form ["audience", "b2b"] v ∧ v.truthy = true) := by
  have hnull : ¬Value.truthy .null = true := by decide
  rw [← reach_iff_exists_leads hnull]
  unfold counts asksBusiness
  cases l.isBusiness <;> simp

/-- A leaf has a condition just if it contributes. -/
theorem Leaf.condition?_isSome_iff :
    (l.condition? cat form).isSome = true ↔ l.Contributes cat form := by
  have hfilled :
      (isBlank (reach form l.path) = false ∧ (l.test? (reach form l.path)).isSome = true) ↔
        ∃ v, Leads form l.path v ∧ IsFilled v ∧
          ∀ ceiling, l.kind = .range ceiling → HasBound v := by
    have hnull : ¬(IsFilled .null ∧ ∀ ceiling, l.kind = .range ceiling → HasBound .null) :=
      fun h => h.1.1 rfl
    rw [← reach_iff_exists_leads hnull, isFilled_iff, test?_isSome_iff]
  have hsplit : (l.condition? cat form).isSome = true ↔
      (cat.find? (.text l.field)).isSome = true ∧ l.counts form = true ∧
        isBlank (reach form l.path) = false ∧ (l.test? (reach form l.path)).isSome = true := by
    rw [condition?_eq]
    cases l.counts form <;> cases isBlank (reach form l.path) <;>
      cases cat.find? (.text l.field) <;> simp
  rw [hsplit, counts_iff, hfilled, Option.isSome_iff_exists]
  exact ⟨fun h => ⟨h.1, h.2.1, h.2.2⟩, fun h => ⟨h.registered, h.asked, h.filled⟩⟩

/-- A leaf has a note that cannot be written just if it is stuck. -/
theorem Leaf.isNoted_eq_false_iff : l.isNoted cat form = false ↔ l.Stuck cat form := by
  have hunbounded :
      (isBlank (reach form l.path) = false ∧ (reach form l.path).isWritable = false ∧
        l.test? (reach form l.path) = none) ↔
      ∃ v, Leads form l.path v ∧ IsFilled v ∧ v.isWritable = false ∧
        ∃ ceiling, l.kind = .range ceiling ∧ ¬HasBound v := by
    have hnull : ¬(IsFilled .null ∧ Value.isWritable .null = false ∧
        ∃ ceiling, l.kind = .range ceiling ∧ ¬HasBound .null) := fun h => h.1.1 rfl
    rw [← reach_iff_exists_leads hnull, isFilled_iff, ← Option.not_isSome_iff_eq_none,
      test?_isSome_iff]
    simp
  have hsplit : l.isNoted cat form = false ↔
      (cat.find? (.text l.field)).isSome = true ∧ l.counts form = true ∧
        isBlank (reach form l.path) = false ∧ (reach form l.path).isWritable = false ∧
          l.test? (reach form l.path) = none := by
    rw [isNoted_eq, Bool.or_eq_false_iff, Bool.not_eq_false']
    simp only [Bool.and_eq_true, Bool.not_eq_true', Option.isNone_iff_eq_none]
    tauto
  rw [hsplit, counts_iff, hunbounded, Option.isSome_iff_exists]
  exact ⟨fun h => ⟨h.1, h.2.1, h.2.2⟩, fun h => ⟨h.registered, h.asked, h.unbounded⟩⟩

/-- The condition of a leaf is on its field, in the category of the field, and not negated. -/
theorem Leaf.exists_field_of_condition? (h : l.condition? cat form = some c) :
    c.field = .text l.field ∧ c.negated = false ∧
      ∃ f, cat.find? c.field = some f ∧ c.category = .text f.category.id := by
  rw [condition?_eq] at h
  split at h
  case isTrue =>
    obtain ⟨f, hf, h⟩ := Option.bind_eq_some_iff.mp h
    obtain ⟨t, -, rfl⟩ := Option.map_eq_some_iff.mp h
    exact ⟨rfl, rfl, f, hf, rfl⟩
  case isFalse => cases h

/-- What becomes of a leaf is settled by the leaf and, if it is about business contacts, by whether
they are asked for. -/
theorem adapt_congr (hasks : asksBusiness form = asksBusiness form')
    (h : reach form l.path = reach form' l.path) : adapt cat form l = adapt cat form' l := by
  unfold adapt
  rw [hasks, h]

/-- Where business contacts are not asked for, their leaves are not looked at. -/
theorem adapt_eq_blank (hbusiness : l.isBusiness = true) (hasks : asksBusiness form = false) :
    adapt cat form l = .blank := by
  simp [adapt, hbusiness, hasks]

end Leaves

/-! ## Conditions in the order of leaves -/

section Conditions

variable {cat : Catalog} {form form' : Value}

/-- The conditions come in the order of the leaves. -/
theorem fields_sublist (ls : List Leaf) :
    ((ls.filterMap (Leaf.condition? cat form)).map (·.field)).Sublist
      (ls.map fun l => .text l.field) := by
  induction ls with
  | nil => exact .slnil
  | cons l ls ih =>
    cases h : l.condition? cat form with
    | none =>
      rw [List.filterMap_cons_none h]
      exact .cons _ ih
    | some c =>
      rw [List.filterMap_cons_some h, List.map_cons, (Leaf.exists_field_of_condition? h).1]
      exact .cons_cons _ ih

theorem nodup_fields : (leaves.map Leaf.field).Nodup := by decide

/-- A field has a condition just if its leaf contributes. -/
theorem contributes_iff {l : Leaf} (hl : l ∈ leaves) :
    (∃ c ∈ conditions cat form, c.field = .text l.field) ↔ l.Contributes cat form := by
  rw [← Leaf.condition?_isSome_iff]
  constructor
  · rintro ⟨c, hc, hfield⟩
    obtain ⟨l', hl', h⟩ := List.mem_filterMap.mp hc
    have hsame : l'.field = l.field := by
      have hfield' := (Leaf.exists_field_of_condition? h).1
      rw [hfield] at hfield'
      exact (Value.text.inj hfield').symm
    obtain rfl := List.inj_on_of_nodup_map nodup_fields hl' hl hsame
    rw [h]
    rfl
  · intro h
    obtain ⟨c, hc⟩ := Option.isSome_iff_exists.mp h
    exact ⟨c, List.mem_filterMap.mpr ⟨l, hl, hc⟩, (Leaf.exists_field_of_condition? hc).1⟩

/-- A change of one leaf changes no condition on another field. -/
theorem others_eq {l₀ : Leaf} (hasks : asksBusiness form = asksBusiness form')
    (h : ∀ l ∈ leaves, l ≠ l₀ → reach form l.path = reach form' l.path) :
    (conditions cat form).filter (·.field.text? != some l₀.field) =
      (conditions cat form').filter (·.field.text? != some l₀.field) := by
  rw [conditions, conditions, List.filter_filterMap, List.filter_filterMap]
  refine List.filterMap_congr fun l hl => ?_
  by_cases heq : l = l₀
  · subst heq
    have hdeleted (form : Value) :
        (l.condition? cat form).filter (·.field.text? != some l.field) = none := by
      cases hc : l.condition? cat form with
      | none => rfl
      | some c => simp [(Leaf.exists_field_of_condition? hc).1, Value.text?]
    rw [hdeleted, hdeleted]
  · rw [Leaf.condition?, Leaf.condition?, adapt_congr hasks (h l hl heq)]

/-- Two forms differ only inside of a section: they agree at the end of every way that leads neither
into the section nor to a section around it. -/
def AgreeOutside (inner : List String) (form form' : Value) : Prop :=
  ∀ path, ¬inner <+: path → ¬path <+: inner → reach form path = reach form' path

theorem AgreeOutside.here (v w : Value) : AgreeOutside [] v w :=
  fun _ hinto _ => absurd List.nil_prefix hinto

/-- Maps that differ under one key alone differ only inside of what is there. -/
theorem AgreeOutside.down {es fs : Entries} {key : String} {inner : List String}
    (hothers : ∀ k, k ≠ key → Entries.get? es k = Entries.get? fs k)
    (h : AgreeOutside inner (Entries.get es key) (Entries.get fs key)) :
    AgreeOutside (key :: inner) (.map es) (.map fs) := by
  intro path hinto haround
  cases path with
  | nil => exact absurd List.nil_prefix haround
  | cons k path =>
    rw [reach, reach, Value.get?, Value.get?]
    by_cases hk : k = key
    · subst hk
      rw [List.cons_prefix_cons, and_iff_right rfl] at hinto haround
      exact h path hinto haround
    · rw [hothers k hk]

/-- Where business contacts are not asked for, the section about them makes no difference. -/
theorem toExpression_eq_of_agreeOutside (hasks : asksBusiness form = false)
    (h : AgreeOutside ["audience", "businessProfile"] form form') :
    toExpression cat form = toExpression cat form' := by
  have hb2b : reach form ["audience", "b2b"] = reach form' ["audience", "b2b"] :=
    h _ (by decide) (by decide)
  have hasks' : asksBusiness form' = false := by
    rw [← hasks, asksBusiness, asksBusiness, hb2b]
  have hapart : ∀ l ∈ leaves, l.isBusiness = false →
      ¬["audience", "businessProfile"] <+: l.path ∧
        ¬l.path <+: ["audience", "businessProfile"] := by
    decide
  have hadapt : ∀ l ∈ leaves, adapt cat form l = adapt cat form' l := by
    intro l hl
    cases hbusiness : l.isBusiness with
    | true => rw [adapt_eq_blank hbusiness hasks, adapt_eq_blank hbusiness hasks']
    | false =>
      obtain ⟨hinto, haround⟩ := hapart l hl hbusiness
      exact adapt_congr (hasks.trans hasks'.symm) (h l.path hinto haround)
  have hconditions : conditions cat form = conditions cat form' :=
    List.filterMap_congr fun l hl => by rw [Leaf.condition?, Leaf.condition?, hadapt l hl]
  have hnoted : leaves.all (Leaf.isNoted cat form) = leaves.all (Leaf.isNoted cat form') := by
    rw [Bool.eq_iff_iff, List.all_eq_true, List.all_eq_true]
    exact forall₂_congr fun l hl => by rw [Leaf.isNoted, Leaf.isNoted, hadapt l hl]
  rw [toExpression_eq, toExpression_eq, hconditions, hnoted]

/-- One leaf that is stuck leaves a form without an expression. -/
theorem toExpression_eq_error_of_stuck {l : Leaf} (hl : l ∈ leaves) (h : l.Stuck cat form) :
    toExpression cat form = .error .value := by
  rw [toExpression_eq, if_neg]
  intro hall
  rw [List.all_eq_true] at hall
  exact Bool.false_ne_true ((Leaf.isNoted_eq_false_iff.mpr h).symm.trans (hall l hl))

end Conditions

/-- A form has an expression unless the note about a range without bounds cannot be written.  It is
an AND of conditions that are not negated, on fields of the leaves in their order and in the
categories of the fields, one for each leaf that contributes.  A change of one leaf changes no
condition on another field, and where business contacts are not asked for, the section about them
makes no difference. -/
theorem toExpression_leafwise (cat : Catalog) (form : Value) :
    ((∃ l ∈ leaves, l.Stuck cat form) → toExpression cat form = .error .value) ∧
    ((∀ l ∈ leaves, ¬l.Stuck cat form) → ∃ e, toExpression cat form = .ok e ∧
      (e.connective = .and ∧ e.negated = false ∧ e.children = e.leaves.map .condition) ∧
      ((e.leaves.map (·.field)).Sublist (leaves.map fun l => .text l.field) ∧
        (leaves.map Leaf.field).Nodup) ∧
      (∀ c ∈ e.leaves, c.negated = false ∧
        ∃ f, cat.find? c.field = some f ∧ c.category = .text f.category.id) ∧
      (∀ l ∈ leaves, (∃ c ∈ e.leaves, c.field = .text l.field) ↔ l.Contributes cat form) ∧
      ∀ form' e', ∀ l₀ ∈ leaves, toExpression cat form' = .ok e' →
        asksBusiness form = asksBusiness form' →
        (∀ l ∈ leaves, l ≠ l₀ → reach form l.path = reach form' l.path) →
        e.leaves.filter (·.field.text? != some l₀.field) =
          e'.leaves.filter (·.field.text? != some l₀.field)) ∧
    ∀ form', asksBusiness form = false →
      AgreeOutside ["audience", "businessProfile"] form form' →
      toExpression cat form = toExpression cat form' := by
  refine ⟨fun ⟨l, hl, h⟩ => toExpression_eq_error_of_stuck hl h, fun hfree => ?_,
    fun form' hasks h => toExpression_eq_of_agreeOutside hasks h⟩
  have hnoted : leaves.all (Leaf.isNoted cat form) = true := by
    rw [List.all_eq_true]
    intro l hl
    rw [← Bool.not_eq_false, Leaf.isNoted_eq_false_iff]
    exact hfree l hl
  have he : toExpression cat form = .ok { children := (conditions cat form).map .condition } := by
    rw [toExpression_eq, if_pos hnoted]
  refine ⟨_, he, ?_⟩
  rw [leaves_of_conditions]
  refine ⟨⟨rfl, rfl, rfl⟩, ⟨fields_sublist leaves, nodup_fields⟩, ?_,
    fun l hl => contributes_iff hl, ?_⟩
  · intro c hc
    obtain ⟨l, -, hl⟩ := List.mem_filterMap.mp hc
    exact (Leaf.exists_field_of_condition? hl).2
  · intro form' e' l₀ _ he' hasks h
    rw [toExpression_eq] at he'
    split at he'
    case isTrue =>
      cases he'
      rw [leaves_of_conditions]
      exact others_eq hasks h
    case isFalse => cases he'

theorem toExpression_leafwise_sections :
    let form (profile : Entries) (age : Value) := Value.map [
      (.text "audience", .map ((.text "b2b", .int 0) :: profile)),
      (.text "personal", .map [(.text "gender", .list []), (.text "age", age)])]
    let jobTitle : Entries := [(.text "businessProfile", .map [(.text "jobTitle", .text "buyer")])]
    let fromThirty := Value.map [(.text "min", .int 30), (.text "max", .null)]
    let age : Leaf := ⟨["personal", "age"], "personal.age", .range 120⟩
    age ∈ leaves ∧ age.Contributes .bundled (form [] fromThirty) ∧
    AgreeOutside ["audience", "businessProfile"] (form jobTitle fromThirty) (form [] fromThirty) ∧
    toExpression .bundled (form jobTitle fromThirty) = toExpression .bundled (form [] fromThirty) ∧
    ∃ e e', toExpression .bundled (form [] fromThirty) = .ok e ∧
      toExpression .bundled (form [] .null) = .ok e' ∧
      (∃ c ∈ e.leaves, c.field = .text "personal.age") ∧
      e.leaves.filter (·.field.text? != some "personal.age") =
        e'.leaves.filter (·.field.text? != some "personal.age") := by
  intro form jobTitle fromThirty age
  have hage : age ∈ leaves := by decide
  have hcontributes : age.Contributes .bundled (form [] fromThirty) := by
    rw [← Leaf.condition?_isSome_iff]
    decide +kernel
  have hagree : AgreeOutside ["audience", "businessProfile"] (form jobTitle fromThirty)
      (form [] fromThirty) := by
    refine .down (fun k hk => ?_) (.down (fun k hk => ?_) (.here _ _))
    · simp [Entries.get?, Value.text?, hk.symm]
    · simp [jobTitle, Entries.get?, Value.text?, hk.symm]
  have hreach : ∀ l ∈ leaves, l ≠ age →
      reach (form [] fromThirty) l.path = reach (form [] .null) l.path := by
    have hagree : AgreeOutside ["personal", "age"] (form [] fromThirty) (form [] .null) := by
      refine .down (fun k hk => ?_) (.down (fun k hk => ?_) (.here _ _))
      · simp [Entries.get?, Value.text?, hk.symm]
      · simp [Entries.get?, Value.text?, hk.symm]
    have hapart : ∀ l ∈ leaves, l ≠ age →
        ¬["personal", "age"] <+: l.path ∧ ¬l.path <+: ["personal", "age"] := by
      decide
    intro l hl hne
    obtain ⟨hinto, haround⟩ := hapart l hl hne
    exact hagree l.path hinto haround
  have hfree : ∀ l ∈ leaves, ¬l.Stuck .bundled (form [] fromThirty) := by
    have hnoted : ∀ l ∈ leaves, l.isNoted .bundled (form [] fromThirty) = true := by decide +kernel
    intro l hl hstuck
    rw [← Leaf.isNoted_eq_false_iff, hnoted l hl] at hstuck
    cases hstuck
  obtain ⟨-, hok, -⟩ := toExpression_leafwise .bundled (form [] fromThirty)
  obtain ⟨-, -, hprofile⟩ := toExpression_leafwise .bundled (form jobTitle fromThirty)
  obtain ⟨e, he, -, -, -, hiff, hlocal⟩ := hok hfree
  have he' : ∃ e', toExpression .bundled (form [] .null) = .ok e' := ⟨_, rfl⟩
  obtain ⟨e', he'⟩ := he'
  exact ⟨hage, hcontributes, hagree, hprofile _ rfl hagree, e, e', he, he',
    (hiff age hage).mpr hcontributes, hlocal _ e' age hage he' rfl hreach⟩

/-- A number for a range has no bounds, and there is no expression if it has too many digits. -/
theorem toExpression_tooLong :
    toExpression .bundled (.map [(.text "personal", .map [(.text "age", Value.tooLong)])]) =
      .error .value := by
  have hage : (⟨["personal", "age"], "personal.age", .range 120⟩ : Leaf) ∈ leaves := by decide
  refine toExpression_eq_error_of_stuck hage ⟨⟨_, rfl⟩, nofun, Value.tooLong, ?_, ?_,
    Value.isWritable_tooLong, 120, rfl, nofun⟩
  · exact .down rfl (.down rfl (.here _))
  · exact ⟨nofun, nofun, nofun, nofun⟩

end Cohort.SimpleForm
