import Cohort.Catalog.Bundled
import Cohort.Expression.New
import Cohort.Proofs.Catalog.Loading
import Mathlib.Data.List.Induction
import Mathlib.Data.List.Perm.Basic

/-!
# The categories of a catalog

The categories that are listed for some fields (`IsListing`) are those of the fields, in the order
in which they first occur.  A field more is either of a category that is listed already or of a new
one, which goes to the end; the list of a catalog is what comes of this, one field after the other.

All that is said of the categories of a catalog rests on this notion.  The fields of the listed
categories, one category after the other, are the fields of the catalog in another order, and the
first category is that of the first field.  The latter is why a new condition finds a field at the
front of the first category, although it is not looked whether the category has one.
-/

namespace Cohort

namespace Category

/-- The place of the first field of a category; behind all fields if there is none. -/
def firstPlace (c : Category) (fs : List Field) : Nat := fs.findIdx (·.category == c)

/-- Some categories are those of some fields, in the order of their first fields. -/
structure IsListing (fs : List Field) (cs : List Category) : Prop where
  mem_iff : ∀ c, c ∈ cs ↔ ∃ f ∈ fs, f.category = c
  ordered : cs.Pairwise fun c d => c.firstPlace fs < d.firstPlace fs

/-! ## First places -/

section FirstPlace

variable {c : Category} {f : Field} {fs gs : List Field}

/-- A category has a place in a list just if a field of it is there. -/
theorem firstPlace_lt_length_iff :
    c.firstPlace fs < fs.length ↔ ∃ f ∈ fs, f.category = c := by
  simp [firstPlace, List.findIdx_lt_length]

theorem firstPlace_append : c.firstPlace (fs ++ gs) =
    if c.firstPlace fs < fs.length then c.firstPlace fs else c.firstPlace gs + fs.length :=
  List.findIdx_append

/-- Further fields do not change the first place of a category that has a field. -/
theorem firstPlace_append_of_exists (h : ∃ f ∈ fs, f.category = c) :
    c.firstPlace (fs ++ gs) = c.firstPlace fs := by
  rw [firstPlace_append, if_pos (firstPlace_lt_length_iff.mpr h)]

/-- The first place of a category that has no field yet is behind the fields so far. -/
theorem length_le_firstPlace_append (h : ¬ ∃ f ∈ fs, f.category = c) :
    fs.length ≤ c.firstPlace (fs ++ gs) := by
  rw [firstPlace_append, if_neg fun hlt => h (firstPlace_lt_length_iff.mp hlt)]
  exact Nat.le_add_left _ _

theorem firstPlace_cons_self : f.category.firstPlace (f :: fs) = 0 := by
  simp [firstPlace, List.findIdx_cons]

end FirstPlace

/-! ## Listing -/

namespace IsListing

variable {f : Field} {fs : List Field} {cs : List Category}

theorem nil : IsListing [] [] := ⟨by simp, .nil⟩

theorem nodup (h : IsListing fs cs) : cs.Nodup := h.ordered.imp fun hlt heq => by
  rw [heq] at hlt
  exact absurd hlt (Nat.lt_irrefl _)

/-- The first places stay what they are when a field comes to the end. -/
theorem ordered_append (h : IsListing fs cs) (f : Field) :
    cs.Pairwise fun c d => c.firstPlace (fs ++ [f]) < d.firstPlace (fs ++ [f]) :=
  h.ordered.imp_of_mem fun hc hd hlt => by
    rwa [firstPlace_append_of_exists ((h.mem_iff _).mp hc),
      firstPlace_append_of_exists ((h.mem_iff _).mp hd)]

/-- A field of a category that is listed already. -/
theorem append_of_mem (h : IsListing fs cs) (hf : f.category ∈ cs) : IsListing (fs ++ [f]) cs where
  mem_iff c := by
    rw [h.mem_iff c]
    constructor
    · rintro ⟨g, hg, hgc⟩
      exact ⟨g, List.mem_append_left _ hg, hgc⟩
    · rintro ⟨g, hg, rfl⟩
      obtain hg | hg := List.mem_append.mp hg
      · exact ⟨g, hg, rfl⟩
      · rw [List.mem_singleton.mp hg]
        exact (h.mem_iff _).mp hf
  ordered := h.ordered_append f

/-- A field of a category that is not listed yet. -/
theorem append_of_notMem (h : IsListing fs cs) (hf : f.category ∉ cs) :
    IsListing (fs ++ [f]) (cs ++ [f.category]) where
  mem_iff c := by
    rw [List.mem_append, h.mem_iff c, List.mem_singleton]
    simp only [List.mem_append, List.mem_singleton, or_and_right, exists_or, exists_eq_left,
      eq_comm (a := c)]
  ordered := by
    refine List.pairwise_append.mpr ⟨h.ordered_append f, List.pairwise_singleton _ _, ?_⟩
    intro c hc d hd
    obtain rfl := List.mem_singleton.mp hd
    have hc := (h.mem_iff c).mp hc
    rw [h.mem_iff] at hf
    calc c.firstPlace (fs ++ [f]) = c.firstPlace fs := firstPlace_append_of_exists hc
      _ < fs.length := firstPlace_lt_length_iff.mpr hc
      _ ≤ f.category.firstPlace (fs ++ [f]) := length_le_firstPlace_append hf

/-- The first category is that of the first field. -/
theorem exists_eq_cons (h : IsListing (f :: fs) cs) : ∃ cs', cs = f.category :: cs' := by
  have hf : f.category ∈ cs := (h.mem_iff _).mpr ⟨f, List.mem_cons_self, rfl⟩
  cases cs with
  | nil => cases hf
  | cons c cs =>
    obtain heq | hf := List.mem_cons.mp hf
    · exact ⟨cs, by rw [heq]⟩
    · -- Nothing comes before the first field.
      have hlt := (List.pairwise_cons.mp h.ordered).1 _ hf
      rw [firstPlace_cons_self] at hlt
      exact absurd hlt (Nat.not_lt_zero _)

/-- The fields of some categories, one category after the other. -/
theorem flatMap_filter_perm (fs : List Field) (hcs : cs.Nodup) :
    (cs.flatMap fun c => fs.filter (·.category == c)).Perm
      (fs.filter (cs.contains ·.category)) := by
  induction cs with
  | nil => simp
  | cons c cs ih =>
    obtain ⟨hc, hcs⟩ := List.nodup_cons.mp hcs
    have here : (fs.filter ((c :: cs).contains ·.category)).filter (·.category == c) =
        fs.filter (·.category == c) := by
      rw [List.filter_filter]
      exact List.filter_congr fun f _ => by simp +contextual
    have there : (fs.filter ((c :: cs).contains ·.category)).filter (!·.category == c) =
        fs.filter (cs.contains ·.category) := by
      rw [List.filter_filter]
      refine List.filter_congr fun f _ => ?_
      by_cases hf : f.category = c
      · simp [hf, hc]
      · simp [hf]
    rw [List.flatMap_cons]
    refine ((ih hcs).append_left _).trans ?_
    rw [← here, ← there]
    exact List.filter_append_perm _ _

end IsListing

end Category

/-- A sound field has a first operator, and a new condition on the field has it too. -/
theorem Field.IsSound.exists_newCondition {f : Field} (h : f.IsSound) :
    ∃ op ops, f.operators = op :: ops ∧ f.newCondition = .ok {
      field := f.key, operator := .text op.id, value := f.defaultValue,
      category := .text f.category.id } := by
  obtain ⟨op, ops, hops⟩ := List.exists_cons_of_ne_nil h.operators
  refine ⟨op, ops, hops, ?_⟩
  simp only [newCondition, operatorIds, hops, List.map_cons, NewConditionFault.front]
  rfl

namespace Catalog

open Category (IsListing)
open NewConditionFault (front)

variable {cat : Catalog} {f : Field} {fs : List Field} {c : Category}

/-! ## The categories of a catalog -/

/-- The categories of a catalog list those of its fields, in the order of their first ones. -/
theorem isListing_categories (cat : Catalog) : IsListing cat.fields cat.categories := by
  unfold categories
  induction cat.fields using List.reverseRecOn with
  | nil => exact .nil
  | append_singleton fs f ih =>
    rw [List.foldl_append, List.foldl_cons, List.foldl_nil]
    split
    case isTrue h => exact ih.append_of_mem (by simpa using h)
    case isFalse h =>
      rw [List.reverse_cons]
      exact ih.append_of_notMem (by simpa using h)

/-- The fields in a category are the fields of it. -/
theorem mem_inCategory_iff : f ∈ cat.inCategory c ↔ f ∈ cat.fields ∧ f.category = c := by
  rw [inCategory, List.mem_filter, beq_iff_eq]

/-- The categories that are not listed have no fields, and the others have some. -/
theorem inCategory_eq_nil_iff : cat.inCategory c = [] ↔ c ∉ cat.categories := by
  rw [cat.isListing_categories.mem_iff, List.eq_nil_iff_forall_not_mem]
  simp only [mem_inCategory_iff, not_exists]

/-- Category by category, every field comes once. -/
theorem flatMap_inCategory_perm (cat : Catalog) :
    (cat.categories.flatMap cat.inCategory).Perm cat.fields := by
  have hlisted := cat.isListing_categories
  have hall : cat.fields.filter (cat.categories.contains ·.category) = cat.fields := by
    refine List.filter_eq_self.mpr fun f hf => ?_
    rw [List.contains_iff_mem]
    exact (hlisted.mem_iff _).mpr ⟨f, hf, rfl⟩
  have hperm := IsListing.flatMap_filter_perm cat.fields hlisted.nodup
  rwa [hall] at hperm

theorem inNamedCategory_id (cat : Catalog) (c : Category) :
    cat.inNamedCategory (.text c.id) = cat.inCategory c := by
  rw [inNamedCategory, Category.ofValue?_id, Option.map_some, Option.getD_some]

/-- A name of a category without fields, or of no category at all. -/
theorem inNamedCategory_eq_nil {name : Value} (h : ∀ c ∈ cat.categories, name ≠ .text c.id) :
    cat.inNamedCategory name = [] := by
  unfold inNamedCategory
  cases hname : Category.ofValue? name with
  | none => rfl
  | some c =>
    obtain rfl := (Category.isPartialInv_ofValue? _ _).mp hname
    exact inCategory_eq_nil_iff.mpr fun hc => h c hc rfl

/-! ## New conditions -/

/-- The field to start with is one of the catalog, unless there is none with the key or none at
all. -/
theorem startingField_cases (cat : Catalog) (key : Value) :
    (∃ f ∈ cat.fields, cat.startingField key = .ok f) ∨
      cat.startingField key = .error .emptyCatalog ∨
      cat.startingField key = .error (.unknownField key) := by
  unfold startingField
  split
  case h_1 =>
    cases hcs : cat.categories with
    | nil => exact .inr (.inl rfl)
    | cons c cs =>
      have hc : c ∈ cat.categories := hcs ▸ List.mem_cons_self
      obtain ⟨f, fs, hfs⟩ := List.exists_cons_of_ne_nil fun hnil => inCategory_eq_nil_iff.mp hnil hc
      have hf : f ∈ cat.inCategory c := hfs ▸ List.mem_cons_self
      refine .inl ⟨f, (mem_inCategory_iff.mp hf).1, ?_⟩
      dsimp only
      rw [hfs, front]
  case h_2 =>
    cases hfind : cat.find? key with
    | none => exact .inr (.inr rfl)
    | some f => exact .inl ⟨f, mem_fields_of_find? hfind, rfl⟩

/-- Without a key, the field to start with is the first one. -/
theorem startingField_null (h : cat.fields = f :: fs) : cat.startingField .null = .ok f := by
  have hlisted := cat.isListing_categories
  rw [h] at hlisted
  obtain ⟨cs, hcs⟩ := hlisted.exists_eq_cons
  have hfront : cat.inCategory f.category = f :: fs.filter (·.category == f.category) := by
    rw [inCategory, h, List.filter_cons_of_pos (by simp)]
  simp only [startingField, hcs, hfront, front]

/-- Where a sound catalog has no new condition, it never took the front of an empty list: the
catalog is empty, or has no field with the key. -/
theorem IsSound.eq_of_newCondition (h : cat.IsSound) {key : Value} {fault : NewConditionFault}
    (hfault : cat.newCondition key = .error fault) :
    fault = .emptyCatalog ∨ fault = .unknownField key := by
  unfold newCondition at hfault
  obtain ⟨f, hf, hstart⟩ | hstart | hstart := cat.startingField_cases key
  · obtain ⟨op, ops, -, hnew⟩ := (h.fields f hf).exists_newCondition
    rw [hstart] at hfault
    cases hnew.symm.trans hfault
  · rw [hstart] at hfault
    exact .inl (Except.error.inj hfault).symm
  · rw [hstart] at hfault
    exact .inr (Except.error.inj hfault).symm

/-- Such a fault has a message, unless it tells of a key that cannot be written. -/
theorem IsSound.message_of_newCondition (h : cat.IsSound) {key : Value} {fault : NewConditionFault}
    (hfault : cat.newCondition key = .error fault) :
    (∀ m, fault ≠ .misuse m) ∧
      ∀ m, fault.message = .error m → m = .value ∧ key.isWritable = false := by
  obtain rfl | rfl := h.eq_of_newCondition hfault
  · exact ⟨nofun, nofun⟩
  · refine ⟨nofun, fun m hm => ?_⟩
    have hmessage : Value.IsWriting (NewConditionFault.unknownField key).message key.isWritable :=
      (Value.isWriting_display key).map _
    exact (hmessage.error_iff.mp hm).symm

/-- The categories of a catalog partition its fields.  They are listed once each, in the order in
which they first occur; each field is found in its own category and in no other one, in the order of
the catalog; and a category that is not listed has no fields, nor has a name of none that is listed.
A new condition is on the first field if nothing else is asked for, and it never fails because a
category has no fields or a field no operators; a fault has a message unless the key cannot be
written. -/
theorem categories_partition {version : Value} {entries : List RawEntry} {cat : Catalog}
    (h : ofRawEntries version entries = .ok cat) :
    cat.categories.Nodup ∧
    (∀ c, c ∈ cat.categories ↔ ∃ f ∈ cat.fields, f.category = c) ∧
    (cat.categories.Pairwise fun c d => c.firstPlace cat.fields < d.firstPlace cat.fields) ∧
    (∀ f ∈ cat.fields, ∀ c, c ∈ cat.categories ∧ f ∈ cat.inCategory c ↔ c = f.category) ∧
    (∀ c, (cat.inCategory c).Sublist cat.fields) ∧
    (cat.categories.flatMap cat.inCategory).Perm cat.fields ∧
    (∀ c, cat.inCategory c = [] ↔ c ∉ cat.categories) ∧
    (∀ c, cat.inNamedCategory (.text c.id) = cat.inCategory c) ∧
    (∀ name, (∀ c ∈ cat.categories, name ≠ .text c.id) → cat.inNamedCategory name = []) ∧
    (∀ f fs, cat.fields = f :: fs → ∃ op ops, f.operators = op :: ops ∧
      cat.newCondition .null = .ok {
        field := f.key, operator := .text op.id, value := f.defaultValue,
        category := .text f.category.id }) ∧
    ∀ key fault, cat.newCondition key = .error fault →
      (∀ m, fault ≠ .misuse m) ∧
        ∀ m, fault.message = .error m → m = .value ∧ key.isWritable = false := by
  have hsound := isSound_of_ofRawEntries h
  have hlisted := cat.isListing_categories
  refine ⟨hlisted.nodup, hlisted.mem_iff, hlisted.ordered, ?_, fun c => List.filter_sublist,
    cat.flatMap_inCategory_perm, fun _ => inCategory_eq_nil_iff, cat.inNamedCategory_id,
    fun _ => inNamedCategory_eq_nil, ?_, fun _ _ => hsound.message_of_newCondition⟩
  · intro f hf c
    rw [mem_inCategory_iff]
    constructor
    · rintro ⟨-, -, rfl⟩
      rfl
    · rintro rfl
      exact ⟨(hlisted.mem_iff _).mpr ⟨f, hf, rfl⟩, hf, rfl⟩
  · intro f fs hfs
    have hf : f ∈ cat.fields := hfs ▸ List.mem_cons_self
    obtain ⟨op, ops, hops, hnew⟩ := (hsound.fields f hf).exists_newCondition
    refine ⟨op, ops, hops, ?_⟩
    rw [newCondition, startingField_null hfs]
    exact hnew

def textEntry (key : String) (c : Category) (ops : List Operator) : RawEntry :=
  .ofValue (.map [(.text "key", .text key), (.text "category", .text c.id),
    (.text "value_type", .text "string"), (.text "operators", .list (ops.map (.text ·.id)))])

/-- Three fields of two categories that take turns. -/
def interleaved : Catalog where
  fields := [
    Bundled.field "housing.owner" "housing.owner" .housing .text [.startsWith, .eq] "",
    Bundled.field "business.name" "business.name" .business .text [.contains] "",
    Bundled.field "housing.type" "housing.type" .housing .text [.eq] ""]

/-- Two fields of a category around one of another. -/
theorem categories_partition_interleaved :
    ofRawEntries .null [textEntry "housing.owner" .housing [.startsWith, .eq],
      textEntry "business.name" .business [.contains], textEntry "housing.type" .housing [.eq]] =
        .ok interleaved ∧
    interleaved.categories = [.housing, .business] ∧
    (interleaved.categories.flatMap interleaved.inCategory).map (·.key) =
      [.text "housing.owner", .text "housing.type", .text "business.name"] ∧
    (interleaved.categories.flatMap interleaved.inCategory).Perm interleaved.fields ∧
    interleaved.newCondition .null = .ok {
      field := .text "housing.owner", operator := .text "starts_with", value := .text "",
      category := .text "housing" } := by
  have h : ofRawEntries .null [textEntry "housing.owner" .housing [.startsWith, .eq],
      textEntry "business.name" .business [.contains], textEntry "housing.type" .housing [.eq]] =
        .ok interleaved := rfl
  obtain ⟨-, -, -, -, -, hperm, -, -, -, hnew, -⟩ := categories_partition h
  obtain ⟨op, ops, hops, hcondition⟩ := hnew _ _ rfl
  cases hops
  exact ⟨h, rfl, rfl, hperm, hcondition⟩

end Catalog

end Cohort
