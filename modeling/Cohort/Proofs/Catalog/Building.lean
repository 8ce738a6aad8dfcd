import Cohort.Proofs.Catalog.Checks

/-!
# Building a catalog

A list of entries makes a catalog if and only if each of them is sound by itself and the keys are
distinct; otherwise the error is that of the first entry that fails a check.  By induction on the
list: as long as no entry fails, the catalog has a field for each entry so far, and its keys are
those that the next entry must not have.
-/

namespace Cohort

namespace FieldEntry

open Check (Passes FailsFirst)

/-! ## Converting an entry -/

/-- A draft is that of an entry that has all the parts it needs. -/
structure IsDraft (v : Value) (d : FieldDraft) : Prop where
  key : v.get? "key" = some d.key
  category : v.get? "category" = some (.text d.category.id)
  shape : v.get? "value_type" = some (.text d.shape.id)
  operators : v.get? "operators" = some (.list d.operators)
  choices : d.choices = choicesOf v
  label : d.label = (v.get? "label").getD d.key
  column : d.column = (v.get? "relational").getD d.key
  searchPath : d.searchPath = v.part "search"
  description : d.description = (v.get? "description").getD (.text "")

variable {taken : List Value} {v : Value}

theorem IsTyped.choices_cases (typed : IsTyped v) :
    v.part "enum_values" = .null ∧ choicesOf v = none ∨
      ∃ ws, v.part "enum_values" = .list ws ∧ choicesOf v = some ws := by
  unfold choicesOf Value.part
  cases hget : v.get? "enum_values" with
  | none => exact .inl ⟨rfl, rfl⟩
  | some w =>
    obtain rfl | ⟨cs, rfl⟩ := typed.choices w hget
    · exact .inl ⟨rfl, rfl⟩
    · exact .inr ⟨_, rfl, rfl⟩

/-- Converting an entry to a draft makes the checks of its parts, in order. -/
theorem conducts_ofEntry (typed : IsTyped v) (taken : List Value) :
    Conducts taken v Check.ofParts (FieldDraft.ofEntry (.ofValue v)) (IsDraft v) := by
  obtain ⟨es, rfl⟩ := typed.map
  change Conducts taken _ _ (FieldDraft.ofParts (.map es) es) _
  unfold FieldDraft.ofParts
  refine .bind (.require Iff.rfl rfl) fun k hkey => ?_
  refine .bind (.require Iff.rfl rfl) fun rawCategory hcategory => ?_
  cases hc : Category.ofValue? rawCategory with
  | none =>
    rw [← (Value.part_of_get? hkey : keyOf (.map es) = k), ← Value.part_of_get? hcategory]
    refine .fail fun hpasses => ?_
    obtain ⟨c, rfl⟩ := hpasses _ hcategory
    cases hc.symm.trans (Category.ofValue?_id c)
  | some c =>
  obtain rfl := (Category.isPartialInv_ofValue? _ _).mp hc
  refine .pass (fun w hw => ⟨c, Option.some.inj (hw.symm.trans hcategory)⟩) ?_
  refine .bind (.require Iff.rfl rfl) fun rawShape hshape => ?_
  cases hs : Shape.ofValue? rawShape with
  | none =>
    rw [← (Value.part_of_get? hkey : keyOf (.map es) = k), ← Value.part_of_get? hshape]
    refine .fail fun hpasses => ?_
    obtain ⟨s, rfl⟩ := hpasses _ hshape
    cases hs.symm.trans (Shape.ofValue?_id s)
  | some s =>
  obtain rfl := (Shape.isPartialInv_ofValue? _ _).mp hs
  refine .pass (fun w hw => ⟨s, Option.some.inj (hw.symm.trans hshape)⟩) ?_
  refine .bind (.require Iff.rfl rfl) fun rawOperators hoperators => ?_
  obtain ⟨ids, rfl⟩ := typed.operators _ hoperators
  obtain ⟨hnull, hnone⟩ | ⟨ws, hlist, hsome⟩ := typed.choices_cases
  · have hget : Entries.get es "enum_values" = .null := hnull
    rw [hget]
    exact .ok ⟨hkey, hcategory, hshape, hoperators, hnone.symm, rfl, rfl, rfl, rfl⟩
  · have hget : Entries.get es "enum_values" = .list ws := hlist
    rw [hget]
    exact .ok ⟨hkey, hcategory, hshape, hoperators, hsome.symm, rfl, rfl, rfl, rfl⟩

/-! ## Adding a field -/

variable {d : FieldDraft}

theorem IsDraft.keyOf_eq (h : IsDraft v d) : keyOf v = d.key := Value.part_of_get? h.key

theorem IsDraft.operatorsOf_eq (h : IsDraft v d) : operatorsOf v = d.operators := by
  rw [operatorsOf, Value.part_of_get? h.operators]
  rfl

/-- A draft of an entry becomes a field that the entry describes. -/
theorem IsDraft.describes (h : IsDraft v d) {ops : List Operator}
    (hops : d.operators = ops.map (.text ·.id)) : Describes v (d.toField ops) where
  key := h.key
  category := h.category
  shape := h.shape
  operators := by rw [h.operators, hops]; rfl
  choices := h.choices
  label := h.label
  column := h.column
  searchPath := h.searchPath
  description := h.description

/-- Operators can all be asked about, or one of them is unfit. -/
theorem mapM_known_cases (ws : List Value) :
    (∀ w ∈ ws, ¬ IsUnfitOperator w) ∧
        (ws.mapM fun w => (Operator.known w).mapError CatalogError.misuse) =
          .ok (ws.map fun w => (Operator.ofValue? w).isSome) ∨
      (∃ w ∈ ws, IsUnfitOperator w) ∧
        (ws.mapM fun w => (Operator.known w).mapError CatalogError.misuse) =
          .error (.misuse .kind) := by
  induction ws with
  | nil => exact .inl ⟨nofun, rfl⟩
  | cons w ws ih =>
    rw [List.mapM_cons]
    by_cases hw : IsUnfitOperator w
    · refine .inr ⟨⟨w, List.mem_cons_self, hw⟩, ?_⟩
      rw [Operator.known_eq_error_iff.mpr ⟨rfl, hw⟩]
      rfl
    · rw [Operator.known_eq_ok hw]
      obtain ⟨hws, hrun⟩ | ⟨⟨w', hw', hunfit⟩, hrun⟩ := ih
      · exact .inl ⟨List.forall_mem_cons.mpr ⟨hw, hws⟩, by rw [hrun]; rfl⟩
      · exact .inr ⟨⟨w', List.mem_cons_of_mem _ hw', hunfit⟩, by rw [hrun]; rfl⟩

theorem filterMap_zip_map {α : Type} (xs : List α) (g : α → Bool) :
    ((xs.zip (xs.map g)).filterMap fun p => if p.2 then none else some p.1) =
      xs.filter fun x => !g x := by
  induction xs with
  | nil => rfl
  | cons x xs ih => cases hx : g x <;> simp [hx, ih]

theorem filterMap_ofValue? (ops : List Operator) :
    (ops.map fun op => Value.text op.id).filterMap Operator.ofValue? = ops := by
  rw [List.filterMap_map]
  exact (List.filterMap_congr fun op _ => Operator.ofId?_id op).trans List.filterMap_some

/-- There are no unknown operators if all are identifiers of operators. -/
theorem unknown_eq_nil_iff {ws : List Value} :
    (ws.filter fun w => (Operator.ofValue? w).isNone) = [] ↔
      ∀ w ∈ ws, ∃ op : Operator, w = .text op.id := by
  rw [List.filter_eq_nil_iff]
  refine forall₂_congr fun w _ => ?_
  rw [Bool.not_eq_true, Option.isNone_eq_false_iff, Option.isSome_iff_exists]
  exact exists_congr fun op => (Operator.isPartialInv_ofValue? op w).trans eq_comm

/-- What comes of checking the operators of a draft. -/
inductive ChecksOperators (d : FieldDraft) : Except CatalogError (List Operator) → Prop
  | missing (h : d.operators = []) : ChecksOperators d (.error (.noOperators d.key))
  | unfit (h : ∃ w ∈ d.operators, IsUnfitOperator w) : ChecksOperators d (.error (.misuse .kind))
  | unknown (fit : ¬ ∃ w ∈ d.operators, IsUnfitOperator w) (ne : d.operators ≠ [])
      (h : (d.operators.filter fun w => (Operator.ofValue? w).isNone) ≠ []) :
      ChecksOperators d (.error (.unknownOperators d.key
        (d.operators.filter fun w => (Operator.ofValue? w).isNone)))
  | repeated {ops : List Operator} (hops : d.operators = ops.map (.text ·.id)) (ne : ops ≠ [])
      (h : ¬ ops.Nodup) : ChecksOperators d (.error (.repeatedOperator d.key))
  | distinct {ops : List Operator} (hops : d.operators = ops.map (.text ·.id)) (ne : ops ≠ [])
      (h : ops.Nodup) : ChecksOperators d (.ok ops)

/-- Operators are checked for being there, being known and being listed once, in this order. -/
theorem checksOperators (d : FieldDraft) : ChecksOperators d d.checkOperators := by
  unfold FieldDraft.checkOperators
  by_cases hempty : d.operators = []
  · rw [hempty]
    exact .missing hempty
  rw [if_neg (by simpa using hempty)]
  obtain ⟨hfit, hrun⟩ | ⟨hunfit, hrun⟩ := mapM_known_cases d.operators
  swap
  · rw [hrun]
    exact .unfit hunfit
  rw [hrun]
  simp only [bind, Except.bind, pure, Except.pure, filterMap_zip_map, Option.not_isSome]
  by_cases hunknown : (d.operators.filter fun w => (Operator.ofValue? w).isNone) = []
  swap
  · rw [if_pos (by simpa using hunknown)]
    exact .unknown (fun ⟨w, hw, h⟩ => hfit w hw h) hempty hunknown
  rw [if_neg (by simpa using hunknown)]
  obtain ⟨ops, hops⟩ := exists_operators (unknown_eq_nil_iff.mp hunknown)
  have hne : ops ≠ [] := fun h => hempty (by rw [hops, h, List.map_nil])
  rw [hops, filterMap_ofValue?]
  by_cases hnodup : ops.Nodup
  · rw [if_neg (by simpa using hnodup)]
    exact .distinct hops hne hnodup
  · rw [if_pos (by simpa using hnodup)]
    exact .repeated hops hne hnodup

theorem not_isUnfitOperator_text (s : String) : ¬ IsUnfitOperator (.text s) := fun h => nomatch h.1

/-- The identifiers of operators can be asked about. -/
theorem not_isUnfitOperator_of_eq_map {ws : List Value} {ops : List Operator}
    (hops : ws = ops.map (.text ·.id)) : ¬ ∃ w ∈ ws, IsUnfitOperator w := by
  rintro ⟨w, hw, hunfit⟩
  rw [hops] at hw
  obtain ⟨op, -, rfl⟩ := List.mem_map.mp hw
  exact not_isUnfitOperator_text _ hunfit

/-- Checking the operators of a draft makes the checks of operators, in order. -/
theorem conducts_checkOperators (typed : IsTyped v) (hd : IsDraft v d) :
    Conducts taken v Check.ofOperators d.checkOperators
      fun ops => d.operators = ops.map (.text ·.id) := by
  have hsome : Passes taken v .someOperator ↔ d.operators ≠ [] := by
    rw [Passes, hd.operatorsOf_eq]
  have hknown : Passes taken v .knownOperators ↔
      (d.operators.filter fun w => (Operator.ofValue? w).isNone) = [] := by
    rw [Passes, hd.operatorsOf_eq, unknown_eq_nil_iff]
  have hlisted {ops : List Operator} (hops : d.operators = ops.map (.text ·.id)) (hne : ops ≠ []) :
      Passes taken v .someOperator ∧ Passes taken v .knownOperators ∧
        (Passes taken v .distinctOperators ↔ ops.Nodup) := by
    rw [hsome, Passes, Passes, hd.operatorsOf_eq, hops]
    refine ⟨by simpa using hne, by simp, fun h => h.of_map _, fun h => ?_⟩
    exact h.map Operator.textId_injective
  have h := checksOperators d
  generalize d.checkOperators = r at h ⊢
  cases h with
  | missing hempty =>
    rw [← hd.keyOf_eq]
    exact .fail fun hpasses => hsome.mp hpasses hempty
  | unfit hunfit =>
    obtain ⟨w, hw, hunfit⟩ := hunfit
    obtain ⟨ids, hids⟩ := typed.operators _ hd.operators
    obtain ⟨id, -, rfl⟩ := List.mem_map.mp (Value.list.inj hids ▸ hw)
    exact absurd hunfit (not_isUnfitOperator_text id)
  | unknown _ hne hunknown =>
    have herror : Check.error v .knownOperators = .unknownOperators d.key
        (d.operators.filter fun w => (Operator.ofValue? w).isNone) := by
      rw [Check.error, hd.keyOf_eq, hd.operatorsOf_eq]
    rw [← herror]
    exact .pass (hsome.mpr hne) (.fail fun hpasses => hunknown (hknown.mp hpasses))
  | repeated hops hne hnodup =>
    obtain ⟨hsome, hknown, hdistinct⟩ := hlisted hops hne
    rw [← hd.keyOf_eq]
    exact .pass hsome (.pass hknown (.fail fun hpasses => hnodup (hdistinct.mp hpasses)))
  | distinct hops hne hnodup =>
    obtain ⟨hsome, hknown, hdistinct⟩ := hlisted hops hne
    exact .pass hsome (.pass hknown (.pass (hdistinct.mpr hnodup) (.ok hops)))

/-- Checking the choices of a draft makes the checks of choices. -/
theorem conducts_checkChoices (hd : IsDraft v d) :
    Conducts taken v Check.ofChoices d.checkChoices fun _ => True := by
  unfold FieldDraft.checkChoices
  rw [hd.choices, ← hd.keyOf_eq]
  have hshape {s : Shape} (h : v.get? "value_type" = some (.text s.id)) : d.shape = s :=
    Shape.textId_injective (Option.some.inj (hd.shape.symm.trans h))
  cases hclosed : d.shape.isClosed with
  | true =>
    cases hchoices : (choicesOf v).getD [] with
    | nil => exact .fail fun hpasses => hpasses _ hd.shape hclosed hchoices
    | cons w ws =>
      have hne : (choicesOf v).getD [] ≠ [] := hchoices ▸ List.cons_ne_nil w ws
      refine .pass (fun _ _ _ => hne) (.pass ?_ (.ok trivial))
      intro s hs hopen
      obtain rfl := hshape hs
      cases hclosed.symm.trans hopen
  | false =>
    refine .pass ?_ ?_
    · intro s hs hclosed'
      obtain rfl := hshape hs
      cases hclosed.symm.trans hclosed'
    · cases hchoices : choicesOf v with
      | none => exact .pass (fun _ _ _ => hchoices) (.ok trivial)
      | some ws =>
        exact .fail fun hpasses => by cases hchoices.symm.trans (hpasses _ hd.shape hclosed)

/-! ## One entry -/

/-- A text is taken just if a field has it as its key. -/
theorem hasKey_iff {cat : Catalog} {s : String} :
    cat.hasKey (.text s) = true ↔ .text s ∈ cat.fields.map (·.key) := by
  simp only [Catalog.hasKey, List.any_eq_true, Value.sameKey_text_iff, List.mem_map]

/-- Adding a draft checks that its key is new, then its operators and its choices. -/
theorem conducts_add (typed : IsTyped v) (hd : IsDraft v d) (cat : Catalog) :
    Conducts (cat.fields.map (·.key)) v (.newKey :: (Check.ofOperators ++ Check.ofChoices))
      (cat.add d) fun cat' => ∃ f, cat' = { cat with fields := cat.fields ++ [f] } ∧
        Describes v f := by
  obtain ⟨s, hs⟩ := typed.key _ hd.key
  have hkey : keyOf v = .text s := hd.keyOf_eq.trans hs
  have hisKey : d.key.isKey = true := by
    rw [hs]
    simp [Value.isKey]
  have htaken : cat.hasKey d.key = true ↔ keyOf v ∈ cat.fields.map (·.key) := by
    rw [hkey, hs, hasKey_iff]
  unfold Catalog.add
  rw [if_neg (by simp [hisKey])]
  change Conducts _ _ _ (if cat.hasKey d.key = true then _ else _) _
  by_cases hnew : cat.hasKey d.key = true
  · rw [if_pos hnew, ← hd.keyOf_eq]
    exact .fail fun hpasses => hpasses (htaken.mp hnew)
  · rw [if_neg hnew]
    refine .pass (fun h => hnew (htaken.mpr h)) ?_
    refine .bind (conducts_checkOperators typed hd) fun ops hops => ?_
    exact .bind (conducts_checkChoices hd) fun _ _ => .ok ⟨_, rfl, hd.describes hops⟩

/-- Adding an entry makes all the checks, in order. -/
theorem conducts_addEntry (typed : IsTyped v) (cat : Catalog) :
    Conducts (cat.fields.map (·.key)) v Check.all (cat.addEntry (.ofValue v))
      fun cat' => ∃ f, cat' = { cat with fields := cat.fields ++ [f] } ∧ Describes v f :=
  .bind (conducts_ofEntry typed _) fun _ hd => conducts_add typed hd cat

/-! ## A list of entries -/

/-- What is known about a catalog that some entries make. -/
structure IsMade (version : Value) (entries : List Value) (cat : Catalog) : Prop where
  version : cat.version = version
  fields : List.Forall₂ Describes entries cat.fields
  sound : ∀ v ∈ entries, IsSound v
  distinct : (entries.map keyOf).Nodup

/-- The keys of fields that some entries describe are those of the entries. -/
theorem keys_eq {entries : List Value} {fields : List Field}
    (h : List.Forall₂ Describes entries fields) : fields.map (·.key) = entries.map keyOf := by
  induction h with
  | nil => rfl
  | cons hv _ ih =>
    rw [List.map_cons, List.map_cons, ih, keyOf, Value.part_of_get? hv.key]

variable {version : Value} {entries : List Value} {cat : Catalog}

/-- The keys of the fields are those of sound entries, which are texts. -/
theorem IsMade.key_text (made : IsMade version entries cat) {f : Field} (hf : f ∈ cat.fields) :
    ∃ s, f.key = .text s := by
  have hkey := List.mem_map_of_mem (f := (·.key)) hf
  rw [keys_eq made.fields] at hkey
  obtain ⟨v, hv, hkey⟩ := List.mem_map.mp hkey
  obtain ⟨s, hs⟩ := (made.sound v hv).key
  exact ⟨s, hkey.symm.trans (Value.part_of_get? hs)⟩

/-- One entry more: the catalog goes on to be made, or the entry fails a check. -/
theorem IsMade.addEntry (made : IsMade version entries cat) (typed : IsTyped v) :
    (∃ cat', cat.addEntry (.ofValue v) = .ok cat' ∧ IsMade version (entries ++ [v]) cat') ∨
      ∃ check, FailsFirst (entries.map keyOf) v Check.all check ∧
        cat.addEntry (.ofValue v) = .error (check.error v) := by
  have h := conducts_addEntry typed cat
  rw [keys_eq made.fields] at h
  obtain ⟨cat', hadd, ⟨f, rfl, hf⟩, hchecks⟩ | hfails := h
  swap
  · exact .inr hfails
  have hpasses : ∀ check, Passes (entries.map keyOf) v check := fun check =>
    hchecks check check.mem_all
  refine .inl ⟨_, hadd, made.version, List.rel_append made.fields (.cons hf .nil), ?_, ?_⟩
  · intro w hw
    obtain hw | hw := List.mem_append.mp hw
    · exact made.sound w hw
    · rw [List.mem_singleton.mp hw]
      exact typed.sound hpasses
  · rw [List.map_append, List.map_singleton]
    exact made.distinct.append (List.nodup_singleton _)
      (List.disjoint_singleton.mpr (hpasses .newKey))

/-- All entries are added, or the first that fails a check settles the error. -/
theorem IsMade.foldlM {rest : List Value} (made : IsMade version entries cat)
    (typed : ∀ v ∈ rest, IsTyped v) :
    (∃ cat', (rest.map RawEntry.ofValue).foldlM Catalog.addEntry cat = .ok cat' ∧
        IsMade version (entries ++ rest) cat') ∨
      ∃ front v back check, rest = front ++ v :: back ∧
        (∃ cat', IsMade version (entries ++ front) cat') ∧
        FailsFirst ((entries ++ front).map keyOf) v Check.all check ∧
        (rest.map RawEntry.ofValue).foldlM Catalog.addEntry cat = .error (check.error v) := by
  induction rest generalizing entries cat with
  | nil => exact .inl ⟨cat, rfl, (List.append_nil entries).symm ▸ made⟩
  | cons v rest ih =>
    obtain ⟨hv, hrest⟩ := List.forall_mem_cons.mp typed
    rw [List.map_cons, List.foldlM_cons]
    obtain ⟨cat', hadd, made'⟩ | ⟨check, hfails, hadd⟩ := made.addEntry hv
    · rw [hadd]
      obtain ⟨cat'', hrun, made''⟩ | ⟨front, w, back, check, rfl, hmade, hfails, hrun⟩ :=
        ih made' hrest
      · exact .inl ⟨cat'', hrun, by rwa [List.append_assoc] at made''⟩
      · refine .inr ⟨v :: front, w, back, check, rfl, ?_, ?_, hrun⟩
        · rwa [List.append_assoc] at hmade
        · rwa [List.append_assoc] at hfails
    · rw [hadd]
      refine .inr ⟨[], v, rest, check, rfl, ⟨cat, ?_⟩, ?_, rfl⟩
      · rwa [List.append_nil]
      · rwa [List.append_nil]

end FieldEntry

namespace Catalog

open FieldEntry FieldEntry.Check

/-- In a catalog with distinct texts as keys, a field is found under its key and under no other
value. -/
theorem find?_eq_some_iff {cat : Catalog} (texts : ∀ f ∈ cat.fields, ∃ s, f.key = .text s)
    (distinct : (cat.fields.map (·.key)).Nodup) {key : Value} {f : Field} :
    cat.find? key = some f ↔ f ∈ cat.fields ∧ f.key = key := by
  have htext {g : Field} {s : String} : (g.key.text? == some s) = true ↔ g.key = .text s := by
    rw [beq_iff_eq, Value.text?_eq_some_iff]
  constructor
  · intro h
    unfold find? at h
    split at h
    case h_1 s =>
      have hkey := List.find?_some h
      exact ⟨List.mem_of_find?_eq_some h, htext.mp hkey⟩
    case h_2 => cases h
  · rintro ⟨hf, rfl⟩
    obtain ⟨s, hs⟩ := texts f hf
    have hfound : (cat.fields.find? fun g => g.key.text? == some s).isSome :=
      List.find?_isSome.mpr ⟨f, hf, htext.mpr hs⟩
    obtain ⟨g, hg⟩ := Option.isSome_iff_exists.mp hfound
    have hkey := List.find?_some hg
    have hkey : g.key = f.key := (htext.mp hkey).trans hs.symm
    obtain rfl := List.inj_on_of_nodup_map distinct (List.mem_of_find?_eq_some hg) hf hkey
    rw [hs]
    exact hg

variable {version : Value} {entries : List Value}

/-- A catalog is made of the entries, or there is a first entry that fails a check. -/
theorem ofEntries_cases (version : Value) (typed : ∀ v ∈ entries, IsTyped v) :
    (∃ cat, ofEntries version entries = .ok cat ∧ IsMade version entries cat) ∨
      ∃ before v behind check, entries = before ++ v :: behind ∧
        (∃ cat, IsMade version before cat) ∧ FailsFirst (before.map keyOf) v Check.all check ∧
        ofEntries version entries = .error (check.error v) :=
  have start : IsMade version [] { version := version } := ⟨rfl, .nil, nofun, List.nodup_nil⟩
  start.foldlM typed

/-- Sound entries with distinct keys, and no others, make a catalog, with one field for each entry
in their order, which is found under its key alone.  Otherwise the error is that of the first check
that is failed by the first entry that fails one, given the keys of the entries before it, and it
has a message just if all that it tells of can be written. -/
theorem ofEntries_outcome (version : Value) (entries : List Value)
    (typed : ∀ v ∈ entries, IsTyped v) :
    ((∃ cat, ofEntries version entries = .ok cat) ↔
      (∀ v ∈ entries, IsSound v) ∧ (entries.map keyOf).Nodup) ∧
    (∀ cat, ofEntries version entries = .ok cat →
      cat.version = version ∧ cat.fields.length = entries.length ∧
      List.Forall₂ Describes entries cat.fields ∧
      ∀ key f, cat.find? key = some f ↔ f ∈ cat.fields ∧ f.key = key) ∧
    (∀ e, ofEntries version entries = .error e →
      ∃ before v behind check, entries = before ++ v :: behind ∧
        (∀ w ∈ before, IsSound w) ∧ (before.map keyOf).Nodup ∧
        FailsFirst (before.map keyOf) v Check.all check ∧ e = check.error v ∧
        Value.IsWriting e.message e.isTold) := by
  obtain ⟨cat, hok, made⟩ | ⟨before, v, behind, check, rfl, ⟨cat, made⟩, hfails, herror⟩ :=
    ofEntries_cases version typed
  · refine ⟨⟨fun _ => ⟨made.sound, made.distinct⟩, fun _ => ⟨cat, hok⟩⟩, ?_, ?_⟩
    · intro cat' hok'
      cases hok.symm.trans hok'
      refine ⟨made.version, made.fields.length_eq.symm, made.fields, fun key f => ?_⟩
      exact find?_eq_some_iff (fun _ => made.key_text) (keys_eq made.fields ▸ made.distinct)
    · intro e herror
      cases hok.symm.trans herror
  · refine ⟨⟨?_, ?_⟩, ?_, ?_⟩
    · rintro ⟨cat', hok⟩
      cases herror.symm.trans hok
    · rintro ⟨hsound, hdistinct⟩
      have hv := hsound v (List.mem_append_right _ List.mem_cons_self)
      have hnew : keyOf v ∉ before.map keyOf := by
        rw [List.map_append, List.map_cons] at hdistinct
        exact fun h => List.disjoint_of_nodup_append hdistinct h List.mem_cons_self
      exact absurd (hv.passes hnew check) hfails.fails
    · intro cat' hok
      cases herror.symm.trans hok
    · intro e herror'
      cases herror.symm.trans herror'
      exact ⟨before, v, behind, check, rfl, made.sound, made.distinct, hfails, rfl,
        CatalogError.isWriting_message (check.error_ne_misuse v)⟩

def personalEntry (key : String) (s : Shape) (ops : List Operator) (choices : List String) :
    Value :=
  .map [(.text "key", .text key), (.text "category", .text "personal"),
    (.text "value_type", .text s.id), (.text "operators", .list (ops.map (.text ·.id))),
    (.text "enum_values", if choices = [] then .null else .list (choices.map .text))]

theorem isTyped_personalEntry (key : String) (s : Shape) (ops : List Operator)
    (choices : List String) : IsTyped (personalEntry key s ops choices) where
  map := ⟨_, rfl⟩
  key w h := ⟨key, (Option.some.inj h).symm⟩
  operators w h := ⟨ops.map (·.id), by rw [List.map_map]; exact (Option.some.inj h).symm⟩
  choices w h := by
    obtain rfl := Option.some.inj h
    by_cases hchoices : choices = []
    · exact .inl (if_pos hchoices)
    · exact .inr ⟨choices, if_neg hchoices⟩

/-- A range and a closed set, both sound. -/
theorem ofEntries_outcome_pair :
    ∃ cat, ofEntries (.int 1) [personalEntry "personal.age" .numberRange [.between, .gte] [],
      personalEntry "personal.gender" .choiceList [.isIn] ["female", "male"]] = .ok cat ∧
      cat.fields.length = 2 := by
  obtain ⟨hiff, hok, -⟩ := ofEntries_outcome (.int 1)
    [personalEntry "personal.age" .numberRange [.between, .gte] [],
      personalEntry "personal.gender" .choiceList [.isIn] ["female", "male"]]
    (by simp [isTyped_personalEntry])
  have hage : IsSound (personalEntry "personal.age" .numberRange [.between, .gte] []) :=
    ⟨⟨_, rfl⟩, ⟨.personal, rfl⟩, ⟨.numberRange, rfl, rfl⟩,
      ⟨[.between, .gte], rfl, by decide, by decide⟩⟩
  have hgender : IsSound (personalEntry "personal.gender" .choiceList [.isIn] ["female", "male"]) :=
    ⟨⟨_, rfl⟩, ⟨.personal, rfl⟩, ⟨.choiceList, rfl, List.cons_ne_nil _ _⟩,
      ⟨[.isIn], rfl, by decide, by decide⟩⟩
  have hkeys : keyOf (personalEntry "personal.age" .numberRange [.between, .gte] []) ≠
      keyOf (personalEntry "personal.gender" .choiceList [.isIn] ["female", "male"]) :=
    fun h => absurd (Value.text.inj h) (by decide)
  obtain ⟨cat, hcat⟩ := hiff.mpr ⟨by simp [hage, hgender], by simpa using hkeys⟩
  exact ⟨cat, hcat, (hok cat hcat).2.1⟩

/-- An entry without a category, which has a number with too many digits in it, leaves no error that
can be told. -/
theorem ofEntries_tooLong :
    let v : Value := .map [(.text "key", .text "a"), (.text "label", .tooLong),
      (.text "value_type", .text "string"), (.text "operators", .list [.text "eq"])]
    IsTyped v ∧ ofEntries (.int 1) [v] = .error (.missing "category" v) ∧
      (CatalogError.missing "category" v).message = .error .value := by
  intro v
  refine ⟨⟨⟨_, rfl⟩, ?_, ?_, nofun⟩, rfl, ?_⟩
  · exact fun w hw => ⟨"a", (Option.some.inj hw).symm⟩
  · exact fun w hw => ⟨["eq"], (Option.some.inj hw).symm⟩
  · refine CatalogError.message_eq_error_iff.mpr (.inr ⟨rfl, ?_⟩)
    simp [v, CatalogError.isTold, CatalogError.told, Value.isWritable, Value.haveWritable,
      Value.isWritable_tooLong]

end Catalog

end Cohort
