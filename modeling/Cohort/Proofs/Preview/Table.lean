import Cohort.Proofs.Preview.Insertion
import Cohort.Proofs.Sql.Marks

/-!
# The table

The statement that creates the table declares one column for each of the distinct
columns of the fields, in the order in which they are first met.  There is such a
statement just if all of them are texts.
-/

namespace Cohort

namespace Store

variable {s : Store}

/-! ## The columns -/

/-- A text is the same key as the same text alone. -/
theorem text_sameKey_iff {v : Value} {name : String} :
    (Value.text name).sameKey v = true ↔ v = .text name := by
  cases v
  case text s =>
    rw [Value.sameKey, beq_iff_eq, Value.text.injEq]
    exact eq_comm
  all_goals simp [Value.sameKey, Value.keyExtent?, Value.extent?]

/-- A field adds its column, or has one that is there already. -/
theorem addColumn_cases {columns columns' : List (Value × String)} {f : Field}
    (h : addColumn columns f = .ok columns') :
    (columns' = columns ∧ ∃ c ∈ columns, c.1.sameKey f.column = true) ∨
      columns' = columns ++ [(f.column, f.shape.columnType)] ∧
        ∀ c ∈ columns, c.1.sameKey f.column = false := by
  unfold addColumn at h
  split at h
  case isTrue => cases h
  case isFalse =>
    split at h
    case isTrue hany =>
      cases h
      exact .inl ⟨rfl, List.any_eq_true.mp hany⟩
    case isFalse hany =>
      cases h
      rw [Bool.not_eq_true, List.any_eq_false] at hany
      exact .inr ⟨rfl, fun c hc => Bool.eq_false_iff.mpr (hany c hc)⟩

/-- Columns that are there stay. -/
theorem subset_of_foldlM_addColumn {fields : List Field} {columns columns' : List (Value × String)}
    (h : fields.foldlM addColumn columns = .ok columns') : columns ⊆ columns' := by
  induction fields generalizing columns with
  | nil =>
    cases h
    exact List.Subset.refl _
  | cons f fields ih =>
    rw [List.foldlM_cons] at h
    obtain ⟨between, hadd, hfold⟩ := exists_of_bind_eq_ok h
    rcases addColumn_cases hadd with ⟨rfl, -⟩ | ⟨rfl, -⟩
    · exact ih hfold
    · exact fun c hc => ih hfold (List.mem_append_left _ hc)

section Distinct

variable {names : List String} {name : String}

theorem eraseDups_append_of_mem (h : name ∈ names) :
    (names ++ [name]).eraseDups = names.eraseDups := by
  rw [List.eraseDups_append]
  simp [List.removeAll, h]

theorem eraseDups_append_of_not_mem (h : name ∉ names) :
    (names ++ [name]).eraseDups = names.eraseDups ++ [name] := by
  rw [List.eraseDups_append]
  simp [List.removeAll, h, List.eraseDups_cons]

end Distinct

/-- A column that is added is there already, or it is put behind the others. -/
theorem columns_of_addColumn {f : Field} {columns next : List (Value × String)}
    {names : List String} (h : addColumn columns f = .ok next)
    (htexts : ∀ c ∈ next, ∃ name, c.1 = .text name)
    (hnames : columns.map Prod.fst = names.eraseDups.map .text) :
    ∃ name, f.column = .text name ∧
      next.map Prod.fst = (names ++ [name]).eraseDups.map .text := by
  have hmem : ∀ name, Value.text name ∈ columns.map Prod.fst ↔ name ∈ names := by
    intro name
    rw [hnames, List.mem_map_of_injective (fun _ _ h => Value.text.inj h), List.mem_eraseDups]
  rcases addColumn_cases h with ⟨rfl, c, hc, hsame⟩ | ⟨rfl, hnew⟩
  · obtain ⟨name, hname⟩ := htexts c hc
    rw [hname, text_sameKey_iff] at hsame
    have hin := (hmem name).mp (List.mem_map.mpr ⟨c, hc, hname⟩)
    exact ⟨name, hsame, by rw [eraseDups_append_of_mem hin, hnames]⟩
  · obtain ⟨name, hname⟩ := htexts (f.column, f.shape.columnType)
      (List.mem_append_right _ (List.mem_singleton_self _))
    replace hname : f.column = .text name := hname
    have hout : name ∉ names := by
      intro hin
      obtain ⟨c, hc, hfst⟩ := List.mem_map.mp ((hmem name).mpr hin)
      have hsame := hnew c hc
      rw [hname, hfst, text_sameKey_iff.mpr rfl] at hsame
      cases hsame
    refine ⟨name, hname, ?_⟩
    rw [eraseDups_append_of_not_mem hout, List.map_append, List.map_append, hnames,
      List.map_singleton, List.map_singleton, hname]

/-- Columns that are all texts come from texts, and are the distinct ones among them. -/
theorem columns_of_foldlM {fields : List Field} {columns columns' : List (Value × String)}
    {names : List String} (h : fields.foldlM addColumn columns = .ok columns')
    (htexts : ∀ c ∈ columns', ∃ name, c.1 = .text name)
    (hnames : columns.map Prod.fst = names.eraseDups.map .text) :
    ∃ names' : List String, fields.map Field.column = names'.map .text ∧
      columns'.map Prod.fst = (names ++ names').eraseDups.map .text := by
  induction fields generalizing columns names with
  | nil =>
    cases h
    exact ⟨[], rfl, by rwa [List.append_nil]⟩
  | cons f fields ih =>
    rw [List.foldlM_cons] at h
    obtain ⟨next, hadd, hfold⟩ := exists_of_bind_eq_ok h
    -- every column of the next step is among the last ones, so it is a text as they are
    have hnextTexts : ∀ c ∈ next, ∃ name, c.1 = .text name := fun c hc =>
      htexts c (subset_of_foldlM_addColumn hfold hc)
    obtain ⟨name, hname, hnext⟩ := columns_of_addColumn hadd hnextTexts hnames
    obtain ⟨names', hnames', hcolumns⟩ := ih hfold hnext
    refine ⟨name :: names', by rw [List.map_cons, hname, hnames', List.map_cons], ?_⟩
    rwa [List.append_assoc, List.singleton_append] at hcolumns

/-- A column is the column of a field. -/
theorem mem_of_foldlM_addColumn {fields : List Field} {columns columns' : List (Value × String)}
    (h : fields.foldlM addColumn columns = .ok columns') {c : Value × String} (hc : c ∈ columns') :
    c ∈ columns ∨ ∃ f ∈ fields, c = (f.column, f.shape.columnType) := by
  induction fields generalizing columns with
  | nil =>
    cases h
    exact .inl hc
  | cons f fields ih =>
    rw [List.foldlM_cons] at h
    obtain ⟨next, hadd, hfold⟩ := exists_of_bind_eq_ok h
    rcases ih hfold with hnext | ⟨f', hf', hc⟩
    · rcases addColumn_cases hadd with ⟨rfl, -⟩ | ⟨rfl, -⟩
      · exact .inl hnext
      · rcases List.mem_append.mp hnext with hcolumn | hcolumn
        · exact .inl hcolumn
        · exact .inr ⟨f, List.mem_cons_self, List.mem_singleton.mp hcolumn⟩
    · exact .inr ⟨f', List.mem_cons_of_mem _ hf', hc⟩

/-! ## The statement -/

/-- The names that are quoted are the texts. -/
theorem identifier_eq_ok_iff {v : Value} {quoted : String} :
    identifier v = .ok quoted ↔ ∃ name, v = .text name ∧ quoted = Sql.quoteIdentifier name := by
  cases v
  case text s => simp [identifier, eq_comm]
  all_goals simp [identifier]

def columnLine (c : Value × String) : Except Misuse String := do
  return "    " ++ (← identifier c.1) ++ " " ++ c.2

theorem createTable_eq (s : Store) :
    s.createTable = do
      let lines ← (← s.columns).mapM columnLine
      return "CREATE TABLE IF NOT EXISTS " ++ Sql.quoteIdentifier s.table
        ++ " (\n    id INTEGER PRIMARY KEY AUTOINCREMENT,\n" ++ ",\n".intercalate lines ++ "\n)" :=
  rfl

theorem shows_columnLine {c : Value × String} {line : String} (hc : Sql.IsPlain c.2)
    (h : columnLine c = .ok line) :
    ∃ name, c.1 = .text name ∧ Sql.Shows line 0 [name] := by
  obtain ⟨quoted, hquoted, h⟩ := exists_of_bind_eq_ok h
  obtain ⟨name, hname, rfl⟩ := identifier_eq_ok_iff.mp hquoted
  cases h
  have hindented := (Sql.Shows.identifier name).before (by decide : Sql.IsPlain "    ")
  exact ⟨name, hname, hindented.between (by decide : Sql.IsPlain " ") (.words hc)⟩

/-- Texts that are written for values one by one show the names that the values are. -/
theorem exists_names_of_written {α : Type} {write : α → Except Misuse String} {nameOf : α → Value}
    {xs : List α} {texts : List String}
    (hwrite : ∀ x ∈ xs, ∀ text, write x = .ok text →
      ∃ name, nameOf x = .text name ∧ Sql.Shows text 0 [name])
    (h : List.Forall₂ (fun x text => write x = .ok text) xs texts) :
    ∃ names : List String, xs.map nameOf = names.map .text ∧
      List.Forall₂ (fun text name => Sql.Shows text 0 [name]) texts names := by
  induction h with
  | nil => exact ⟨[], rfl, .nil⟩
  | @cons x text xs texts hx _ ih =>
    obtain ⟨hfirst, hrest⟩ := List.forall_mem_cons.mp hwrite
    obtain ⟨name, hname, hshows⟩ := hfirst text hx
    obtain ⟨names, hnames, hall⟩ := ih hrest
    exact ⟨name :: names, by rw [List.map_cons, hname, hnames, List.map_cons], .cons hshows hall⟩

/-- The statement that creates the table has no marks, and its identifiers are the name of the table
and the names of the columns. -/
theorem shows_createTable {sql : String} (h : s.createTable = .ok sql) :
    ∃ names : List String, s.catalog.fields.map Field.column = names.map .text ∧
      Sql.Shows sql 0 (s.table :: names.eraseDups) := by
  rw [createTable_eq] at h
  obtain ⟨columns, hcolumns, h⟩ := exists_of_bind_eq_ok h
  obtain ⟨lines, hlines, h⟩ := exists_of_bind_eq_ok h
  cases h
  have hplain : ∀ c ∈ columns, Sql.IsPlain c.2 := by
    intro c hc
    rcases mem_of_foldlM_addColumn hcolumns hc with hnone | ⟨f, -, rfl⟩
    · cases hnone
    · have hall : ∀ shape ∈ Shape.all, Sql.IsPlain shape.columnType := by decide
      exact hall f.shape (Shape.mem_all f.shape)
  obtain ⟨declared, hdeclared, hshows⟩ := exists_names_of_written
    (fun c hc line => shows_columnLine (hplain c hc)) (mapM_eq_ok_iff.mp hlines)
  have htexts : ∀ c ∈ columns, ∃ name, c.1 = .text name := by
    intro c hc
    have hmem : c.1 ∈ declared.map Value.text := hdeclared ▸ List.mem_map_of_mem hc
    obtain ⟨name, -, hname⟩ := List.mem_map.mp hmem
    exact ⟨name, hname.symm⟩
  obtain ⟨names, hnames, hdistinct⟩ := @columns_of_foldlM _ [] columns [] hcolumns htexts rfl
  rw [List.nil_append, hdeclared] at hdistinct
  obtain rfl := List.map_injective_iff.mpr (fun _ _ h => Value.text.inj h) hdistinct
  refine ⟨names, hnames, ?_⟩
  have htable := (Sql.Shows.identifier s.table).before
    (by decide : Sql.IsPlain "CREATE TABLE IF NOT EXISTS ")
  exact (htable.between
    (by decide : Sql.IsPlain " (\n    id INTEGER PRIMARY KEY AUTOINCREMENT,\n")
    (.intercalate (by decide : Sql.IsPlain ",\n") hshows)).behind (by decide : Sql.IsPlain "\n)")

/-- The table can be created just if the columns of all fields are texts. -/
theorem exists_createTable_iff :
    (∃ sql, s.createTable = .ok sql) ↔ ∀ f ∈ s.catalog.fields, ∃ name, f.column = .text name := by
  constructor
  · rintro ⟨sql, h⟩ f hf
    obtain ⟨names, hnames, -⟩ := shows_createTable h
    have hmem : f.column ∈ names.map Value.text := hnames ▸ List.mem_map_of_mem hf
    obtain ⟨name, -, hname⟩ := List.mem_map.mp hmem
    exact ⟨name, hname.symm⟩
  · intro h
    have hkeys : ∀ f ∈ s.catalog.fields, f.column.isKey = true := by
      intro f hf
      obtain ⟨name, hname⟩ := h f hf
      rw [hname]
      rfl
    obtain ⟨columns, hcolumns, -⟩ := columns_of_isKey hkeys
    cases htable : s.createTable with
    | ok sql => exact ⟨sql, rfl⟩
    | error m =>
      rw [createTable_eq, hcolumns] at htable
      obtain hnone | ⟨_, hsame, htable⟩ := bind_eq_error_iff.mp htable
      · cases hnone
      cases hsame
      obtain hline | ⟨lines, -, hnone⟩ := bind_eq_error_iff.mp htable
      · obtain ⟨front, c, back, -, rfl, -, hc⟩ := mapM_eq_error_iff.mp hline
        rcases mem_of_foldlM_addColumn hcolumns (List.mem_append_right _ List.mem_cons_self) with
          hnone | ⟨f, hf, rfl⟩
        · cases hnone
        · obtain ⟨name, hname⟩ := h f hf
          rw [columnLine, hname] at hc
          cases hc
      · cases hnone

end Store

end Cohort
