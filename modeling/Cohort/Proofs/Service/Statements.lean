import Cohort.Proofs.Preview.Execution
import Cohort.Proofs.Service.Gate

/-!
# Statements are well bound

Whatever the names of the table, its columns and the selection are, a statement
of a preview or a count has one mark outside of its identifiers for each
parameter that is passed with it, and the identifiers of its clause are columns
of the table that is created for the same catalog.
-/

namespace Cohort

open Cohort.Action

/-- A page that is asked for as it may be has its statement. -/
theorem Store.exists_pageStatements {store : Store} {limit offset select : Value}
    (hlimit : IsCount limit) (hoffset : IsCount offset) (hselect : IsSelect select)
    (q : Sql.Query) :
    ∃ sql params, store.pageStatements q limit offset select = [.execute sql (some params)] := by
  obtain ⟨l, hl⟩ := hlimit.exists_numberOr defaultLimit
  obtain ⟨o, ho⟩ := hoffset.exists_numberOr 0
  obtain ⟨columns, hcolumns⟩ := hselect.exists_selection
  have hclamped : store.clampLimit limit = .ok (max 0 (min l store.maxLimit)) := by
    rw [clampLimit, hl]
    rfl
  have hclamped' : clampOffset offset = .ok (max 0 o) := by
    rw [clampOffset, ho]
    rfl
  unfold pageStatements
  rw [hclamped, hclamped', hcolumns]
  exact ⟨_, _, rfl⟩

namespace Service

variable {s : Service} {answers : Answers} {f : FiltersInput} {e : Expression}
  {P : Call → Prop}

/-! ## The way to a statement -/

theorem meets_demandStore : s.demandStore.Meets P fun store => s.store = some store := by
  unfold demandStore
  cases s.store with
  | none => exact .throw _
  | some store => exact .pure rfl

/-- No statement is executed while filters are resolved. -/
theorem meets_resolve : (s.resolve f).Meets P (s.Resolves f) := by
  unfold resolve resolve.liftExcept Resolves resolution
  cases s.load f with
  | error x => exact .bind (.throw x) fun _ h => h
  | ok env =>
    refine .bind (.pure rfl) fun env' henv => .bind (.logAll _ _ _) fun _ _ => ?_
    refine (Meets.orMisuse _).imp fun e he => ?_
    have henv : env = env' := henv
    have hexpression : s.expressionOf env = .ok e := henv ▸ he
    exact congrArg (Except.mapError Failure.misuse) hexpression

/-- No statement is executed while an expression is validated. -/
theorem meets_gate : (s.gate e).Meets P fun _ => True := by
  unfold gate demandValid validate
  split
  · refine .bind (.orMisuse _) fun vs _ => ?_
    split
    · exact .bind (.orMisuse _) fun _ _ => .bind (.log _ _ _) fun _ _ => .throw _
    · exact .pure trivial
  · exact .pure trivial

/-- A query is that of the expression to which filters come. -/
def Asked (s : Service) (f : FiltersInput) (q : Sql.Query) : Prop :=
  ∃ e, s.Resolves f e ∧ (Sql.compile .preview s.catalog e).query = .ok q

/-- No statement is executed while a clause is compiled. -/
theorem meets_previewQuery : (s.previewQuery f).Meets P (s.Asked f) := by
  unfold previewQuery clause
  refine .bind meets_resolve fun e he => .bind meets_gate fun _ _ => ?_
  refine .bind (.logAll _ _ _) fun _ _ => ?_
  exact (Meets.orMisuse _).imp fun q hq => ⟨e, he, hq⟩

/-- A query has as many marks as parameters, and shows nothing else but identifiers. -/
theorem Asked.exists_shows {q : Sql.Query} (h : s.Asked f q) :
    ∃ names, Sql.Shows q.text q.params.length names := by
  obtain ⟨e, -, hq⟩ := h
  obtain ⟨names, hshows, -⟩ := Sql.exists_shows_of_compile hq
  exact ⟨names, hshows⟩

/-- The identifiers of the clause of a query are among the columns of a table. -/
def UsesColumns (cat : Catalog) (columns : List String) : Prop :=
  ∀ e q, (Sql.compile .preview cat e).query = .ok q →
    ∃ used, Sql.identifiers? q.text = some used ∧ used ⊆ columns

theorem usesColumns_of_texts {cat : Catalog} {names : List String}
    (h : cat.fields.map Field.column = names.map .text) : UsesColumns cat names.eraseDups := by
  intro e q hq
  obtain ⟨used, hshows, hcolumns⟩ := Sql.exists_shows_of_compile hq
  refine ⟨used, hshows.identifiers?_eq, ?_⟩
  intro name hname
  obtain ⟨field, hfield, rfl⟩ := hcolumns name hname
  have hmem : field.column ∈ names.map Value.text := h ▸ List.mem_map_of_mem hfield
  obtain ⟨text, htext, hcolumn⟩ := List.mem_map.mp hmem
  rw [← hcolumn, List.mem_eraseDups]
  exact htext

/-! ## The statements -/

/-- A statement fetches a page of what filters select: it has one mark for each parameter, and the
two behind those of the query are the bounds of the page that is returned. -/
def FetchesPage (s : Service) (f : FiltersInput) (r : Except Failure Page) (sql : String)
    (params : Option (List Value)) : Prop :=
  ∃ store q limit offset, s.store = some store ∧ s.Asked f q ∧
    params = some (q.params ++ [.int limit, .int offset]) ∧
    Sql.marks? sql = some (q.params.length + 2) ∧
    0 ≤ limit ∧ limit ≤ max 0 store.maxLimit ∧ 0 ≤ offset ∧
    ∀ page, r = .ok page → page.limit = limit ∧ page.offset = offset

/-- A statement counts what filters select: it has one mark for each parameter of the query. -/
def Counts (s : Service) (f : FiltersInput) (sql : String) (params : Option (List Value)) : Prop :=
  ∃ q, s.Asked f q ∧ params = some q.params ∧ Sql.marks? sql = some q.params.length

/-- A preview executes the statements of its page and no other ones. -/
theorem preview_executes (s : Service) (answers : Answers) (f : FiltersInput)
    (limit offset select : Value) (before : List Call) :
    ∃ calls r, (s.preview answers f limit offset select).Does before calls r ∧
      ∀ sql params, .execute sql params ∈ calls → s.FetchesPage f r sql params := by
  have hmeets : (s.preview answers f limit offset select).Meets
      (fun c => ∃ store q l o columns, s.store = some store ∧ s.Asked f q ∧
        store.clampLimit limit = .ok l ∧ Store.clampOffset offset = .ok o ∧
        Store.selection select = .ok columns ∧
        c = .execute (store.pageQuery columns q.text) (some (q.params ++ [.int l, .int o])))
      (fun page => ∃ store, s.store = some store ∧ store.clampLimit limit = .ok page.limit ∧
        Store.clampOffset offset = .ok page.offset) := by
    refine .bind meets_demandStore fun store hstore => .bind meets_previewQuery fun q hq => ?_
    refine .bind (Store.meets_page fun l o columns hl ho hcolumns =>
      ⟨store, q, l, o, columns, hstore, hq, hl, ho, hcolumns, rfl⟩) fun page hpage => ?_
    exact .bind (.log _ _ _) fun _ _ => .pure ⟨store, hstore, hpage⟩
  obtain ⟨calls, r, hdoes, hcalls, hr⟩ := hmeets before
  refine ⟨calls, r, hdoes, ?_⟩
  intro sql params hmem
  obtain ⟨store, q, l, o, columns, hstore, hq, hl, ho, hcolumns, hcall⟩ := hcalls _ hmem rfl
  cases hcall
  obtain ⟨names, hclause⟩ := hq.exists_shows
  obtain ⟨shown, hshown⟩ := Store.shows_selection hcolumns
  obtain ⟨hpos, hle⟩ := Store.bounds_of_clampLimit hl
  refine ⟨store, q, l, o, hstore, hq, rfl, ?_, hpos, hle, Store.nonneg_of_clampOffset ho, ?_⟩
  · exact (Store.shows_pageQuery hshown hclause).marks?_eq
  · intro page hpage
    obtain ⟨store', hstore', hl', ho'⟩ := hr page hpage
    cases hstore.symm.trans hstore'
    exact ⟨Except.ok.inj (hl'.symm.trans hl), Except.ok.inj (ho'.symm.trans ho)⟩

/-- A count executes the statement that counts and no other one. -/
theorem count_executes (s : Service) (answers : Answers) (f : FiltersInput) (before : List Call) :
    ∃ calls r, (s.count answers f).Does before calls r ∧
      ∀ sql params, .execute sql params ∈ calls → s.Counts f sql params := by
  have hmeets : (s.count answers f).Meets (fun c => ∃ (store : Store) (q : Sql.Query),
      s.Asked f q ∧ c = .execute (store.countQuery q.text) (some q.params)) fun _ => True := by
    refine .bind meets_demandStore fun store _ => .bind meets_previewQuery fun q hq => ?_
    exact .bind (Store.meets_total ⟨store, q, hq, rfl⟩) fun n _ =>
      .bind (.orMisuse _) fun _ _ => .bind (.log _ _ _) fun _ _ => .pure trivial
  obtain ⟨calls, r, hdoes, hcalls, -⟩ := hmeets before
  refine ⟨calls, r, hdoes, ?_⟩
  intro sql params hmem
  obtain ⟨store, q, hq, hcall⟩ := hcalls _ hmem rfl
  cases hcall
  obtain ⟨names, hclause⟩ := hq.exists_shows
  exact ⟨q, hq, rfl, (Store.shows_countQuery hclause).marks?_eq⟩

/-- The statement that creates the table has no parameters; it declares the distinct columns of the
fields, in the order in which they are first met, and clauses use these alone. -/
def Declares (cat : Catalog) (table sql : String) (params : Option (List Value)) : Prop :=
  ∃ names : List String, cat.fields.map Field.column = names.map .text ∧ params = none ∧
    Sql.marks? sql = some 0 ∧ Sql.identifiers? sql = some (table :: names.eraseDups) ∧
    UsesColumns cat names.eraseDups

/-- Preparing a store executes the statement that declares its table and no other one. -/
theorem prepare_declares (store : Store) (answers : Answers) (before : List Call) :
    ∃ calls r, (store.prepare answers).Does before calls r ∧
      ∀ sql params, .execute sql params ∈ calls →
        Declares store.catalog store.table sql params := by
  have hmeets : (store.prepare answers).Meets
      (fun c => ∃ sql, store.createTable = .ok sql ∧ c = .execute sql none) fun _ => True :=
    Store.meets_prepare fun sql hsql => ⟨sql, hsql, rfl⟩
  obtain ⟨calls, r, hdoes, hcalls, -⟩ := hmeets before
  refine ⟨calls, r, hdoes, ?_⟩
  intro sql params hmem
  obtain ⟨sql, hsql, hcall⟩ := hcalls _ hmem rfl
  cases hcall
  obtain ⟨names, hnames, hshows⟩ := Store.shows_createTable hsql
  exact ⟨names, hnames, rfl, hshows.marks?_eq, hshows.identifiers?_eq, usesColumns_of_texts hnames⟩

/-- The statements that are executed are well bound, whatever names there are.  A preview and a
count execute only statements with one mark for each parameter; where the filters have a query and
the database is ready, each of them executes one.  The table is created just if all columns are
texts, by a statement that declares each of them once, and the identifiers of every clause are among
them. -/
theorem statements_bound (s : Service) (answers : Answers) (f : FiltersInput) :
    (∀ limit offset select before, ∃ calls r,
      (s.preview answers f limit offset select).Does before calls r ∧
      ∀ sql params, .execute sql params ∈ calls → s.FetchesPage f r sql params) ∧
    (∀ before, ∃ calls r, (s.count answers f).Does before calls r ∧
      ∀ sql params, .execute sql params ∈ calls → s.Counts f sql params) ∧
    (∀ store e q, s.store = some store → s.Resolves f e → s.Passes e →
      (Sql.compile .preview s.catalog e).query = .ok q →
      (∀ c ∈ (store.use false).opening, answers.refusal c = none) → ∀ before,
        (∀ limit offset select, Store.IsCount limit → Store.IsCount offset →
          Store.IsSelect select → ∃ sql params r,
          (s.preview answers f limit offset select).Does before
            (store.opened ++ [.execute sql params] ++ [.close]) r) ∧
        ∃ sql params r, (s.count answers f).Does before
          (store.opened ++ [.execute sql params] ++ [.close]) r) ∧
    ∀ store : Store, store.catalog = s.catalog →
      ((∃ sql, store.createTable = .ok sql) ↔
        ∀ field ∈ s.catalog.fields, ∃ name, field.column = .text name) ∧
      ∀ before, ∃ calls r, (store.prepare answers).Does before calls r ∧
        ∀ sql params, .execute sql params ∈ calls → Declares s.catalog store.table sql params := by
  refine ⟨preview_executes s answers f, count_executes s answers f, ?_, ?_⟩
  · intro store e q hstore hf hpasses hq hopen before
    constructor
    · intro limit offset select hlimit hoffset hselect
      obtain ⟨sql, params, hstatements⟩ :=
        @Store.exists_pageStatements store _ _ _ hlimit hoffset hselect q
      obtain ⟨r, hdoes, -⟩ :=
        ((asks_preview limit offset select).inquires store e q hstore hf hpasses hq).ready hopen
          before
      rw [hstatements] at hdoes
      exact ⟨sql, _, r, hdoes⟩
    · obtain ⟨r, hdoes, -⟩ :=
        (asks_count.inquires store e q hstore hf hpasses hq).ready hopen before
      exact ⟨_, _, r, hdoes⟩
  · intro store hcatalog
    rw [← hcatalog]
    exact ⟨Store.exists_createTable_iff, prepare_declares store answers⟩

/-- A catalog with one field, whose column has a mark and a quote in its name. -/
def markedColumn : Catalog where
  fields := [{
    key := .text "a"
    label := .text "a"
    category := .business
    shape := .number
    operators := [.eq]
    column := .text "a?\"?"
    searchPath := .null
    choices := none
    description := .text "" }]

/-- A table and a column with quotes and marks in their names. -/
theorem statements_bound_markedColumn :
    let store : Store := { path := "p.db", catalog := markedColumn, table := "\"?" }
    let s : Service := { catalog := markedColumn, store := some store }
    let answers : Answers := { statement := fun _ => .ok {} }
    let e := Expression.alone { field := .text "a", operator := .text "eq", value := .int 5 }
    let f : FiltersInput := .envelope { mode := .boolean, expression := some e }
    (∃ sql r, (s.count answers f).Does []
      (store.opened ++ [.execute sql (some [.int 5])] ++ [.close]) r ∧ Sql.marks? sql = some 1) ∧
    ∃ sql, store.createTable = .ok sql := by
  intro store s answers e f
  obtain ⟨-, hcount, hready, htable⟩ := statements_bound s answers f
  refine ⟨?_, (htable store rfl).1.mpr ?_⟩
  · obtain ⟨-, sql, params, r, hdoes⟩ :=
      hready store e _ rfl rfl (fun _ => rfl) rfl (fun _ _ => rfl) []
    obtain ⟨calls, r', hdoes', hcalls⟩ := hcount []
    obtain ⟨rfl, rfl⟩ := hdoes.unique hdoes'
    obtain ⟨q, ⟨e', he', hq⟩, rfl, hmarks⟩ := hcalls sql params (by simp)
    cases he'
    cases hq
    exact ⟨sql, r, hdoes, hmarks⟩
  · intro field hfield
    rw [List.mem_singleton.mp hfield]
    exact ⟨_, rfl⟩

end Service

end Cohort
