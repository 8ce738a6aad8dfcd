import Cohort.Catalog.Bundled
import Cohort.Proofs.Json.RoundTrip
import Cohort.Proofs.Preview.Protocol
import Cohort.Proofs.Sql.Alignment
import Cohort.Proofs.Validation.Admission
import Cohort.Service.Basic

/-!
# The gate of strict mode

In strict mode an expression with violations is rejected by every entry of the
service, with these violations, before anything is compiled or the database is
called.  An expression without any is treated as without strict mode.
-/

namespace Cohort

open Cohort.Action

/-! ## Inquiries -/

namespace Store

variable {α β : Type} {s : Store} {answers : Answers} {statements : List Call} {before : List Call}

/-- A result that is no rejection of an expression. -/
def Admits (r : Except Failure α) : Prop := ∀ vs, r ≠ .error (.rejected vs)

/-- On one connection an action makes some statements, and it rejects no expression.  Where the
database refuses to open the connection or to set it up, there are none. -/
structure Inquires (s : Store) (answers : Answers) (statements : List Call) (a : Action α) :
    Prop where
  ready : (∀ c ∈ (s.use false).opening, answers.refusal c = none) → ∀ before, ∃ r,
    a.Does before (s.opened ++ statements ++ [.close]) r ∧ Admits r
  unready : ∀ e calls, answers.refusal (.connect s.path) = none →
    ConnectionUse.Refused answers e (s.use false).setup calls → ∀ before,
    a.Does before (.connect s.path :: calls ++ [.close]) (.error (.database e.name))
  unopened : ∀ e, answers.refusal (.connect s.path) = some e → ∀ before,
    a.Does before [.connect s.path] (.error (.database e.name))

/-- The statement that fetches a page of what a query selects, unless the page is misused. -/
def pageStatements (s : Store) (q : Sql.Query) (limit offset select : Value) : List Call :=
  match s.clampLimit limit, clampOffset offset, selection select with
  | .ok limit, .ok offset, .ok columns =>
    [.execute (s.pageQuery columns q.text) (some (q.params ++ [.int limit, .int offset]))]
  | _, _, _ => []

def countStatements (s : Store) (q : Sql.Query) : List Call :=
  [.execute (s.countQuery q.text) (some q.params)]

theorem Inquires.of_run {body : Action α}
    (h : ∀ before, ∃ r, body.Does before statements r ∧ Admits r) :
    s.Inquires answers statements ((s.use false).run answers body) where
  ready hopen before := by
    obtain ⟨r, hdoes, hr⟩ := h (before ++ s.opened)
    exact ⟨r, ConnectionUse.does_run hopen hdoes, hr⟩
  unready _ _ hconnect hrefused _ := hrefused.does_run hconnect
  unopened _ hconnect _ := ConnectionUse.does_run_of_refusal hconnect

/-- What is found out before may decide on the inquiry. -/
theorem Inquires.after {a : Action β} {x : β} {k : β → Action α}
    (ha : ∀ before, a.Does before [] (.ok x)) (h : s.Inquires answers statements (k x)) :
    s.Inquires answers statements (a >>= k) where
  ready hopen before := by
    obtain ⟨r, hdoes, hr⟩ := h.ready hopen before
    exact ⟨r, (ha before).bind_silent hdoes, hr⟩
  unready e calls hconnect hrefused before :=
    (ha before).bind_silent (h.unready e calls hconnect hrefused before)
  unopened e hconnect before := (ha before).bind_silent (h.unopened e hconnect before)

/-- What is found may be passed on without further calls. -/
theorem Inquires.then {a : Action α} {k : α → Action β}
    (h : s.Inquires answers statements a)
    (hk : ∀ x before, ∃ r, (k x).Does before [] r ∧ Admits r) :
    s.Inquires answers statements (a >>= k) where
  ready hopen before := by
    obtain ⟨r, hdoes, hr⟩ := h.ready hopen before
    cases r with
    | error f => exact ⟨.error f, hdoes.bind_error, fun vs hvs => hr vs (by cases hvs; rfl)⟩
    | ok x =>
      obtain ⟨r', hdoes', hr'⟩ := hk x (before ++ (s.opened ++ statements ++ [.close]))
      exact ⟨r', hdoes.bind_last hdoes', hr'⟩
  unready e calls hconnect hrefused before :=
    (h.unready e calls hconnect hrefused before).bind_error
  unopened e hconnect before := (h.unopened e hconnect before).bind_error

/-- A query that the database refuses is no rejection of the expression. -/
theorem admits_queryFailure (what : String) (e : DatabaseError) :
    Admits (.error (queryFailure what e) : Except Failure α) := by
  unfold Admits queryFailure
  intro vs
  split <;> exact nofun

/-- Showing the rows that were fetched takes no calls. -/
theorem does_shown (limit offset : Int) (c : Cursor) (before : List Call) :
    ∃ r, (do
        let rows ← orMisuse (c.rows.mapM (row c.columns))
        log .debug Log.storeLogger (← orMisuse (pageNote rows.length limit offset))
        return (⟨rows, limit, offset⟩ : Page) : Action Page).Does before [] r ∧ Admits r := by
  cases c.rows.mapM (row c.columns) with
  | error m => exact ⟨_, (does_orMisuse before _).bind_error, nofun⟩
  | ok rows =>
    cases hnote : pageNote rows.length limit offset with
    | error m =>
      refine ⟨.error (.misuse m), (does_orMisuse before _).bind_silent ?_, nofun⟩
      rw [hnote]
      exact (does_orMisuse before _).bind_error
    | ok note =>
      refine ⟨.ok ⟨rows, limit, offset⟩, (does_orMisuse before _).bind_silent ?_, nofun⟩
      rw [hnote]
      exact (does_orMisuse before _).bind_silent
        ((does_log before _ _ _).bind_silent (does_pure before _))

/-- Fetching a page takes a connection of its own for one statement. -/
theorem inquires_page (q : Sql.Query) (limit offset select : Value) :
    s.Inquires answers (s.pageStatements q limit offset select)
      (s.page answers q.text (.list q.params) limit offset select) := by
  refine .of_run fun before => ?_
  unfold pageStatements
  cases s.clampLimit limit with
  | error m => exact ⟨_, (does_orMisuse before _).bind_error, nofun⟩
  | ok l =>
    cases clampOffset offset with
    | error m =>
      exact ⟨_, (does_orMisuse before _).bind_silent (does_orMisuse before _).bind_error, nofun⟩
    | ok o =>
      cases selection select with
      | error m =>
        exact ⟨_, (does_orMisuse before _).bind_silent ((does_orMisuse before _).bind_silent
          (does_orMisuse before _).bind_error), nofun⟩
      | ok columns =>
        have hdoes := does_executeQuery answers before "Preview" q.text
          (s.pageQuery columns q.text) (q.params ++ [.int l, .int o])
        cases hanswer : answers.statement (before.countP Call.isStatement) with
        | error e =>
          rw [hanswer] at hdoes
          refine ⟨_, ?_, admits_queryFailure "Preview" e⟩
          exact (does_orMisuse before _).bind_silent ((does_orMisuse before _).bind_silent
            ((does_orMisuse before _).bind_silent hdoes.bind_error))
        | ok c =>
          rw [hanswer] at hdoes
          obtain ⟨r, htail, hr⟩ := does_shown l o c (before ++ [_])
          refine ⟨r, ?_, hr⟩
          exact (does_orMisuse before _).bind_silent ((does_orMisuse before _).bind_silent
            ((does_orMisuse before _).bind_silent (hdoes.bind_last htail)))

/-- Counting takes a connection of its own for one statement. -/
theorem inquires_total (q : Sql.Query) :
    s.Inquires answers (s.countStatements q) (s.total answers q.text (.list q.params)) := by
  refine .of_run fun before => ?_
  have hdoes := does_executeQuery answers before "Count" q.text (s.countQuery q.text) q.params
  cases hanswer : answers.statement (before.countP Call.isStatement) with
  | error e =>
    rw [hanswer] at hdoes
    exact ⟨_, hdoes.bind_error, admits_queryFailure "Count" e⟩
  | ok c =>
    rw [hanswer] at hdoes
    -- the count is the first part of the first row, and zero where there is none
    rcases hfirst : c.rows.head?.bind Value.parts? with _ | (_ | ⟨n, _⟩)
    · refine ⟨.ok (.int 0), hdoes.bind_last ?_, nofun⟩
      rw [hfirst]
      exact does_pure _ _
    · refine ⟨.ok (.int 0), hdoes.bind_last ?_, nofun⟩
      rw [hfirst]
      exact does_pure _ _
    · refine ⟨.ok n, hdoes.bind_last ?_, nofun⟩
      rw [hfirst]
      exact does_pure _ _

end Store

namespace Service

variable {s : Service} {answers : Answers} {f : FiltersInput} {e : Expression}
  {before : List Call}

/-- The expression to which filters come, if there is one. -/
def resolution (s : Service) (f : FiltersInput) : Except Failure Expression := do
  let env ← s.load f
  (s.expressionOf env).mapError .misuse

/-- Filters come to an expression. -/
def Resolves (s : Service) (f : FiltersInput) (e : Expression) : Prop := s.resolution f = .ok e

/-- The gate lets an expression pass. -/
def Passes (s : Service) (e : Expression) : Prop :=
  s.strict = true → s.catalog.validate e = .ok []

/-- Resolving filters leaves notes and nothing else. -/
theorem does_resolve (s : Service) (f : FiltersInput) (before : List Call) :
    (s.resolve f).Does before [] (s.resolution f) := by
  unfold resolve resolve.liftExcept resolution
  cases s.load f with
  | error x => exact (does_throw before x).bind_error
  | ok env =>
    exact (does_pure before env).bind_silent
      ((does_logAll before _ _ _).bind_silent (does_orMisuse before _))

/-- Filters are resolved without a call to the world outside. -/
theorem Resolves.does_resolve (h : s.Resolves f e) : (s.resolve f).Does before [] (.ok e) := by
  have hdoes := s.does_resolve f before
  rwa [h] at hdoes

theorem Resolves.resolve_eq (h : s.Resolves f e) :
    ∃ notes, s.resolve f = logAll .debug Log.simpleLogger notes >>= fun _ => pure e := by
  unfold Resolves resolution at h
  obtain ⟨env, hload, h⟩ := exists_of_bind_eq_ok h
  refine ⟨(s.adaptationOf env).notes, ?_⟩
  unfold resolve resolve.liftExcept
  rw [hload]
  unfold expressionOf at h
  cases he : (s.adaptationOf env).expression with
  | error m =>
    rw [he] at h
    cases h
  | ok x =>
    rw [he] at h
    cases h
    dsimp only
    rw [pure_bind]
    simp only [he]
    rfl

/-- Filters that come to no expression end in their failure, without a call. -/
theorem does_resolve_of_error {x : Failure} (h : s.resolution f = .error x) :
    (s.resolve f).Does before [] (.error x) := by
  have hdoes := s.does_resolve f before
  rwa [h] at hdoes

/-- What is recorded of a rejection is made of texts, and can be written. -/
theorem exists_rejection (vs : List Violation) : ∃ text, rejection vs = .ok text := by
  have hjson : Value.IsJson (.map (Entries.named
      [("violations", .list (vs.map fun v => .text v.message))])) := by
    refine .map (List.nodup_singleton _) ?_
    rw [List.forall_mem_singleton]
    refine .list fun x hx => ?_
    obtain ⟨v, -, rfl⟩ := List.mem_map.mp hx
    exact .text v.message
  obtain ⟨text, htext, -⟩ := Json.exists_encode (Json.Style.isLoose_line false true) hjson
  have hencode : Json.encode (.map [(.text "violations",
      .list (vs.map fun v => .text v.message))]) = .ok text := htext
  unfold rejection
  rw [hencode]
  exact ⟨_, rfl⟩

/-- What passes the gate goes through it without a trace. -/
theorem gate_of_passes (h : s.Passes e) : s.gate e = pure () := by
  unfold gate
  split
  next hstrict =>
    unfold demandValid validate
    rw [h hstrict]
    rfl
  next => rfl

/-- A strict gate rejects with the violations, all of them and in order. -/
theorem does_gate_of_violations {vs : List Violation} (hstrict : s.strict = true)
    (h : s.catalog.validate e = .ok vs) (hne : vs ≠ []) :
    (s.gate e).Does before [] (.error (.rejected vs)) := by
  obtain ⟨text, htext⟩ := exists_rejection vs
  unfold gate demandValid validate
  rw [if_pos hstrict, h]
  refine (does_orMisuse before _).bind_silent ?_
  rw [if_pos (by simpa using hne), htext]
  exact (does_orMisuse before _).bind_silent
    ((does_log before _ _ _).bind_silent (does_throw before _))

/-- A misuse in validation leaves the gate as it is. -/
theorem does_gate_of_error {m : Misuse} (hstrict : s.strict = true)
    (h : s.catalog.validate e = .error m) : (s.gate e).Does before [] (.error (.misuse m)) := by
  unfold gate demandValid validate
  rw [if_pos hstrict, h]
  exact (does_orMisuse before _).bind_error

/-- Compiling a clause calls nothing but the log. -/
theorem does_clause (s : Service) (d : Sql.Dialect) (e : Expression) (before : List Call) :
    (s.clause d e).Does before []
      ((Sql.compile d s.catalog e).query.mapError .misuse) :=
  (does_logAll before _ _ _).bind_silent (does_orMisuse before _)

/-! ## Compiling -/

/-- An expression that passes is compiled as without strict mode. -/
theorem compile_of_passes (h : s.Passes e) :
    s.compile e = { s with strict := false }.compile e := by
  unfold compile
  rw [gate_of_passes h]
  rfl

/-- Behind the gate, a strict service compiles as one that is not strict. -/
theorem compileFilters_of_passes (hf : s.Resolves f e) (h : s.Passes e) :
    s.compileFilters f = { s with strict := false }.compileFilters f := by
  obtain ⟨notes, heq⟩ := hf.resolve_eq
  have heq' : { s with strict := false }.resolve f = s.resolve f := rfl
  unfold compileFilters
  rw [heq', heq, bind_assoc, bind_assoc, pure_bind, pure_bind, compile_of_passes h]

/-- The queries of an expression, or the misuse for which one of the two compilers has none. -/
def compiled (s : Service) (e : Expression) : Except Failure CompiledQueries := do
  let q ← (Sql.compile { slots := s.slots } s.catalog e).query.mapError .misuse
  let filter ← (Search.filter s.catalog e).mapError .misuse
  return ⟨q.text, q.params, filter⟩

/-- Compiling a search filter calls nothing but the log. -/
theorem does_searchFilter (s : Service) (e : Expression) (before : List Call) :
    (s.searchFilter e).Does before [] ((Search.filter s.catalog e).mapError .misuse) :=
  (does_logAll before _ _ _).bind_silent (does_orMisuse before _)

/-- What passes is compiled without calls. -/
theorem does_compile_of_passes (h : s.Passes e) (before : List Call) :
    (s.compile e).Does before [] (s.compiled e) := by
  have hclause := s.does_clause { slots := s.slots } e before
  have hfilter := s.does_searchFilter e before
  unfold compile compiled
  rw [gate_of_passes h]
  refine (does_pure before ()).bind_silent ?_
  cases hq : (Sql.compile { slots := s.slots } s.catalog e).query with
  | error m =>
    rw [hq] at hclause
    exact hclause.bind_error
  | ok q =>
    rw [hq] at hclause
    refine hclause.bind_silent ?_
    cases ht : Search.filter s.catalog e with
    | error m =>
      rw [ht] at hfilter
      exact hfilter.bind_error
    | ok text =>
      rw [ht] at hfilter
      exact hfilter.bind_silent ((does_log before _ _ _).bind_silent (does_pure before _))

/-- Compilation rejects nothing. -/
theorem admits_compiled (s : Service) (e : Expression) : Store.Admits (s.compiled e) := by
  unfold compiled
  cases (Sql.compile { slots := s.slots } s.catalog e).query with
  | error m => exact nofun
  | ok q => cases Search.filter s.catalog e <;> exact nofun

/-- A dialect that takes the columns of a catalog fails to compile an expression only over a value
that cannot be written. -/
theorem exists_of_query_eq_error {d : Sql.Dialect} {cat : Catalog}
    (h : ∀ f ∈ cat.fields, ∃ column, d.column f.column = .ok column) {m : Misuse}
    (hq : (Sql.compile d cat e).query = .error m) :
    m = .value ∧ ∃ c ∈ e.leaves, ∃ vs, Sql.written d cat c = .ok vs ∧
      ∃ v ∈ vs, v.isWritable = false := by
  rw [Sql.compile_eq] at hq
  cases hm : Sql.hindrance? d cat e with
  | none =>
    rw [hm] at hq
    cases hq
  | some m' =>
    rw [hm] at hq
    cases hq
    obtain ⟨c, hc, hobstacle⟩ := List.exists_of_findSome?_eq_some hm
    obtain ⟨rfl, hvs⟩ := (Sql.obstacle?_eq_some_iff h).mp hobstacle
    exact ⟨rfl, c, hc, hvs⟩

/-! ## Asking the database -/

/-- How an operation on the database goes that makes some statements for the query of filters.
Nothing is called where there is no store, the filters come to no expression, the expression is not
valid in strict mode, or it has no query. -/
structure Asks {α : Type} (s : Service) (answers : Answers) (f : FiltersInput)
    (statements : Store → Sql.Query → List Call) (ask : Action α) : Prop where
  storeless : s.store = none → ∀ before, ask.Does before [] (.error .noStore)
  unresolved : ∀ store x, s.store = some store → s.resolution f = .error x → ∀ before,
    ask.Does before [] (.error x)
  rejected : ∀ store e vs, s.store = some store → s.Resolves f e → s.strict = true →
    s.catalog.validate e = .ok vs → vs ≠ [] → ∀ before,
    ask.Does before [] (.error (.rejected vs))
  unwritable : ∀ store e m, s.store = some store → s.Resolves f e → s.Passes e →
    (Sql.compile .preview s.catalog e).query = .error m → ∀ before,
    ask.Does before [] (.error (.misuse m))
  inquires : ∀ store e q, s.store = some store → s.Resolves f e → s.Passes e →
    (Sql.compile .preview s.catalog e).query = .ok q →
    store.Inquires answers (statements store q) ask

/-- Filters that come to no expression have no query. -/
theorem does_previewQuery_of_error {x : Failure} (h : s.resolution f = .error x) :
    (s.previewQuery f).Does before [] (.error x) :=
  (does_resolve_of_error h).bind_error

/-- What a strict gate rejects has no query. -/
theorem Resolves.does_previewQuery_of_violations {vs : List Violation} (h : s.Resolves f e)
    (hstrict : s.strict = true) (hvs : s.catalog.validate e = .ok vs) (hne : vs ≠ []) :
    (s.previewQuery f).Does before [] (.error (.rejected vs)) :=
  h.does_resolve.bind_silent (does_gate_of_violations hstrict hvs hne).bind_error

/-- What passes the gate has the query of its expression. -/
theorem Resolves.does_previewQuery (h : s.Resolves f e) (hpasses : s.Passes e)
    (before : List Call) :
    (s.previewQuery f).Does before []
      ((Sql.compile .preview s.catalog e).query.mapError .misuse) := by
  refine h.does_resolve.bind_silent ?_
  rw [gate_of_passes hpasses]
  exact (does_pure before ()).bind_silent (s.does_clause .preview e before)

theorem does_demandStore {store : Store} (h : s.store = some store) :
    s.demandStore.Does before [] (.ok store) := by
  unfold demandStore
  rw [h]
  exact does_pure before store

/-- An operation that looks for the store and the query, inquires, and passes on what it found. -/
theorem asks_of_inquires {α β : Type} {statements : Store → Sql.Query → List Call}
    {inquiry : Store → Sql.Query → Action α} {k : α → Action β}
    (h : ∀ (store : Store) (q : Sql.Query),
      store.Inquires answers (statements store q) (inquiry store q))
    (hk : ∀ x before, ∃ r, (k x).Does before [] r ∧ Store.Admits r) :
    s.Asks answers f statements (do
      let store ← s.demandStore
      let q ← s.previewQuery f
      inquiry store q >>= k) where
  storeless hstore before := by
    unfold demandStore
    rw [hstore]
    exact (does_throw before _).bind_error
  unresolved store x hstore hresolution before :=
    (does_demandStore hstore).bind_silent (does_previewQuery_of_error hresolution).bind_error
  rejected store e vs hstore hf hstrict hvs hne before :=
    (does_demandStore hstore).bind_silent
      (hf.does_previewQuery_of_violations hstrict hvs hne).bind_error
  unwritable store e m hstore hf hpasses hq before := by
    have hquery := hf.does_previewQuery hpasses before
    rw [hq] at hquery
    exact (does_demandStore hstore).bind_silent hquery.bind_error
  inquires store e q hstore hf hpasses hq := by
    have hquery (before : List Call) : (s.previewQuery f).Does before [] (.ok q) := by
      have hquery := hf.does_previewQuery hpasses before
      rwa [hq] at hquery
    exact .after (fun before => does_demandStore hstore)
      (.after hquery ((h store q).then hk))

/-- A preview asks for a page of what the filters select. -/
theorem asks_preview (limit offset select : Value) :
    s.Asks answers f (fun store q => store.pageStatements q limit offset select)
      (s.preview answers f limit offset select) := by
  refine asks_of_inquires (fun _ q => Store.inquires_page q limit offset select) ?_
  exact fun page before =>
    ⟨.ok page, (does_log before _ _ _).bind_silent (does_pure before page), nofun⟩

/-- A count asks how many contacts the filters select. -/
theorem asks_count : s.Asks answers f Store.countStatements (s.count answers f) := by
  refine asks_of_inquires (fun _ q => Store.inquires_total q) fun n before => ?_
  -- a count that the database answers may have no text to be logged
  cases hn : n.display with
  | error m =>
    exact ⟨.error (.misuse m), (does_orMisuse before _).bind_error, nofun⟩
  | ok text =>
    exact ⟨.ok n, (does_orMisuse before _).bind_silent
      ((does_log before _ _ _).bind_silent (does_pure before n)), nofun⟩

/-- Strict mode is an exact gate: it rejects just what has violations, with these, and changes
nothing else.  What it rejects does not reach the database, and what passes is asked for with its
own query on one connection.  Where all columns are texts, there is a query unless a value that has
to be written cannot be. -/
theorem strict_gate (s : Service) (answers : Answers) (f : FiltersInput) :
    (∀ e vs, s.Resolves f e → s.catalog.validate e = .ok vs → s.strict = true →
      (vs ≠ [] → ∀ before, (s.compile e).Does before [] (.error (.rejected vs)) ∧
        (s.compileFilters f).Does before [] (.error (.rejected vs))) ∧
      (vs = [] → s.compile e = { s with strict := false }.compile e ∧
        s.compileFilters f = { s with strict := false }.compileFilters f ∧
        Store.Admits (s.compiled e) ∧
        ∀ before, (s.compile e).Does before [] (s.compiled e) ∧
          (s.compileFilters f).Does before [] (s.compiled e))) ∧
    (∀ limit offset select,
      s.Asks answers f (fun store q => store.pageStatements q limit offset select)
        (s.preview answers f limit offset select)) ∧
    s.Asks answers f Store.countStatements (s.count answers f) ∧
    ((∀ field ∈ s.catalog.fields, ∃ name, field.column = .text name) →
      ∀ e m, (Sql.compile .preview s.catalog e).query = .error m →
        m = .value ∧ ∃ c ∈ e.leaves, ∃ vs, Sql.written .preview s.catalog c = .ok vs ∧
          ∃ v ∈ vs, v.isWritable = false) := by
  refine ⟨fun e vs hf hvs hstrict => ⟨fun hne before => ?_, fun hnil => ?_⟩,
    fun _ _ _ => asks_preview _ _ _, asks_count, fun htexts e m hq => ?_⟩
  · have hcompile : (s.compile e).Does before [] (.error (.rejected vs)) :=
      (does_gate_of_violations hstrict hvs hne).bind_error
    exact ⟨hcompile, hf.does_resolve.bind_silent hcompile⟩
  · have hpasses : s.Passes e := fun _ => by rw [hvs, hnil]
    refine ⟨compile_of_passes hpasses, compileFilters_of_passes hf hpasses, admits_compiled s e,
      fun before => ?_⟩
    have hcompile := does_compile_of_passes hpasses before
    exact ⟨hcompile, hf.does_resolve.bind_silent hcompile⟩
  · refine exists_of_query_eq_error (fun field hfield => ?_) hq
    obtain ⟨name, hname⟩ := htexts field hfield
    rw [hname]
    exact ⟨_, rfl⟩

/-- An unknown field is rejected before the database is reached, and a known one is counted. -/
theorem strict_gate_bundled :
    let store : Store := { path := "p.db", catalog := .bundled }
    let s : Service := { catalog := .bundled, store := some store }
    let answers : Answers := { statement := fun _ => .ok {} }
    let valid : Condition :=
      { field := .text "intent.score", operator := .text "gte", value := .int 5 }
    let unknown : Condition := { valid with field := .text "shoe_size" }
    let filters (c : Condition) : FiltersInput :=
      .envelope { mode := .boolean, expression := some (.alone c) }
    let violation : Violation := ⟨.unknownField, unknown, [0], "unknown field: shoe_size"⟩
    (s.compile (.alone unknown)).Does [] [] (.error (.rejected [violation])) ∧
    (s.count answers (filters unknown)).Does [] [] (.error (.rejected [violation])) ∧
    ∃ r, (s.count answers (filters valid)).Does [] (store.opened ++
      [.execute "SELECT COUNT(*) FROM \"audience_contacts\" WHERE (\"intent.score\" >= ?)"
        (some [.int 5])] ++ [.close]) r := by
  intro store s answers valid unknown filters violation
  obtain ⟨hgate, -, hcount, -⟩ := strict_gate s answers (filters unknown)
  obtain ⟨-, -, hcount', -⟩ := strict_gate s answers (filters valid)
  have hviolations : s.catalog.validate (.alone unknown) = .ok [violation] := rfl
  have hquery : (Sql.compile .preview s.catalog (.alone valid)).query =
      .ok ⟨"(\"intent.score\" >= ?)", [.int 5]⟩ := by
    rfl
  have htext : store.countQuery "(\"intent.score\" >= ?)" =
      "SELECT COUNT(*) FROM \"audience_contacts\" WHERE (\"intent.score\" >= ?)" := by decide
  refine ⟨?_, ?_, ?_⟩
  · exact (((hgate _ _ rfl hviolations rfl).1 nofun) []).1
  · exact hcount.rejected store _ _ rfl rfl rfl hviolations nofun []
  · obtain ⟨r, hdoes, -⟩ :=
      (hcount'.inquires store _ _ rfl rfl (fun _ => rfl) hquery).ready (fun _ _ => rfl) []
    rw [Store.countStatements, htext] at hdoes
    exact ⟨r, hdoes⟩

/-- Where the column of a field is no text, what is valid may have no query, and there is no
connection. -/
theorem count_numberedColumn :
    let s : Service := {
      catalog := Sql.numberedColumn
      store := some { path := "p.db", catalog := Sql.numberedColumn } }
    let e := Expression.alone { field := .text "a", operator := .text "eq", value := .int 1 }
    let f : FiltersInput := .envelope { mode := .boolean, expression := some e }
    s.Resolves f e ∧ s.catalog.validate e = .ok [] ∧ ∀ answers,
      (s.count answers f).Does [] [] (.error (.misuse .part)) ∧
      ¬∃ calls r, (s.count answers f).Does [] calls r ∧ calls.countP (Call.opens answers) = 1 := by
  intro s e f
  have hdoes (answers : Answers) : (s.count answers f).Does [] [] (.error (.misuse .part)) := by
    have hasks : s.Asks answers f Store.countStatements (s.count answers f) := asks_count
    exact hasks.unwritable _ e .part rfl rfl (fun _ => rfl) rfl []
  refine ⟨rfl, rfl, fun answers => ⟨hdoes answers, ?_⟩⟩
  rintro ⟨calls, r, h, hone⟩
  obtain ⟨rfl, -⟩ := h.unique (hdoes answers)
  cases hone

end Service

end Cohort
