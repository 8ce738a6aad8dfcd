import Cohort.Proofs.Preview.Protocol
import Cohort.Proofs.Preview.Table

/-!
# What is executed

The statements of the preview store are followed from the arguments of its
operations to the calls that are made.  The text of a query is put together from
quoted names, plain words and one clause, and is read back as such; the numbers
behind the parameters of the clause are within their bounds, and they are those of
the page that is returned.
-/

namespace Cohort

/-! ## Requirements on actions -/

namespace Action

variable {α β : Type} {P : Call → Prop} {Q : α → Prop} {R : β → Prop}

/-- Whatever was done before, an action comes to an end; its statements are as required, and so is
its result. -/
def Meets (a : Action α) (P : Call → Prop) (Q : α → Prop) : Prop :=
  ∀ before, ∃ calls r, a.Does before calls r ∧ (∀ c ∈ calls, c.isStatement = true → P c) ∧
    ∀ x, r = .ok x → Q x

namespace Meets

/-- What two actions call is what either calls, and the second relies on what the first returns. -/
theorem bind {a : Action α} {k : α → Action β} (ha : a.Meets P Q)
    (hk : ∀ x, Q x → (k x).Meets P R) : (a >>= k).Meets P R := by
  intro before
  obtain ⟨calls, r, hdoes, hcalls, hr⟩ := ha before
  cases r with
  | error f => exact ⟨calls, .error f, hdoes.bind_error, hcalls, nofun⟩
  | ok x =>
    obtain ⟨calls', r', hdoes', hcalls', hr'⟩ := hk x (hr x rfl) (before ++ calls)
    refine ⟨calls ++ calls', r', hdoes.bind hdoes', ?_, hr'⟩
    rw [List.forall_mem_append]
    exact ⟨hcalls, hcalls'⟩

theorem imp {a : Action α} {Q' : α → Prop} (ha : a.Meets P Q) (h : ∀ x, Q x → Q' x) :
    a.Meets P Q' := by
  intro before
  obtain ⟨calls, r, hdoes, hcalls, hr⟩ := ha before
  exact ⟨calls, r, hdoes, hcalls, fun x hx => h x (hr x hx)⟩

/-- An action without calls only has to meet what is required of its result. -/
theorem of_silent {a : Action α} {r : Except Failure α} (h : ∀ before, a.Does before [] r)
    (hr : ∀ x, r = .ok x → Q x) : a.Meets P Q :=
  fun before => ⟨[], r, h before, nofun, hr⟩

theorem pure {x : α} (h : Q x) : (pure x : Action α).Meets P Q := by
  refine of_silent (fun before => does_pure before x) ?_
  rintro y ⟨⟩
  exact h

theorem throw (f : Failure) : (throw f : Action α).Meets P Q :=
  of_silent (fun before => does_throw before f) nofun

theorem log (level : Log.Level) (logger message : String) :
    (log level logger message).Meets P fun _ => True :=
  of_silent (fun before => does_log before level logger message) fun _ _ => trivial

theorem logAll (level : Log.Level) (logger : String) (messages : List String) :
    (logAll level logger messages).Meets P fun _ => True :=
  of_silent (fun before => does_logAll before level logger messages) fun _ _ => trivial

theorem orMisuse (x : Except Misuse α) : (orMisuse x).Meets P fun y => x = .ok y := by
  refine of_silent (fun before => does_orMisuse before x) ?_
  intro y hy
  cases x with
  | error m => cases hy
  | ok x =>
    cases hy
    rfl

/-- Calls that are no statements meet anything. -/
theorem call {cs : List Call} (h : ∀ c ∈ cs, c.isStatement = false) :
    (call cs).Meets P fun _ => True := by
  intro before
  refine ⟨cs, _, does_call before cs, ?_, fun _ _ => trivial⟩
  intro c hc hstatement
  rw [h c hc] at hstatement
  cases hstatement

end Meets

end Action

theorem ConnectionUse.not_isStatement_of_mem_setup {u : ConnectionUse} {c : Call}
    (h : c ∈ u.setup) : c.isStatement = false := by
  simp only [setup, List.mem_append, List.mem_cons, List.not_mem_nil, or_false, List.mem_map] at h
  obtain (rfl | rfl) | ⟨f, -, rfl⟩ := h <;> rfl

theorem ConnectionUse.not_isStatement_of_mem_ending {u : ConnectionUse} {success : Bool} {c : Call}
    (h : c ∈ u.ending success) : c.isStatement = false := by
  unfold ending at h
  split at h
  case isTrue =>
    rw [List.mem_cons, List.mem_singleton] at h
    rcases h with rfl | rfl
    · cases success <;> rfl
    · rfl
  case isFalse =>
    rw [List.mem_singleton] at h
    rw [h]
    rfl

open Cohort.Action in
/-- The statements on a connection are those of what is done on it. -/
theorem ConnectionUse.meets_run {α : Type} {P : Call → Prop} {Q : α → Prop} (u : ConnectionUse)
    (answers : Answers) {body : Action α} (h : body.Meets P Q) :
    (u.run answers body).Meets P Q := by
  intro before
  have hapart : ∀ {c : Call}, c.isStatement = false → c.isStatement = true → P c := by
    intro c hc hstatement
    rw [hc] at hstatement
    cases hstatement
  cases hconnect : answers.refusal (.connect u.path) with
  | some e =>
    refine ⟨_, _, does_run_of_refusal hconnect, ?_, nofun⟩
    rw [List.forall_mem_singleton]
    exact hapart rfl
  | none =>
    obtain hset | ⟨e, calls, hrefused⟩ := accepted_or_refused answers u.setup
    · obtain ⟨calls, r, hdoes, hcalls, hr⟩ := h (before ++ u.opening)
      refine ⟨_, r, does_run (List.forall_mem_cons.mpr ⟨hconnect, hset⟩) hdoes, ?_, hr⟩
      intro c hc
      rw [List.mem_append, List.mem_append, opening, List.mem_cons] at hc
      rcases hc with ((rfl | hc) | hc) | hc
      · exact hapart rfl
      · exact hapart (not_isStatement_of_mem_setup hc)
      · exact hcalls c hc
      · exact hapart (not_isStatement_of_mem_ending hc)
    · refine ⟨_, _, hrefused.does_run hconnect, ?_, nofun⟩
      intro c hc
      rw [List.mem_append, List.mem_cons] at hc
      rcases hc with (rfl | hc) | hc
      · exact hapart rfl
      · exact hapart (not_isStatement_of_mem_setup (hrefused.subset hc))
      · exact hapart (not_isStatement_of_mem_ending hc)

namespace Store

open Cohort.Action

variable {s : Store} {answers : Answers} {P : Call → Prop} {q : Sql.Query}

/-! ## The texts of queries -/

/-- A selection shows the names of its columns and no marks. -/
theorem shows_selection {select : Value} {columns : String} (h : selection select = .ok columns) :
    ∃ names, Sql.Shows columns 0 names := by
  unfold selection at h
  split at h
  case isTrue =>
    cases h
    exact ⟨[], .words (by decide)⟩
  case isFalse =>
    split at h
    case h_1 names _ =>
      cases hquoted : names.mapM identifier with
      | error m => simp [hquoted, Except.map] at h
      | ok quoted =>
        rw [hquoted] at h
        cases h
        have hwrite : ∀ v ∈ names, ∀ text, identifier v = .ok text →
            ∃ name, id v = .text name ∧ Sql.Shows text 0 [name] := by
          intro v _ text hv
          obtain ⟨name, hname, rfl⟩ := identifier_eq_ok_iff.mp hv
          exact ⟨name, hname, .identifier name⟩
        obtain ⟨shown, -, hshows⟩ := exists_names_of_written hwrite (mapM_eq_ok_iff.mp hquoted)
        exact ⟨shown, .intercalate (by decide) hshows⟩
    case h_2 => cases h

/-- A page shows the marks of its clause and two more, for its bounds. -/
theorem shows_pageQuery {columns clause : String} {marks : Nat} {names names' : List String}
    (hcolumns : Sql.Shows columns 0 names) (hclause : Sql.Shows clause marks names') :
    Sql.Shows (s.pageQuery columns clause) (marks + 2) (names ++ s.table :: names') := by
  have htail : " ORDER BY id LIMIT ? OFFSET ?" =
      " ORDER BY id LIMIT " ++ ("?" ++ (" OFFSET " ++ "?")) := by decide
  have hselect := hcolumns.before (by decide : Sql.IsPlain "SELECT ")
  have hfrom := hselect.between (by decide : Sql.IsPlain " FROM ") (.identifier s.table)
  have hwhere := hfrom.between (by decide : Sql.IsPlain " WHERE ") hclause
  have hlimit := hwhere.between (by decide : Sql.IsPlain " ORDER BY id LIMIT ") .mark
  have hoffset := hlimit.between (by decide : Sql.IsPlain " OFFSET ") .mark
  rw [pageQuery, htail]
  simpa [String.append_assoc] using hoffset

/-- A count shows the marks of its clause. -/
theorem shows_countQuery {clause : String} {marks : Nat} {names : List String}
    (hclause : Sql.Shows clause marks names) :
    Sql.Shows (s.countQuery clause) marks (s.table :: names) := by
  have hfrom := (Sql.Shows.identifier s.table).before
    (by decide : Sql.IsPlain "SELECT COUNT(*) FROM ")
  have hwhere := hfrom.between (by decide : Sql.IsPlain " WHERE ") hclause
  rwa [Nat.zero_add] at hwhere

/-! ## The bounds of a page -/

/-- A page size is never negative and never above the largest one. -/
theorem bounds_of_clampLimit {v : Value} {limit : Int} (h : s.clampLimit v = .ok limit) :
    0 ≤ limit ∧ limit ≤ max 0 s.maxLimit := by
  obtain ⟨n, -, h⟩ := exists_of_bind_eq_ok h
  cases h
  omega

theorem nonneg_of_clampOffset {v : Value} {offset : Int} (h : clampOffset v = .ok offset) :
    0 ≤ offset := by
  obtain ⟨n, -, h⟩ := exists_of_bind_eq_ok h
  cases h
  omega

/-- A whole number, a text or nothing at all, as it may be handed in for a number. -/
inductive IsCount : Value → Prop
  | int (n : Int) : IsCount (.int n)
  | text (s : String) : IsCount (.text s)
  | null : IsCount .null

theorem IsCount.exists_numberOr {v : Value} (h : IsCount v) (default : Int) :
    ∃ n, numberOr v default = .ok n := by
  cases h with
  | int n => exact ⟨n, rfl⟩
  | null => exact ⟨default, rfl⟩
  | text s =>
    cases hread : Decimal.readInt? s with
    | some n => exact ⟨n, by simp [numberOr, Value.toInt, hread]⟩
    | none => exact ⟨default, by simp [numberOr, Value.toInt, hread]⟩

/-- A list of names, or nothing at all, as it may be handed in for the columns to show. -/
inductive IsSelect : Value → Prop
  | names (ns : List String) : IsSelect (.list (ns.map .text))
  | null : IsSelect .null

theorem IsSelect.exists_selection {v : Value} (h : IsSelect v) :
    ∃ columns, selection v = .ok columns := by
  cases h with
  | null => exact ⟨"*", rfl⟩
  | names ns =>
    unfold selection
    split
    case isTrue => exact ⟨"*", rfl⟩
    case isFalse =>
      refine ⟨", ".intercalate (ns.map Sql.quoteIdentifier), ?_⟩
      dsimp only [Value.parts?]
      rw [mapM_identifier]
      rfl

/-! ## The operations -/

theorem meets_executeQuery {what clause sql : String} {params : List Value}
    (h : P (.execute sql (some params))) :
    (executeQuery answers what clause sql params).Meets P fun _ => True := by
  intro before
  refine ⟨_, _, does_executeQuery answers before what clause sql params, ?_, fun _ _ => trivial⟩
  intro c hc _
  rw [List.mem_singleton] at hc
  rwa [hc]

/-- Fetching a page executes its statement and no other one. -/
theorem meets_page {limit offset select : Value}
    (h : ∀ l o columns, s.clampLimit limit = .ok l → clampOffset offset = .ok o →
      selection select = .ok columns →
      P (.execute (s.pageQuery columns q.text) (some (q.params ++ [.int l, .int o])))) :
    (s.page answers q.text (.list q.params) limit offset select).Meets P fun page =>
      s.clampLimit limit = .ok page.limit ∧ clampOffset offset = .ok page.offset := by
  refine (s.use false).meets_run answers ?_
  refine .bind (.orMisuse _) fun l hl => .bind (.orMisuse _) fun o ho =>
    .bind (.orMisuse _) fun columns hcolumns => ?_
  refine .bind (meets_executeQuery (h l o columns hl ho hcolumns)) fun cursor _ => ?_
  refine .bind (.orMisuse _) fun rows _ => .bind (.orMisuse _) fun _ _ =>
    .bind (.log _ _ _) fun _ _ => ?_
  exact .pure ⟨hl, ho⟩

/-- Counting executes its statement and no other one. -/
theorem meets_total (h : P (.execute (s.countQuery q.text) (some q.params))) :
    (s.total answers q.text (.list q.params)).Meets P fun _ => True := by
  refine (s.use false).meets_run answers ?_
  refine .bind (meets_executeQuery h) fun cursor _ => ?_
  split
  · exact .pure trivial
  · exact .pure trivial

/-- Preparing executes the statement that creates the table and no other one. -/
theorem meets_prepare (h : ∀ sql, s.createTable = .ok sql → P (.execute sql none)) :
    (s.prepare answers).Meets P fun _ => True := by
  have hcreate : ∀ sql, s.createTable = .ok sql →
      (executeOrFail answers sql none).Meets P fun _ => True := by
    intro sql hsql before
    refine ⟨_, _, does_executeOrFail answers before sql none, ?_, fun _ _ => trivial⟩
    intro c hc _
    rw [List.mem_singleton] at hc
    rw [hc]
    exact h sql hsql
  have hrun : ∀ sql, s.createTable = .ok sql →
      (ConnectionUse.run { path := s.path, writer := true } answers do
        discard (executeOrFail answers sql none)).Meets P fun _ => True := by
    intro sql hsql
    refine ConnectionUse.meets_run _ answers ?_
    rw [discard_eq_bind]
    exact (hcreate sql hsql).bind fun _ _ => .pure trivial
  have hrest := (Meets.orMisuse (P := P) s.createTable).bind fun sql hsql =>
    (hrun sql hsql).bind fun _ _ => .log .info Log.storeLogger
      ("Preview store ready at " ++ s.path ++ " (table " ++ s.table ++ ")")
  unfold prepare
  dsimp only
  split
  · refine .bind (.call ?_) fun _ _ => hrest
    intro c hc
    rw [List.mem_singleton] at hc
    rw [hc]
    rfl
  · exact hrest

end Store

end Cohort
