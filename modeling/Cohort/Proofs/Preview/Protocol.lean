import Cohort.Preview.Store
import Cohort.Proofs.Preview.Conduct

/-!
# The protocol of connections

Every operation of the preview store that opens a connection closes it once and
last.  An operation that writes ends one transaction on it, by a commit or a
rollback; the others end none.  Where the connection is refused there is nothing
to close and nothing to end.
-/

namespace Cohort

namespace Call

/-- Whether a call opens a connection: it is one to connect, and not refused. -/
def opens (answers : Answers) : Call → Bool
  | connect path => (answers.refusal (.connect path)).isNone
  | _ => false

def isClose : Call → Bool
  | close => true
  | _ => false

/-- Whether a call ends a transaction. -/
def isSettling : Call → Bool
  | commit | rollback => true
  | _ => false

/-- Whether a call is made on an open connection, and leaves it and its transaction open. -/
def isWork : Call → Bool
  | pragma _ | execute _ _ | createFunction _ _ => true
  | _ => false

theorem isWork_of_isStatement {c : Call} (h : c.isStatement = true) : c.isWork = true := by
  cases c <;> first | rfl | cases h

/-- Work on a connection neither opens, nor closes, nor settles. -/
theorem exclusive_of_isWork {c : Call} (answers : Answers) (h : c.isWork = true) :
    c.opens answers = false ∧ c.isClose = false ∧ c.isSettling = false := by
  cases c <;> first | exact ⟨rfl, rfl, rfl⟩ | cases h

end Call

/-- At most one connection is opened.  It is closed once, by the last call; a writer ends one
transaction on it, and others none. -/
structure HoldsProtocol (answers : Answers) (writer : Bool) (calls : List Call) : Prop where
  opened : calls.countP (Call.opens answers) ≤ 1
  closed : calls.countP Call.isClose = calls.countP (Call.opens answers)
  last : 0 < calls.countP (Call.opens answers) → calls.getLast?.any Call.isClose = true
  settled : calls.countP Call.isSettling =
    if writer then calls.countP (Call.opens answers) else 0

namespace ConnectionUse

open Cohort.Action

variable {α : Type} {u : ConnectionUse} {answers : Answers} {calls : List Call}

theorem isWork_of_mem_setup {c : Call} (h : c ∈ u.setup) : c.isWork = true := by
  simp only [setup, List.mem_append, List.mem_cons, List.not_mem_nil, or_false, List.mem_map] at h
  obtain (rfl | rfl) | ⟨f, -, rfl⟩ := h <;> rfl

/-- How often a call of a kind is made on a connection, if no work is of the kind. -/
theorem countP_calls {p : Call → Bool} (hp : ∀ c, c.isWork = true → p c = false)
    (h : ∀ c ∈ calls, c.isWork = true) (success : Bool) :
    (.connect u.path :: calls ++ u.ending success).countP p =
      (if p (.connect u.path) then 1 else 0) + (u.ending success).countP p := by
  have hcalls : calls.countP p = 0 := by
    rw [List.countP_eq_zero]
    exact fun c hc => Bool.eq_false_iff.mp (hp c (h c hc))
  rw [List.countP_append, List.countP_cons, hcalls, Nat.zero_add]

/-- A connection is closed once in the end, and settled once by a writer. -/
theorem countP_ending (u : ConnectionUse) (answers : Answers) (success : Bool) :
    (u.ending success).countP (Call.opens answers) = 0 ∧
      (u.ending success).countP Call.isClose = 1 ∧
      (u.ending success).countP Call.isSettling = if u.writer then 1 else 0 := by
  unfold ending
  cases u.writer <;> cases success <;> exact ⟨rfl, rfl, rfl⟩

/-- The last call is the one that closes. -/
theorem getLast?_calls (u : ConnectionUse) (calls : List Call) (success : Bool) :
    (calls ++ u.ending success).getLast? = some .close := by
  unfold ending
  split <;> simp

/-- Work on an open connection holds to the protocol, whether it succeeds or not. -/
theorem holdsProtocol (hconnect : answers.refusal (.connect u.path) = none)
    (h : ∀ c ∈ calls, c.isWork = true) (success : Bool) :
    HoldsProtocol answers u.writer (.connect u.path :: calls ++ u.ending success) := by
  obtain ⟨hopens, hclose, hsettling⟩ := u.countP_ending answers success
  have hapart (c : Call) (hc : c.isWork = true) := Call.exclusive_of_isWork answers hc
  have hone : (.connect u.path :: calls ++ u.ending success).countP (Call.opens answers) = 1 := by
    rw [countP_calls (fun c hc => (hapart c hc).1) h, hopens, Call.opens, hconnect]
    rfl
  constructor
  · exact Nat.le_of_eq hone
  · rw [hone, countP_calls (fun c hc => (hapart c hc).2.1) h, hclose]
    rfl
  · intro _
    rw [getLast?_calls]
    rfl
  · rw [hone, countP_calls (fun c hc => (hapart c hc).2.2) h, hsettling]
    exact Nat.zero_add _

/-- Where no connection is opened there is nothing to hold to. -/
theorem holdsProtocol_of_refusal {e : DatabaseError} (writer : Bool)
    (h : answers.refusal (.connect u.path) = some e) :
    HoldsProtocol answers writer [.connect u.path] := by
  have hnone : [Call.connect u.path].countP (Call.opens answers) = 0 := by
    rw [List.countP_singleton, Call.opens, h]
    rfl
  constructor
  · rw [hnone]
    exact Nat.zero_le 1
  · rw [hnone]
    rfl
  · rw [hnone]
    nofun
  · rw [hnone, ite_self]
    rfl

end ConnectionUse

namespace HoldsProtocol

variable {answers : Answers} {writer : Bool}

theorem nil (answers : Answers) (writer : Bool) : HoldsProtocol answers writer [] where
  opened := Nat.zero_le 1
  closed := rfl
  last := nofun
  settled := by cases writer <;> rfl

/-- A folder may be made before. -/
theorem makeDirectories {calls : List Call} (h : HoldsProtocol answers writer calls)
    (path : String) : HoldsProtocol answers writer (.makeDirectories path :: calls) where
  opened := h.opened
  closed := h.closed
  last hpos := by
    cases calls with
    | nil => cases hpos
    | cons c calls => exact h.last hpos
  settled := h.settled

end HoldsProtocol

/-! ## Operations -/

namespace Action

variable {α β : Type} {answers : Answers} {writer : Bool} {a : Action α} {k : α → Action β}

/-- Whatever was done before, an action holds to the protocol of connections. -/
def KeepsProtocol (answers : Answers) (writer : Bool) (a : Action α) : Prop :=
  ∀ before, ∃ calls r, a.Does before calls r ∧ HoldsProtocol answers writer calls

/-- A misuse before the connection is opened calls nothing. -/
theorem KeepsProtocol.orMisuse_bind {x : Except Misuse α}
    (h : ∀ x, (k x).KeepsProtocol answers writer) :
    (orMisuse x >>= k).KeepsProtocol answers writer := by
  intro before
  cases x with
  | error m => exact ⟨[], _, (does_throw before _).bind_error, HoldsProtocol.nil answers writer⟩
  | ok x =>
    obtain ⟨calls, r, hdoes, hcalls⟩ := h x before
    exact ⟨calls, r, (does_pure before x).bind_silent hdoes, hcalls⟩

theorem KeepsProtocol.makeDirectories_bind {k : Unit → Action β} (path : String)
    (h : (k ()).KeepsProtocol answers writer) :
    (call [.makeDirectories path] >>= k).KeepsProtocol answers writer := by
  intro before
  obtain ⟨calls, r, hdoes, hcalls⟩ := h (before ++ [.makeDirectories path])
  exact ⟨_, r, (does_call before _).bind hdoes, hcalls.makeDirectories path⟩

theorem KeepsProtocol.bind_log (h : a.KeepsProtocol answers writer)
    (level : Log.Level) (logger message : String) :
    (a >>= fun _ => log level logger message).KeepsProtocol answers writer := by
  intro before
  obtain ⟨calls, r, hdoes, hcalls⟩ := h before
  cases r with
  | error f => exact ⟨calls, _, hdoes.bind_error, hcalls⟩
  | ok x => exact ⟨calls, _, hdoes.bind_last (does_log _ level logger message), hcalls⟩

end Action

/-- Querying on a connection holds to the protocol, whatever the database refuses. -/
theorem ConnectionUse.keepsProtocol_run {α : Type} (u : ConnectionUse) (answers : Answers)
    {body : Action α} (h : body.IsQuerying) :
    (u.run answers body).KeepsProtocol answers u.writer := by
  intro before
  cases hconnect : answers.refusal (.connect u.path) with
  | some e =>
    exact ⟨_, _, does_run_of_refusal hconnect, holdsProtocol_of_refusal u.writer hconnect⟩
  | none =>
    obtain hset | ⟨e, calls, hrefused⟩ := accepted_or_refused answers u.setup
    · obtain ⟨calls, r, hdoes, hcalls⟩ := h (before ++ u.opening)
      have hopen : ∀ c ∈ u.opening, answers.refusal c = none :=
        List.forall_mem_cons.mpr ⟨hconnect, hset⟩
      have hwork : ∀ c ∈ u.setup ++ calls, c.isWork = true := by
        rw [List.forall_mem_append]
        exact ⟨fun c => isWork_of_mem_setup, fun c hc => Call.isWork_of_isStatement (hcalls c hc)⟩
      exact ⟨_, r, does_run hopen hdoes, holdsProtocol hconnect hwork r.isOk⟩
    · exact ⟨_, _, hrefused.does_run hconnect,
        holdsProtocol hconnect (fun c hc => isWork_of_mem_setup (hrefused.subset hc)) false⟩

namespace Store

open Cohort.Action

variable (s : Store) (answers : Answers)

/-- The calls that open the connection of an operation on contacts. -/
def opened (s : Store) : List Call :=
  [.connect s.path, .pragma "PRAGMA journal_mode=WAL", .pragma "PRAGMA busy_timeout=5000",
    .createFunction "ll_to_earth" 2, .createFunction "earth_distance" 2]

def queryFailure (what : String) (e : DatabaseError) : Failure :=
  if e.isError then .query what e.text else .database e.name

section Statements

variable (before : List Call)

theorem does_executeOrFail (sql : String) (params : Option (List Value)) :
    (executeOrFail answers sql params).Does before [.execute sql params]
      ((answers.statement (before.countP Call.isStatement)).mapError (.database ·.name)) := by
  refine (does_execute before answers sql params).bind_last ?_
  cases answers.statement (before.countP Call.isStatement) with
  | ok c => exact does_pure _ c
  | error e => exact does_throw _ _

/-- A query makes one call, and returns or fails as the database answers. -/
theorem does_executeQuery (what clause sql : String) (params : List Value) :
    (executeQuery answers what clause sql params).Does before [.execute sql (some params)]
      ((answers.statement (before.countP Call.isStatement)).mapError (queryFailure what)) := by
  refine (does_execute before answers sql (some params)).bind_last ?_
  cases answers.statement (before.countP Call.isStatement) with
  | ok c => exact does_pure _ c
  | error e =>
    change Does _ _ [] (.error (queryFailure what e))
    unfold queryFailure
    dsimp only
    split
    · exact (does_log _ _ _ _).bind_silent (does_throw _ _)
    · exact does_throw _ _

end Statements

theorem isQuerying_executeOrFail (sql : String) (params : Option (List Value)) :
    (executeOrFail answers sql params).IsQuerying :=
  fun before => ⟨_, _, does_executeOrFail answers before sql params, by simp [Call.isStatement]⟩

theorem isQuerying_executeQuery (what clause sql : String) (params : List Value) :
    (executeQuery answers what clause sql params).IsQuerying :=
  fun before => ⟨_, _, does_executeQuery answers before what clause sql params,
    by simp [Call.isStatement]⟩

theorem isQuerying_insert (columns : List (Value × String)) (contact : Value) :
    (s.insert answers columns contact).IsQuerying := by
  unfold insert
  cases contact.parts? with
  | none => exact .throw _
  | some names =>
    refine .bind (.orMisuse _) fun unknown => ?_
    have hinsert := (IsQuerying.orMisuse (s.insertion contact names)).bind fun p =>
      (isQuerying_executeOrFail answers p.1 (some p.2)).discard
    dsimp only
    split
    · exact .bind (.throw _) fun _ => hinsert
    · exact hinsert

/-- Preparing a store keeps to the protocol of a writer. -/
theorem keepsProtocol_prepare : (s.prepare answers).KeepsProtocol answers true := by
  have hrun (sql : String) := ConnectionUse.keepsProtocol_run { path := s.path, writer := true }
    answers (isQuerying_executeOrFail answers sql none).discard
  have hrest := KeepsProtocol.orMisuse_bind (x := s.createTable)
    fun sql => (hrun sql).bind_log .info Log.storeLogger
      ("Preview store ready at " ++ s.path ++ " (table " ++ s.table ++ ")")
  unfold prepare
  dsimp only
  split
  · exact .makeDirectories_bind (folderOf s.path) hrest
  · exact hrest

/-- Adding contacts keeps to the protocol of a writer. -/
theorem keepsProtocol_add (contacts : Value) :
    (s.add answers contacts).KeepsProtocol answers true := by
  refine (s.use true).keepsProtocol_run answers (.bind (.orMisuse s.columns) fun columns => ?_)
  cases contacts.parts? with
  | none => exact .throw _
  | some cs =>
    exact (IsQuerying.each (s.isQuerying_insert answers columns) cs).bind fun _ => .pure _

/-- Fetching a page keeps to the protocol of a reader. -/
theorem keepsProtocol_page (clause : String) (params limit offset select : Value) :
    (s.page answers clause params limit offset select).KeepsProtocol answers false := by
  refine (s.use false).keepsProtocol_run answers (.bind (.orMisuse (s.clampLimit limit)) fun l =>
    .bind (.orMisuse (clampOffset offset)) fun o =>
    .bind (.orMisuse (selection select)) fun cs => ?_)
  cases params.parts? with
  | none => exact .throw _
  | some ps =>
    exact .bind (isQuerying_executeQuery answers _ _ _ _) fun c =>
      .bind (.orMisuse (c.rows.mapM (row c.columns))) fun _ =>
        .bind (.orMisuse _) fun _ => .bind (.log _ _ _) fun _ => .pure _

/-- Counting keeps to the protocol of a reader. -/
theorem keepsProtocol_total (clause : String) (params : Value) :
    (s.total answers clause params).KeepsProtocol answers false := by
  refine (s.use false).keepsProtocol_run answers ?_
  cases params.parts? with
  | none => exact .throw _
  | some ps =>
    refine .bind (isQuerying_executeQuery answers _ _ _ _) fun c => ?_
    split
    · exact .pure _
    · exact .pure _

end Store

end Cohort
