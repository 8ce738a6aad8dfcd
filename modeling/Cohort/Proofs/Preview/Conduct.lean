import Cohort.Preview.Connection

/-!
# What actions do

The conduct of an action: the calls it makes, in order, and how it ends.  It may
depend on the calls made before, whose statements are counted, but not on what
has been logged.  The calls of a composed action are those of its parts, one
after the other, up to the first part that fails.
-/

namespace Cohort

namespace Action

variable {α β : Type}

/-- Behind some calls, and whatever has been logged, an action makes certain calls and ends with a
certain result. -/
def Does (a : Action α) (before calls : List Call) (r : Except Failure α) : Prop :=
  ∀ records, ∃ records',
    a.run.run ⟨before, records⟩ = (r, ⟨before ++ calls, records ++ records'⟩)

/-! ## Steps -/

section Steps

variable {a : Action α} {k : α → Action β} {before calls calls' : List Call}

/-- An action does one thing only, from where it starts. -/
theorem Does.unique {r r' : Except Failure α} (h : a.Does before calls r)
    (h' : a.Does before calls' r') : calls = calls' ∧ r = r' := by
  obtain ⟨_, hrun⟩ := h []
  obtain ⟨_, hrun'⟩ := h' []
  obtain ⟨hresult, htrace⟩ := Prod.mk.inj (hrun.symm.trans hrun')
  exact ⟨List.append_cancel_left (congrArg Trace.calls htrace), hresult⟩

/-- An action behind one that succeeds starts from the calls of both. -/
theorem Does.bind {x : α} {r : Except Failure β} (ha : a.Does before calls (.ok x))
    (hk : (k x).Does (before ++ calls) calls' r) : (a >>= k).Does before (calls ++ calls') r := by
  intro records
  obtain ⟨records', hrun⟩ := ha records
  obtain ⟨records'', hrun'⟩ := hk (records ++ records')
  refine ⟨records' ++ records'', ?_⟩
  rw [ExceptT.run_bind, StateT.run_bind, hrun, ← List.append_assoc, ← List.append_assoc]
  exact hrun'

/-- A step without calls leaves it to the next one what is done. -/
theorem Does.bind_silent {x : α} {r : Except Failure β} (ha : a.Does before [] (.ok x))
    (hk : (k x).Does before calls r) : (a >>= k).Does before calls r :=
  ha.bind (by rwa [List.append_nil])

/-- What is left to do may be done without calls. -/
theorem Does.bind_last {x : α} {r : Except Failure β} (ha : a.Does before calls (.ok x))
    (hk : (k x).Does (before ++ calls) [] r) : (a >>= k).Does before calls r := by
  rw [← List.append_nil calls]
  exact ha.bind hk

/-- Nothing follows an action that fails. -/
theorem Does.bind_error {f : Failure} (ha : a.Does before calls (.error f)) :
    (a >>= k).Does before calls (.error f) := by
  intro records
  obtain ⟨records', hrun⟩ := ha records
  refine ⟨records', ?_⟩
  rw [ExceptT.run_bind, StateT.run_bind, hrun]
  rfl

variable (before)

theorem does_pure (x : α) : (pure x : Action α).Does before [] (.ok x) :=
  fun records => ⟨[], by rw [List.append_nil, List.append_nil]; rfl⟩

theorem discard_eq_bind (a : Action α) : discard a = a >>= fun _ => pure () := by
  rw [Functor.discard, LawfulFunctor.map_const, Function.comp_apply, map_eq_pure_bind]

theorem does_throw (f : Failure) : (throw f : Action α).Does before [] (.error f) :=
  fun records => ⟨[], by rw [List.append_nil, List.append_nil]; rfl⟩

theorem does_call (cs : List Call) : (call cs).Does before cs (.ok ()) :=
  fun records => ⟨[], by rw [List.append_nil]; rfl⟩

theorem does_log (level : Log.Level) (logger message : String) :
    (log level logger message).Does before [] (.ok ()) :=
  fun records => ⟨[⟨level, logger, message⟩], by rw [List.append_nil]; rfl⟩

theorem does_logAll (level : Log.Level) (logger : String) (messages : List String) :
    (logAll level logger messages).Does before [] (.ok ()) :=
  fun records => ⟨messages.map (⟨level, logger, ·⟩), by rw [List.append_nil]; rfl⟩

theorem does_orMisuse (x : Except Misuse α) :
    (orMisuse x).Does before [] (x.mapError .misuse) := by
  cases x with
  | error m => exact does_throw before _
  | ok x => exact does_pure before x

/-- A statement is answered by its number among the statements. -/
theorem does_execute (answers : Answers) (sql : String) (params : Option (List Value)) :
    (execute answers sql params).Does before [.execute sql params]
      (.ok (answers.statement (before.countP Call.isStatement))) :=
  fun records => ⟨[], by rw [List.append_nil]; rfl⟩

variable {before}

theorem Does.discard {x : α} (h : a.Does before calls (.ok x)) :
    (Functor.discard a).Does before calls (.ok ()) := by
  rw [discard_eq_bind]
  exact h.bind_last (does_pure _ ())

theorem Does.discard_error {f : Failure} (h : a.Does before calls (.error f)) :
    (Functor.discard a).Does before calls (.error f) := by
  rw [discard_eq_bind]
  exact h.bind_error

/-! ## Loops -/

/-- What a loop over a list does, item after item. -/
abbrev each (act : α → Action Unit) (xs : List α) : Action PUnit :=
  forIn xs PUnit.unit fun x _ => do
    act x
    pure (ForInStep.yield PUnit.unit)

variable {act : α → Action Unit} {x : α} {xs : List α}

/-- A loop goes on behind an item that succeeds. -/
theorem does_each_cons {r : Except Failure PUnit} (hx : (act x).Does before calls (.ok ()))
    (hxs : (each act xs).Does (before ++ calls) calls' r) :
    (each act (x :: xs)).Does before (calls ++ calls') r := by
  rw [each, List.forIn_cons]
  have hstep : (act x >>= fun _ => pure (ForInStep.yield PUnit.unit)).Does before calls
      (.ok (.yield PUnit.unit)) := hx.bind_last (does_pure _ _)
  exact hstep.bind hxs

/-- A loop ends at the first item that fails. -/
theorem does_each_cons_error {f : Failure} (hx : (act x).Does before calls (.error f)) :
    (each act (x :: xs)).Does before calls (.error f) := by
  rw [each, List.forIn_cons]
  exact hx.bind_error.bind_error

end Steps

/-! ## Actions that only query -/

/-- An action makes no calls but statements. -/
def IsQuerying (a : Action α) : Prop :=
  ∀ before, ∃ calls r, a.Does before calls r ∧ ∀ c ∈ calls, c.isStatement = true

namespace IsQuerying

theorem bind {a : Action α} {k : α → Action β} (ha : a.IsQuerying) (hk : ∀ x, (k x).IsQuerying) :
    (a >>= k).IsQuerying := by
  intro before
  obtain ⟨calls, r, hdoes, hcalls⟩ := ha before
  cases r with
  | error f => exact ⟨calls, .error f, hdoes.bind_error, hcalls⟩
  | ok x =>
    obtain ⟨calls', r', hdoes', hcalls'⟩ := hk x (before ++ calls)
    refine ⟨calls ++ calls', r', hdoes.bind hdoes', ?_⟩
    rw [List.forall_mem_append]
    exact ⟨hcalls, hcalls'⟩

theorem pure (x : α) : (pure x : Action α).IsQuerying :=
  fun before => ⟨[], _, does_pure before x, nofun⟩

theorem throw (f : Failure) : (throw f : Action α).IsQuerying :=
  fun before => ⟨[], _, does_throw before f, nofun⟩

theorem log (level : Log.Level) (logger message : String) :
    (log level logger message).IsQuerying :=
  fun before => ⟨[], _, does_log before level logger message, nofun⟩

theorem orMisuse (x : Except Misuse α) : (orMisuse x).IsQuerying :=
  fun before => ⟨[], _, does_orMisuse before x, nofun⟩

theorem each {act : α → Action Unit} (h : ∀ x, (act x).IsQuerying) (xs : List α) :
    (each act xs).IsQuerying := by
  induction xs with
  | nil => exact pure _
  | cons x xs ih =>
    rw [Action.each, List.forIn_cons]
    exact ((h x).bind fun _ => pure _).bind fun
      | .yield _ => ih
      | .done _ => pure _

theorem discard {a : Action α} (h : a.IsQuerying) : (discard a).IsQuerying := by
  rw [discard_eq_bind]
  exact h.bind fun _ => pure ()

end IsQuerying

end Action

/-! ## Connections -/

namespace ConnectionUse

open Cohort.Action

variable {α : Type} {u : ConnectionUse} {answers : Answers} {body : Action α}
  {before setup calls : List Call} {e : DatabaseError}

/-- The calls that set up a connection are made up to one that is refused. -/
inductive Refused (answers : Answers) (e : DatabaseError) : List Call → List Call → Prop
  | here {c : Call} {setup : List Call} :
      answers.refusal c = some e → Refused answers e (c :: setup) [c]
  | later {c : Call} {setup calls : List Call} :
      answers.refusal c = none → Refused answers e setup calls →
        Refused answers e (c :: setup) (c :: calls)

/-- Every call of a setup is accepted, or there is a first one that is refused. -/
theorem accepted_or_refused (answers : Answers) (setup : List Call) :
    (∀ c ∈ setup, answers.refusal c = none) ∨ ∃ e calls, Refused answers e setup calls := by
  induction setup with
  | nil => exact .inl nofun
  | cons c setup ih =>
    cases hc : answers.refusal c with
    | some e => exact .inr ⟨e, [c], .here hc⟩
    | none =>
      refine ih.imp (fun h => List.forall_mem_cons.mpr ⟨hc, h⟩) ?_
      rintro ⟨e, calls, h⟩
      exact ⟨e, c :: calls, .later hc h⟩

theorem Refused.subset (h : Refused answers e setup calls) : calls ⊆ setup := by
  induction h with
  | here _ => exact List.cons_subset_cons _ (List.nil_subset _)
  | later _ _ ih => exact List.cons_subset_cons _ ih

/-- A setup without a refusal makes all its calls. -/
theorem does_setUp (h : ∀ c ∈ setup, answers.refusal c = none) :
    (setUp answers setup).Does before setup (.ok ()) := by
  induction setup generalizing before with
  | nil => exact does_pure before ()
  | cons c setup ih =>
    obtain ⟨hc, hsetup⟩ := List.forall_mem_cons.mp h
    refine (does_call before [c]).bind ?_
    rw [hc]
    exact ih hsetup

/-- A setup ends with the call that is refused. -/
theorem Refused.does_setUp (h : Refused answers e setup calls) :
    (setUp answers setup).Does before calls (.error (.database e.name)) := by
  induction h generalizing before with
  | here hc =>
    refine (does_call before _).bind_last ?_
    rw [hc]
    exact does_throw _ _
  | later hc _ ih =>
    refine (does_call before _).bind ?_
    rw [hc]
    exact ih

/-- What is done on an open connection stands before the calls that end it. -/
theorem does_runOpen {r : Except Failure α}
    (h : (setUp answers u.setup >>= fun _ => body).Does before calls r) :
    (u.runOpen answers body).Does before (calls ++ u.ending r.isOk) r := by
  intro records
  obtain ⟨records', hrun⟩ := h records
  refine ⟨records', ?_⟩
  rw [runOpen, ExceptT.run_mk, StateT.run_bind, hrun, ← List.append_assoc]
  rfl

/-- The calls that open a connection and set it up. -/
def opening (u : ConnectionUse) : List Call := .connect u.path :: u.setup

theorem does_run_of_setUp {r : Except Failure α}
    (hconnect : answers.refusal (.connect u.path) = none)
    (h : (setUp answers u.setup >>= fun _ => body).Does (before ++ [.connect u.path]) calls r) :
    (u.run answers body).Does before (.connect u.path :: calls ++ u.ending r.isOk) r := by
  have hrun := does_runOpen h
  unfold run
  rw [hconnect]
  exact (does_call before [.connect u.path]).bind hrun

/-- On a connection that is set up, the body runs between the opening and the ending calls. -/
theorem does_run {r : Except Failure α} (hopen : ∀ c ∈ u.opening, answers.refusal c = none)
    (h : body.Does (before ++ u.opening) calls r) :
    (u.run answers body).Does before (u.opening ++ calls ++ u.ending r.isOk) r := by
  obtain ⟨hconnect, hset⟩ := List.forall_mem_cons.mp hopen
  refine does_run_of_setUp hconnect ((does_setUp hset).bind ?_)
  rwa [List.append_assoc]

/-- Where the setup is refused, the body does not run and the connection is closed all the same. -/
theorem Refused.does_run (hconnect : answers.refusal (.connect u.path) = none)
    (h : Refused answers e u.setup calls) :
    (u.run answers body).Does before (.connect u.path :: calls ++ u.ending false)
      (.error (.database e.name)) :=
  does_run_of_setUp hconnect h.does_setUp.bind_error

/-- Nothing is done where the connection is not opened, not even to close it. -/
theorem does_run_of_refusal (h : answers.refusal (.connect u.path) = some e) :
    (u.run answers body).Does before [.connect u.path] (.error (.database e.name)) := by
  unfold run
  rw [h]
  exact (does_call before [.connect u.path]).bind_last (does_throw _ _)

end ConnectionUse

end Cohort
