import Cohort.Proofs.Expression.Matching
import Cohort.Proofs.Sql.Template
import Mathlib.Data.List.TakeWhile

/-!
# Compilations render templates

A compilation binds its parameters as it goes and writes in one dialect.
Where all that it writes for the conditions can be written, it leaves the
rendering of the template and its parameters behind those that were bound
before, and it notes the conditions that have no clause.  Otherwise it stops at
the first condition that is in its way.
-/

namespace Cohort.Sql

/-! ## Bindings -/

/-- The result of a step with some parameters bound: what it writes and what is bound at its end, or
why it gives up, unless it ends the compilation. -/
def bindFrom {α : Type} (bound : List Value) (m : Binding α) :
    Except Misuse (Except Degradation (α × List Value)) := (m.run bound).run

section Binding

variable {α β : Type} {bound bound' : List Value} {a : α} {m : Binding α}

/-- A step that succeeds hands its result and what is bound on to the next one. -/
theorem bindFrom_of_ok (f : α → Binding β) (h : bindFrom bound m = .ok (.ok (a, bound'))) :
    bindFrom bound (m >>= f) = bindFrom bound' (f a) := by
  have hrun : (m.run bound).run = .ok (.ok (a, bound')) := h
  rw [bindFrom, StateT.run_bind, ExceptT.run_bind, hrun]
  rfl

/-- A misuse ends all that would be bound behind it. -/
theorem bindFrom_of_misuse {e : Misuse} (f : α → Binding β) (h : bindFrom bound m = .error e) :
    bindFrom bound (m >>= f) = .error e := by
  have hrun : (m.run bound).run = .error e := h
  rw [bindFrom, StateT.run_bind, ExceptT.run_bind, hrun]
  rfl

theorem bindFrom_write_of_ok {text : Except Misuse String} {t : String} (h : text = .ok t)
    (bound : List Value) : bindFrom bound (write text) = .ok (.ok (t, bound)) := by
  rw [h]
  rfl

theorem bindFrom_write_of_misuse {text : Except Misuse String} {e : Misuse} (h : text = .error e)
    (bound : List Value) : bindFrom bound (write text) = .error e := by
  rw [h]
  rfl

/-- A slot has the number behind those of the parameters bound so far. -/
theorem bindFrom_slot (d : Dialect) (v : Value) (bound : List Value) :
    bindFrom bound (slot d v) = .ok (.ok (d.slots.mark (bound.length + 1), bound ++ [v])) := by
  have h : bound.length + 1 = (bound ++ [v]).length := by simp
  rw [h]
  rfl

/-- Slots for several values are numbered through. -/
theorem bindFrom_mapM_slot (d : Dialect) (items bound : List Value) :
    bindFrom bound (items.mapM (slot d)) =
      .ok (.ok ((List.range' (bound.length + 1) items.length).map d.slots.mark,
        bound ++ items)) := by
  induction items generalizing bound with
  | nil => simp; rfl
  | cons v vs ih =>
    rw [List.mapM_cons, bindFrom_of_ok _ (bindFrom_slot d v bound), bindFrom_of_ok _ (ih _)]
    simp [List.range'_succ]
    rfl

end Binding

/-! ## Tests -/

/-- A step writes the rendering of a clause and binds its parameters, if some values can be
written. -/
def Emits (d : Dialect) (bound : List Value) (m : Binding String) (c : Clause) (fits : Bool) :
    Prop :=
  bindFrom bound m =
    if fits then .ok (.ok (d.render c.tokens, bound ++ c.params)) else .error .value

section Tests

variable {d : Dialect} {name column : Value} (hcolumn : d.column name = .ok column)
  (bound : List Value)

include hcolumn

/-- A column that can be written is written as its text in the dialect. -/
theorem bindFrom_column (h : column.isWritable = true) :
    bindFrom bound (write column.display) = .ok (.ok (d.columnText name, bound)) :=
  bindFrom_write_of_ok (Dialect.display_of_column hcolumn h) bound

omit hcolumn in

/-- A column that cannot be written is a misuse of a value. -/
theorem bindFrom_column_of_misuse (h : column.isWritable = false) :
    bindFrom bound (write column.display) = .error .value :=
  bindFrom_write_of_misuse ((Value.isWriting_display column).error_iff.mpr ⟨h, rfl⟩) bound

/-- A comparison emits its clause just if its column can be written. -/
theorem emits_compare (sign : Token) (v : Value) :
    Emits d bound (compare d column (d.token sign) v) (.compare name sign (bound.length + 1) v)
      column.isWritable := by
  rw [Emits, compare]
  cases h : column.isWritable with
  | false => exact bindFrom_of_misuse _ (bindFrom_column_of_misuse bound h)
  | true =>
    rw [bindFrom_of_ok _ (bindFrom_column hcolumn bound h),
      bindFrom_of_ok _ (bindFrom_slot d v bound)]
    simp [Clause.compare, Dialect.token, String.append_assoc]
    rfl

theorem emits_constant (test : String) :
    Emits d bound (constant column test) (.constant name test) column.isWritable := by
  rw [Emits, constant]
  cases h : column.isWritable with
  | false => exact bindFrom_of_misuse _ (bindFrom_column_of_misuse bound h)
  | true =>
    rw [bindFrom_of_ok _ (bindFrom_column hcolumn bound h)]
    simp [Clause.constant, Dialect.token]
    rfl

/-- A range test emits its clause if the value is a pair. -/
theorem emits_between {v : Value} (hfits : fits .between v = true) :
    Emits d bound (between d column v) (.between name (bound.length + 1) v) column.isWritable := by
  obtain ⟨low, high, hv⟩ := fits_between_iff.mp hfits
  simp only [Emits, between, Clause.between, hv]
  rw [bindFrom_of_ok _ (bindFrom_slot d low _), bindFrom_of_ok _ (bindFrom_slot d high _)]
  cases h : column.isWritable with
  | false => exact bindFrom_of_misuse _ (bindFrom_column_of_misuse _ h)
  | true =>
    rw [bindFrom_of_ok _ (bindFrom_column hcolumn _ h)]
    simp [Dialect.token, String.append_assoc]
    rfl

/-- Nothing is written of the column where the list is empty. -/
theorem emits_member (negated : Bool) (v : Value) :
    Emits d bound (member d negated column v) (.member negated name (bound.length + 1) v)
      (v.sequence?.any (·.isEmpty) || column.isWritable) := by
  cases hv : v.sequence? with
  | none =>
    simp only [member, Clause.member, hv]
    exact emits_compare hcolumn bound (.words (if negated then "!=" else "=")) v
  | some items =>
    cases items with
    | nil =>
      simp only [Emits, member, Clause.member, hv]
      cases negated <;> simp [Clause.always, Clause.never, Clause.ofWords, Dialect.token] <;> rfl
    | cons w ws =>
      simp only [Emits, member, Clause.member, hv]
      rw [bindFrom_of_ok _ (bindFrom_mapM_slot d (w :: ws) bound)]
      cases h : column.isWritable with
      | false => exact bindFrom_of_misuse _ (bindFrom_column_of_misuse _ h)
      | true =>
        rw [bindFrom_of_ok _ (bindFrom_column hcolumn _ h)]
        simp [Dialect.token, Clause.render_slotList, String.append_assoc]
        rfl

/-- A distance test emits its clause if the value is a circle. -/
theorem emits_withinRadius {v : Value} (hfits : fits .withinRadius v = true) :
    Emits d bound (withinRadius d column v) (.withinRadius name (bound.length + 1) v)
      column.isWritable := by
  obtain ⟨lat, lng, radius, hlat, hlng, hradius⟩ := fits_withinRadius_iff.mp hfits
  simp only [Emits, withinRadius, Clause.withinRadius, hlat, hlng, hradius]
  rw [bindFrom_of_ok _ (bindFrom_slot d lat _), bindFrom_of_ok _ (bindFrom_slot d lng _),
    bindFrom_of_ok _ (bindFrom_slot d radius _)]
  cases h : column.isWritable with
  | false => exact bindFrom_of_misuse _ (bindFrom_column_of_misuse _ h)
  | true =>
    rw [bindFrom_of_ok _ (bindFrom_column hcolumn _ h)]
    simp [Dialect.token, String.append_assoc]
    rfl

/-- The values that are written for a test: its column, unless the test is constant, and the text
that a pattern is made of. -/
def writtenFor (op : Operator) (column v : Value) : List Value :=
  (if (emptyTest? op v).isSome then [] else [column]) ++ if (pattern? v op).isSome then [v] else []

/-- A pattern is written before its column, so both have to be fit for it. -/
theorem emits_pattern (v : Value) (g : String → String) :
    Emits d bound (do compare d column d.likeWord (.text (← write (v.display.map g))))
      (.compare name .likeWord (bound.length + 1) (.text ((v.display.map g).toOption.getD "")))
      (column.isWritable && v.isWritable) := by
  have hv := (Value.isWriting_display v).map g
  rw [Emits]
  cases h : v.isWritable with
  | false =>
    rw [h] at hv
    rw [Bool.and_false]
    exact bindFrom_of_misuse _ (bindFrom_write_of_misuse hv bound)
  | true =>
    rw [h] at hv
    obtain ⟨t, ht⟩ := hv
    rw [bindFrom_of_ok _ (bindFrom_write_of_ok ht bound), ht, Bool.and_true]
    exact emits_compare hcolumn bound .likeWord (.text t)

omit hcolumn in

/-- A membership test writes its column, except for the empty list. -/
theorem all_writtenFor_member {op : Operator} (h : op = .isIn ∨ op = .notIn) (v : Value) :
    (writtenFor op column v).all (·.isWritable) =
      (v.sequence?.any (·.isEmpty) || column.isWritable) := by
  rcases hv : v.sequence? with _ | _ | ⟨w, ws⟩ <;> rcases h with rfl | rfl <;>
    simp [writtenFor, emptyTest?, pattern?, hv]

/-- A supported operator emits its clause where the value fits. -/
theorem emits_lower {op : Operator} (hs : supports op = true) {v : Value}
    (hfits : fits op v = true) :
    Emits d bound (lower d op column v) (.ofTest op name (bound.length + 1) v)
      ((writtenFor op column v).all (·.isWritable)) := by
  have hone : [column].all (·.isWritable) = column.isWritable := by simp
  cases op
  case between => exact hone ▸ emits_between hcolumn bound hfits
  case withinRadius => exact hone ▸ emits_withinRadius hcolumn bound hfits
  case isIn =>
    rw [all_writtenFor_member (.inl rfl)]
    exact emits_member hcolumn bound false v
  case notIn =>
    rw [all_writtenFor_member (.inr rfl)]
    exact emits_member hcolumn bound true v
  case present => exact hone ▸ emits_constant hcolumn bound " IS NOT NULL"
  case absent => exact hone ▸ emits_constant hcolumn bound " IS NULL"
  case isTrue => exact hone ▸ emits_constant hcolumn bound " = true"
  case isFalse => exact hone ▸ emits_constant hcolumn bound " = false"
  case matchText => cases hs
  case matchAny => cases hs
  case contains | containsAnyCase | startsWith | endsWith =>
    have hboth : [column, v].all (·.isWritable) = (column.isWritable && v.isWritable) := by simp
    exact hboth ▸ emits_pattern hcolumn bound v _
  all_goals exact hone ▸ emits_compare hcolumn bound (.words _) v

end Tests

/-- A supported operator gives up where the value does not fit. -/
theorem bindFrom_lower_of_not_fits {op : Operator} {v : Value} (h : fits op v = false)
    (d : Dialect) (column : Value) (bound : List Value) :
    bindFrom bound (lower d op column v) = .ok (.error (.malformedValue (expectation op))) := by
  cases op
  case between =>
    simp only [lower, between]
    split
    case h_1 hv => simp [fits, hv] at h
    case h_2 => rfl
  case withinRadius =>
    simp only [lower, withinRadius]
    split
    case h_1 hlat hlng hradius => simp [fits, hlat, hlng, hradius] at h
    case h_2 => rfl
  all_goals cases h

/-! ## Conditions -/

/-- The values that are written for a condition, unless its column is none that the dialect takes:
those of its test, or those that the warning about it tells. -/
def written (d : Dialect) (cat : Catalog) (c : Condition) : Except Misuse (List Value) :=
  match target cat c with
  | .error reason => .ok (reason.told c)
  | .ok (op, name) => do
    let column ← d.column name
    return if fits op c.value then writtenFor op column c.value
      else (Degradation.malformedValue (expectation op)).told c

/-- The misuse that ends a compilation at a condition, if one does. -/
def obstacle? (d : Dialect) (cat : Catalog) (c : Condition) : Option Misuse :=
  match written d cat c with
  | .ok vs => if vs.all (·.isWritable) then none else some .value
  | .error e => some e

/-- The misuse that ends the compilation of an expression, if one does: that of the first condition
that has one. -/
def hindrance? (d : Dialect) (cat : Catalog) (e : Expression) : Option Misuse :=
  e.leaves.findSome? (obstacle? d cat)

/-- What hinders no expression is no obstacle in any of its conditions. -/
theorem obstacle?_of_hindrance? {d : Dialect} {cat : Catalog} {e : Expression}
    (h : hindrance? d cat e = none) : ∀ c ∈ e.leaves, obstacle? d cat c = none :=
  List.findSome?_eq_none_iff.mp h

/-- The result of a step with something collected before, and what is collected at its end. -/
def runFrom {α : Type} (s : Collected) (m : Compiling α) : Except Misuse α × Collected :=
  m.run.run s

/-- What is collected once some conditions, and with them some parameters, are compiled. -/
def Collected.add (s : Collected) (cat : Catalog) (params : List Value) (cs : List Condition) :
    Collected where
  params := s.params ++ params
  degraded := s.degraded ++ degradations cat cs

@[simp] theorem Collected.params_add (s : Collected) (cat : Catalog) (params : List Value)
    (cs : List Condition) : (s.add cat params cs).params = s.params ++ params := rfl

theorem Collected.add_nil (s : Collected) (cat : Catalog) : s.add cat [] [] = s := by
  simp [add]

/-- What is collected in two steps is collected in one. -/
theorem Collected.add_add (s : Collected) (cat : Catalog) (ps qs : List Value)
    (cs ds : List Condition) :
    (s.add cat ps cs).add cat qs ds = s.add cat (ps ++ qs) (cs ++ ds) := by
  simp [add]

section Running

variable {α β : Type} {m : Compiling α} {a : α} {e : Misuse} {s s' : Collected}

theorem runFrom_mk (r : Except Misuse α) : runFrom s (ExceptT.mk (pure r)) = (r, s) := rfl

/-- A step that succeeds hands its result and what is collected on to the next one. -/
theorem runFrom_bind_of_ok (f : α → Compiling β) (h : runFrom s m = (.ok a, s')) :
    runFrom s (m >>= f) = runFrom s' (f a) := by
  have hrun : m.run.run s = (.ok a, s') := h
  rw [runFrom, ExceptT.run_bind, StateT.run_bind, hrun]
  rfl

/-- A step that fails fails the whole. -/
theorem runFrom_bind_of_error (f : α → Compiling β) (h : runFrom s m = (.error e, s')) :
    runFrom s (m >>= f) = (.error e, s') := by
  have hrun : m.run.run s = (.error e, s') := h
  rw [runFrom, ExceptT.run_bind, StateT.run_bind, hrun]
  rfl

end Running

section Conditions

variable {d : Dialect} {cat : Catalog} {c : Condition} {s : Collected}

/-- A condition that has no clause is noted and renders TRUE, if the warning about it can be
written. -/
theorem runFrom_settle_error {r : Degradation} (hd : degradation? cat c = some r) :
    runFrom s (settle c (.error r)) =
      if (r.told c).all (·.isWritable) then
        (.ok (d.render Clause.always.tokens), s.add cat Clause.always.params [c])
      else (.error .value, s) := by
  have hmessage := isWriting_message c r
  cases h : (r.told c).all (·.isWritable) with
  | false =>
    rw [h] at hmessage
    rw [settle, (hmessage : r.message c = .error .value)]
    rfl
  | true =>
    rw [h] at hmessage
    obtain ⟨warning, hwarning⟩ := hmessage
    have hkept : degradations cat [c] = [⟨c, r, warning⟩] := by
      simp [degradations, omission?, hd, hwarning, Except.toOption]
    rw [settle, hwarning, if_pos rfl, Collected.add, hkept]
    simp [Clause.always, Clause.ofWords, Dialect.token]
    rfl

/-- A condition whose column the dialect takes is settled by its lowering. -/
theorem runFrom_condition_of_column {op : Operator} {name column : Value}
    (ht : target cat c = .ok (op, name)) (hcolumn : d.column name = .ok column) :
    runFrom s (condition d cat c) =
      match bindFrom s.params (lower d op column c.value) with
      | .ok r => runFrom s (settle c r)
      | .error e => (.error e, s) := by
  have hsplit : runFrom s (condition d cat c) =
      runFrom s (do
        settle c (← ExceptT.mk (pure (bindFrom s.params (lower d op column c.value))))) := by
    rw [condition, ht]
    dsimp only
    rw [hcolumn]
    rfl
  rw [hsplit]
  cases bindFrom s.params (lower d op column c.value) with
  | ok r => rfl
  | error e => rfl

/-- A condition without a target is an obstacle if the warning about it cannot be written. -/
theorem obstacle?_of_error {r : Degradation} (ht : target cat c = .error r) :
    obstacle? d cat c = if (r.told c).all (·.isWritable) then none else some .value := by
  rw [obstacle?, written, ht]

/-- A condition on a column is an obstacle if its test, or the warning that it has none, cannot be
written. -/
theorem obstacle?_of_column {op : Operator} {name column : Value}
    (ht : target cat c = .ok (op, name)) (hcolumn : d.column name = .ok column) :
    obstacle? d cat c =
      if (if fits op c.value then writtenFor op column c.value
        else (Degradation.malformedValue (expectation op)).told c).all (·.isWritable) then none
      else some .value := by
  rw [obstacle?, written, ht]
  dsimp only
  rw [hcolumn]
  rfl

/-- In a dialect that takes the columns of a catalog they are never in the way of a compilation. -/
theorem exists_written (h : ∀ f ∈ cat.fields, ∃ column, d.column f.column = .ok column)
    (c : Condition) : ∃ vs, written d cat c = .ok vs := by
  unfold written
  rcases target_cases cat c with ⟨r, ht, -⟩ | ⟨f, op, ht, hf, -⟩
  · rw [ht]
    exact ⟨_, rfl⟩
  · obtain ⟨column, hcolumn⟩ := h f (Catalog.mem_fields_of_find? hf)
    rw [ht]
    dsimp only
    rw [hcolumn]
    exact ⟨_, rfl⟩

/-- Only a value that cannot be written is in the way of a compilation in such a dialect. -/
theorem obstacle?_eq_some_iff (h : ∀ f ∈ cat.fields, ∃ column, d.column f.column = .ok column)
    {m : Misuse} : obstacle? d cat c = some m ↔
      m = .value ∧ ∃ vs, written d cat c = .ok vs ∧ ∃ v ∈ vs, v.isWritable = false := by
  obtain ⟨vs, hvs⟩ := exists_written h c
  simp only [obstacle?, hvs, Except.ok.injEq, exists_eq_left']
  cases hall : vs.all (·.isWritable) with
  | true =>
    have hfine : ¬∃ v ∈ vs, v.isWritable = false := by simpa using hall
    simp [hfine]
  | false =>
    have hstuck : ∃ v ∈ vs, v.isWritable = false := by simpa using hall
    simp [hstuck, eq_comm (a := m)]

/-- A column that the dialect does not take is an obstacle with any value. -/
theorem obstacle?_of_misuse {op : Operator} {name : Value} {m : Misuse}
    (ht : target cat c = .ok (op, name)) (hcolumn : d.column name = .error m) :
    obstacle? d cat c = some m := by
  rw [obstacle?, written, ht]
  dsimp only
  rw [hcolumn]
  rfl

/-- What becomes of a condition: it renders its clause and binds its parameters, or its misuse ends
the compilation. -/
theorem runFrom_condition :
    runFrom s (condition d cat c) =
      match obstacle? d cat c with
      | none =>
        (.ok (d.render (Clause.ofCondition cat (s.params.length + 1) c).tokens),
          s.add cat (Clause.ofCondition cat (s.params.length + 1) c).params [c])
      | some e => (.error e, s) := by
  rcases target_cases cat c with ⟨r, ht, hd⟩ | ⟨f, op, ht, hf, -, hs, hd⟩
  · have hcondition : runFrom s (condition d cat c) = runFrom s (settle c (.error r)) := by
      rw [condition, ht]
    rw [hcondition, runFrom_settle_error (d := d) hd, obstacle?_of_error ht, Clause.ofCondition, ht]
    split <;> rfl
  · cases hcolumn : d.column f.column with
    | error e =>
      rw [condition, obstacle?, written, ht]
      dsimp only
      rw [hcolumn]
      rfl
    | ok column =>
      rw [runFrom_condition_of_column ht hcolumn, obstacle?_of_column ht hcolumn,
        Clause.ofCondition, ht]
      dsimp only
      cases hfit : fits op c.value with
      | false =>
        rw [hfit, if_neg Bool.false_ne_true] at hd
        simp only [bindFrom_lower_of_not_fits hfit, Bool.false_eq_true, if_false]
        rw [runFrom_settle_error (d := d) hd]
        split <;> rfl
      | true =>
        rw [hfit, if_pos rfl] at hd
        have hemits := emits_lower hcolumn s.params hs hfit
        have hkept : degradations cat [c] = [] := by simp [degradations, omission?, hd]
        rw [Emits] at hemits
        simp only [hemits, if_true]
        cases (writtenFor op column c.value).all (·.isWritable) with
        | false => rfl
        | true =>
          rw [Clause.render_negateIf, Clause.params_negateIf, Collected.add, hkept, List.append_nil]
          rfl

end Conditions

/-! ## Trees -/

/-- Whether no misuse ends a compilation at a condition. -/
def isWritable (d : Dialect) (cat : Catalog) (c : Condition) : Bool := (obstacle? d cat c).isNone

section Nodes

variable {d : Dialect} {cat : Catalog}

-- the state stays general in the induction: it settles the number of the next slot
mutual

/-- Compiling a node renders its clause behind what is collected already. -/
theorem runFrom_node {n : Node} (h : n.leaves.findSome? (obstacle? d cat) = none) (s : Collected) :
    runFrom s (node d cat n) =
      (.ok (d.render (Clause.ofNode cat (s.params.length + 1) n).tokens),
        s.add cat (Clause.ofNode cat (s.params.length + 1) n).params n.leaves) :=
  match n with
  | .condition c => by
    have hc : obstacle? d cat c = none := by simpa using h
    rw [node, Clause.ofNode, Node.leaves_condition, runFrom_condition, hc]
  | .group op cs negated => by
    rw [Node.leaves_group] at h
    rw [node, runFrom_bind_of_ok _ (runFrom_nodes h s), Clause.ofNode, Clause.render_negateIf,
      Clause.render_join, Clause.params_negateIf, Clause.params_join, Node.leaves_group]
    rfl

/-- Nodes without obstacles compile to the rendering of their clauses, and add what belongs to them.
-/
theorem runFrom_nodes {ns : List Node}
    (h : (ns.flatMap Node.leaves).findSome? (obstacle? d cat) = none) (s : Collected) :
    runFrom s (nodes d cat ns) =
      (.ok ((Clause.ofNodes cat (s.params.length + 1) ns).map fun c => d.render c.tokens),
        s.add cat ((Clause.ofNodes cat (s.params.length + 1) ns).flatMap Clause.params)
          (ns.flatMap Node.leaves)) :=
  match ns with
  | [] => by
    simp only [Clause.ofNodes, List.flatMap_nil, Collected.add_nil]
    rfl
  | n :: ns => by
    rw [List.flatMap_cons, List.findSome?_append, Option.or_eq_none_iff] at h
    rw [nodes, runFrom_bind_of_ok _ (runFrom_node h.1 s),
      runFrom_bind_of_ok _ (runFrom_nodes h.2 _)]
    simp only [Collected.add_add, Collected.params_add, List.length_append, Clause.ofNodes,
      List.map_cons, List.flatMap_cons, Nat.add_right_comm]
    rfl

end

/-- Conditions that are all fit to be compiled are those without an obstacle. -/
theorem all_isWritable_iff {cs : List Condition} :
    cs.all (isWritable d cat) = true ↔ cs.findSome? (obstacle? d cat) = none := by
  simp [isWritable, List.findSome?_eq_none_iff]

mutual

/-- Compiling stops at the first condition with a misuse. -/
theorem runFrom_node_of_obstacle {n : Node} {e : Misuse}
    (h : n.leaves.findSome? (obstacle? d cat) = some e) (s : Collected) :
    ∃ params, runFrom s (node d cat n) =
      (.error e, s.add cat params (n.leaves.takeWhile (isWritable d cat))) :=
  match n with
  | .condition c => by
    have hc : obstacle? d cat c = some e := by simpa using h
    have hstop : ¬ isWritable d cat c = true := by simp [isWritable, hc]
    refine ⟨[], ?_⟩
    rw [node, runFrom_condition, hc, Node.leaves_condition, List.takeWhile_cons_of_neg hstop,
      Collected.add_nil]
  | .group op cs negated => by
    rw [Node.leaves_group] at h ⊢
    obtain ⟨params, h⟩ := runFrom_nodes_of_obstacle h s
    exact ⟨params, by rw [node, runFrom_bind_of_error _ h]⟩

/-- Nodes compile up to the first obstacle, and what was collected before it stays. -/
theorem runFrom_nodes_of_obstacle {ns : List Node} {e : Misuse}
    (h : (ns.flatMap Node.leaves).findSome? (obstacle? d cat) = some e) (s : Collected) :
    ∃ params, runFrom s (nodes d cat ns) =
      (.error e, s.add cat params ((ns.flatMap Node.leaves).takeWhile (isWritable d cat))) :=
  match ns with
  | [] => by cases h
  | n :: ns => by
    rw [List.flatMap_cons, List.findSome?_append] at h
    rw [List.flatMap_cons]
    cases hn : n.leaves.findSome? (obstacle? d cat) with
    | none =>
      rw [hn, Option.none_or] at h
      obtain ⟨params, h⟩ := runFrom_nodes_of_obstacle h
        (s.add cat (Clause.ofNode cat (s.params.length + 1) n).params n.leaves)
      refine ⟨(Clause.ofNode cat (s.params.length + 1) n).params ++ params, ?_⟩
      rw [nodes, runFrom_bind_of_ok _ (runFrom_node hn s), runFrom_bind_of_error _ h,
        Collected.add_add,
        List.takeWhile_append_of_pos (List.all_eq_true.mp (all_isWritable_iff.mpr hn))]
    | some e' =>
      rw [hn, Option.some_or, Option.some.injEq] at h
      subst h
      obtain ⟨params, h⟩ := runFrom_node_of_obstacle hn s
      have hstop : ¬ n.leaves.all (isWritable d cat) = true := by
        rw [all_isWritable_iff, hn]
        exact nofun
      refine ⟨params, ?_⟩
      rw [nodes, runFrom_bind_of_error _ h, takeWhile_append_of_not_all hstop]

end

end Nodes

/-- What a compilation leaves: the rendering of the template and its parameters, unless a misuse
ends it, and the conditions that have no clause, up to the first one with a misuse. -/
theorem compile_eq (d : Dialect) (cat : Catalog) (e : Expression) :
    compile d cat e =
      { query := match hindrance? d cat e with
          | none =>
            .ok ⟨d.render (Clause.ofExpression cat e).tokens, (Clause.ofExpression cat e).params⟩
          | some m => .error m
        degraded := degradations cat (e.leaves.takeWhile (isWritable d cat)) } := by
  cases h : hindrance? d cat e with
  | none =>
    have hwritable : ∀ c ∈ e.leaves, isWritable d cat c = true :=
      List.all_eq_true.mp (all_isWritable_iff.mpr h)
    have hrun := runFrom_node h {}
    rw [runFrom] at hrun
    simp only [compile, hrun]
    rw [List.takeWhile_eq_self_iff.mpr hwritable]
    simp [Clause.ofExpression, Collected.add, Expression.leaves, Except.map]
  | some m =>
    obtain ⟨params, hrun⟩ := runFrom_node_of_obstacle h {}
    rw [runFrom] at hrun
    simp only [compile, hrun]
    simp [Collected.add, Expression.leaves, Except.map]

/-- Where all can be written for a condition without a clause, so can the warning about it. -/
theorem exists_omission? {d : Dialect} {cat : Catalog} {c : Condition}
    (hc : isWritable d cat c = true) {r : Degradation} (hr : degradation? cat c = some r) :
    ∃ warning, omission? cat c = some ⟨c, r, warning⟩ := by
  have hnone : obstacle? d cat c = none := by simpa [isWritable] using hc
  have htold : (r.told c).all (·.isWritable) = true := by
    rcases target_cases cat c with ⟨r', ht, hd⟩ | ⟨f, op, ht, hf, -, hs, hd⟩
    · rw [hd, Option.some.injEq] at hr
      subst hr
      simpa [obstacle?_of_error ht] using hnone
    · cases hcolumn : d.column f.column with
      | error e => simp [obstacle?, written, ht, hcolumn, bind, Except.bind] at hnone
      | ok column =>
        cases hfit : fits op c.value with
        | true => simp [hd, hfit] at hr
        | false =>
          rw [hfit, if_neg Bool.false_ne_true] at hd
          rw [hd, Option.some.injEq] at hr
          subst hr
          rw [obstacle?_of_column ht hcolumn, hfit, if_neg Bool.false_ne_true] at hnone
          simpa using hnone
  obtain ⟨warning, hwarning⟩ := (isWriting_message c r).exists_ok_iff.mpr htold
  exact ⟨warning, by simp [omission?, hr, hwarning, Except.toOption]⟩

/-- Nothing is kept of a condition that has a clause. -/
theorem omission?_of_isLowered {cat : Catalog} {c : Condition} (h : isLowered cat c = true) :
    omission? cat c = none := by
  have hnone : degradation? cat c = none := by simpa [isLowered] using h
  rw [omission?, hnone]
  rfl

/-- What is kept of the conditions without a clause tells which they are, where all can be
written. -/
theorem map_condition_degradations {d : Dialect} {cat : Catalog} {cs : List Condition}
    (h : ∀ c ∈ cs, isWritable d cat c = true) :
    (degradations cat cs).map (·.condition) = cs.filter (!isLowered cat ·) := by
  induction cs with
  | nil => rfl
  | cons c cs ih =>
    obtain ⟨hc, hcs⟩ := List.forall_mem_cons.mp h
    have ih := ih hcs
    rw [degradations] at ih ⊢
    cases hr : degradation? cat c with
    | none =>
      have hlowered : isLowered cat c = true := by rw [isLowered, hr]; rfl
      rw [List.filterMap_cons_none (omission?_of_isLowered hlowered), ih,
        List.filter_cons_of_neg (by simp [hlowered])]
    | some r =>
      obtain ⟨warning, hwarning⟩ := exists_omission? hc hr
      have hlowered : isLowered cat c = false := by rw [isLowered, hr]; rfl
      rw [List.filterMap_cons_some hwarning, List.map_cons, ih,
        List.filter_cons_of_pos (by simp [hlowered])]

/-! ## Trees that match -/

section Matches

variable {cat : Catalog} {R : Condition → Condition → Prop}

mutual

/-- Trees whose conditions have the same clauses have the same clause. -/
theorem Clause.ofNode_eq_of_matches
    (hR : ∀ c c', R c c' → ∀ next, ofCondition cat next c = ofCondition cat next c')
    {n n' : Node} (h : n.Matches R n') (next : Nat) : ofNode cat next n = ofNode cat next n' :=
  match n, n' with
  | .condition c, .condition c' => by
    rw [Node.Matches] at h
    exact hR c c' h next
  | .group op cs negated, .group op' cs' negated' => by
    rw [Node.Matches] at h
    obtain ⟨rfl, rfl, h⟩ := h
    rw [ofNode, ofNode, Clause.ofNodes_eq_of_allMatch hR h]

theorem Clause.ofNodes_eq_of_allMatch
    (hR : ∀ c c', R c c' → ∀ next, ofCondition cat next c = ofCondition cat next c')
    {ns ns' : List Node} (h : Node.AllMatch R ns ns') (next : Nat) :
    ofNodes cat next ns = ofNodes cat next ns' :=
  match ns, ns' with
  | [], [] => rfl
  | n :: ns, n' :: ns' => by
    rw [Node.AllMatch] at h
    rw [ofNodes, ofNodes, Clause.ofNode_eq_of_matches hR h.1, Clause.ofNodes_eq_of_allMatch hR h.2]

end

/-- Conditions that have the same obstacles one by one have the same first one. -/
theorem findSome?_eq_of_forall₂ {d : Dialect}
    (hR : ∀ c c', R c c' → obstacle? d cat c = obstacle? d cat c') {cs cs' : List Condition}
    (h : List.Forall₂ R cs cs') :
    cs.findSome? (obstacle? d cat) = cs'.findSome? (obstacle? d cat) := by
  induction h with
  | nil => rfl
  | cons hc _ ih => rw [List.findSome?_cons, List.findSome?_cons, hR _ _ hc, ih]

/-- Expressions whose conditions have the same misuses and the same clauses are compiled to the same
query. -/
theorem query_compile_eq_of_matches {d : Dialect}
    (hobstacle : ∀ c c', R c c' → obstacle? d cat c = obstacle? d cat c')
    (hclause : ∀ c c', R c c' → ∀ next,
      Clause.ofCondition cat next c = Clause.ofCondition cat next c')
    {e e' : Expression} (h : e.toNode.Matches R e'.toNode) :
    (compile d cat e).query = (compile d cat e').query := by
  have hhindrance : hindrance? d cat e = hindrance? d cat e' :=
    findSome?_eq_of_forall₂ hobstacle h.leaves
  have hclauses : Clause.ofExpression cat e = Clause.ofExpression cat e' :=
    Clause.ofNode_eq_of_matches hclause h 1
  rw [compile_eq, compile_eq, hhindrance, hclauses]

end Matches

end Cohort.Sql
