import Cohort.Proofs.Sql.Degradation

/-!
# Clause templates

A template is a clause in which the dialect is still open: a list of tokens
that name columns by their mappers and parameters by their numbers.  Rendering
settles the dialect.  The template of a tree is defined by recursion on the
tree; a number is passed along, the next one that is free.
-/

namespace Cohort.Sql

inductive Token where
  /-- Words of the language, written as they are. -/
  | words (s : String)
  /-- A column of the table. -/
  | column (name : Value)
  /-- The word that matches a pattern. -/
  | likeWord
  /-- The place of the parameter with a number, counted from one. -/
  | slot (number : Nat)

namespace Dialect

/-- A column as it stands in a clause.  One that cannot be written is blank. -/
def columnText (d : Dialect) (name : Value) : String :=
  if d.quoteColumns then quoteIdentifier name.shown else name.shown

/-- What is written for a column is its text in the dialect. -/
theorem display_of_column {d : Dialect} {name written : Value} (h : d.column name = .ok written)
    (hwritable : written.isWritable = true) : written.display = .ok (d.columnText name) := by
  unfold column at h
  unfold columnText
  split at h
  case isTrue hquote =>
    split at h
    · cases h
      rw [if_pos hquote]
      rfl
    · cases h
  case isFalse hquote =>
    cases h
    rw [if_neg hquote]
    exact Value.display_eq_shown hwritable

def token (d : Dialect) : Token → String
  | .words s => s
  | .column name => d.columnText name
  | .likeWord => d.likeWord
  | .slot n => d.slots.mark n

def render (d : Dialect) (tokens : List Token) : String := String.join (tokens.map d.token)

@[simp] theorem render_nil (d : Dialect) : d.render [] = "" := by simp [render]

@[simp] theorem render_cons (d : Dialect) (t : Token) (ts : List Token) :
    d.render (t :: ts) = d.token t ++ d.render ts := by
  simp [render]

/-- Templates behind each other render to texts behind each other. -/
@[simp] theorem render_append (d : Dialect) (ts us : List Token) :
    d.render (ts ++ us) = d.render ts ++ d.render us := by
  simp [render]

end Dialect

/-- Tokens and the parameters that their slots stand for. -/
structure Clause where
  tokens : List Token
  params : List Value := []

namespace Clause

def ofWords (s : String) : Clause where
  tokens := [.words s]

/-- The clause that is always true. -/
def always : Clause := ofWords "TRUE"

/-- The clause that is never true. -/
def never : Clause := ofWords "FALSE"

def parenthesized (c : Clause) : Clause :=
  { c with tokens := .words "(" :: c.tokens ++ [.words ")"] }

def negate (c : Clause) : Clause := { c with tokens := .words "NOT (" :: c.tokens ++ [.words ")"] }

/-- The clause, negated if asked for. -/
def negateIf (negated : Bool) (c : Clause) : Clause := if negated then c.negate else c

/-- Slots separated by commas, for `count` parameters from number `next` on. -/
def slotList (next : Nat) : Nat → List Token
  | 0 => []
  | 1 => [.slot next]
  | count + 2 => .slot next :: .words ", " :: slotList (next + 1) (count + 1)

def compare (column : Value) (sign : Token) (next : Nat) (v : Value) : Clause where
  tokens := [.column column, .words " ", sign, .words " ", .slot next]
  params := [v]

def between (column : Value) (next : Nat) (v : Value) : Clause :=
  match v.sequence? with
  | some [low, high] => {
      tokens := [.column column, .words " BETWEEN ", .slot next, .words " AND ", .slot (next + 1)]
      params := [low, high] }
  | _ => always

def member (negated : Bool) (column : Value) (next : Nat) (v : Value) : Clause :=
  match v.sequence? with
  | none => compare column (.words (if negated then "!=" else "=")) next v
  | some [] => if negated then always else never
  | some items => {
      tokens := .column column :: .words (if negated then " NOT IN (" else " IN (")
        :: slotList next items.length ++ [.words ")"]
      params := items }

def withinRadius (column : Value) (next : Nat) (v : Value) : Clause :=
  match v.get? "lat", v.get? "lng", v.get? "radiusKm" with
  | some lat, some lng, some radius => {
      tokens := [.words "earth_distance(ll_to_earth(", .slot next, .words ", ", .slot (next + 1),
        .words "), ", .column column, .words ") <= ", .slot (next + 2), .words " * 1000"]
      params := [lat, lng, radius] }
  | _, _, _ => always

def constant (column : Value) (test : String) : Clause where
  tokens := [.column column, .words test]

/-- The clause of an operator on a column, for a value that fits it. -/
def ofTest (op : Operator) (column : Value) (next : Nat) (v : Value) : Clause :=
  match op with
  | .between => between column next v
  | .isIn => member false column next v
  | .notIn => member true column next v
  | .present => constant column " IS NOT NULL"
  | .absent => constant column " IS NULL"
  | .isTrue => constant column " = true"
  | .isFalse => constant column " = false"
  | .withinRadius => withinRadius column next v
  | op =>
    match comparison? op, pattern? v op with
    | some sign, _ => compare column (.words sign) next v
    | none, some p => compare column .likeWord next (.text (p.toOption.getD ""))
    | none, none => always

def ofCondition (cat : Catalog) (next : Nat) (c : Condition) : Clause :=
  match target cat c with
  | .error _ => always
  | .ok (op, column) =>
    if fits op c.value then (ofTest op column next c.value).negateIf c.negated else always

/-- Clauses, each in parentheses, with a connective between them. -/
def join (op : Connective) : List Clause → Clause
  | [] => always
  | [c] => c.parenthesized
  | c :: d :: cs =>
    let rest := join op (d :: cs)
    { tokens := c.parenthesized.tokens ++ .words (" " ++ op.word ++ " ") :: rest.tokens
      params := c.params ++ rest.params }

mutual

/-- The clause of a node, with slots from number `next` on. -/
def ofNode (cat : Catalog) (next : Nat) : Node → Clause
  | .condition c => ofCondition cat next c
  | .group op cs negated => (join op (ofNodes cat next cs)).negateIf negated

def ofNodes (cat : Catalog) (next : Nat) : List Node → List Clause
  | [] => []
  | n :: ns =>
    let c := ofNode cat next n
    c :: ofNodes cat (next + c.params.length) ns

end

/-- The clause of an expression; its slots are numbered from one. -/
def ofExpression (cat : Catalog) (e : Expression) : Clause := ofNode cat 1 e.toNode

@[simp] theorem tokens_parenthesized (c : Clause) :
    c.parenthesized.tokens = .words "(" :: c.tokens ++ [.words ")"] := rfl

@[simp] theorem params_parenthesized (c : Clause) : c.parenthesized.params = c.params := rfl

@[simp] theorem params_negateIf (negated : Bool) (c : Clause) :
    (c.negateIf negated).params = c.params := by
  cases negated <;> rfl

/-- Joined clauses bind their parameters one after the other. -/
@[simp] theorem params_join (op : Connective) (cs : List Clause) :
    (join op cs).params = cs.flatMap params := by
  induction cs with
  | nil => rfl
  | cons c cs ih =>
    cases cs with
    | nil => simp [join]
    | cons d ds => simp [join, ih]

/-- A condition is degraded and its clause is TRUE, or it has the clause of its operator on the
column of its field. -/
theorem ofCondition_cases (cat : Catalog) (c : Condition) :
    (∃ r, degradation? cat c = some r ∧ ∀ next, ofCondition cat next c = always) ∨
    (∃ f op, cat.find? c.field = some f ∧ Operator.ofValue? c.operator = some op ∧
      supports op = true ∧ fits op c.value = true ∧ degradation? cat c = none ∧
      ∀ next, ofCondition cat next c = (ofTest op f.column next c.value).negateIf c.negated) := by
  unfold ofCondition
  rcases target_cases cat c with ⟨r, ht, hd⟩ | ⟨f, op, ht, hf, hop, hs, hd⟩
  · exact .inl ⟨r, hd, fun _ => by rw [ht]⟩
  · cases hfit : fits op c.value with
    | false => exact .inl ⟨_, by rw [hd, hfit]; rfl, fun _ => by simp [ht, hfit]⟩
    | true =>
      exact .inr ⟨f, op, hf, hop, hs, hfit, by rw [hd, hfit]; rfl, fun _ => by simp [ht, hfit]⟩

/-! ## Rendered clauses -/

/-- Rendering commutes with negation. -/
theorem render_negateIf (d : Dialect) (negated : Bool) (c : Clause) :
    d.render (c.negateIf negated).tokens = Sql.negateIf negated (d.render c.tokens) := by
  cases negated
  · rfl
  · simp [negateIf, negate, Sql.negateIf, Dialect.token, String.append_assoc]

/-- Rendering commutes with joining. -/
theorem render_join (d : Dialect) (op : Connective) (cs : List Clause) :
    d.render (join op cs).tokens = Sql.join op (cs.map fun c => d.render c.tokens) := by
  induction cs with
  | nil => simp [join, always, ofWords, Sql.join, Dialect.token]
  | cons c cs ih =>
    cases cs with
    | nil => simp [join, Sql.join, Dialect.token, String.append_assoc]
    | cons e es =>
      simp only [Sql.join, List.map_cons, List.isEmpty_cons, Bool.false_eq_true, if_false] at ih ⊢
      rw [String.intercalate_cons_cons, ← ih]
      simp [join, Dialect.token, String.append_assoc]

/-- A list of slots renders to marks with commas between them. -/
theorem render_slotList (d : Dialect) (next count : Nat) :
    d.render (slotList next count) =
      ", ".intercalate ((List.range' next count).map d.slots.mark) := by
  induction count generalizing next with
  | zero => simp [slotList]
  | succ count ih =>
    cases count with
    | zero => simp [slotList, Dialect.token]
    | succ k =>
      have h := ih (next + 1)
      rw [List.range'_succ, List.map_cons] at h
      rw [List.range'_succ, List.range'_succ, List.map_cons, List.map_cons,
        String.intercalate_cons_cons, ← h]
      simp [slotList, Dialect.token, String.append_assoc]

end Clause

end Cohort.Sql
