import Cohort.Filters.Envelope
import Cohort.Proofs.Expression.RoundTrip

/-!
# Envelopes read back

An envelope whose tree can be stored is read back from its stored form with the
tree as it is read back; the mode and the simple form are the same.
-/

namespace Cohort

namespace FilterMode

@[simp] theorem ofValue?_id (m : FilterMode) : ofValue? (.text m.id) = some m := by
  cases m <;> decide

end FilterMode

namespace Envelope

/-- The tree of an envelope, if there is one, has texts for fields and operators, and its groups are
nested no deeper than a limit. -/
def IsStorable (limit : Int) (f : Envelope) : Prop :=
  ∀ e ∈ f.expression, (∀ c ∈ e.leaves, c.IsStorable) ∧ e.depth ≤ limit

/-- An envelope as it is read back. -/
def restored (r : Reading) (f : Envelope) : Envelope :=
  { f with expression := f.expression.map (·.graft fun c => .condition (r.restored c)) }

def entries (f : Envelope) : Entries :=
  [(.text "mode", .text f.mode.id), (.text "simple", .map f.simple)] ++
    match f.expression with
    | some x => [(.text "boolean", .map [(.text "expression", x.toValue)])]
    | none => []

theorem toValue_eq (f : Envelope) : f.toValue = .map f.entries := rfl

variable {r : Reading} {f : Envelope}

theorem storedExpression_entries (f : Envelope) :
    storedExpression f.entries = (f.expression.map Expression.toValue).getD .null := by
  unfold storedExpression entries
  cases f.expression with
  | none => rfl
  | some e => rfl

/-- A stored envelope holds the stored form of its tree. -/
theorem storedExpression_of_some {e : Expression} (h : f.expression = some e) :
    storedExpression f.entries = e.toValue := by
  rw [storedExpression_entries, h]
  rfl

/-- The simple form is read as it was written, whatever is done with it. -/
theorem bind_simple {α : Type} (f : Envelope) (k : Entries → Except EnvelopeFault α) :
    (if (Entries.get f.entries "simple").truthy = true then
      (Entries.get f.entries "simple").toEntries.mapError .misuse >>= k
    else pure [] >>= k) = k f.simple := by
  have hsimple : Entries.get f.entries "simple" = .map f.simple := by
    simp [entries, Entries.get, Entries.get?, Value.text?]
  rw [hsimple]
  cases f.simple with
  | nil => rfl
  | cons e es => rfl

/-- An envelope whose tree can be stored is read back. -/
theorem ofValue_toValue (h : f.IsStorable r.maxDepth) :
    ofValue r f.toValue = .ok (f.restored r) := by
  have hmode : (Entries.get? f.entries "mode").getD (.text "simple") = .text f.mode.id := by
    simp [entries, Entries.get?, Value.text?]
  have htruthy : (Value.map f.entries).truthy = true := rfl
  rw [toValue_eq, ofValue, htruthy, Bool.not_true, if_neg Bool.false_ne_true]
  simp only [ofEntries, hmode, FilterMode.ofValue?_id]
  cases he : f.expression with
  | none =>
    rw [storedExpression_entries, restored, he]
    exact bind_simple f _
  | some e =>
    obtain ⟨hleaves, hdepth⟩ := h e he
    obtain ⟨es, hes⟩ : ∃ es, e.toValue = .map es := by
      rw [Expression.toValue, Expression.toNode, Node.toValue]
      exact ⟨_, rfl⟩
    rw [storedExpression_of_some he, restored, he, hes]
    dsimp only
    rw [← hes, Reading.read_toValue_of_isStorable hleaves hdepth]
    exact bind_simple f _

/-- Without a catalog an envelope with a well-formed tree is read back as it is. -/
theorem restored_of_isWellFormed {limit : Int} (h : ∀ e ∈ f.expression, e.IsWellFormed) :
    f.restored { maxDepth := limit } = f := by
  unfold restored
  cases he : f.expression with
  | none => rw [Option.map_none, ← he]
  | some e =>
    have hself : e.graft (fun c => .condition (Reading.restored { maxDepth := limit } c)) = e := by
      refine Expression.graft_eq_self fun c hc => ?_
      rw [Reading.restored_of_isWellFormed (h e he c hc)]
      rfl
    rw [Option.map_some, hself, ← he]

end Envelope

end Cohort
