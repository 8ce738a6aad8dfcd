import Cohort.Proofs.Traversal
import Cohort.Value.Text
import Mathlib.Algebra.GroupWithZero.Nat
import Mathlib.Algebra.Ring.Int.Defs

/-!
# Values that can be written

A value has a text unless there is a whole number in it, at any depth, with more digits than are
written.  Then the misuse is one of the value, whatever else is in it.
-/

namespace Cohort

open Decimal (Layout maxIntegerDigits)

namespace Decimal.Layout

theorem integer_of_lt {n : Int} (h : n.natAbs < 10 ^ maxIntegerDigits) :
    integer n = .ok (signed n) :=
  if_pos ((Nat.length_toDigits_le_iff (by decide) (by decide)).mpr h)

/-- A number that has one digit too many is not written. -/
theorem integer_of_le {n : Int} (h : 10 ^ maxIntegerDigits ≤ n.natAbs) :
    integer n = .error .value :=
  if_neg fun hlength => Nat.not_lt.mpr h
    ((Nat.length_toDigits_le_iff (by decide) (by decide)).mp hlength)

end Decimal.Layout

namespace Value

mutual

/-- Whether no whole number in a value has more digits than are written. -/
def isWritable : Value → Bool
  | int n => (Nat.toDigits 10 n.natAbs).length ≤ maxIntegerDigits
  | list xs => areWritable xs
  | tuple xs => areWritable xs
  | set xs => areWritable xs
  | map es => haveWritable es
  | _ => true

def areWritable : List Value → Bool
  | [] => true
  | x :: xs => x.isWritable && areWritable xs

def haveWritable : List (Value × Value) → Bool
  | [] => true
  | (k, v) :: es => k.isWritable && v.isWritable && haveWritable es

end

@[simp] theorem isWritable_text (s : String) : isWritable (text s) = true := rfl

theorem areWritable_eq_all (xs : List Value) : areWritable xs = xs.all (·.isWritable) := by
  induction xs with
  | nil => rfl
  | cons x xs ih => rw [areWritable, List.all_cons, ih]

/-- A computation that succeeds just if a condition holds, and otherwise is a misuse of a value. -/
def IsWriting {α : Type} (m : Except Misuse α) (fits : Bool) : Prop :=
  if fits then ∃ a, m = .ok a else m = .error .value

namespace IsWriting

variable {α β : Type} {m : Except Misuse α} {f : α → Except Misuse β} {p q : Bool}

theorem pure (a : α) : IsWriting (.ok a) true := ⟨a, rfl⟩

/-- What is written in two steps is written just if both can be. -/
theorem bind (hm : IsWriting m p) (hf : ∀ a, m = .ok a → IsWriting (f a) q) :
    IsWriting (m >>= f) (p && q) := by
  cases p with
  | false =>
    rw [(hm : m = .error .value)]
    exact rfl
  | true =>
    obtain ⟨a, rfl⟩ := hm
    exact hf a rfl

theorem map (g : α → β) (hm : IsWriting m p) : IsWriting (m.map g) p := by
  cases p with
  | false =>
    rw [(hm : m = .error .value)]
    exact rfl
  | true =>
    obtain ⟨a, rfl⟩ := hm
    exact ⟨g a, rfl⟩

theorem exists_ok_iff (h : IsWriting m p) : (∃ a, m = .ok a) ↔ p = true := by
  cases p with
  | false =>
    rw [(h : m = .error .value)]
    simp
  | true => exact iff_of_true h rfl

/-- The misuse of a computation that writes is that of a value. -/
theorem error_iff (h : IsWriting m p) {e : Misuse} :
    m = .error e ↔ p = false ∧ e = .value := by
  cases p with
  | false =>
    rw [(h : m = .error .value), Except.error.injEq, eq_comm]
    exact (and_iff_right rfl).symm
  | true =>
    obtain ⟨a, rfl⟩ := h
    simp

end IsWriting

/-! ## Texts of values -/

/-- A whole number is written up to the largest one of `maxIntegerDigits` digits. -/
theorem isWritable_int_iff {n : Int} :
    (int n).isWritable = true ↔ n.natAbs < 10 ^ maxIntegerDigits := by
  rw [isWritable, decide_eq_true_eq]
  exact Nat.length_toDigits_le_iff (by decide) (by decide)

theorem isWriting_integer (n : Int) : IsWriting (Layout.integer n) (int n).isWritable := by
  cases h : (int n).isWritable with
  | true => exact ⟨_, Layout.integer_of_lt (isWritable_int_iff.mp h)⟩
  | false =>
    rw [Bool.eq_false_iff, Ne, isWritable_int_iff, Nat.not_lt] at h
    exact Layout.integer_of_le h

/-- The least natural number that has too many digits. -/
def tooLongNumber : Int := 10 ^ maxIntegerDigits

def tooLong : Value := int tooLongNumber

theorem one_le_tooLongNumber : 1 ≤ tooLongNumber.toNat := by
  rw [tooLongNumber, Int.toNat_pow_of_nonneg (by decide)]
  exact Nat.one_le_pow _ _ (by decide)

theorem isWritable_tooLong : tooLong.isWritable = false := by
  have hbase : Int.natAbs 10 = 10 := rfl
  rw [tooLong, Bool.eq_false_iff, Ne, isWritable_int_iff, tooLongNumber, Int.natAbs_pow, hbase]
  exact Nat.lt_irrefl _

theorem isWritable_list_tooLong : (list [tooLong]).isWritable = false := by
  rw [isWritable, areWritable, isWritable_tooLong, Bool.false_and]

mutual

/-- A value has a literal just if it can be written. -/
theorem isWriting_literal (v : Value) : IsWriting v.literal v.isWritable :=
  match v with
  | null | bool _ | float _ | text _ | stamp _ | bytes _ | loop _ | set [] =>
    ⟨_, by rw [literal]; rfl⟩
  | int n => by
    rw [literal]
    exact isWriting_integer n
  | list xs => by
    rw [literal, isWritable]
    exact (isWriting_literals xs).map _
  | tuple xs => by
    rw [literal, isWritable]
    exact (isWriting_literals xs).map _
  | map es => by
    rw [literal, isWritable]
    exact (isWriting_entryLiterals es).map _
  | set (x :: xs) => by
    have hliteral : literal (set (x :: xs)) =
        (literals (x :: xs)).map fun ts => "\x7b" ++ ", ".intercalate ts ++ "\x7d" := by
      rw [literal]
      · rfl
      · nofun
    rw [hliteral, isWritable]
    exact (isWriting_literals (x :: xs)).map _

theorem isWriting_literals (xs : List Value) : IsWriting (literals xs) (areWritable xs) :=
  match xs with
  | [] => .pure _
  | x :: xs => by
    rw [literals, areWritable]
    exact (isWriting_literal x).bind fun _ _ => (isWriting_literals xs).map _

theorem isWriting_entryLiterals (es : List (Value × Value)) :
    IsWriting (entryLiterals es) (haveWritable es) :=
  match es with
  | [] => .pure _
  | (k, v) :: es => by
    rw [entryLiterals, haveWritable, Bool.and_assoc]
    exact (isWriting_literal k).bind fun _ _ => (isWriting_literal v).bind fun _ _ =>
      (isWriting_entryLiterals es).map _

end

/-- A value is displayed just if it can be written; texts always are. -/
theorem isWriting_display (v : Value) : IsWriting v.display v.isWritable := by
  cases v with
  | text s => exact .pure s
  | stamp t => exact .pure t.text
  | _ => exact isWriting_literal _

/-- The text of a value, or nothing if it has none. -/
def shown (v : Value) : String := v.display.toOption.getD ""

@[simp] theorem shown_text (s : String) : shown (text s) = s := rfl

/-- What is displayed is what is shown. -/
theorem display_eq_shown {v : Value} (h : v.isWritable = true) : v.display = .ok v.shown := by
  obtain ⟨t, ht⟩ := (isWriting_display v).exists_ok_iff.mpr h
  rw [shown, ht]
  rfl

/-- Several values are written just if each can be. -/
theorem isWriting_mapM {α β : Type} {g : α → Except Misuse β} {fits : α → Bool}
    (h : ∀ x, IsWriting (g x) (fits x)) (xs : List α) : IsWriting (xs.mapM g) (xs.all fits) := by
  induction xs with
  | nil => exact .pure _
  | cons x xs ih =>
    rw [List.mapM_cons, List.all_cons]
    exact (h x).bind fun _ _ => ih.map _

end Value

end Cohort
