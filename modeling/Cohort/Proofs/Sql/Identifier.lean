import Cohort.Preview.Store
import Cohort.Proofs.Sql.Marks

/-!
# Identifiers delimit themselves

A quoted identifier ends where it was meant to end, whatever the name and whatever comes behind it,
as long as that is not one more double quote: the reader gives back the name and what follows.  The
converse holds as well, so no other text is read as an identifier with that name.

The columns of clauses and those of the statements of a store are quoted alike.
-/

namespace Cohort.Sql

variable {cs name rest : List Char}

/-- What stands up to a closing quote is a name with its quotes doubled, and the closing quote has
no other behind it. -/
theorem eq_of_unquoteRest? (h : unquoteRest? cs = some (name, rest)) :
    cs = doubleQuotes name ++ '"' :: rest ∧ rest.head? ≠ some '"' := by
  fun_induction unquoteRest? cs generalizing name rest with
  | case1 => cases h
  | case2 cs ih =>
    obtain ⟨⟨name, rest⟩, hr, heq⟩ := Option.map_eq_some_iff.mp h
    cases heq
    obtain ⟨rfl, hrest⟩ := ih hr
    exact ⟨by rw [doubleQuotes, if_pos rfl]; rfl, hrest⟩
  | case3 cs hdouble =>
    cases h
    refine ⟨rfl, fun hhead => ?_⟩
    obtain ⟨cs, rfl⟩ := List.head?_eq_some_iff.mp hhead
    exact hdouble cs rfl
  | case4 c cs hdouble hquote ih =>
    obtain ⟨⟨name, rest⟩, hr, heq⟩ := Option.map_eq_some_iff.mp h
    cases heq
    obtain ⟨rfl, hrest⟩ := ih hr
    exact ⟨by rw [doubleQuotes, if_neg hquote]; rfl, hrest⟩

/-- What is read up to the closing quote is exactly what was doubled; no quote may follow. -/
theorem unquoteRest?_eq_some_iff : unquoteRest? cs = some (name, rest) ↔
    cs = doubleQuotes name ++ '"' :: rest ∧ rest.head? ≠ some '"' := by
  refine ⟨eq_of_unquoteRest?, ?_⟩
  rintro ⟨rfl, hrest⟩
  exact unquoteRest?_doubleQuotes hrest

/-- An identifier is read where a text opens with a quote, and is what stands up to the closing one.
-/
theorem unquote?_eq_some_iff : unquote? cs = some (name, rest) ↔
    ∃ body, cs = '"' :: body ∧ unquoteRest? body = some (name, rest) := by
  unfold unquote?
  split
  case h_1 body => simp
  case h_2 hquote =>
    refine ⟨nofun, ?_⟩
    rintro ⟨body, rfl, -⟩
    exact absurd rfl (hquote body)

/-- A quoted identifier is read back as its name in front of any text that does not begin with a
double quote, with that text left over, and no other text is read so.  A dialect that quotes columns
makes of each one the text that the store makes of it, and refuses those that the store refuses, for
the same reason. -/
theorem quoteIdentifier_delimits (d : Dialect) :
    (∀ (name : String) (cs rest : List Char), unquote? cs = some (name.toList, rest) ↔
      cs = (quoteIdentifier name).toList ++ rest ∧ rest.head? ≠ some '"') ∧
    ∀ mapper : Value, Dialect.column { d with quoteColumns := true } mapper =
      (Store.identifier mapper).map .text := by
  constructor
  · intro name cs rest
    have hquoted : (quoteIdentifier name).toList ++ rest =
        '"' :: (doubleQuotes name.toList ++ '"' :: rest) := by
      simp [toList_quoteIdentifier]
    rw [hquoted, unquote?_eq_some_iff]
    constructor
    · rintro ⟨body, rfl, hread⟩
      obtain ⟨rfl, hrest⟩ := unquoteRest?_eq_some_iff.mp hread
      exact ⟨rfl, hrest⟩
    · rintro ⟨rfl, hrest⟩
      exact ⟨_, rfl, unquoteRest?_eq_some_iff.mpr ⟨rfl, hrest⟩⟩
  · intro mapper
    cases mapper <;> rfl

end Cohort.Sql
