import Cohort.Misuse
import Cohort.Value.Basic

/-!
# Quoted identifiers

An identifier is written between double quotes, a double quote inside it
twice.  `unquote?` reads one identifier from the front of a text.
-/

namespace Cohort.Sql

def doubleQuotes : List Char → List Char
  | [] => []
  | c :: cs => if c = '"' then '"' :: '"' :: doubleQuotes cs else c :: doubleQuotes cs

def quoteIdentifier (name : String) : String :=
  String.ofList ('"' :: doubleQuotes name.toList ++ ['"'])

/-- The misuse of a value that is no text as a name.  In stamps and bytes something can be replaced,
though no double quote; in other values nothing can. -/
def unquotable : Value → Misuse
  | .stamp _ | .bytes _ => .kind
  | _ => .part

/-- Reads up to the first double quote that stands alone. -/
def unquoteRest? : List Char → Option (List Char × List Char)
  | [] => none
  | '"' :: '"' :: cs => (unquoteRest? cs).map fun r => ('"' :: r.1, r.2)
  | '"' :: cs => some ([], cs)
  | c :: cs => (unquoteRest? cs).map fun r => (c :: r.1, r.2)

def unquote? : List Char → Option (List Char × List Char)
  | '"' :: cs => unquoteRest? cs
  | _ => none

@[simp] theorem doubleQuotes_nil : doubleQuotes [] = [] := rfl

theorem toList_quoteIdentifier (name : String) :
    (quoteIdentifier name).toList = '"' :: doubleQuotes name.toList ++ ['"'] := by
  simp [quoteIdentifier]

end Cohort.Sql
