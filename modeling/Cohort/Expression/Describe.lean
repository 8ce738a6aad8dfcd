import Cohort.Expression.Basic

/-!
# Descriptions

Two one-line texts of a tree: `describe` for people, with the values as they
would be read aloud, and `literal` for logs, with the values quoted.
-/

namespace Cohort

namespace Value

mutual

/-- A value in a description: truth values in lower case, the items of a sequence without
brackets. -/
def spoken : Value → Except Misuse String
  | bool b => return if b then "true" else "false"
  | list xs => return ", ".intercalate (← spokenItems xs)
  | tuple xs => return ", ".intercalate (← spokenItems xs)
  | v => v.display

def spokenItems : List Value → Except Misuse (List String)
  | [] => return []
  | x :: xs => return (← x.spoken) :: (← spokenItems xs)

end

end Value

def negation (negated : Bool) : String := if negated then "NOT " else ""

namespace Condition

/-- The field and the operator, behind a negation if there is one. -/
def head (c : Condition) : Except Misuse String :=
  return negation c.negated ++ (← c.field.display) ++ " " ++ (← c.operator.display) ++ " "

end Condition

namespace Node

mutual

def describe : Node → Except Misuse String
  | condition c => return (← c.head) ++ (← c.value.spoken)
  | group _ [] _ => return "empty"
  | group op (n :: ns) negated =>
    return negation negated ++ "("
      ++ (" " ++ op.word ++ " ").intercalate (← describeList (n :: ns)) ++ ")"

def describeList : List Node → Except Misuse (List String)
  | [] => return []
  | n :: ns => return (← n.describe) :: (← describeList ns)

end

mutual

def literal : Node → Except Misuse String
  | condition c => return (← c.head) ++ (← c.value.literal)
  | group op cs negated =>
    return negation negated ++ op.word ++ "[" ++ ", ".intercalate (← literalList cs) ++ "]"

def literalList : List Node → Except Misuse (List String)
  | [] => return []
  | n :: ns => return (← n.literal) :: (← literalList ns)

end

end Node

end Cohort
