import Cohort.Yaml.Source

/-!
# Tokens

The words of a YAML document.  Where a block starts and ends shows only in the
layout of the text; among the tokens it has words of its own.
-/

namespace Cohort.Yaml

/-- A line in front of a document that tells how to read it. -/
inductive Directive where
  | version (major : Nat)
  | handle (name expansion : String)
  | unknown
  deriving DecidableEq, Repr

inductive Token where
  | directive (d : Directive)
  | documentStart
  | documentEnd
  | blockSequence
  | blockMapping
  | blockEnd
  | openBracket
  | closeBracket
  | openBrace
  | closeBrace
  | comma
  /-- The mark of an item of a sequence. -/
  | item
  /-- What follows is a key. -/
  | key
  /-- What follows is the value of a key. -/
  | value
  | anchor (name : String)
  /-- Stands for the node that has the anchor. -/
  | reference (name : String)
  /-- A tag: a handle, if it has one, and the text behind it. -/
  | tag (handle : Option String) (rest : String)
  | scalar (plain : Bool) (text : List Char)
  deriving DecidableEq, Repr

end Cohort.Yaml
