import Cohort.Text.Quoted
import Cohort.Value.Text

/-!
# Writing JSON text

`Json.encode` writes a value as JSON text.  The decisions of the form are one
record, `Style`: indentation, separators, order of members, and whether
characters beyond ASCII are escaped.
-/

namespace Cohort.Json

open Cohort.Decimal

/-- The form of written JSON. -/
structure Style where
  /-- The text of one level of indentation; without one, everything stands on one line. -/
  indent : Option String := none
  itemSeparator : String := ", "
  nameSeparator : String := ": "
  sortNames : Bool := false
  asciiOnly : Bool := true

/-- One level of indentation, separators without a blank at the end of a line. -/
def Style.indented (indent : String) : Style where
  indent := some indent
  itemSeparator := ","

/-- No blanks, members sorted by name. -/
def Style.compact : Style where
  itemSeparator := ","
  nameSeparator := ":"
  sortNames := true

def codeEscape (n : Nat) : List Char := '\\' :: 'u' :: Text.hexPadded 4 n

/-- A character beyond ASCII, as one code or as a surrogate pair. -/
def wideEscape (c : Char) : List Char :=
  let n := c.toNat
  if n < 0x10000 then codeEscape n
  else codeEscape (0xD800 + (n - 0x10000) / 0x400) ++ codeEscape (0xDC00 + (n - 0x10000) % 0x400)

def escapeChar (asciiOnly : Bool) (c : Char) : List Char :=
  if c = '"' then ['\\', '"']
  else if c = '\\' then ['\\', '\\']
  else if c = '\n' then ['\\', 'n']
  else if c = '\r' then ['\\', 'r']
  else if c = '\t' then ['\\', 't']
  else if c = '\x08' then ['\\', 'b']
  else if c = '\x0C' then ['\\', 'f']
  else if c.toNat < 0x20 then codeEscape c.toNat
  else if asciiOnly && 0x7F ≤ c.toNat then wideEscape c
  else [c]

def encodeString (asciiOnly : Bool) (s : String) : String :=
  String.ofList ('"' :: s.toList.flatMap (escapeChar asciiOnly) ++ ['"'])

/-- Numbers are laid out as in the text of a value, with the JSON words for what is no number. -/
def numberLayout : Layout :=
  { Value.numberLayout with nan := "NaN", infinity := "Infinity", negativeInfinity := "-Infinity" }

/-- The name that a key is written as.  Texts, numbers, truth values and null have one. -/
def nameOf : Value → Except Misuse String
  | .null => .ok "null"
  | .bool b => .ok (if b then "true" else "false")
  | .int n => Layout.integer n
  | .float x => .ok (numberLayout.render x)
  | .text t => .ok t
  | _ => .error .kind

/-- Whether a key is not behind another one, where the two can be compared. -/
def keyAtMost? : Value → Value → Option Bool
  | .text a, .text b => some (a ≤ b)
  | a, b => do return (← a.keyExtent?) ≤ (← b.keyExtent?)

def Style.break (s : Style) (level : Nat) : String :=
  match s.indent with
  | none => ""
  | some unit => "\n" ++ String.join (List.replicate level unit)

/-- Written parts between brackets, each on a line of its own if the style indents. -/
def Style.bracket (s : Style) (level : Nat) (opening closing : String) (parts : List String) :
    String :=
  if parts.isEmpty then opening ++ closing
  else opening ++ s.break (level + 1)
    ++ (s.itemSeparator ++ s.break (level + 1)).intercalate parts
    ++ s.break level ++ closing

/-- Members in the order in which they are written.  To be sorted, the keys have to be comparable
with each other. -/
def Style.arrange {α : Type} (s : Style) (members : List (Value × α)) :
    Except Misuse (List (Value × α)) :=
  if !s.sortNames || members.length ≤ 1 then .ok members
  else if members.all fun a => members.all fun b => (keyAtMost? a.1 b.1).isSome then
    .ok (members.mergeSort fun a b => (keyAtMost? a.1 b.1).getD true)
  else .error .kind

mutual

/-- The JSON text of a value that stands at a level of nesting.  Stamps, bytes and sets, for which
JSON has no form, are written as their texts; a loop has no end. -/
def encodeAt (s : Style) (level : Nat) : Value → Except Misuse String
  | .null => return "null"
  | .bool b => return if b then "true" else "false"
  | .int n => Layout.integer n
  | .float x => return numberLayout.render x
  | .text t => return encodeString s.asciiOnly t
  | .list xs => return s.bracket level "[" "]" (← encodeItems s (level + 1) xs)
  | .tuple xs => return s.bracket level "[" "]" (← encodeItems s (level + 1) xs)
  | .map es => do
    let members ← s.arrange (encodeMembers s (level + 1) es)
    return s.bracket level "\x7b" "\x7d" (← members.mapM (·.2))
  | .loop _ => .error .value
  | v => return encodeString s.asciiOnly (← v.display)

def encodeItems (s : Style) (level : Nat) : List Value → Except Misuse (List String)
  | [] => return []
  | x :: xs => return (← encodeAt s level x) :: (← encodeItems s level xs)

/-- The texts of members beside their keys.  None of them is asked for before the members are in
order, and the first one that cannot be written ends it all. -/
def encodeMembers (s : Style) (level : Nat) :
    List (Value × Value) → List (Value × Except Misuse String)
  | [] => []
  | (k, v) :: es =>
    let text := do
      return encodeString s.asciiOnly (← nameOf k) ++ s.nameSeparator ++ (← encodeAt s level v)
    (k, text) :: encodeMembers s level es

end

def encode (v : Value) (s : Style := {}) : Except Misuse String := encodeAt s 0 v

end Cohort.Json
