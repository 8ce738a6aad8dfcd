import Cohort.Decimal.Layout
import Cohort.Decimal.Reader
import Cohort.Value.Basic

/-!
# Reading JSON text

`Json.decode` reads a value from JSON text, with the words for infinities and
not-a-number allowed.  Whole numbers are exact and of any size up to a fixed
count of digits; in an object the last value under a name wins.  A fault names
its cause and how many characters were left unread where it was noticed.
-/

namespace Cohort.Json

open Cohort.Decimal
open Cohort.Text (hexValue?)

/-- What a text that is not JSON lacks or has too much of. -/
inductive Cause where
  | expectedValue
  | expectedName
  | expectedColon
  | expectedComma
  | unterminatedString
  | controlCharacter
  | badEscape
  | badUnicodeEscape
  | extraData
  | byteOrderMark
  deriving DecidableEq, Repr

/-- Why a text cannot be read. -/
inductive Fault where
  | malformed (cause : Cause) (left : Nat)
  | tooManyDigits
  deriving DecidableEq, Repr

def Cause.message : Cause → String
  | .expectedValue => "Expecting value"
  | .expectedName => "Expecting property name enclosed in double quotes"
  | .expectedColon => "Expecting ':' delimiter"
  | .expectedComma => "Expecting ',' delimiter"
  | .unterminatedString => "Unterminated string starting at"
  | .controlCharacter => "Invalid control character at"
  | .badEscape => "Invalid \\escape"
  | .badUnicodeEscape => "Invalid \\uXXXX escape"
  | .extraData => "Extra data"
  | .byteOrderMark => "Unexpected UTF-8 BOM (decode using utf-8-sig)"

/-- The cause and the place of a fault: line and column from one, offset from zero. -/
def Cause.locate (cause : Cause) (text : String) (left : Nat) : String :=
  let offset := text.length - left
  let before := text.toList.take offset
  let line := before.count '\n' + 1
  let column := (before.reverse.takeWhile (· ≠ '\n')).length + 1
  cause.message ++ ": line " ++ Layout.digits line ++ " column " ++ Layout.digits column
    ++ " (char " ++ Layout.digits offset ++ ")"

def isSpace (c : Char) : Bool := c = ' ' || c = '\t' || c = '\n' || c = '\r'

def skipSpace (cs : List Char) : List Char := cs.dropWhile isSpace

/-- A fault where `cs` is still unread. -/
def fail {α : Type} (cause : Cause) (cs : List Char) : Except Fault α :=
  .error (.malformed cause cs.length)

def hexQuad? (a b c d : Char) : Option Nat := do
  return (← hexValue? a) * 4096 + (← hexValue? b) * 256 + (← hexValue? c) * 16
    + (← hexValue? d)

def isHighSurrogate (n : Nat) : Bool := 0xD800 ≤ n && n ≤ 0xDBFF

def isLowSurrogate (n : Nat) : Bool := 0xDC00 ≤ n && n ≤ 0xDFFF

/-- The characters of a list of codes: a surrogate pair is one character, and a half without
its partner is replaced. -/
def assemble : List Nat → List Char
  | [] => []
  | [n] => [if isHighSurrogate n || isLowSurrogate n then '\uFFFD' else Char.ofNat n]
  | n :: m :: rest =>
    if isHighSurrogate n && isLowSurrogate m then
      Char.ofNat (0x10000 + (n - 0xD800) * 0x400 + (m - 0xDC00)) :: assemble rest
    else if isHighSurrogate n || isLowSurrogate n then '\uFFFD' :: assemble (m :: rest)
    else Char.ofNat n :: assemble (m :: rest)

def shortEscape? : Char → Option Char
  | '"' => some '"'
  | '\\' => some '\\'
  | '/' => some '/'
  | 'b' => some '\x08'
  | 'f' => some '\x0C'
  | 'n' => some '\n'
  | 'r' => some '\r'
  | 't' => some '\t'
  | _ => none

/-- Reads the codes of a string up to its closing quote; `opening` is the text from the
opening quote on.  The four digits of a code are followed by at least the closing quote. -/
def readCodes (opening : List Char) : List Char → Except Fault (List Nat × List Char)
  | [] => fail .unterminatedString opening
  | '"' :: cs => .ok ([], cs)
  | ['\\'] => fail .unterminatedString opening
  | '\\' :: 'u' :: a :: b :: c :: d :: e :: cs =>
    match hexQuad? a b c d with
    | some n => (readCodes opening (e :: cs)).map fun r => (n :: r.1, r.2)
    | none => fail .badUnicodeEscape ('u' :: a :: b :: c :: d :: e :: cs)
  | '\\' :: 'u' :: cs => fail .badUnicodeEscape ('u' :: cs)
  | '\\' :: c :: cs =>
    match shortEscape? c with
    | some x => (readCodes opening cs).map fun r => (x.toNat :: r.1, r.2)
    | none => fail .badEscape ('\\' :: c :: cs)
  | c :: cs =>
    if c.toNat < 0x20 then fail .controlCharacter (c :: cs)
    else (readCodes opening cs).map fun r => (c.toNat :: r.1, r.2)

/-- Reads a string whose opening quote stands before `cs`. -/
def readString (cs : List Char) : Except Fault (String × List Char) :=
  (readCodes ('"' :: cs) cs).map fun r => (String.ofList (assemble r.1), r.2)

def takeDigits (cs : List Char) : List Char × List Char :=
  (cs.takeWhile Char.isDigit, cs.dropWhile Char.isDigit)

def digitsValue (cs : List Char) : Nat := ofDigits (cs.map fun c => c.toNat - '0'.toNat)

/-- The whole part of a number: a zero alone, or digits that start with another one. -/
def readWhole? : List Char → Option (List Char × List Char)
  | '0' :: cs => some (['0'], cs)
  | c :: cs => if c.isDigit then some (takeDigits (c :: cs)) else none
  | [] => none

/-- The digits after a point, if at least one follows it. -/
def readFraction (cs : List Char) : List Char × List Char :=
  match cs with
  | '.' :: rest => match takeDigits rest with
    | ([], _) => ([], cs)
    | r => r
  | _ => ([], cs)

/-- The power of ten after an exponent mark, if at least one digit follows it. -/
def readPower (cs : List Char) : Option Int × List Char :=
  match cs with
  | e :: rest =>
    if e = 'e' ∨ e = 'E' then
      let (negative, rest) := splitSign rest
      match takeDigits rest with
      | ([], _) => (none, cs)
      | (ds, rest) => (some (if negative then -(digitsValue ds : Int) else digitsValue ds), rest)
    else (none, cs)
  | [] => (none, cs)

/-- Reads a number: whole if it has neither a point nor an exponent. -/
def readNumber (cs : List Char) : Except Fault (Value × List Char) :=
  let (negative, unsigned) := match cs with
    | '-' :: rest => (true, rest)
    | _ => (false, cs)
  match readWhole? unsigned with
  | none => fail .expectedValue cs
  | some (whole, rest) =>
    let (part, rest) := readFraction rest
    let (power, rest) := readPower rest
    if part.isEmpty && power.isNone then
      if maxIntegerDigits < whole.length then .error .tooManyDigits
      else
        let n : Int := digitsValue whole
        .ok (.int (if negative then -n else n), rest)
    else
      let x := nearest (digitsValue (whole ++ part)) (power.getD 0 - part.length)
      .ok (.float (if negative then -x else x), rest)

def words : List (List Char × Value) :=
  [("null".toList, .null), ("true".toList, .bool true), ("false".toList, .bool false),
   ("NaN".toList, .float nan), ("Infinity".toList, .float infinity),
   ("-Infinity".toList, .float (-infinity))]

def readScalar (cs : List Char) : Except Fault (Value × List Char) :=
  match words.find? fun w => w.1.isPrefixOf cs with
  | some (w, v) => .ok (v, cs.drop w.length)
  | none => readNumber cs

mutual

/-- Reads a value.  Every nested value starts at least one character later, so `fuel` above
the length of the text is enough. -/
def readValue (fuel : Nat) (cs : List Char) : Except Fault (Value × List Char) :=
  match fuel with
  | 0 => fail .expectedValue cs
  | fuel + 1 =>
    match cs with
    | '"' :: rest => (readString rest).map fun r => (.text r.1, r.2)
    | '[' :: rest =>
      match skipSpace rest with
      | ']' :: rest => .ok (.list [], rest)
      | rest => (readItems fuel rest).map fun r => (.list r.1, r.2)
    | '\x7b' :: rest =>
      match skipSpace rest with
      | '\x7d' :: rest => .ok (.map [], rest)
      | rest => (readMembers fuel rest).map fun r => (.map (Entries.ofPairs r.1), r.2)
    | cs => readScalar cs

def readItems (fuel : Nat) (cs : List Char) : Except Fault (List Value × List Char) :=
  match fuel with
  | 0 => fail .expectedValue cs
  | fuel + 1 => do
    let (v, rest) ← readValue fuel cs
    match skipSpace rest with
    | ']' :: rest => return ([v], rest)
    | ',' :: rest => (readItems fuel (skipSpace rest)).map fun r => (v :: r.1, r.2)
    | rest => fail .expectedComma rest

def readMembers (fuel : Nat) (cs : List Char) :
    Except Fault (List (Value × Value) × List Char) :=
  match fuel with
  | 0 => fail .expectedValue cs
  | fuel + 1 =>
    match cs with
    | '"' :: rest => do
      let (name, rest) ← readString rest
      match skipSpace rest with
      | ':' :: rest =>
        let (v, rest) ← readValue fuel (skipSpace rest)
        match skipSpace rest with
        | '\x7d' :: rest => return ([(.text name, v)], rest)
        | ',' :: rest =>
          (readMembers fuel (skipSpace rest)).map fun r => ((.text name, v) :: r.1, r.2)
        | rest => fail .expectedComma rest
      | rest => fail .expectedColon rest
    | cs => fail .expectedName cs

end

def decode (text : String) : Except Fault Value :=
  let cs := text.toList
  match cs with
  | '\uFEFF' :: _ => fail .byteOrderMark cs
  | _ => do
    let (v, rest) ← readValue (2 * cs.length + 2) (skipSpace cs)
    match skipSpace rest with
    | [] => return v
    | rest => fail .extraData rest

end Cohort.Json
