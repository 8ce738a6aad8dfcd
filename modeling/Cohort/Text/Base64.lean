/-!
# Bytes written in base 64

Four characters write three bytes, six bits each.  Characters that are no digits
are passed over, so the text may be broken into lines, and the padding that
completes the last group of four ends it.
-/

namespace Cohort.Text.Base64

def digitValue? (c : Char) : Option Nat :=
  if 'A' ≤ c ∧ c ≤ 'Z' then some (c.toNat - 'A'.toNat)
  else if 'a' ≤ c ∧ c ≤ 'z' then some (c.toNat - 'a'.toNat + 26)
  else if '0' ≤ c ∧ c ≤ '9' then some (c.toNat - '0'.toNat + 52)
  else if c = '+' then some 62
  else if c = '/' then some 63
  else none

/-- Where the reader is in a group of four digits. -/
inductive Place where
  | first
  /-- Behind a digit, which is all that is known of the next byte. -/
  | second (bits : Nat)
  /-- Behind two digits: the lower four bits of the second one. -/
  | third (bits : Nat)
  /-- Behind three digits: the lower two bits of the third one. -/
  | fourth (bits : Nat)
  deriving DecidableEq, Repr

/-- The byte that a digit completes, if it does, and the place behind it. -/
def Place.take (d : Nat) : Place → Option Nat × Place
  | first => (none, second d)
  | second bits => (some (4 * bits + d / 16), third (d % 16))
  | third bits => (some (16 * bits + d / 4), fourth (d % 4))
  | fourth bits => (some (64 * bits + d), first)

/-- Whether padding completes a group of four; `padded` tells that there is padding just before. -/
def Place.endsAt (padded : Bool) : Place → Bool
  | third _ => padded
  | fourth _ => true
  | _ => false

/-- Whether padding counts. -/
def Place.canPad : Place → Bool
  | third _ | fourth _ => true
  | _ => false

/-- The bytes that the rest of a text writes; a group that is not complete has none. -/
def decodeFrom? (place : Place) (padded : Bool) : List Char → Option (List Nat)
  | [] => if place = .first then some [] else none
  | c :: cs =>
    if c = '=' then
      if place.endsAt padded then some [] else decodeFrom? place (padded || place.canPad) cs
    else
      match digitValue? c with
      | none => decodeFrom? place padded cs
      | some d =>
        match place.take d with
        | (none, next) => decodeFrom? next false cs
        | (some byte, next) => (decodeFrom? next false cs).map (byte :: ·)

def decode? (cs : List Char) : Option (List UInt8) :=
  (decodeFrom? .first false cs).map (·.map UInt8.ofNat)

end Cohort.Text.Base64
