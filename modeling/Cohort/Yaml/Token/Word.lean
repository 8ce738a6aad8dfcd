import Cohort.Text.Digit
import Cohort.Yaml.Token

/-!
# Names and tags

The words that stand in front of a node: the name of an anchor, and a tag, whose
text may write a character by the bytes of its UTF-8 form.
-/

namespace Cohort.Yaml

open Source

/-- Splits off the characters in front that satisfy `p`. -/
def takeChars (p : Char → Bool) (s : Source) : String × Source :=
  (String.ofList (chars (s.takeWhile fun c => p c.char)), s.dropWhile fun c => p c.char)

def readName (s : Source) : Except Fault (String × Source) :=
  match takeChars isNameChar s with
  | ("", _) => .error .malformed
  | (name, rest) =>
    if atGap rest || atAny "?:,]\x7d%@\x60" rest then .ok (name, rest) else .error .malformed

def isTagChar (c : Char) : Bool := c.isAlphanum || "-;/?:@&=+$,_.!~*'()[]%".toList.contains c

/-- The bytes of the text of a tag, where a percent sign and two digits stand for a byte. -/
def tagBytes? : List Char → Option (List UInt8)
  | [] => some []
  | '%' :: a :: b :: cs => do
    let high ← Text.hexValue? a
    let low ← Text.hexValue? b
    return UInt8.ofNat (16 * high + low) :: (← tagBytes? cs)
  | c :: cs => if c = '%' then none else (tagBytes? cs).map (UInt8.ofNat c.toNat :: ·)

def readTagText (s : Source) : Except Fault (String × Source) :=
  match takeChars isTagChar s with
  | ("", _) => .error .malformed
  | (text, rest) =>
    match (tagBytes? text.toList).bind fun bs => String.fromUTF8? ⟨bs.toArray⟩ with
    | some text => .ok (text, rest)
    | none => .error .malformed

/-- Reads the handle of a tag: a mark, or a name between two marks. -/
def readHandle (s : Source) : Except Fault (String × Source) :=
  match s with
  | [] => .error .malformed
  | p :: ps =>
    if p.char ≠ '!' then .error .malformed
    else
      match takeChars isNameChar ps with
      | (name, q :: rest) =>
        if q.char = '!' then .ok ("!" ++ name ++ "!", rest)
        else if name.isEmpty && q.char = ' ' then .ok ("!", ps)
        else .error .malformed
      | (_, []) => .error .malformed

/-- Reads a tag behind its mark `p`. -/
def readTag (p : Placed) (s : Source) : Except Fault (Token × Source) := do
  let (t, rest) ← match s with
    | q :: qs =>
      if q.char = '<' then
        let (text, rest) ← readTagText qs
        match rest with
        | c :: rest => if c.char = '>' then pure (.tag none text, rest) else throw .malformed
        | [] => throw .malformed
      else if atGap s then pure (.tag none "!", s)
      else if (s.takeWhile fun c => c.char ≠ ' ' && !isBreak c.char).any (·.char = '!') then
        let (handle, rest) ← readHandle (p :: s)
        let (text, rest) ← readTagText rest
        pure (.tag (some handle) text, rest)
      else
        let (text, rest) ← readTagText s
        pure (.tag (some "!") text, rest)
    | [] => pure (.tag none "!", [])
  if atBreak rest || atAny " " rest then return (t, rest) else throw .malformed

end Cohort.Yaml
