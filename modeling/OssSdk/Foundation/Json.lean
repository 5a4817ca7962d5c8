import OssSdk.Foundation.Utf8
import Mathlib.Data.List.Basic

/-!
# Objects of strings in JSON

A text is read byte by byte.  Blanks may stand around everything but the bytes of a
string, a control character only in an escape, and the text is UTF-8.
-/

namespace OssSdk
namespace Foundation

namespace Json

def isBlank (c : UInt8) : Bool := c == 32 || c == 9 || c == 10 || c == 13

/-!
# Strings
-/

/-- The byte that one after a backslash stands for. -/
def unescape : UInt8 -> Option UInt8
  | 34 => some 34
  | 92 => some 92
  | 47 => some 47
  | 98 => some 8
  | 102 => some 12
  | 110 => some 10
  | 114 => some 13
  | 116 => some 9
  | _ => none

inductive Within where
  | plain
  | escape
  | unit (digits value : Nat)
deriving DecidableEq

/-- `high` is the first half of a character that is given as two units. -/
structure StringReader where
  text : ByteString
  high : Option Nat
  within : Within

namespace StringReader

def start : StringReader := ⟨[], none, .plain⟩

/-- A unit is a character or the half of one. -/
def unit (s : StringReader) (value : Nat) : Option StringReader :=
  let isHigh := decide (0xD800 ≤ value ∧ value ≤ 0xDBFF)
  let isLow := decide (0xDC00 ≤ value ∧ value ≤ 0xDFFF)
  match s.high with
  | some high =>
      let n := 0x10000 + (high - 0xD800) * 0x400 + (value - 0xDC00)
      if isLow then some ⟨s.text ++ scalar n, none, .plain⟩ else none
  | none =>
      if isHigh then some ⟨s.text, some value, .plain⟩
      else if isLow then none
      else some ⟨s.text ++ scalar value, none, .plain⟩

def closes (s : StringReader) (c : UInt8) : Bool :=
  c == 34 && decide (s.within = .plain) && s.high.isNone

def step (s : StringReader) (c : UInt8) : Option StringReader :=
  match s.within with
  | .plain =>
      if c = 92 then some { s with within := .escape }
      else if c.toNat < 32 ∨ s.high.isSome then none
      else some { s with text := s.text ++ [c] }
  | .escape =>
      if c = 117 then some { s with within := .unit 0 0 }
      else if s.high.isSome then none
      else (unescape c).map fun b => ⟨s.text ++ [b], none, .plain⟩
  | .unit digits value =>
      (hexDigitValue c).bind fun d =>
        if digits = 3 then s.unit (16 * value + d)
        else some { s with within := .unit (digits + 1) (16 * value + d) }

end StringReader

/-!
# Objects
-/

/-- What comes next; a string is a name, or the value that belongs to one. -/
inductive Expect where
  | object
  | nameOrEnd
  | name
  | inString (name : Option ByteString) (s : StringReader)
  | colon (name : ByteString)
  | value (name : ByteString)
  | commaOrEnd
  | nothing

def Expect.next : Expect -> UInt8 -> Option Expect
  | .object, 123 => some .nameOrEnd
  | .nameOrEnd, 34 => some (.inString none StringReader.start)
  | .nameOrEnd, 125 => some .nothing
  | .name, 34 => some (.inString none StringReader.start)
  | .colon key, 58 => some (.value key)
  | .value key, 34 => some (.inString (some key) StringReader.start)
  | .commaOrEnd, 44 => some .name
  | .commaOrEnd, 125 => some .nothing
  | _, _ => none

structure Reader where
  members : List (ByteString × ByteString)
  expect : Expect

def Reader.closeString (members : List (ByteString × ByteString))
    (text : ByteString) : Option ByteString -> Reader
  | none => ⟨members, .colon text⟩
  | some name => ⟨members ++ [(name, text)], .commaOrEnd⟩

def Reader.step (r : Reader) (c : UInt8) : Option Reader :=
  match r.expect with
  | .inString name s =>
      if s.closes c then some (closeString r.members s.text name)
      else (s.step c).map fun s => ⟨r.members, .inString name s⟩
  | expect =>
      if isBlank c then some r
      else (expect.next c).map fun expect => ⟨r.members, expect⟩

/-- The members of an object, in the order of the text. -/
def readObject (text : ByteString) : Option (List (ByteString × ByteString)) :=
  if Utf8 text then
    match text.foldlM Reader.step ⟨[], .object⟩ with
    | some ⟨members, .nothing⟩ => some members
    | _ => none
  else none

example : readObject (bytes " \x7b \"a\" : \"\\u00e9\\n\", \"\" :\"\"\x7d\n") =
    some [(bytes "a", [0xC3, 0xA9, 10]), ([], [])] := by decide +kernel

example : readObject (bytes "\x7b\"a\":\"\n\"\x7d") = none := by decide +kernel

/-!
# Inside a string
-/

section inString

variable (members : List (ByteString × ByteString)) (name : Option ByteString)
variable (text : ByteString)

/-- The bytes of `text` have been read. -/
def inString : Reader := ⟨members, .inString name ⟨text, none, .plain⟩⟩

theorem step_byte {c : UInt8} (hquote : c ≠ 34) (hslash : c ≠ 92) :
    (inString members name text).step c =
      if c.toNat < 32 then none else some (inString members name (text ++ [c])) := by
  have hopen : StringReader.closes ⟨text, none, .plain⟩ c = false := by
    unfold StringReader.closes
    rw [beq_eq_false_iff_ne.mpr hquote]
    rfl
  unfold inString Reader.step
  simp only [hopen, Bool.false_eq_true, if_false]
  unfold StringReader.step
  simp only [if_neg hslash, Option.isSome_none, Bool.false_eq_true, or_false]
  split
  · rfl
  · rfl

theorem steps_escape {c b : UInt8} (hc : unescape c = some b) :
    [92, c].foldlM Reader.step (inString members name text) =
      some (inString members name (text ++ [b])) := by
  have hunit : c ≠ 117 := by
    intro heq
    rw [heq] at hc
    cases hc
  have hopen : StringReader.closes ⟨text, none, .escape⟩ c = false := by
    unfold StringReader.closes
    have hother : Within.escape ≠ Within.plain := by decide
    rw [decide_eq_false hother, Bool.and_false]
    rfl
  change Reader.step ⟨members, .inString name ⟨text, none, .escape⟩⟩ c >>= _ = _
  unfold Reader.step
  simp only [hopen, Bool.false_eq_true, if_false]
  unfold StringReader.step
  simp only [if_neg hunit, hc]
  rfl

end inString

end Json

end Foundation
end OssSdk
