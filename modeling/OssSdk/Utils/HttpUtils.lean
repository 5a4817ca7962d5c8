import OssSdk.Types
import OssSdk.Foundation.Decimal

/-!
# URL and header helpers
-/

namespace OssSdk
namespace Utils

open Foundation

/-!
# Percent encoding
-/

def isAlnum (c : UInt8) : Bool :=
  isDigit c || decide (65 ≤ c.toNat ∧ c.toNat ≤ 90) ||
    decide (97 ≤ c.toNat ∧ c.toNat ≤ 122)

def hexDigit (d : Nat) : UInt8 :=
  if d < 10 then UInt8.ofNat (48 + d) else UInt8.ofNat (55 + d)

def urlEncodeByte (ignoreSlash : Bool) (c : UInt8) : ByteString :=
  if isAlnum c || c == 45 || c == 95 || c == 46 || c == 126 then [c]
  else if c == 32 then bytes "%20"
  else if ignoreSlash && c == 47 then [c]
  else [37, hexDigit (c.toNat / 16), hexDigit (c.toNat % 16)]

def urlEncode (src : ByteString) (ignoreSlash : Bool) : ByteString :=
  src.flatMap (urlEncodeByte ignoreSlash)

def UrlEncodePath (src : ByteString) : ByteString := urlEncode src true

def UrlEncode (src : ByteString) : ByteString := urlEncode src false

def isxdigit (c : UInt8) : Bool :=
  isDigit c || decide (65 ≤ c.toNat ∧ c.toNat ≤ 70) ||
    decide (97 ≤ c.toNat ∧ c.toNat ≤ 102)

/-- `strtol` of one hexadecimal digit. -/
def hexValue (c : UInt8) : Nat :=
  if isDigit c then c.toNat - 48
  else if c.toNat ≤ 70 then c.toNat - 55
  else c.toNat - 87

/-- A percent sign with fewer than two bytes after it ends the text. -/
def UrlDecode : ByteString -> ByteString
  | [] => []
  | [37] => [37]
  | [37, _] => [37]
  | 37 :: h :: l :: rest =>
      if isxdigit h && isxdigit l then
        UInt8.ofNat (16 * hexValue h + hexValue l) :: UrlDecode rest
      else 37 :: UrlDecode (h :: l :: rest)
  | c :: rest => c :: UrlDecode rest

def StringJoin (delimiter : ByteString) : List ByteString -> ByteString
  | [] => []
  | [element] => element
  | element :: rest => element ++ delimiter ++ StringJoin delimiter rest

def ToQueryString (parameters : ParameterCollection) : ByteString :=
  StringJoin (bytes "&") (parameters.entries.map fun (k, v) =>
    if v.isEmpty then UrlEncode k
    else UrlEncode k ++ bytes "=" ++ UrlEncode v)

/-- The pieces between ampersands; nothing follows one at the end. -/
def queryItems (piece : ByteString) : ByteString -> List ByteString
  | [] => [piece]
  | c :: rest =>
      if c == 38 then
        piece :: (if rest.isEmpty then [] else queryItems [] rest)
      else queryItems (piece ++ [c]) rest

/-- Without an equals sign the value is empty. -/
def queryEntry (item : ByteString) : ByteString × ByteString :=
  (item.takeWhile (· != 61), (item.dropWhile (· != 61)).drop 1)

def ToEncodedParameters (url : ByteString) : ParameterCollection :=
  let query := (url.dropWhile (· != 63)).drop 1
  if query.isEmpty then SortedMap.empty
  else SortedMap.ofList ((queryItems [] query).map queryEntry)

/-!
# Range headers
-/

def isBlank (c : UInt8) : Bool := c == 32 || c == 9

def trim (sv : ByteString) : ByteString :=
  ((sv.dropWhile isBlank).reverse.dropWhile isBlank).reverse

/-- `std::from_chars` into an `int64_t`, when it consumes all of its input. -/
def fromCharsInt64 : ByteString -> Option Int
  | 45 :: ds =>
      if ds ≠ [] ∧ ds.all isDigit ∧ ofDecimal ds ≤ 2 ^ 63 then
        some (-(ofDecimal ds : Int))
      else none
  | ds =>
      if ds ≠ [] ∧ ds.all isDigit ∧ ofDecimal ds < 2 ^ 63 then
        some (ofDecimal ds : Int)
      else none

/-- One side of a range; a missing side is -1. -/
def parseSide (sv : ByteString) : Option Int :=
  if sv.isEmpty then some (-1)
  else
    match fromCharsInt64 sv with
    | some out => if 0 ≤ out then some out else none
    | none => none

def parseRangeItem (item : ByteString) : Option (Int × Int) :=
  if item.contains 45 then do
    let first <- parseSide (item.takeWhile (· != 45))
    let last <- parseSide ((item.dropWhile (· != 45)).drop 1)
    if first = -1 ∧ last = -1 then none
    else if first ≠ -1 ∧ last ≠ -1 ∧ last < first then none
    else some (first, last)
  else none

/-- The pieces between commas; nothing follows a comma at the end. -/
def rangeItems (piece : ByteString) : ByteString -> List ByteString
  | [] => [piece]
  | c :: rest =>
      if c == 44 then
        piece :: (if rest.isEmpty then [] else rangeItems [] rest)
      else rangeItems (piece ++ [c]) rest

/-- The loop over the pieces; on failure the ranges found so far stay. -/
def parseRangeItems (ranges : List (Int × Int)) :
    List ByteString -> Bool × List (Int × Int)
  | [] => (!ranges.isEmpty, ranges)
  | item :: rest =>
      match parseRangeItem (trim item) with
      | none => (false, ranges)
      | some range => parseRangeItems (ranges ++ [range]) rest

def ParseRangeHeader (s : ByteString) (ranges : List (Int × Int)) :
    Bool × List (Int × Int) :=
  let kPrefix := bytes "bytes="
  if s.length ≤ kPrefix.length ∨ s.take kPrefix.length ≠ kPrefix then
    (false, ranges)
  else parseRangeItems ranges (rangeItems [] (s.drop kPrefix.length))

example : ParseRangeHeader (bytes "bytes=0-9, 20-,-5") [] =
    (true, [(0, 9), (20, -1), (-1, 5)]) := by decide

end Utils
end OssSdk
