import OssSdk.Foundation.Decimal
import Mathlib.Data.Int.Basic

/-!
# Dates

A time is a number of seconds since the beginning of 1970.
-/

namespace OssSdk
namespace Utils

open Foundation

/-- The fields of a `std::tm` that the formats below use. -/
structure Tm where
  year : Int
  mon : Nat
  mday : Nat
  hour : Nat
  min : Nat
  sec : Nat
  wday : Nat
deriving DecidableEq

/--
`gmtime_r`.  Days are counted in eras of 400 years, and years from March on, so that
a leap day is the last day of its year.
-/
def gmtime (t : Int) : Tm :=
  let days := t / 86400
  let rest := (t % 86400).toNat
  let era := (days + 719468) / 146097
  let doe := ((days + 719468) % 146097).toNat
  let yoe := (doe - doe / 1460 + doe / 36524 - doe / 146096) / 365
  let doy := doe - (365 * yoe + yoe / 4 - yoe / 100)
  let mp := (5 * doy + 2) / 153
  let mon := if mp < 10 then mp + 2 else mp - 10
  { year := era * 400 + yoe + (if mon < 2 then 1 else 0)
    mon := mon
    mday := doy - (153 * mp + 2) / 5 + 1
    hour := rest / 3600
    min := rest % 3600 / 60
    sec := rest % 60
    wday := ((days + 4) % 7).toNat }

def twoDigits (n : Nat) : ByteString := [digitByte (n / 10), digitByte (n % 10)]

def dayNames : List String := ["Sun", "Mon", "Tue", "Wed", "Thu", "Fri", "Sat"]

def monthNames : List String :=
  ["Jan", "Feb", "Mar", "Apr", "May", "Jun", "Jul", "Aug", "Sep", "Oct", "Nov", "Dec"]

/-- One conversion of `std::put_time`, with the names of the classic locale. -/
def putField (tm : Tm) (conversion : UInt8) : ByteString :=
  if conversion = 89 then toDecimalInt tm.year
  else if conversion = 109 then twoDigits (tm.mon + 1)
  else if conversion = 100 then twoDigits tm.mday
  else if conversion = 72 then twoDigits tm.hour
  else if conversion = 77 then twoDigits tm.min
  else if conversion = 83 then twoDigits tm.sec
  else if conversion = 97 then bytes (dayNames.getD tm.wday "")
  else if conversion = 98 then bytes (monthNames.getD tm.mon "")
  else []

def putTime (tm : Tm) : ByteString -> ByteString
  | 37 :: conversion :: rest => putField tm conversion ++ putTime tm rest
  | c :: rest => c :: putTime tm rest
  | [] => []

def FormatUnixTime (t : Int) (fmt : ByteString) : ByteString := putTime (gmtime t) fmt

def ToGmtTime (t : Int) : ByteString :=
  putTime (gmtime t) (bytes "%a, %d %b %Y %H:%M:%S GMT")

example : FormatUnixTime 1702743657 (bytes "%Y%m%dT%H%M%SZ") =
    bytes "20231216T162057Z" := by decide +kernel

example : ToGmtTime 1702743657 = bytes "Sat, 16 Dec 2023 16:20:57 GMT" := by
  decide +kernel

/-- The name of a day stands before the first comma. -/
theorem ToGmtTime_text (t : Int) :
    exists name rest : ByteString, 0 ∉ name ∧ ToGmtTime t = name ++ 44 :: rest := by
  have hformat : bytes "%a, %d %b %Y %H:%M:%S GMT" =
      37 :: 97 :: 44 :: bytes " %d %b %Y %H:%M:%S GMT" := by decide
  refine ⟨putField (gmtime t) 97, putTime (gmtime t) (bytes " %d %b %Y %H:%M:%S GMT"),
    ?_, ?_⟩
  · have hnames : forall name, name ∈ dayNames -> 0 ∉ bytes name := by decide
    change 0 ∉ bytes (dayNames.getD (gmtime t).wday "")
    rw [List.getD_eq_getElem?_getD]
    cases hday : dayNames[(gmtime t).wday]? with
    | none => exact List.not_mem_nil
    | some name => exact hnames name (List.mem_of_getElem? hday)
  · unfold ToGmtTime
    rw [hformat]
    rfl

end Utils
end OssSdk
