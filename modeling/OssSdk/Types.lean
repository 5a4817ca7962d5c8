import OssSdk.Foundation.Bytes
import OssSdk.Foundation.SortedMap
import Mathlib.Data.Int.Order.Basic
import Mathlib.Data.Nat.Basic

/-!
# Common types

Header and parameter collections are ordered maps.  Header names are compared
without regard to case, parameter names byte for byte.
-/

namespace OssSdk

open Foundation

inductive AddressStyleType where
  | VirtualHosted
  | Path
  | CName
  | VirtualHostedAlias
deriving DecidableEq

inductive FeatureFlagsType where
  | CorrectClockSkew
  | AutoDetectMimeType
  | EnableCRC64CheckUpload
  | EnableCRC64CheckDownload
deriving DecidableEq

def FeatureFlagsType.bit : FeatureFlagsType -> Nat
  | .CorrectClockSkew => 0
  | .AutoDetectMimeType => 1
  | .EnableCRC64CheckUpload => 2
  | .EnableCRC64CheckDownload => 3

/-- `tolower` of the C locale on a `char`, which is signed. -/
def tolower (c : UInt8) : Int :=
  let ch : Int := if c.toNat < 128 then c.toNat else c.toNat - 256
  if 65 ≤ ch ∧ ch ≤ 90 then ch + 32 else ch

def caseInsensitiveLess (lhs rhs : ByteString) : Bool :=
  lexLess tolower lhs rhs

def caseSensitiveLess (lhs rhs : ByteString) : Bool :=
  lexLess UInt8.toNat lhs rhs

instance caseInsensitiveLess_strictWeakOrder :
    IsStrictWeakOrder ByteString fun a b => caseInsensitiveLess a b = true :=
  lexLess_strictWeakOrder tolower

instance caseSensitiveLess_strictWeakOrder :
    IsStrictWeakOrder ByteString fun a b => caseSensitiveLess a b = true :=
  lexLess_strictWeakOrder UInt8.toNat

abbrev HeaderCollection := SortedMap ByteString ByteString caseInsensitiveLess

abbrev ParameterCollection := SortedMap ByteString ByteString caseSensitiveLess

/-- The string map of the extra error fields. -/
abbrev ErrorFields := SortedMap ByteString ByteString caseSensitiveLess

end OssSdk
