import OssSdk.Internal.ExecuteContext
import OssSdk.Utils.StringUtils
import OssSdk.Utils.HttpUtils
import OssSdk.Utils.DateUtils

/-!
# What the signers share

The hash functions are those of the library that the build selects.
-/

namespace OssSdk
namespace Signer

open Foundation
open Internal
open Utils

structure Platform (σ : Type) where
  time : σ -> Int
  sha256 : ByteString -> Vector UInt8 32
  hmacSha256 : (data key : ByteString) -> Vector UInt8 32
  hmacSha1 : (data key : ByteString) -> Vector UInt8 20

variable {σ : Type}

def lowerHexDigit (d : Nat) : UInt8 :=
  if d < 10 then UInt8.ofNat (48 + d) else UInt8.ofNat (87 + d)

def LowerHexToString (data : ByteString) : ByteString :=
  data.flatMap fun c => [lowerHexDigit (c.toNat / 16), lowerHexDigit (c.toNat % 16)]

def Platform.HashSh256 (p : Platform σ) (data : ByteString) : ByteString :=
  LowerHexToString (p.sha256 data).toList

/-- The time to sign with, from the clock when the context has none. -/
def Platform.timeNow (p : Platform σ) (context : SigningContext) (env : σ) : Int :=
  if 0 < context.signTimeInEpoch then context.signTimeInEpoch
  else p.time env + context.clockOffset

def expirationTime (context : SigningContext) (timeNow : Int) : Int :=
  if 0 < context.expirationInEpoch then context.expirationInEpoch
  else timeNow + 15 * 60

/-- Without a token the headers stay as they are. -/
def stampToken (cred : Credentials) (headers : HeaderCollection) : HeaderCollection :=
  if cred.sessionToken.isEmpty then headers
  else headers.insertOrAssign (bytes "x-oss-security-token") cred.sessionToken

/-- The resource path, which either signer builds in the same way. -/
def resourcePath (bucket key : ByteString) : ByteString :=
  bytes "/" ++ (if bucket.isEmpty then [] else bucket ++ bytes "/") ++ key

/-- Parameters that are encoded already, as a query. -/
def encodedQuery (parameters : ParameterCollection) : ByteString :=
  StringJoin (bytes "&") (parameters.entries.map fun (k, v) =>
    if v.isEmpty then k else k ++ bytes "=" ++ v)

/-- A digest, written as a number. -/
def digest (n value : Nat) : Vector UInt8 n :=
  Vector.ofFn fun i => UInt8.ofNat (value >>> (8 * (n - 1 - i)))

theorem length_LowerHexToString (data : ByteString) :
    (LowerHexToString data).length = 2 * data.length := by
  induction data with
  | nil => rfl
  | cons c rest ih =>
      rw [LowerHexToString, List.flatMap_cons, List.length_append]
      change 2 + (LowerHexToString rest).length = _
      rw [ih, List.length_cons]
      omega

end Signer
end OssSdk
