import OssSdk.Foundation.Lines
import OssSdk.Signer.SignerV4

/-!
# The header lines of a request

libcurl is handed one string for each header, and puts each on the wire as it is, with
a line break after it.  A string that holds a line break is more than one header line.
-/

namespace OssSdk
namespace Transport
namespace Curl

open Foundation
open Utils

variable {σ : Type}

def headerNameEquals (header expect : ByteString) : Bool :=
  expect.length == header.length &&
    (header.zip expect).all fun c => tolower c.1 == tolower c.2

/-- `std::from_chars`, which stops at the first byte that is no digit. -/
def fromChars (str : ByteString) : Option Int :=
  match str with
  | 45 :: ds => fromCharsInt64 (45 :: ds.takeWhile isDigit)
  | ds => fromCharsInt64 (ds.takeWhile isDigit)

def bodyLength : ByteContent σ -> Option Nat
  | .content _ length _ => length
  | .tee source _ => bodyLength source

/-- Empty values and the content length have no string. -/
def isListed (header : ByteString × ByteString) : Bool :=
  !header.2.isEmpty && !headerNameEquals header.1 (bytes "Content-Length")

/-- What `curl_slist_append` is handed is read as a C string. -/
def headerText (header : ByteString × ByteString) : ByteString :=
  cStr (header.1 ++ bytes ": " ++ header.2)

def contentLengthOf (headers : HeaderCollection) (body : Option (ByteContent σ)) : Int :=
  let contentLength :=
    match headers.find? (bytes "Content-Length") with
    | some str => (fromChars str).getD (-1)
    | none => -1
  if contentLength < 0 then
    match body.bind bodyLength with
    | some length => length
    | none => contentLength
  else contentLength

/-- The strings, and the content length. -/
def buildHeaderList (headers : HeaderCollection) (body : Option (ByteContent σ)) :
    List ByteString × Int :=
  let list := (headers.entries.filter isListed).map headerText ++ [bytes "Expect:"]
  let contentLength := contentLengthOf headers body
  if 0 ≤ contentLength then
    (list ++ [bytes "Content-Length: " ++ toDecimalInt contentLength], contentLength)
  else (list, contentLength)

/-- The options of an easy handle that say how a request is sent. -/
structure EasyOptions where
  httpHeader : List ByteString
  nobody : Bool
  upload : Bool
  post : Bool
  infilesize : Option Int
  postfieldsize : Option Int
  customRequest : Option ByteString
deriving DecidableEq

def EasyOptions.unset : EasyOptions := ⟨[], false, false, false, none, none, none⟩

def applyHttpMethod (options : EasyOptions) (method : ByteString)
    (body : Option (ByteContent σ)) (contentLength : Int) : EasyOptions :=
  let size (size : Option Int) : Option Int :=
    if body.isNone then some 0
    else if 0 ≤ contentLength then some contentLength
    else size
  if bytes "HEAD" = method then { options with nobody := true }
  else if bytes "PUT" = method then
    { options with upload := true, infilesize := size options.infilesize }
  else if bytes "POST" = method then
    { options with post := true, postfieldsize := size options.postfieldsize }
  else if bytes "DELETE" = method then
    { options with customRequest := some (bytes "DELETE") }
  else options

/-- The options that a request is sent with. -/
def requestOptions (request : RequestMessage σ) : EasyOptions :=
  let (list, contentLength) := buildHeaderList request.headers request.body
  { applyHttpMethod .unset request.method request.body contentLength with
    httpHeader := list }

/-!
# What libcurl puts on the wire
-/

/-- The lower-cased name and the trimmed value that a line has, if it has a colon. -/
def headerOf (line : ByteString) : Option (ByteString × ByteString) :=
  if line.contains 58 then
    some ((line.takeWhile (· != 58)).map toLowerByte,
      strip ((line.dropWhile (· != 58)).drop 1))
  else none

def namesContentType (text : ByteString) : Bool :=
  (headerOf text).any fun header => header.1 == bytes "content-type"

/-- The header that a POST gets whose strings have no content type. -/
def defaultContentType (options : EasyOptions) : List ByteString :=
  if options.post && !options.httpHeader.any namesContentType then
    [bytes "Content-Type: " ++ bytes "application/x-www-form-urlencoded"]
  else []

def headerWire (options : EasyOptions) : ByteString :=
  (options.httpHeader ++ defaultContentType options).flatMap fun text =>
    text ++ bytes "\r\n"

/-- The header of a line, if it is one of those that are always signed. -/
def signedHeaderOf (line : ByteString) : Option (ByteString × ByteString) :=
  (headerOf line).filter fun header => Signer.V4.isDefaultSignedHeader header.1

/-- The header lines that are read off the wire, of those that are always signed. -/
def sentHeaders (request : RequestMessage σ) : List (ByteString × ByteString) :=
  (lines (headerWire (requestOptions request))).filterMap signedHeaderOf

/-!
# Reading a line
-/

theorem headerOf_append {name : ByteString} (hname : 58 ∉ name) (value : ByteString) :
    headerOf (name ++ 58 :: value) = some (name.map toLowerByte, strip value) := by
  have hall : forall c, c ∈ name -> (c != 58) = true := by
    intro c hc
    have hne : c ≠ 58 := fun heq => hname (heq ▸ hc)
    simpa using hne
  unfold headerOf
  rw [if_pos (by simp), List.takeWhile_append_of_pos hall,
    List.dropWhile_append_of_pos hall, List.takeWhile_cons_of_neg (by simp),
    List.dropWhile_cons_of_neg (by simp), List.append_nil]
  rfl

theorem signedHeaderOf_eq_some {line : ByteString} {header : ByteString × ByteString} :
    signedHeaderOf line = some header ↔
      headerOf line = some header ∧ Signer.V4.isDefaultSignedHeader header.1 = true := by
  unfold signedHeaderOf
  rw [Option.filter_eq_some_iff]

/-!
# The lines of a request
-/

theorem carriageReturn_not_mem_toDecimalInt {n : Int} (hn : 0 ≤ n) :
    13 ∉ toDecimalInt n := by
  intro hmem
  rcases Int.eq_ofNat_of_zero_le hn with ⟨m, hm⟩
  rw [hm] at hmem
  have hdigit : isDigit 13 = true := isDigit_of_mem_toDecimal hmem
  exact absurd hdigit (by decide)

theorem contentLength_unsigned {n : Int} (hn : 0 ≤ n) :
    (lines (bytes "Content-Length: " ++ toDecimalInt n)).filterMap signedHeaderOf = [] := by
  have htext : bytes "Content-Length: " ++ toDecimalInt n =
      bytes "Content-Length" ++ 58 :: (32 :: toDecimalInt n) := rfl
  have hbreak : 13 ∉ bytes "Content-Length: " ++ toDecimalInt n := by
    rw [List.mem_append, not_or]
    exact ⟨by decide, carriageReturn_not_mem_toDecimalInt hn⟩
  have hnone : signedHeaderOf (bytes "Content-Length: " ++ toDecimalInt n) = none := by
    have hname : Signer.V4.isDefaultSignedHeader
        ((bytes "Content-Length").map toLowerByte) = false := by decide
    unfold signedHeaderOf
    rw [htext, headerOf_append (by decide), Option.filter_some, hname,
      if_neg Bool.false_ne_true]
  unfold lines firstLine laterLines
  rw [breakLines_eq_self hbreak, List.filterMap_cons_none hnone]
  rfl

theorem requestOptions_httpHeader (request : RequestMessage σ) :
    (requestOptions request).httpHeader.flatMap lines =
      ((request.headers.entries.filter isListed).map headerText).flatMap lines ++
        (lines (bytes "Expect:") ++
          if 0 ≤ contentLengthOf request.headers request.body then
            lines (bytes "Content-Length: " ++
              toDecimalInt (contentLengthOf request.headers request.body))
          else []) := by
  unfold requestOptions buildHeaderList
  simp only
  split
  · simp only [List.flatMap_append, List.flatMap_singleton, List.append_assoc]
  · simp only [List.flatMap_append, List.flatMap_singleton, List.append_nil]

def formContentType : ByteString × ByteString :=
  (bytes "content-type", bytes "application/x-www-form-urlencoded")

theorem defaultContentType_signed (options : EasyOptions) :
    ((defaultContentType options).flatMap lines).filterMap signedHeaderOf =
      if options.post && !options.httpHeader.any namesContentType then [formContentType]
      else [] := by
  unfold defaultContentType
  split
  · decide +kernel
  · rfl

/-- A header is sent where a line of a header of the request, or the default, has it. -/
theorem mem_sentHeaders {request : RequestMessage σ} {pair : ByteString × ByteString} :
    pair ∈ sentHeaders request ↔
      (exists header, header ∈ request.headers.entries ∧ isListed header = true ∧
        exists line, line ∈ lines (headerText header) ∧
          signedHeaderOf line = some pair) ∨
      (defaultContentType (requestOptions request) ≠ [] ∧ pair = formContentType) := by
  have hexpect : (lines (bytes "Expect:")).filterMap signedHeaderOf = [] := by
    decide
  have hempty : ([[]] : List ByteString).filterMap signedHeaderOf = [] := by
    decide
  have hlength : (if 0 ≤ contentLengthOf request.headers request.body then
      lines (bytes "Content-Length: " ++
        toDecimalInt (contentLengthOf request.headers request.body))
      else []).filterMap signedHeaderOf = [] := by
    split
    · rename_i hn
      exact contentLength_unsigned hn
    · rfl
  unfold sentHeaders headerWire
  rw [lines_flatMap, List.flatMap_append, requestOptions_httpHeader]
  simp only [List.filterMap_append, hexpect, hempty, hlength, List.append_nil,
    List.mem_append, defaultContentType_signed]
  have hdefault : (pair ∈ if (requestOptions request).post &&
        !(requestOptions request).httpHeader.any namesContentType then [formContentType]
        else []) ↔
      (defaultContentType (requestOptions request) ≠ [] ∧ pair = formContentType) := by
    unfold defaultContentType
    split
    · simp
    · simp
  rw [hdefault]
  refine or_congr ?_ Iff.rfl
  constructor
  · intro hmem
    rcases List.mem_filterMap.mp hmem with ⟨line, hline, hpair⟩
    rcases List.mem_flatMap.mp hline with ⟨text, htext, hin⟩
    rcases List.mem_map.mp htext with ⟨header, hheader, heq⟩
    rcases List.mem_filter.mp hheader with ⟨hentry, hlisted⟩
    rw [← heq] at hin
    exact ⟨header, hentry, hlisted, line, hin, hpair⟩
  · intro hexists
    rcases hexists with ⟨header, hentry, hlisted, line, hin, hpair⟩
    refine List.mem_filterMap.mpr ⟨line, ?_, hpair⟩
    exact List.mem_flatMap.mpr ⟨headerText header,
      List.mem_map.mpr ⟨header, List.mem_filter.mpr ⟨hentry, hlisted⟩, rfl⟩, hin⟩

/-!
# The lines of a header
-/

/-- A name that a line begins with and that ends at the first colon. -/
def IsName (name : ByteString) : Prop :=
  0 ∉ name ∧ 58 ∉ name ∧ laterLines name = []

instance (name : ByteString) : Decidable (IsName name) :=
  inferInstanceAs (Decidable (_ ∧ _ ∧ _))

theorem breakLines_headerText {header : ByteString × ByteString}
    (hname : IsName header.1) :
    breakLines (headerText header) =
      (header.1 ++ 58 :: (32 :: firstLine (cStr header.2)),
        laterLines (cStr header.2)) := by
  have htext : headerText header = header.1 ++ 58 :: (32 :: cStr header.2) := by
    unfold headerText
    rw [List.append_assoc, cStr_append hname.1, cStr_append (by decide)]
    rfl
  have hvalue : breakLines (32 :: cStr header.2) =
      (32 :: firstLine (cStr header.2), laterLines (cStr header.2)) := by
    exact breakLines_append_cons (s := []) rfl (by decide) (by decide) _
  rw [htext, breakLines_append_cons hname.2.2 (by decide) (by decide)]
  unfold firstLine laterLines at hvalue ⊢
  rw [hvalue]

/-- The line that begins with the name of a header holds its value up to the first break. -/
theorem headerOf_firstLine {header : ByteString × ByteString}
    (hname : IsName header.1) :
    headerOf (firstLine (headerText header)) =
      some (ToLower header.1, strip (firstLine (cStr header.2))) := by
  unfold firstLine
  rw [breakLines_headerText hname]
  simp only
  rw [headerOf_append hname.2.1, strip_cons (by decide)]
  unfold ToLower firstLine
  rw [cStr_eq_self hname.1]

end Curl
end Transport
end OssSdk
