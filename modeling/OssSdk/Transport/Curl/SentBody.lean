import OssSdk.Internal.OSSUtils
import OssSdk.Io.ByteStream
import OssSdk.Transport.Curl.RequestHeaders

/-!
# The body of a request and its announced length

The header strings and the method are set from the same request by two functions.  Only
an upload and a POST send a body, of the size that is set for them.
-/

namespace OssSdk
namespace Transport
namespace Curl

open Foundation
open Utils

variable {σ : Type}

/-- A body of a size that is not set is sent in chunks, to its end. -/
inductive BodySent where
  | nothing
  | sized (size : Int)
  | chunked
deriving DecidableEq

def BodySent.ofSize : Option Int -> BodySent
  | some size => .sized size
  | none => .chunked

/-- What libcurl sends of a body. -/
def bodySent (options : EasyOptions) : BodySent :=
  if options.nobody then .nothing
  else if options.upload then .ofSize options.infilesize
  else if options.post then .ofSize options.postfieldsize
  else .nothing

/-- The number of bytes that libcurl is to send, if it is known before. -/
def BodySent.size : BodySent -> Option Int
  | .nothing => some 0
  | .sized size => some size
  | .chunked => none

/-- The value of a line that announces a length. -/
def announcedBy (line : ByteString) : Option ByteString :=
  match headerOf line with
  | some (name, value) => if name = bytes "content-length" then some value else none
  | none => none

/-- The lengths that the header strings announce, as they are read off the wire. -/
def announcedLengths (options : EasyOptions) : List ByteString :=
  (options.httpHeader.flatMap lines).filterMap announcedBy

/--
Every length that is announced is that of what libcurl sends, and a body that is not
empty is sent.
-/
structure AnnouncesSent (options : EasyOptions) (body : Option (ByteContent σ)) : Prop
    where
  length : forall value, value ∈ announcedLengths options ->
    exists size : Nat, value = toDecimal size ∧
      (bodySent options).size = some (size : Int)
  body : forall content, body = some content -> content.data ≠ [] ->
    bodySent options ≠ .nothing

/-- A body that is not empty is sent to its end. -/
def SendsWhole (options : EasyOptions) (body : Option (ByteContent σ)) : Prop :=
  forall content, body = some content -> content.data ≠ [] ->
    bodySent options = .chunked ∨ bodySent options = .sized content.data.length

/-!
# What is sent
-/

/-- Whether the method sends a body. -/
def sendsBody (method : ByteString) : Bool :=
  method == bytes "PUT" || method == bytes "POST"

theorem bodySent_applyHttpMethod (request : RequestMessage σ) :
    bodySent (requestOptions request) =
      bodySent (applyHttpMethod .unset request.method request.body
        (contentLengthOf request.headers request.body)) := by
  unfold requestOptions buildHeaderList
  simp only
  split
  · rfl
  · rfl

/-- What becomes of the body, by the method and the content length. -/
theorem bodySent_requestOptions (request : RequestMessage σ) :
    bodySent (requestOptions request) =
      if sendsBody request.method then
        .ofSize
          (if request.body.isNone then some 0
          else if 0 ≤ contentLengthOf request.headers request.body then
            some (contentLengthOf request.headers request.body)
          else none)
      else .nothing := by
  rw [bodySent_applyHttpMethod]
  unfold applyHttpMethod sendsBody
  by_cases hhead : bytes "HEAD" = request.method
  · simp only [if_pos hhead]
    rw [← hhead]
    rfl
  · simp only [if_neg hhead]
    by_cases hput : bytes "PUT" = request.method
    · simp only [if_pos hput]
      rw [← hput]
      rfl
    · simp only [if_neg hput]
      by_cases hpost : bytes "POST" = request.method
      · simp only [if_pos hpost]
        rw [← hpost]
        rfl
      · have hnone : (request.method == bytes "PUT" ||
            request.method == bytes "POST") = false := by
          rw [Bool.or_eq_false_iff, beq_eq_false_iff_ne, beq_eq_false_iff_ne]
          exact ⟨Ne.symm hput, Ne.symm hpost⟩
        simp only [if_neg hpost, hnone]
        split
        · rfl
        · rfl

/-!
# What is announced
-/

theorem strip_eq_self {s : ByteString} (hs : forall c, c ∈ s -> isspace c = false) :
    strip s = s := by
  have hkeeps : forall t : ByteString, (forall c, c ∈ t -> isspace c = false) ->
      t.dropWhile isspace = t := by
    intro t ht
    cases t with
    | nil => rfl
    | cons c rest =>
        exact List.dropWhile_cons_of_neg (by rw [ht c List.mem_cons_self]; decide)
  unfold strip
  rw [hkeeps s.reverse (fun c hc => hs c (List.mem_reverse.mp hc)), List.reverse_reverse,
    hkeeps s hs]

theorem isspace_of_isDigit : forall c : UInt8, isDigit c = true -> isspace c = false :=
  forall_byte (by decide +kernel)

/-- The line of the content length announces it. -/
theorem announcedBy_contentLength (size : Nat) :
    (lines (bytes "Content-Length: " ++ toDecimal size)).filterMap announcedBy =
      [toDecimal size] := by
  have hbreak : 13 ∉ bytes "Content-Length: " ++ toDecimal size := by
    rw [List.mem_append, not_or]
    refine ⟨by decide, ?_⟩
    intro hmem
    exact absurd (isDigit_of_mem_toDecimal hmem) (by decide)
  have htext : bytes "Content-Length: " ++ toDecimal size =
      bytes "Content-Length" ++ 58 :: (32 :: toDecimal size) := rfl
  have hvalue : strip (32 :: toDecimal size) = toDecimal size := by
    rw [strip_cons (by decide)]
    exact strip_eq_self fun c hc => isspace_of_isDigit c (isDigit_of_mem_toDecimal hc)
  have hannounced : announcedBy (bytes "Content-Length: " ++ toDecimal size) =
      some (toDecimal size) := by
    have hname : (bytes "Content-Length").map toLowerByte = bytes "content-length" := by
      decide
    unfold announcedBy
    rw [htext, headerOf_append (by decide), hname, hvalue]
    exact if_pos rfl
  unfold lines firstLine laterLines
  rw [breakLines_eq_self hbreak, List.filterMap_cons_some hannounced]
  rfl

/-- The lengths that other headers announce, which `buildHeaderList` passes through. -/
def otherLengths (request : RequestMessage σ) : List ByteString :=
  (((request.headers.entries.filter isListed).map headerText).flatMap lines).filterMap
    announcedBy

theorem announcedLengths_requestOptions (request : RequestMessage σ) :
    announcedLengths (requestOptions request) =
      otherLengths request ++
        if 0 ≤ contentLengthOf request.headers request.body then
          [toDecimalInt (contentLengthOf request.headers request.body)]
        else [] := by
  have hexpect : (lines (bytes "Expect:")).filterMap announcedBy = [] := by decide
  unfold announcedLengths otherLengths
  rw [requestOptions_httpHeader, List.filterMap_append, List.filterMap_append, hexpect,
    List.nil_append]
  congr 1
  split
  · rename_i hlength
    rcases Int.eq_ofNat_of_zero_le hlength with ⟨size, hsize⟩
    rw [hsize]
    exact announcedBy_contentLength size
  · rfl

/-!
# Agreement
-/

/-- The size that libcurl is told, by the method, the body and the content length. -/
def toldSize (request : RequestMessage σ) : Option Int :=
  if sendsBody request.method ∧ request.body.isSome then
    if 0 ≤ contentLengthOf request.headers request.body then
      some (contentLengthOf request.headers request.body)
    else none
  else some 0

theorem size_bodySent (request : RequestMessage σ) :
    (bodySent (requestOptions request)).size = toldSize request := by
  rw [bodySent_requestOptions]
  unfold toldSize
  cases hsends : sendsBody request.method with
  | false => rfl
  | true =>
      cases hbody : request.body with
      | none => rfl
      | some content =>
          simp only [Option.isSome_some, Option.isNone_some]
          by_cases hlength : 0 ≤ contentLengthOf request.headers (some content)
          · simp only [hlength]
            rfl
          · simp only [hlength]
            rfl

theorem toldSize_sends {request : RequestMessage σ}
    (hsends : sendsBody request.method = true ∧ request.body.isSome = true)
    (hlength : 0 ≤ contentLengthOf request.headers request.body) :
    toldSize request = some (contentLengthOf request.headers request.body) := by
  unfold toldSize
  rw [if_pos hsends, if_pos hlength]

theorem toldSize_nothing {request : RequestMessage σ}
    (hsends : ¬ (sendsBody request.method = true ∧ request.body.isSome = true)) :
    toldSize request = some 0 := by
  unfold toldSize
  rw [if_neg hsends]

theorem bodySent_ne_nothing (request : RequestMessage σ) :
    bodySent (requestOptions request) ≠ .nothing ↔ sendsBody request.method = true := by
  rw [bodySent_requestOptions]
  cases hsends : sendsBody request.method with
  | true =>
      refine ⟨fun _ => rfl, fun _ => ?_⟩
      rw [if_pos rfl]
      unfold BodySent.ofSize
      split
      · exact fun h => by cases h
      · exact fun h => by cases h
  | false =>
      rw [if_neg Bool.false_ne_true]
      exact ⟨fun h => absurd rfl h, fun h => by cases h⟩

/--
The method sends a body and there is one, or else no length but zero is known for it
and it is empty; and no other header has a line with another length.
-/
def Announceable (request : RequestMessage σ) : Prop :=
  ((sendsBody request.method = true ∧ request.body.isSome = true) ∨
    (contentLengthOf request.headers request.body ≤ 0 ∧
      forall content, request.body = some content -> content.data = [])) ∧
  forall value, value ∈ otherLengths request ->
    exists size : Nat, value = toDecimal size ∧ toldSize request = some (size : Int)

theorem announcesSent_announceable (request : RequestMessage σ) :
    AnnouncesSent (requestOptions request) request.body ↔ Announceable request := by
  have hmem : forall value, value ∈ announcedLengths (requestOptions request) ↔
      value ∈ otherLengths request ∨
        (0 ≤ contentLengthOf request.headers request.body ∧
          value = toDecimalInt (contentLengthOf request.headers request.body)) := by
    intro value
    rw [announcedLengths_requestOptions, List.mem_append]
    refine or_congr Iff.rfl ?_
    split
    · rename_i hlength
      rw [List.mem_singleton]
      exact ⟨fun h => ⟨hlength, h⟩, And.right⟩
    · rename_i hlength
      exact ⟨(fun h => by cases h), fun h => absurd h.1 hlength⟩
  constructor
  · intro hannounces
    constructor
    · by_cases hsends : sendsBody request.method = true ∧ request.body.isSome = true
      · exact Or.inl hsends
      · right
        constructor
        · by_contra hlength
          have hpositive := Int.not_le.mp hlength
          rcases hannounces.length _ ((hmem _).mpr (Or.inr ⟨Int.le_of_lt hpositive, rfl⟩))
            with ⟨size, hvalue, hsize⟩
          rw [size_bodySent, toldSize_nothing hsends] at hsize
          have hzero : size = 0 := (Int.ofNat.inj (Option.some.inj hsize)).symm
          rcases Int.eq_ofNat_of_zero_le (Int.le_of_lt hpositive) with ⟨n, hn⟩
          rw [hn] at hvalue hpositive
          have hsame : n = size := toDecimal_injective hvalue
          rw [hsame, hzero] at hpositive
          exact Int.lt_irrefl 0 hpositive
        · intro content hcontent
          by_contra hdata
          have hbody := hannounces.body content hcontent hdata
          rw [bodySent_ne_nothing] at hbody
          exact hsends ⟨hbody, by rw [hcontent]; rfl⟩
    · intro value hvalue
      rw [← size_bodySent]
      exact hannounces.length value ((hmem value).mpr (Or.inl hvalue))
  · intro hwhen
    rcases hwhen with ⟨hsends, hother⟩
    constructor
    · intro value hvalue
      rw [size_bodySent]
      rcases (hmem value).mp hvalue with hin | ⟨hlength, heq⟩
      · exact hother value hin
      · rcases Int.eq_ofNat_of_zero_le hlength with ⟨size, hsize⟩
        rcases hsends with hsends | ⟨hzero, _⟩
        · refine ⟨size, ?_, ?_⟩
          · rw [heq, hsize]
            rfl
          · rw [toldSize_sends hsends hlength, hsize]
        · rw [hsize] at hzero
          have hnone : size = 0 := Nat.le_zero.mp (Int.ofNat_le.mp hzero)
          by_cases hsends : sendsBody request.method = true ∧ request.body.isSome = true
          · refine ⟨size, ?_, ?_⟩
            · rw [heq, hsize]
              rfl
            · rw [toldSize_sends hsends hlength, hsize]
          · refine ⟨0, ?_, toldSize_nothing hsends⟩
            rw [heq, hsize, hnone]
            rfl
    · intro content hcontent hdata
      rw [bodySent_ne_nothing]
      rcases hsends with hsends | ⟨_, hempty⟩
      · exact hsends.1
      · exact absurd (hempty content hcontent) hdata

/-- The length that is announced for a body that is not empty is its own, if there is one. -/
def LengthOfBody (request : RequestMessage σ) : Prop :=
  forall content, request.body = some content -> content.data ≠ [] ->
    contentLengthOf request.headers request.body < 0 ∨
      contentLengthOf request.headers request.body = content.data.length

theorem sendsWhole_iff {request : RequestMessage σ} (hwhen : Announceable request) :
    SendsWhole (requestOptions request) request.body ↔ LengthOfBody request := by
  refine forall_congr' fun content => forall_congr' fun hcontent =>
    forall_congr' fun hdata => ?_
  have hsends : sendsBody request.method = true := by
    rcases hwhen.1 with hsends | ⟨_, hempty⟩
    · exact hsends.1
    · exact absurd (hempty content hcontent) hdata
  have hsome : request.body.isNone = false := by
    rw [hcontent]
    rfl
  rw [bodySent_requestOptions, if_pos hsends, hsome, if_neg Bool.false_ne_true]
  by_cases hlength : 0 ≤ contentLengthOf request.headers request.body
  · rw [if_pos hlength]
    constructor
    · intro hsent
      rcases hsent with hchunked | hsized
      · cases hchunked
      · right
        injection hsized
    · intro hwhole
      right
      rw [hwhole.resolve_left (Int.not_lt.mpr hlength)]
      rfl
  · rw [if_neg hlength]
    exact ⟨fun _ => Or.inl (Int.not_le.mp hlength), fun _ => Or.inl rfl⟩

/--
What is announced is what libcurl sends, and a body is sent, where that can be.  It is
sent to its end where also its length is the one that is announced, if any is.
-/
theorem announcesSent_iff (request : RequestMessage σ) :
    (AnnouncesSent (requestOptions request) request.body ↔ Announceable request) ∧
      (AnnouncesSent (requestOptions request) request.body ∧
          SendsWhole (requestOptions request) request.body ↔
        Announceable request ∧ LengthOfBody request) := by
  rw [announcesSent_announceable]
  exact ⟨Iff.rfl, and_congr_right sendsWhole_iff⟩

/-!
# Header maps without line breaks
-/

theorem headerNameEquals_of_map {header expect : ByteString}
    (hmap : header.map toLowerByte = expect.map toLowerByte) :
    headerNameEquals header expect = true := by
  have hlength : expect.length = header.length := by
    have h := congrArg List.length hmap
    rw [List.length_map, List.length_map] at h
    exact h.symm
  have hall : forall xs ys : ByteString, xs.map toLowerByte = ys.map toLowerByte ->
      (xs.zip ys).all (fun c => tolower c.1 == tolower c.2) = true := by
    intro xs
    induction xs with
    | nil => exact fun _ _ => rfl
    | cons x rest ih =>
        intro ys h
        cases ys with
        | nil => rfl
        | cons y tail =>
            rw [List.map_cons, List.map_cons, List.cons.injEq] at h
            rw [List.zip_cons_cons, List.all_cons, ih tail h.2, Bool.and_true, beq_iff_eq]
            exact (toLowerByte_eq_iff x y).mp h.1
  unfold headerNameEquals
  rw [hlength, beq_self_eq_true, Bool.true_and]
  exact hall header expect hmap

/-- The texts of a map whose names and values are plain announce no length. -/
theorem otherLengths_plain {request : RequestMessage σ}
    (hnames : forall header, header ∈ request.headers.entries -> IsName header.1)
    (hvalues : forall header, header ∈ request.headers.entries ->
      laterLines (cStr header.2) = []) : otherLengths request = [] := by
  unfold otherLengths
  rw [List.filterMap_eq_nil_iff]
  intro line hline
  rcases List.mem_flatMap.mp hline with ⟨text, htext, hin⟩
  rcases List.mem_map.mp htext with ⟨header, hheader, heq⟩
  rcases List.mem_filter.mp hheader with ⟨hentry, hlisted⟩
  have hname := hnames header hentry
  have hone : lines text = [firstLine text] := by
    unfold lines
    rw [← heq]
    unfold laterLines
    rw [breakLines_headerText hname]
    exact congrArg _ (hvalues header hentry)
  rw [hone, List.mem_singleton, ← heq] at hin
  unfold announcedBy
  rw [hin, headerOf_firstLine hname]
  apply if_neg
  intro hcontentLength
  have hexpect : (bytes "Content-Length").map toLowerByte = bytes "content-length" := by
    decide
  unfold ToLower at hcontentLength
  rw [cStr_eq_self hname.1, ← hexpect] at hcontentLength
  unfold isListed at hlisted
  rw [headerNameEquals_of_map hcontentLength, Bool.not_true, Bool.and_false] at hlisted
  cases hlisted

/-!
# A body that is not sent
-/

/-- A GET with a body of three bytes. -/
def getWithBody : RequestMessage Unit where
  method := bytes "GET"
  uri := bytes "http://host/key"
  headers := SortedMap.empty
  body := some (.content false (some 3) [1, 2, 3])

/-- Three bytes are announced, and none is sent. -/
theorem not_announcesSent_getWithBody :
    Internal.isValidMethod getWithBody.method = true ∧
      ¬ AnnouncesSent (requestOptions getWithBody) getWithBody.body := by
  refine ⟨by decide, ?_⟩
  intro hannounces
  have hsent := hannounces.body _ rfl (by decide)
  exact hsent (by decide +kernel)

end Curl
end Transport
end OssSdk
