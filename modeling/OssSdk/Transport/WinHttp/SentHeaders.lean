import OssSdk.Foundation.Lines
import OssSdk.Foundation.Pieces
import OssSdk.Foundation.Utf8
import OssSdk.Transport.WinHttp.WinHttpAsyncClient
import OssSdk.Transport.WinHttp.WinHttpClient

/-!
# The headers of a request through WinHTTP

All headers are put into one text, which WinHTTP is given after a conversion.  Nobody
looks whether the text could be converted, and the request is sent in either case.
-/

namespace OssSdk
namespace Transport
namespace WinHttp

open Foundation

variable {ρ σ : Type}

/-- Wide characters of 16 bits. -/
abbrev WideString := List UInt16

/-- `MultiByteToWideChar` for UTF-8, which may return zero, and what a wide text means. -/
structure Conversion where
  MultiByteToWideChar : ByteString -> Option WideString
  meaning : WideString -> ByteString

/-- Zero is returned for what is not UTF-8 only, and nothing is lost. -/
structure Conversion.Documented (conversion : Conversion) : Prop where
  refuses : forall str, str ≠ [] ->
    (conversion.MultiByteToWideChar str = none ↔ ¬ Utf8 str)
  keeps : forall str wstr, conversion.MultiByteToWideChar str = some wstr ->
    conversion.meaning wstr = str
  nothing : conversion.meaning [] = []

def toWideString (conversion : Conversion) (str : ByteString) : WideString :=
  if str.isEmpty then []
  else
    match conversion.MultiByteToWideChar str with
    | none => []
    | some wstr => wstr

def narrowHeader (header : ByteString × ByteString) : ByteString :=
  if header.2.isEmpty then []
  else header.1 ++ bytes ": " ++ header.2 ++ bytes "\r\n"

/-- What `WinHttpAddRequestHeaders` is given; what it returns is not looked at. -/
def addRequestHeaders (conversion : Conversion) (headers : HeaderCollection) :
    Option WideString :=
  let narrowHeaders := headers.entries.flatMap narrowHeader
  if narrowHeaders.isEmpty then none else some (toWideString conversion narrowHeaders)

/-- What `send` has given to WinHTTP as headers, and its result after these events. -/
def WinHttpClient.sendWith (conversion : Conversion) (input : SendInput ρ σ)
    (events : List Event) : Option WideString × Option ResponseResult :=
  (addRequestHeaders conversion input.headers,
    match (events.foldl (WinHttpClient.resume input) WinHttpClient.start).wait with
    | .Returned result => some result
    | _ => none)

def WinHttpAsyncClient.sendWith (conversion : Conversion) (input : SendInput ρ σ)
    (events : List Event) : Option WideString × Option ResponseResult :=
  (addRequestHeaders conversion input.headers,
    (events.foldl (AsyncRequestContext.onStatus input)
      (AsyncRequestContext.start input)).finish)

/-!
# What WinHTTP is told
-/

/-- A line as `addRequestHeaders` writes it. -/
def headerInText (line : ByteString) : ByteString × ByteString :=
  (before 58 line, (after 58 line).drop 1)

/-- The headers in the text that WinHTTP has been given. -/
def handed (conversion : Conversion) (text : Option WideString) :
    List (ByteString × ByteString) :=
  (text.toList.flatMap fun wstr => lines (conversion.meaning wstr)).map headerInText

/-- Every header with a value is among those that WinHTTP has been given. -/
def HandsAll (conversion : Conversion) (headers : HeaderCollection)
    (text : Option WideString) : Prop :=
  forall header, header ∈ headers.entries -> header.2 ≠ [] ->
    header ∈ handed conversion text

/-- A request that is not answered with an error has all its headers. -/
structure SentWhole (ρ σ : Type) (conversion : Conversion) (headers : HeaderCollection) :
    Prop where
  sync : forall (input : SendInput ρ σ) (events : List Event) result,
    input.headers = headers ->
    (WinHttpClient.sendWith conversion input events).2 = some result ->
    HandsAll conversion headers (WinHttpClient.sendWith conversion input events).1 ∨
      exists te, result = .error te
  async : forall (input : SendInput ρ σ) (events : List Event) result,
    input.headers = headers ->
    (WinHttpAsyncClient.sendWith conversion input events).2 = some result ->
    HandsAll conversion headers (WinHttpAsyncClient.sendWith conversion input events).1 ∨
      exists te, result = .error te

/-- A header that can stand in the text: UTF-8 of one line, with no colon in its name. -/
structure Transferable (header : ByteString × ByteString) : Prop where
  name : Utf8 header.1
  value : Utf8 header.2
  nameLine : laterLines header.1 = []
  valueLine : laterLines header.2 = []
  colon : 58 ∉ header.1

def AllTransferable (headers : HeaderCollection) : Prop :=
  forall header, header ∈ headers.entries -> header.2 ≠ [] -> Transferable header

/-!
# The text
-/

theorem narrowHeader_eq {header : ByteString × ByteString} (hvalue : header.2 ≠ []) :
    narrowHeader header = header.1 ++ 58 :: 32 :: header.2 ++ bytes "\r\n" := by
  unfold narrowHeader
  rw [if_neg (by simpa using hvalue), List.append_assoc header.1]
  rfl

theorem narrowHeader_nil {header : ByteString × ByteString} (hvalue : header.2 = []) :
    narrowHeader header = [] := by
  unfold narrowHeader
  rw [hvalue]
  rfl

theorem utf8_narrowHeader {header : ByteString × ByteString} (hvalue : header.2 ≠ [])
    (rest : ByteString) :
    Utf8 (narrowHeader header ++ rest) ↔
      (Utf8 header.1 ∧ Utf8 header.2) ∧ Utf8 rest := by
  have htext : narrowHeader header ++ rest =
      header.1 ++ 58 :: ([] ++ 32 :: (header.2 ++ 13 :: ([] ++ 10 :: rest))) := by
    rw [narrowHeader_eq hvalue, List.append_assoc, List.append_assoc]
    rfl
  have hempty := Utf8.nil
  rw [htext, utf8_around (by decide), utf8_around (by decide), utf8_around (by decide),
    utf8_around (by decide)]
  constructor
  · intro h
    exact ⟨⟨h.1, h.2.2.1⟩, h.2.2.2.2⟩
  · intro h
    exact ⟨h.1.1, hempty, h.1.2, hempty, h.2⟩

/-- The text is UTF-8 exactly if the headers in it are. -/
theorem utf8_narrowHeaders (headers : List (ByteString × ByteString)) :
    Utf8 (headers.flatMap narrowHeader) ↔
      forall header, header ∈ headers -> header.2 ≠ [] ->
        Utf8 header.1 ∧ Utf8 header.2 := by
  induction headers with
  | nil => exact ⟨fun _ header hmem => (nomatch hmem), fun _ => Utf8.nil⟩
  | cons header rest ih =>
      rw [List.flatMap_cons, List.forall_mem_cons, ← ih]
      by_cases hvalue : header.2 = []
      · rw [narrowHeader_nil hvalue, List.nil_append]
        exact ⟨fun hrest => ⟨fun hne => absurd hvalue hne, hrest⟩, fun hboth => hboth.2⟩
      · rw [utf8_narrowHeader hvalue]
        constructor
        · exact fun hboth => ⟨fun _ => hboth.1, hboth.2⟩
        · exact fun hboth => ⟨hboth.1 hvalue, hboth.2⟩

theorem narrowHeader_ne_nil {header : ByteString × ByteString} (hvalue : header.2 ≠ []) :
    narrowHeader header ≠ [] := by
  rw [narrowHeader_eq hvalue]
  exact List.append_ne_nil_of_right_ne_nil _ (by decide)

/-- The text as it was put together from the headers that have a value. -/
theorem narrowHeaders_eq (headers : List (ByteString × ByteString)) :
    headers.flatMap narrowHeader =
      ((headers.filter fun header => !header.2.isEmpty).map fun header =>
        header.1 ++ 58 :: 32 :: header.2).flatMap fun text => text ++ bytes "\r\n" := by
  induction headers with
  | nil => rfl
  | cons header rest ih =>
      rw [List.flatMap_cons, List.filter_cons, ih]
      by_cases hvalue : header.2 = []
      · rw [narrowHeader_nil hvalue, hvalue]
        rfl
      · rw [narrowHeader_eq hvalue, if_pos (by simpa using hvalue), List.map_cons,
          List.flatMap_cons]

theorem Transferable.lines_eq {header : ByteString × ByteString}
    (htransferable : Transferable header) :
    lines (header.1 ++ 58 :: 32 :: header.2) = [header.1 ++ 58 :: 32 :: header.2] := by
  have hspace : breakLines (32 :: header.2) = _ :=
    @breakLines_append_cons [] rfl 32 (by decide) (by decide) header.2
  have hvalue := breakLines_of_laterLines htransferable.valueLine
  unfold lines firstLine laterLines
  rw [breakLines_append_cons htransferable.nameLine (by decide) (by decide)]
  unfold firstLine laterLines at hspace ⊢
  rw [hspace, hvalue]
  rfl

theorem Transferable.headerInText_eq {header : ByteString × ByteString}
    (htransferable : Transferable header) :
    headerInText (header.1 ++ 58 :: 32 :: header.2) = header := by
  unfold headerInText
  rw [before_append htransferable.colon, after_append htransferable.colon]
  rfl

/-!
# What has been handed over
-/

section handed

variable {conversion : Conversion} {headers : HeaderCollection}

theorem handed_of_transferable (hdocumented : conversion.Documented)
    (hall : AllTransferable headers) :
    HandsAll conversion headers (addRequestHeaders conversion headers) := by
  intro header hmem hvalue
  have hnot : headers.entries.flatMap narrowHeader ≠ [] := by
    intro hnil
    exact narrowHeader_ne_nil hvalue (List.flatMap_eq_nil_iff.mp hnil header hmem)
  have hvalid : Utf8 (headers.entries.flatMap narrowHeader) :=
    (utf8_narrowHeaders _).mpr fun other hother hne =>
      ⟨(hall other hother hne).name, (hall other hother hne).value⟩
  have hconverted : exists wstr,
      conversion.MultiByteToWideChar (headers.entries.flatMap narrowHeader) = some wstr := by
    rw [← Option.ne_none_iff_exists']
    exact fun hnone => (hdocumented.refuses _ hnot).mp hnone hvalid
  rcases hconverted with ⟨wstr, hwstr⟩
  have hgiven : addRequestHeaders conversion headers = some wstr := by
    unfold addRequestHeaders toWideString
    simp only [hwstr]
    rw [List.isEmpty_eq_false_iff.mpr hnot]
    rfl
  have htext := hdocumented.keeps _ _ hwstr
  unfold handed
  rw [hgiven, Option.toList_some, List.flatMap_singleton, htext, narrowHeaders_eq,
    lines_flatMap, List.mem_map]
  refine ⟨header.1 ++ 58 :: 32 :: header.2, ?_, (hall header hmem hvalue).headerInText_eq⟩
  apply List.mem_append_left
  rw [List.mem_flatMap]
  refine ⟨header.1 ++ 58 :: 32 :: header.2, ?_, ?_⟩
  · exact List.mem_map.mpr ⟨header, List.mem_filter.mpr ⟨hmem, by simpa using hvalue⟩, rfl⟩
  · rw [(hall header hmem hvalue).lines_eq]
    exact List.mem_singleton_self _

/-- What is not UTF-8 takes all headers away. -/
theorem handed_of_not_utf8 (hdocumented : conversion.Documented)
    (hinvalid : ¬ Utf8 (headers.entries.flatMap narrowHeader)) :
    handed conversion (addRequestHeaders conversion headers) = [([], [])] := by
  have hnot : headers.entries.flatMap narrowHeader ≠ [] := by
    intro hnil
    rw [hnil] at hinvalid
    exact hinvalid Utf8.nil
  have hnone := (hdocumented.refuses _ hnot).mpr hinvalid
  unfold handed addRequestHeaders toWideString
  simp only [hnone]
  rw [List.isEmpty_eq_false_iff.mpr hnot]
  simp only [Bool.false_eq_true, if_false, Option.toList_some, List.flatMap_singleton,
    hdocumented.nothing]
  rfl

theorem transferable_of_handed (hdocumented : conversion.Documented)
    (hhands : HandsAll conversion headers (addRequestHeaders conversion headers)) :
    AllTransferable headers := by
  intro header hmem hvalue
  have hin := hhands header hmem hvalue
  by_cases hvalid : Utf8 (headers.entries.flatMap narrowHeader)
  · have hboth := (utf8_narrowHeaders _).mp hvalid header hmem hvalue
    unfold handed at hin
    rcases List.mem_map.mp hin with ⟨line, hline, hheader⟩
    rcases List.mem_flatMap.mp hline with ⟨wstr, _, hline⟩
    have hone := laterLines_of_mem_lines hline
    have hname : header.1 = before 58 line := (congrArg Prod.fst hheader).symm
    have hrest : header.2 = (after 58 line).drop 1 := (congrArg Prod.snd hheader).symm
    have hcolon : 58 ∈ line := by
      by_contra hnone
      rw [hrest, after_eq_nil hnone] at hvalue
      exact hvalue rfl
    have hsplit := before_cons_after hcolon
    rw [← hname] at hsplit
    refine ⟨hboth.1, hboth.2, ?_, ?_, ?_⟩
    · apply @laterLines_middle [] header.1 (58 :: after 58 line)
      rw [List.nil_append, hsplit]
      exact hone
    · apply @laterLines_middle (header.1 ++ 58 :: (after 58 line).take 1) header.2 []
      rw [List.append_nil, hrest, List.append_assoc, List.cons_append,
        List.take_append_drop, hsplit]
      exact hone
    · rw [hname]
      exact not_mem_before 58 line
  · rw [handed_of_not_utf8 hdocumented hvalid, List.mem_singleton] at hin
    rw [hin] at hvalue
    exact absurd rfl hvalue

end handed

/-- A request without a body that is answered right away. -/
def answered : List Event :=
  [⟨.sendRequestComplete, false⟩, ⟨.headersAvailable 200 SortedMap.empty, false⟩,
    ⟨.dataAvailable 0, false⟩]

def bare (headers : HeaderCollection) (env : σ) : SendInput ρ σ where
  headers := headers
  body := none
  sinkFactory := none
  env := env
  formatWinHttpError := fun _ => []

theorem answered_sync (conversion : Conversion) (headers : HeaderCollection) (env : σ) :
    exists response, (WinHttpClient.sendWith conversion (bare headers env : SendInput ρ σ)
      answered).2 = some (.response response) := by
  have hsource : (bare headers env : SendInput ρ σ).uploadSource = none := by
    unfold SendInput.uploadSource
    split
    · rfl
    · rfl
  unfold WinHttpClient.sendWith answered
  simp only [List.foldl_cons, List.foldl_nil, WinHttpClient.start]
  unfold WinHttpClient.resume
  simp only [waitForAction, Notice.status, if_true, WinHttpClient.writeBody, hsource]
  exact ⟨_, rfl⟩

theorem answered_async (conversion : Conversion) (headers : HeaderCollection) (env : σ) :
    exists response, (WinHttpAsyncClient.sendWith conversion (bare headers env : SendInput ρ σ)
      answered).2 = some (.response response) := by
  have hsource : (bare headers env : SendInput ρ σ).uploadSource = none := by
    unfold SendInput.uploadSource
    split
    · rfl
    · rfl
  unfold WinHttpAsyncClient.sendWith answered
  simp only [List.foldl_cons, List.foldl_nil, AsyncRequestContext.start, hsource]
  exact ⟨_, rfl⟩

/-- All headers are sent, or none is answered, exactly if all can stand in the text. -/
theorem sentWhole_iff [Inhabited σ] {conversion : Conversion}
    (hdocumented : conversion.Documented) (headers : HeaderCollection) :
    SentWhole ρ σ conversion headers ↔ AllTransferable headers := by
  constructor
  · intro hsent
    rcases @answered_sync ρ σ conversion headers default with ⟨response, hresponse⟩
    rcases hsent.sync _ _ _ rfl hresponse with hhands | herror
    · exact transferable_of_handed hdocumented hhands
    · exact herror.elim fun te heq => (nomatch heq)
  · intro hall
    have hhands := handed_of_transferable hdocumented hall
    constructor
    · intro input events result hheaders _
      unfold WinHttpClient.sendWith
      rw [hheaders]
      exact Or.inl hhands
    · intro input events result hheaders _
      unfold WinHttpAsyncClient.sendWith
      rw [hheaders]
      exact Or.inl hhands

/-- A conversion that takes every byte for a character, if all together are UTF-8. -/
def widening : Conversion where
  MultiByteToWideChar str :=
    if Utf8 str then some (str.map fun c => UInt16.ofNat c.toNat) else none
  meaning wstr := wstr.map fun c => UInt8.ofNat c.toNat

theorem widening_documented : widening.Documented where
  refuses str _ := by
    unfold widening
    simp only [ite_eq_right_iff, reduceCtorEq, imp_false]
  keeps str wstr hwstr := by
    have hbyte : forall c : UInt8, UInt8.ofNat (UInt16.ofNat c.toNat).toNat = c :=
      forall_byte (by decide +kernel)
    unfold widening at hwstr ⊢
    simp only [Option.ite_none_right_eq_some, Option.some.injEq] at hwstr
    simp only [← hwstr.2, List.map_map]
    refine (List.map_congr_left fun c _ => ?_).trans (List.map_id _)
    exact hbyte c
  nothing := rfl

theorem sentWhole_iff_plain :
    SentWhole Unit Unit widening
        (SortedMap.ofList [(bytes "Authorization", bytes "OSS4-HMAC-SHA256"),
          (bytes "x-oss-meta-color", bytes "blue")]) ↔
      AllTransferable (SortedMap.ofList [(bytes "Authorization", bytes "OSS4-HMAC-SHA256"),
        (bytes "x-oss-meta-color", bytes "blue")]) :=
  sentWhole_iff widening_documented _

/-- A signed request with metadata that is not UTF-8. -/
def latinMetadata : HeaderCollection :=
  SortedMap.ofList [(bytes "Authorization", bytes "OSS4-HMAC-SHA256"),
    (bytes "x-oss-meta-color", [255])]

/-- One value that is not UTF-8, and the request goes out without its authorization. -/
theorem not_sentWhole_metadata : ¬ SentWhole Unit Unit widening latinMetadata := by
  intro hsent
  have hnone := @handed_of_not_utf8 widening latinMetadata widening_documented
    (by decide +kernel)
  rcases @answered_sync Unit Unit widening latinMetadata () with ⟨response, hresponse⟩
  rcases hsent.sync _ _ _ rfl hresponse with hhands | herror
  · have hgiven := hhands (bytes "Authorization", bytes "OSS4-HMAC-SHA256")
      (by decide +kernel) (by decide)
    change _ ∈ handed widening (addRequestHeaders widening latinMetadata) at hgiven
    rw [hnone] at hgiven
    revert hgiven
    decide
  · exact herror.elim fun te heq => (nomatch heq)

end WinHttp
end Transport
end OssSdk
