import OssSdk.Transport.Curl.RequestHeaders
import OssSdk.Signer.SignedHeaders
import OssSdk.Client.InitiateMultipartUpload

/-!
# The headers that are signed and those that are sent

A header that is signed is seen in the line that it is sent as.  What else is on the
wire, the rest of a value after a line break and the content type that libcurl gives a
POST, was not signed as a header of its own.
-/

namespace OssSdk
namespace Transport
namespace Curl

open Foundation
open Internal
open Utils

variable {σ : Type}

/-- The header lines that are read off the wire are those that were signed. -/
def SentAsSigned (signed : List (ByteString × ByteString))
    (request : RequestMessage σ) : Prop :=
  forall pair, pair ∈ sentHeaders request ↔ pair ∈ signed

/-- How a signer reads one header of a map: whether it is signed, and as which value. -/
structure Reading where
  signs : ByteString × ByteString -> Bool
  value : ByteString -> ByteString

namespace Reading

def pair (reading : Reading) (header : ByteString × ByteString) :
    ByteString × ByteString :=
  (ToLower header.1, reading.value header.2)

/-- The line of the header has its name, and all that is signed of its value. -/
def fits (reading : Reading) (header : ByteString × ByteString) : Bool :=
  decide (IsName header.1) &&
    strip (firstLine (cStr header.2)) == reading.value header.2

/-- The lines of a request that are not those of signed headers that fit. -/
def strayLines (reading : Reading) (headers : HeaderCollection) : List ByteString :=
  (headers.entries.filter isListed).flatMap fun header =>
    if reading.signs header && reading.fits header then laterLines (cStr header.2)
    else lines (headerText header)

end Reading

/-- A POST none of whose header strings is a content type. -/
structure Untyped (request : RequestMessage σ) : Prop where
  post : request.method = bytes "POST"
  untyped : forall header, header ∈ request.headers.entries ->
    isListed header = true -> namesContentType (headerText header) = false

/--
Nothing else on the wire looks like a signed header, unless it repeats one, and every
signed header can be read off some line.
-/
structure Consistent (reading : Reading) (request : RequestMessage σ) : Prop where
  stray : forall line, line ∈ reading.strayLines request.headers ->
    forall found, signedHeaderOf line = some found ->
      exists header, header ∈ request.headers.entries ∧ reading.signs header = true ∧
        found = reading.pair header
  typed : Untyped request ->
    exists header, header ∈ request.headers.entries ∧ reading.signs header = true ∧
      formContentType = reading.pair header
  shown : forall header, header ∈ request.headers.entries ->
    reading.signs header = true ->
      (exists other, other ∈ request.headers.entries ∧ reading.signs other = true ∧
        reading.fits other = true ∧ reading.pair header = reading.pair other) ∨
      (exists line, line ∈ reading.strayLines request.headers ∧
        signedHeaderOf line = some (reading.pair header)) ∨
      (Untyped request ∧ reading.pair header = formContentType)

/-!
# What is on the wire
-/

theorem map_eq_of_zip_all {header expect : ByteString}
    (hlength : expect.length = header.length)
    (hall : (header.zip expect).all (fun c => tolower c.1 == tolower c.2) = true) :
    header.map tolower = expect.map tolower := by
  induction header generalizing expect with
  | nil =>
      rw [List.length_eq_zero_iff.mp hlength]
  | cons c rest ih =>
      cases expect with
      | nil => cases hlength
      | cons d rest' =>
          rw [List.zip_cons_cons, List.all_cons, Bool.and_eq_true, beq_iff_eq] at hall
          rw [List.map_cons, List.map_cons, hall.1,
            ih (Nat.succ.inj hlength) hall.2]

theorem ToLower_of_headerNameEquals {header expect : ByteString}
    (hequals : headerNameEquals header expect = true) :
    ToLower header = ToLower expect := by
  unfold headerNameEquals at hequals
  rw [Bool.and_eq_true, beq_iff_eq] at hequals
  have hmap := map_eq_of_zip_all hequals.1 hequals.2
  apply ToLower_congr
  rw [SortedMap.equivalent_iff]
  exact (map_eq_iff_incomparable tolower header expect).mp hmap

/-- A header that is always signed is sent, if it has a value. -/
theorem isListed_of_default {header : ByteString × ByteString}
    (hdefault : Signer.V4.isDefaultSignedHeader (ToLower header.1) = true)
    (hvalue : header.2 ≠ []) : isListed header = true := by
  unfold isListed
  rw [Bool.and_eq_true, Bool.not_eq_true', Bool.not_eq_true']
  refine ⟨List.isEmpty_eq_false_iff.mpr hvalue, ?_⟩
  rw [Bool.eq_false_iff]
  intro hequals
  rw [ToLower_of_headerNameEquals hequals] at hdefault
  exact absurd hdefault (by decide)

theorem namesContentType_contentLength (n : Int) :
    namesContentType (bytes "Content-Length: " ++ toDecimalInt n) = false := by
  have htext : bytes "Content-Length: " ++ toDecimalInt n =
      bytes "Content-Length" ++ 58 :: (32 :: toDecimalInt n) := rfl
  have hname : ((bytes "Content-Length").map toLowerByte == bytes "content-type") =
      false := by decide
  unfold namesContentType
  rw [htext, headerOf_append (by decide)]
  exact hname

theorem requestOptions_post (request : RequestMessage σ) :
    (requestOptions request).post = true ↔ request.method = bytes "POST" := by
  have hnames : bytes "HEAD" ≠ bytes "POST" ∧ bytes "PUT" ≠ bytes "POST" := by decide
  unfold requestOptions applyHttpMethod
  simp only
  constructor
  · intro hpost
    split at hpost
    · cases hpost
    · split at hpost
      · cases hpost
      · split at hpost
        · rename_i hmethod
          exact hmethod.symm
        · split at hpost
          · cases hpost
          · cases hpost
  · intro hmethod
    rw [hmethod, if_neg hnames.1, if_neg hnames.2, if_pos rfl]

theorem defaultContentType_iff (request : RequestMessage σ) :
    defaultContentType (requestOptions request) ≠ [] ↔ Untyped request := by
  have hstrings : (requestOptions request).httpHeader.any namesContentType = false ↔
      forall header, header ∈ request.headers.entries -> isListed header = true ->
        namesContentType (headerText header) = false := by
    have hexpect : namesContentType (bytes "Expect:") = false := by decide
    have hbase : (((request.headers.entries.filter isListed).map headerText ++
        [bytes "Expect:"]).any namesContentType = false) ↔
        forall header, header ∈ request.headers.entries -> isListed header = true ->
          namesContentType (headerText header) = false := by
      rw [List.any_append, List.any_map, Bool.or_eq_false_iff, List.any_eq_false]
      constructor
      · intro hall header hmem hlisted
        have hnot := hall.1 header (List.mem_filter.mpr ⟨hmem, hlisted⟩)
        simpa using hnot
      · intro hall
        refine ⟨fun header hmem => ?_, by simp [hexpect]⟩
        rcases List.mem_filter.mp hmem with ⟨hentry, hlisted⟩
        simp [hall header hentry hlisted]
    unfold requestOptions buildHeaderList
    simp only
    split
    · rw [List.any_append, List.any_cons, namesContentType_contentLength]
      simpa using hbase
    · exact hbase
  unfold defaultContentType
  constructor
  · intro hne
    split at hne
    · rename_i hboth
      rw [Bool.and_eq_true, Bool.not_eq_true'] at hboth
      exact ⟨(requestOptions_post request).mp hboth.1, hstrings.mp hboth.2⟩
    · exact absurd rfl hne
  · intro huntyped
    rw [(requestOptions_post request).mpr huntyped.post,
      hstrings.mpr huntyped.untyped]
    exact List.cons_ne_nil _ _

section Readings

variable {reading : Reading} {request : RequestMessage σ}

/-- The headers on the wire are those of the fitting headers and of the other lines. -/
theorem mem_sentHeaders_iff
    (hdefault : forall header, reading.signs header = true ->
      Signer.V4.isDefaultSignedHeader (ToLower header.1) = true)
    (hvalue : forall header, reading.signs header = true -> header.2 ≠ [])
    {found : ByteString × ByteString} :
    found ∈ sentHeaders request ↔
      (exists header, header ∈ request.headers.entries ∧ reading.signs header = true ∧
        reading.fits header = true ∧ found = reading.pair header) ∨
      (exists line, line ∈ reading.strayLines request.headers ∧
        signedHeaderOf line = some found) ∨
      (Untyped request ∧ found = formContentType) := by
  have hfirst : forall header, reading.signs header = true ->
      reading.fits header = true ->
        lines (headerText header) =
          firstLine (headerText header) :: laterLines (cStr header.2) ∧
        signedHeaderOf (firstLine (headerText header)) = some (reading.pair header) := by
    intro header hsigns hfits
    unfold Reading.fits at hfits
    rw [Bool.and_eq_true, decide_eq_true_eq, beq_iff_eq] at hfits
    have hlater : laterLines (headerText header) = laterLines (cStr header.2) := by
      unfold laterLines
      rw [breakLines_headerText hfits.1]
      rfl
    refine ⟨by rw [lines, hlater], ?_⟩
    rw [signedHeaderOf_eq_some, headerOf_firstLine hfits.1, hfits.2]
    exact ⟨rfl, hdefault header hsigns⟩
  rw [mem_sentHeaders, defaultContentType_iff, ← or_assoc]
  refine or_congr_left ?_
  unfold Reading.strayLines
  constructor
  · intro hsent
    rcases hsent with ⟨header, hmem, hlisted, line, hline, hfound⟩
    by_cases hboth : (reading.signs header && reading.fits header) = true
    · have hsplit := (Bool.and_eq_true _ _).mp hboth
      rcases hfirst header hsplit.1 hsplit.2 with ⟨hlines, hpair⟩
      rw [hlines] at hline
      rcases List.mem_cons.mp hline with heq | hlater
      · rw [heq, hpair] at hfound
        exact Or.inl ⟨header, hmem, hsplit.1, hsplit.2, (Option.some.inj hfound).symm⟩
      · refine Or.inr ⟨line, List.mem_flatMap.mpr ⟨header, ?_, ?_⟩, hfound⟩
        · exact List.mem_filter.mpr ⟨hmem, hlisted⟩
        · rw [if_pos hboth]
          exact hlater
    · refine Or.inr ⟨line, List.mem_flatMap.mpr ⟨header, ?_, ?_⟩, hfound⟩
      · exact List.mem_filter.mpr ⟨hmem, hlisted⟩
      · rw [if_neg hboth]
        exact hline
  · intro hsent
    rcases hsent with ⟨header, hmem, hsigns, hfits, heq⟩ | ⟨line, hline, hfound⟩
    · rcases hfirst header hsigns hfits with ⟨hlines, hpair⟩
      refine ⟨header, hmem,
        isListed_of_default (hdefault header hsigns) (hvalue header hsigns),
        firstLine (headerText header), ?_, by rw [hpair, heq]⟩
      rw [hlines]
      exact List.mem_cons_self
    · rcases List.mem_flatMap.mp hline with ⟨header, hheader, hin⟩
      rcases List.mem_filter.mp hheader with ⟨hmem, hlisted⟩
      refine ⟨header, hmem, hlisted, line, ?_, hfound⟩
      split at hin
      · rename_i hboth
        have hsplit := (Bool.and_eq_true _ _).mp hboth
        rw [(hfirst header hsplit.1 hsplit.2).1]
        exact List.mem_cons_of_mem _ hin
      · exact hin

theorem sentAsSigned_of_reading {signed : List (ByteString × ByteString)}
    (hsigned : forall found, found ∈ signed ↔
      exists header, header ∈ request.headers.entries ∧ reading.signs header = true ∧
        found = reading.pair header)
    (hdefault : forall header, reading.signs header = true ->
      Signer.V4.isDefaultSignedHeader (ToLower header.1) = true)
    (hvalue : forall header, reading.signs header = true -> header.2 ≠ []) :
    SentAsSigned signed request ↔ Consistent reading request := by
  have hsent : forall found, found ∈ sentHeaders request ↔ _ := fun found =>
    @mem_sentHeaders_iff _ reading _ hdefault hvalue _
  unfold SentAsSigned
  constructor
  · intro hsame
    constructor
    · intro line hline found hfound
      rw [← hsigned, ← hsame, hsent]
      exact Or.inr (Or.inl ⟨line, hline, hfound⟩)
    · intro huntyped
      rw [← hsigned, ← hsame, hsent]
      exact Or.inr (Or.inr ⟨huntyped, rfl⟩)
    · intro header hmem hsigns
      rw [← hsent, hsame, hsigned]
      exact ⟨header, hmem, hsigns, rfl⟩
  · intro hconsistent found
    rw [hsent, hsigned]
    constructor
    · intro hfound
      rcases hfound with ⟨header, hmem, hsigns, _, heq⟩ | ⟨line, hline, hfound⟩ |
        ⟨huntyped, heq⟩
      · exact ⟨header, hmem, hsigns, heq⟩
      · exact hconsistent.stray line hline found hfound
      · rw [heq]
        exact hconsistent.typed huntyped
    · intro hfound
      rcases hfound with ⟨header, hmem, hsigns, heq⟩
      rw [heq]
      exact hconsistent.shown header hmem hsigns

/-!
# Headers without line breaks
-/

/-- Names that are names, and values that are one line. -/
structure Plain (request : RequestMessage σ) : Prop where
  name : forall header, header ∈ request.headers.entries -> IsName header.1
  nul : forall header, header ∈ request.headers.entries -> 0 ∉ header.2
  line : forall header, header ∈ request.headers.entries -> laterLines header.2 = []

theorem Plain.lines (hplain : Plain request) {header : ByteString × ByteString}
    (hmem : header ∈ request.headers.entries) :
    Foundation.lines (headerText header) = [firstLine (headerText header)] ∧
      headerOf (firstLine (headerText header)) =
        some (ToLower header.1, strip header.2) ∧
      laterLines (cStr header.2) = [] := by
  have hname := hplain.name header hmem
  have hcut := cStr_eq_self (hplain.nul header hmem)
  have hline := hplain.line header hmem
  have hfirst : firstLine header.2 = header.2 :=
    congrArg Prod.fst (breakLines_of_laterLines hline)
  have hlater : laterLines (headerText header) = [] := by
    unfold laterLines
    rw [breakLines_headerText hname, hcut]
    exact hline
  refine ⟨by rw [Foundation.lines, hlater], ?_, by rw [hcut]; exact hline⟩
  rw [headerOf_firstLine hname, hcut, hfirst]

theorem Plain.unique (hplain : Plain request) {header other : ByteString × ByteString}
    (hheader : header ∈ request.headers.entries)
    (hother : other ∈ request.headers.entries)
    (hsame : ToLower header.1 = ToLower other.1) : header = other := by
  have hmap : header.1.map toLowerByte = other.1.map toLowerByte := by
    unfold ToLower at hsame
    rwa [cStr_eq_self (hplain.name header hheader).1,
      cStr_eq_self (hplain.name other hother).1] at hsame
  rw [SortedMap.mem_entries_iff] at hheader hother
  rw [SortedMap.findEntry_congr _ ((equivalent_iff_map _ _).mpr hmap), hother] at hheader
  exact (Option.some.inj hheader).symm

theorem Plain.namesContentType (hplain : Plain request)
    {header : ByteString × ByteString} (hmem : header ∈ request.headers.entries) :
    namesContentType (headerText header) =
      (ToLower header.1 == bytes "content-type") := by
  have hname := hplain.name header hmem
  have htext : headerText header = header.1 ++ 58 :: (32 :: cStr header.2) := by
    unfold headerText
    rw [List.append_assoc, cStr_append hname.1, cStr_append (by decide)]
    rfl
  unfold Curl.namesContentType
  rw [htext, headerOf_append hname.2.1]
  unfold ToLower
  rw [cStr_eq_self hname.1]
  rfl

/-- All that can be wrong is a header that is not signed, and a POST without a type. -/
theorem consistent_plain_iff (hplain : Plain request)
    (hstrip : forall value, 0 ∉ value -> reading.value value = strip value)
    (hdefault : forall header, reading.signs header = true ->
      Signer.V4.isDefaultSignedHeader (ToLower header.1) = true) :
    Consistent reading request ↔
      (forall header, header ∈ request.headers.entries -> header.2 ≠ [] ->
        Signer.V4.isDefaultSignedHeader (ToLower header.1) = true ->
          reading.signs header = true) ∧
      ¬ Untyped request := by
  have hpair : forall header, header ∈ request.headers.entries ->
      reading.pair header = (ToLower header.1, strip header.2) := by
    intro header hmem
    unfold Reading.pair
    rw [hstrip _ (hplain.nul header hmem)]
  have hfits : forall header, header ∈ request.headers.entries ->
      reading.fits header = true := by
    intro header hmem
    have hline := congrArg Prod.fst (breakLines_of_laterLines (hplain.line header hmem))
    unfold Reading.fits
    rw [Bool.and_eq_true, decide_eq_true_eq, beq_iff_eq,
      hstrip _ (hplain.nul header hmem), cStr_eq_self (hplain.nul header hmem)]
    exact ⟨hplain.name header hmem, congrArg strip hline⟩
  constructor
  · intro hconsistent
    constructor
    · intro header hmem hvalue hname
      by_contra hnot
      have hlines := Plain.lines hplain hmem
      have hstray : firstLine (headerText header) ∈
          reading.strayLines request.headers := by
        refine List.mem_flatMap.mpr ⟨header, ?_, ?_⟩
        · exact List.mem_filter.mpr ⟨hmem, isListed_of_default hname hvalue⟩
        · rw [if_neg (by simp [hnot]), hlines.1]
          exact List.mem_singleton_self _
      rcases hconsistent.stray _ hstray _
        (signedHeaderOf_eq_some.mpr ⟨hlines.2.1, hname⟩) with
        ⟨other, hother, hsigns, heq⟩
      rw [hpair other hother] at heq
      rw [Plain.unique hplain hmem hother (congrArg Prod.fst heq)] at hnot
      exact hnot hsigns
    · intro huntyped
      rcases hconsistent.typed huntyped with ⟨header, hmem, hsigns, heq⟩
      have hlower : ToLower header.1 = bytes "content-type" :=
        (congrArg Prod.fst heq).symm
      have hvalue : header.2 ≠ [] := by
        intro hnil
        have hform := congrArg Prod.snd heq
        rw [hpair header hmem, hnil] at hform
        change formContentType.2 = strip [] at hform
        exact absurd hform (by decide)
      have huntitled := huntyped.untyped header hmem
        (isListed_of_default (hdefault header hsigns) hvalue)
      rw [Plain.namesContentType hplain hmem, hlower] at huntitled
      exact absurd huntitled (by decide)
  · intro hboth
    rcases hboth with ⟨hsigned, htyped⟩
    constructor
    · intro line hline found hfound
      rcases List.mem_flatMap.mp hline with ⟨header, hheader, hin⟩
      rcases List.mem_filter.mp hheader with ⟨hmem, hlisted⟩
      have hlines := Plain.lines hplain hmem
      split at hin
      · rw [hlines.2.2] at hin
        cases hin
      · rename_i hnot
        rw [hlines.1, List.mem_singleton] at hin
        rw [hin] at hfound
        rcases signedHeaderOf_eq_some.mp hfound with ⟨hheaderOf, hname⟩
        rw [hlines.2.1] at hheaderOf
        rw [← Option.some.inj hheaderOf] at hname
        have hvalue : header.2 ≠ [] := by
          unfold isListed at hlisted
          rw [Bool.and_eq_true, Bool.not_eq_true', List.isEmpty_eq_false_iff] at hlisted
          exact hlisted.1
        exact absurd (by rw [hsigned header hmem hvalue hname, hfits header hmem]; rfl)
          hnot
    · intro huntyped
      exact absurd huntyped htyped
    · intro header hmem hsigns
      exact Or.inl ⟨header, hmem, hsigns, hfits header hmem, rfl⟩

/-- A POST has a type where one of its headers is a content type with a value. -/
theorem untyped_plain_iff (hplain : Plain request) :
    ¬ Untyped request ↔
      (request.method = bytes "POST" ->
        exists header, header ∈ request.headers.entries ∧ header.2 ≠ [] ∧
          ToLower header.1 = bytes "content-type") := by
  have hlisted : forall header : ByteString × ByteString,
      ToLower header.1 = bytes "content-type" -> header.2 ≠ [] ->
        isListed header = true := by
    intro header hlower hvalue
    refine isListed_of_default ?_ hvalue
    rw [hlower]
    decide
  constructor
  · intro htyped hpost
    by_contra hnone
    refine htyped ⟨hpost, ?_⟩
    intro header hmem hsent
    rw [Plain.namesContentType hplain hmem, beq_eq_false_iff_ne]
    intro hlower
    refine hnone ⟨header, hmem, ?_, hlower⟩
    unfold isListed at hsent
    rw [Bool.and_eq_true, Bool.not_eq_true', List.isEmpty_eq_false_iff] at hsent
    exact hsent.1
  · intro hexists huntyped
    rcases hexists huntyped.post with ⟨header, hmem, hvalue, hlower⟩
    have hnames := huntyped.untyped header hmem (hlisted header hlower hvalue)
    rw [Plain.namesContentType hplain hmem, hlower] at hnames
    exact absurd hnames (by decide)

end Readings

/-!
# The two signers
-/

section Signers

open Signer

def readingV4 : Reading := ⟨V4.signs, Trim⟩

def readingV1 (headers : HeaderCollection) : Reading := ⟨V1.signs headers, strip⟩

theorem mem_insert_authorization {headers : HeaderCollection} {value : ByteString}
    {header : ByteString × ByteString}
    (hdefault : V4.isDefaultSignedHeader (ToLower header.1) = true) :
    header ∈ (headers.insertOrAssign (bytes "Authorization") value).entries ↔
      header ∈ headers.entries := by
  have hother : ¬ SortedMap.equivalent caseInsensitiveLess (bytes "Authorization")
      header.1 = true := by
    intro hsame
    rw [← ToLower_congr hsame] at hdefault
    exact absurd hdefault (by decide)
  rw [SortedMap.mem_entries_iff, SortedMap.mem_entries_iff,
    SortedMap.findEntry_insertOrAssign, if_neg hother]

theorem V4_signs_default {header : ByteString × ByteString}
    (hsigns : V4.signs header = true) :
    V4.isDefaultSignedHeader (ToLower header.1) = true ∧ header.2 ≠ [] := by
  unfold V4.signs at hsigns
  rw [Bool.and_eq_true, Bool.not_eq_true', List.isEmpty_eq_false_iff] at hsigns
  refine ⟨hsigns.1, fun hnil => hsigns.2 ?_⟩
  rw [hnil]
  rfl

theorem V1_signs_default {headers : HeaderCollection} {header : ByteString × ByteString}
    (hsigns : V1.signs headers header = true) :
    V4.isDefaultSignedHeader (ToLower header.1) = true ∧ header.2 ≠ [] :=
  ⟨(V1.signs_iff.mp hsigns).1, (V1.signs_iff.mp hsigns).2.1⟩

/-- What version 4 has signed of the request that it has signed. -/
theorem V4_signed (p : Signer.Platform σ) (request : RequestMessage σ)
    (context : SigningContext) (env : σ)
    (hkeys : context.credentials.hasKeys = true) (set : V4.HeaderSet)
    (found : ByteString × ByteString) :
    found ∈ V4.signedHeaders (V4.signingHeaders p request context env) set ↔
      exists header,
        header ∈ ((SignerV4 p).sign request context env).2.1.headers.entries ∧
          readingV4.signs header = true ∧ found = readingV4.pair header := by
  rcases V4.sign_headers p request context env hkeys with ⟨value, hsent⟩
  rw [V4.mem_signedHeaders, hsent]
  refine exists_congr fun header => ?_
  split
  · exact Iff.rfl
  · constructor
    · intro hmem
      exact ⟨(mem_insert_authorization (V4_signs_default hmem.2.1).1).mpr hmem.1,
        hmem.2⟩
    · intro hmem
      exact ⟨(mem_insert_authorization (V4_signs_default hmem.2.1).1).mp hmem.1,
        hmem.2⟩

theorem V1_signed (p : Signer.Platform σ) (request : RequestMessage σ)
    (context : SigningContext) (env : σ)
    (hkeys : context.credentials.hasKeys = true) (found : ByteString × ByteString) :
    found ∈ V1.signedHeaders (V1.signingHeaders p request context env) ↔
      exists header,
        header ∈ ((SignerV1 p).sign request context env).2.1.headers.entries ∧
          (readingV1 ((SignerV1 p).sign request context env).2.1.headers).signs header =
            true ∧
          found =
            (readingV1 ((SignerV1 p).sign request context env).2.1.headers).pair
              header := by
  have hsame : V1.signedHeaders (V1.signingHeaders p request context env) =
      V1.signedHeaders ((SignerV1 p).sign request context env).2.1.headers := by
    rcases V1.sign_headers p request context env hkeys with ⟨value, hsent⟩
    rw [hsent]
    split
    · rfl
    · unfold V1.signedHeaders
      simp only [List.map_cons, List.map_nil, V1.canonicalMap_authorization,
        V1.headerValue_authorization (show bytes "content-md5" ≠ _ by decide),
        V1.headerValue_authorization (show bytes "content-type" ≠ _ by decide)]
  rw [hsame]
  exact V1.mem_signedHeaders

/-- Without line breaks: no signed header is blank, and a POST has a content type. -/
theorem consistent_plain_V4 {request : RequestMessage σ} (hplain : Plain request) :
    Consistent readingV4 request ↔
      (forall header, header ∈ request.headers.entries -> header.2 ≠ [] ->
        V4.isDefaultSignedHeader (ToLower header.1) = true -> Trim header.2 ≠ []) ∧
      ¬ Untyped request := by
  rw [consistent_plain_iff hplain
    (fun value hnul => by
      change Trim value = strip value
      rw [Trim_eq_strip, cStr_eq_self hnul])
    (fun _ hsigns => (V4_signs_default hsigns).1)]
  refine and_congr_left fun _ => ?_
  refine forall_congr' fun header => forall_congr' fun _ => forall_congr' fun _ =>
    forall_congr' fun hdefault => ?_
  change V4.signs header = true ↔ _
  unfold V4.signs
  rw [hdefault, Bool.true_and, Bool.not_eq_true', List.isEmpty_eq_false_iff]

theorem consistent_plain_V1 {request : RequestMessage σ} (hplain : Plain request) :
    Consistent (readingV1 request.headers) request ↔ ¬ Untyped request := by
  rw [consistent_plain_iff hplain (fun _ _ => rfl)
    (fun _ hsigns => (V1_signs_default hsigns).1)]
  refine and_iff_right ?_
  intro header hmem hvalue hdefault
  refine V1.signs_iff.mpr ⟨hdefault, hvalue, ?_⟩
  intro other hother hless hsame
  have heq := Plain.unique hplain hmem hother hsame.symm
  have hnot : caseInsensitiveLess other.1 other.1 = false :=
    SortedMap.less_irrefl other.1
  rw [heq, hnot] at hless
  cases hless

/--
What either signer has signed is what curl sends, where each signed header shows on
a line of its own and nothing else does.
-/
theorem sentAsSigned_iff (p : Signer.Platform σ) (request : RequestMessage σ)
    (context : SigningContext) (env : σ)
    (hkeys : context.credentials.hasKeys = true) :
    (SentAsSigned
        (V4.signedHeaders (V4.signingHeaders p request context env)
          (V4.signedAdditionalHeaders (V4.signingHeaders p request context env)
            context.additionalHeaders))
        ((SignerV4 p).sign request context env).2.1 ↔
      Consistent readingV4 ((SignerV4 p).sign request context env).2.1) ∧
    (SentAsSigned (V1.signedHeaders (V1.signingHeaders p request context env))
        ((SignerV1 p).sign request context env).2.1 ↔
      Consistent (readingV1 ((SignerV1 p).sign request context env).2.1.headers)
        ((SignerV1 p).sign request context env).2.1) := by
  constructor
  · exact sentAsSigned_of_reading (V4_signed p request context env hkeys _)
      (fun _ hsigns => (V4_signs_default hsigns).1)
      (fun _ hsigns => (V4_signs_default hsigns).2)
  · exact sentAsSigned_of_reading (V1_signed p request context env hkeys)
      (fun _ hsigns => (V1_signs_default hsigns).1)
      (fun _ hsigns => (V1_signs_default hsigns).2)

end Signers

/-!
# A multipart upload without a content type
-/

/-- The hash functions, on what the signers hash for the request below. -/
def uploadPlatform : Signer.Platform Unit where
  time _ := 1702743657
  sha256 _ := Signer.digest 32
    0xc3b3dfc5e8d8b3bc53b0c6793b00b451b9fe8ea7928ace5379fa974eefd8236b
  hmacSha256 data _ := Signer.digest 32
    (if data = bytes "20231216" then
      0x151acc75ab7203acc219c35ef7415d0c604d059c7140665fe78233ec8ae7f9ea
    else if data = bytes "cn-hangzhou" then
      0xcd7fb718a1d15d167938c1ea34698de973b43added106b102eba0973c9aad028
    else if data = bytes "oss" then
      0xfde9c360ae5165f5a84690330c8bc545e6bde502ba8ba4972db81e5a2ea80bec
    else if data = bytes "aliyun_v4_request" then
      0xb412a03b134ebddd720f5167b5de6db66620ebb3b01cff4d49e3ccb09f8de97f
    else 0x27aa129293fb77954c6bbbc408690dd689f9de22db4afe467b94203f29c91711)
  hmacSha1 _ _ := Signer.digest 20 0xabbded2a720024560e8039d2fc8dfa4fda1b96de

/-- A client that does not look content types up. -/
def uploadClient : ClientImplBase Unit :=
  { anonymousBase Unit with
    options := { (anonymousBase Unit).options with featureFlags := 13 } }

def uploadInput : OperationInput Unit :=
  Client.initiateMultipartUploadInput (fun _ => bytes "application/octet-stream")
    uploadClient
    ⟨SortedMap.empty, SortedMap.empty, SortedMap.empty, bytes "bucket", bytes "key"⟩

def uploadRequest : RequestMessage Unit where
  method := bytes "POST"
  uri := bytes "https://bucket.oss-cn-hangzhou.aliyuncs.com/" ++
    bytes "key?encoding-type=url&uploads"
  headers :=
    SortedMap.ofList [(bytes "Content-MD5", bytes "1B2M2Y8AsgTpgAmY7PhCfg=="),
      (bytes "User-Agent", bytes "alibabacloud-cpp-sdk-v2")]
  body := none

def uploadContext : SigningContext :=
  { SigningContext.empty with
    product := bytes "oss"
    region := bytes "cn-hangzhou"
    bucket := bytes "bucket"
    key := bytes "key"
    credentials := ⟨bytes "ak", bytes "sk", [], none, false⟩ }

theorem sentAsSigned_iff_upload :
    (SentAsSigned
        (Signer.V4.signedHeaders
          (Signer.V4.signingHeaders uploadPlatform uploadRequest uploadContext ())
          (Signer.V4.signedAdditionalHeaders
            (Signer.V4.signingHeaders uploadPlatform uploadRequest uploadContext ()) []))
        ((Signer.SignerV4 uploadPlatform).sign uploadRequest uploadContext ()).2.1 ↔
      Consistent readingV4
        ((Signer.SignerV4 uploadPlatform).sign uploadRequest uploadContext ()).2.1) ∧
    (SentAsSigned
        (Signer.V1.signedHeaders
          (Signer.V1.signingHeaders uploadPlatform uploadRequest uploadContext ()))
        ((Signer.SignerV1 uploadPlatform).sign uploadRequest uploadContext ()).2.1 ↔
      Consistent
        (readingV1
          ((Signer.SignerV1 uploadPlatform).sign uploadRequest uploadContext
            ()).2.1.headers)
        ((Signer.SignerV1 uploadPlatform).sign uploadRequest uploadContext ()).2.1) :=
  sentAsSigned_iff uploadPlatform uploadRequest uploadContext () rfl

/-- The content type that libcurl adds to the POST was not signed by either. -/
theorem not_sentAsSigned_upload :
    (prepare uploadClient 0 uploadInput none none).toOption.map
        (fun prepared =>
          (prepared.2.method, prepared.2.uri, prepared.2.headers, prepared.2.body.isNone,
            { prepared.1.signingContext with
              credentials := uploadContext.credentials })) =
      some (uploadRequest.method, uploadRequest.uri, uploadRequest.headers, true,
        uploadContext) ∧
    ¬ SentAsSigned
        (Signer.V4.signedHeaders
          (Signer.V4.signingHeaders uploadPlatform uploadRequest uploadContext ())
          (Signer.V4.signedAdditionalHeaders
            (Signer.V4.signingHeaders uploadPlatform uploadRequest uploadContext ()) []))
        ((Signer.SignerV4 uploadPlatform).sign uploadRequest uploadContext ()).2.1 ∧
    ¬ SentAsSigned
        (Signer.V1.signedHeaders
          (Signer.V1.signingHeaders uploadPlatform uploadRequest uploadContext ()))
        ((Signer.SignerV1 uploadPlatform).sign uploadRequest uploadContext ()).2.1 := by
  refine ⟨by decide +kernel, ?_, ?_⟩
  · intro hsame
    have hunsigned := (hsame formContentType).mp (by decide +kernel)
    exact absurd hunsigned (by decide +kernel)
  · intro hsame
    have hunsigned := (hsame formContentType).mp (by decide +kernel)
    exact absurd hunsigned (by decide +kernel)

end Curl
end Transport
end OssSdk
