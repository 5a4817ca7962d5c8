import OssSdk.Signer.ListedHeaders
import OssSdk.Signer.PresignedUrl
import OssSdk.Foundation.Pieces

/-!
# What a signature covers

The canonical request is made of lines, and one request cannot be taken for another one
as long as no part of it has a line feed in it.
-/

namespace OssSdk
namespace Signer
namespace V4

open Foundation
open Internal
open Utils

/-! # Queries -/

theorem StringJoin_inj {items others : List ByteString}
    (hitems : forall item, item ∈ items -> 38 ∉ item)
    (hothers : forall item, item ∈ others -> 38 ∉ item)
    (hsame : StringJoin (bytes "&") items = StringJoin (bytes "&") others) :
    items = others ∨ (items = [] ∨ items = [[]]) ∧ (others = [] ∨ others = [[]]) := by
  induction items generalizing others with
  | nil =>
      cases others with
      | nil => exact Or.inl rfl
      | cons other rest =>
          cases rest with
          | nil =>
              have hempty : other = [] := hsame.symm
              rw [hempty]
              exact Or.inr ⟨Or.inl rfl, Or.inr rfl⟩
          | cons next rest' =>
              rw [StringJoin_cons, List.append_assoc] at hsame
              have hnil := (List.append_eq_nil_iff.mp hsame.symm).2
              cases hnil
  | cons item rest ih =>
      have hitem := hitems item List.mem_cons_self
      cases rest with
      | nil =>
          cases others with
          | nil =>
              have hempty : item = [] := hsame
              rw [hempty]
              exact Or.inr ⟨Or.inr rfl, Or.inl rfl⟩
          | cons other rest =>
              cases rest with
              | nil =>
                  have hequal : item = other := hsame
                  rw [hequal]
                  exact Or.inl rfl
              | cons next rest' =>
                  rw [StringJoin_cons, List.append_assoc] at hsame
                  have hequal : item = other ++ 38 :: StringJoin (bytes "&") (next :: rest') :=
                    hsame
                  rw [hequal] at hitem
                  exact absurd (List.mem_append_right _ List.mem_cons_self) hitem
      | cons next rest' =>
          rw [StringJoin_cons, List.append_assoc] at hsame
          have hmine : item ++ 38 :: StringJoin (bytes "&") (next :: rest') =
              StringJoin (bytes "&") others := hsame
          cases others with
          | nil => cases (List.append_eq_nil_iff.mp hmine).2
          | cons other more =>
              have hother := hothers other List.mem_cons_self
              cases more with
              | nil =>
                  have hequal : item ++ 38 :: StringJoin (bytes "&") (next :: rest') = other :=
                    hmine
                  rw [← hequal] at hother
                  exact absurd (List.mem_append_right _ List.mem_cons_self) hother
              | cons next' more' =>
                  rw [StringJoin_cons, List.append_assoc] at hmine
                  obtain ⟨hfirst, hlater⟩ := cut_inj hitem hother hmine
                  have hrest := ih (fun i hi => hitems i (List.mem_cons_of_mem _ hi))
                    (fun i hi => hothers i (List.mem_cons_of_mem _ hi)) hlater
                  left
                  rcases hrest with hequal | ⟨hone, htwo⟩
                  · rw [hfirst, hequal]
                  · have hone' := hone.resolve_left (List.cons_ne_nil _ _)
                    have htwo' := htwo.resolve_left (List.cons_ne_nil _ _)
                    rw [hfirst, hone', htwo']

/-- The parameters that are more than nothing in a query. -/
def writtenParameters (parameters : ParameterCollection) : List (ByteString × ByteString) :=
  parameters.entries.filter fun parameter => !(queryItem parameter).isEmpty

theorem filter_queryItem (parameters : List (ByteString × ByteString)) :
    (parameters.map queryItem).filter (fun item => !item.isEmpty) =
      (parameters.filter fun parameter => !(queryItem parameter).isEmpty).map queryItem := by
  rw [List.filter_map]
  rfl

theorem map_queryItem_inj {parameters others : List (ByteString × ByteString)}
    (hparameters : forall parameter, parameter ∈ parameters -> Encoded parameter)
    (hothers : forall parameter, parameter ∈ others -> Encoded parameter)
    (hsame : parameters.map queryItem = others.map queryItem) : parameters = others := by
  have hback (entries : List (ByteString × ByteString))
      (hentries : forall parameter, parameter ∈ entries -> Encoded parameter) :
      (entries.map queryItem).map queryEntry = entries := by
    rw [List.map_map]
    exact (List.map_congr_left fun parameter hmem =>
      queryEntry_queryItem (hentries parameter hmem)).trans (List.map_id _)
  rw [← hback parameters hparameters, hsame, hback others hothers]

theorem encodedQuery_inj {parameters others : ParameterCollection}
    (hparameters : AllEncoded parameters) (hothers : AllEncoded others)
    (hsame : encodedQuery parameters = encodedQuery others) :
    writtenParameters parameters = writtenParameters others := by
  have hitems (p : ParameterCollection) (hp : AllEncoded p) (item : ByteString)
      (hitem : item ∈ p.entries.map queryItem) : 38 ∉ item := by
    obtain ⟨parameter, hmem, rfl⟩ := List.mem_map.mp hitem
    exact ampersand_not_mem_queryItem (hp parameter hmem)
  have hnone (items : List ByteString) (hitems : items = [] ∨ items = [[]]) :
      items.filter (fun item => !item.isEmpty) = [] := by
    rcases hitems with hnil | hone
    · rw [hnil]
      rfl
    · rw [hone]
      rfl
  have hwritten : (parameters.entries.map queryItem).filter (fun item => !item.isEmpty) =
      (others.entries.map queryItem).filter (fun item => !item.isEmpty) := by
    rw [encodedQuery_eq, encodedQuery_eq] at hsame
    rcases StringJoin_inj (hitems _ hparameters) (hitems _ hothers) hsame with heq | ⟨h1, h2⟩
    · rw [heq]
    · rw [hnone _ h1, hnone _ h2]
  rw [filter_queryItem, filter_queryItem] at hwritten
  exact map_queryItem_inj
    (fun parameter hmem => hparameters parameter (List.mem_filter.mp hmem).1)
    (fun parameter hmem => hothers parameter (List.mem_filter.mp hmem).1) hwritten

/-! # Lines -/

/-- A name and a value as HTTP has them, in one line and the name up to the colon. -/
structure OneLine (header : ByteString × ByteString) : Prop where
  colon : 58 ∉ header.1
  name : 10 ∉ header.1
  value : 10 ∉ header.2

instance (header : ByteString × ByteString) : Decidable (OneLine header) :=
  decidable_of_iff (58 ∉ header.1 ∧ 10 ∉ header.1 ∧ 10 ∉ header.2)
    ⟨fun h => ⟨h.1, h.2.1, h.2.2⟩, fun h => ⟨h.colon, h.name, h.value⟩⟩

theorem headerLine_append (header : ByteString × ByteString) (rest : ByteString) :
    headerLine header ++ rest = header.1 ++ 58 :: (header.2 ++ 10 :: rest) := by
  unfold headerLine
  simp only [List.append_assoc]
  rfl

theorem headerLine_inj {header other : ByteString × ByteString} (hheader : OneLine header)
    (hother : OneLine other) {rest rest' : ByteString}
    (hsame : headerLine header ++ rest = headerLine other ++ rest') :
    header = other ∧ rest = rest' := by
  rw [headerLine_append, headerLine_append] at hsame
  obtain ⟨hname, hlater⟩ := cut_inj hheader.colon hother.colon hsame
  obtain ⟨hvalue, hrest⟩ := cut_inj hheader.value hother.value hlater
  exact ⟨Prod.ext hname hvalue, hrest⟩

theorem headerLine_ne_break {header : ByteString × ByteString} (hheader : OneLine header)
    (rest rest' : ByteString) : headerLine header ++ rest ≠ 10 :: rest' := by
  intro hsame
  rw [headerLine_append] at hsame
  cases hname : header.1 with
  | nil =>
      rw [hname] at hsame
      cases hsame
  | cons c name =>
      rw [hname, List.cons_append] at hsame
      have hc := (List.cons.inj hsame).1
      have hnot := hheader.name
      rw [hname, hc] at hnot
      exact hnot List.mem_cons_self

/-- The empty line ends the headers. -/
theorem headerLines_inj {headers others : List (ByteString × ByteString)}
    (hheaders : forall header, header ∈ headers -> OneLine header)
    (hothers : forall header, header ∈ others -> OneLine header) {rest rest' : ByteString}
    (hsame : headers.flatMap headerLine ++ 10 :: rest =
      others.flatMap headerLine ++ 10 :: rest') :
    headers = others ∧ rest = rest' := by
  induction headers generalizing others with
  | nil =>
      cases others with
      | nil => exact ⟨rfl, (List.cons.inj hsame).2⟩
      | cons other more =>
          rw [List.flatMap_cons, List.append_assoc] at hsame
          exact absurd hsame.symm (headerLine_ne_break (hothers other List.mem_cons_self) _ _)
  | cons header headers ih =>
      have hheader := hheaders header List.mem_cons_self
      rw [List.flatMap_cons, List.append_assoc] at hsame
      cases others with
      | nil => exact absurd hsame (headerLine_ne_break hheader _ _)
      | cons other more =>
          rw [List.flatMap_cons, List.append_assoc] at hsame
          obtain ⟨hfirst, hlater⟩ :=
            headerLine_inj hheader (hothers other List.mem_cons_self) hsame
          obtain ⟨hmore, hrest⟩ := ih
            (fun h hh => hheaders h (List.mem_cons_of_mem _ hh))
            (fun h hh => hothers h (List.mem_cons_of_mem _ hh)) hlater
          exact ⟨by rw [hfirst, hmore], hrest⟩

/-! # Canonical requests -/

theorem mem_of_mem_Trim {c : UInt8} {s : ByteString} (hc : c ∈ Trim s) : c ∈ s := by
  have hleft := (List.takeWhile_prefix _).subset ((List.dropWhile_suffix _).subset hc)
  have hright := (List.dropWhile_suffix _).subset (List.mem_reverse.mp hleft)
  exact (List.takeWhile_prefix _).subset (List.mem_reverse.mp hright)

/-- A byte that is no lower-case letter comes from itself. -/
theorem mem_of_mem_ToLower {c : UInt8} (hletter : Not (97 <= c.toNat ∧ c.toNat <= 122))
    {s : ByteString} (hc : c ∈ ToLower s) : c ∈ s := by
  obtain ⟨b, hb, hlower⟩ := List.mem_map.mp hc
  rw [eq_of_toLowerByte hletter hlower] at hb
  exact (List.takeWhile_prefix _).subset hb

theorem OneLine.canonical {set : HeaderSet} {header line : ByteString × ByteString}
    (hheader : OneLine header) (hline : canonicalHeader set header = some line) :
    OneLine line := by
  rw [(canonicalHeader_some hline).1]
  constructor
  · exact fun hmem => hheader.colon (mem_of_mem_ToLower (by decide) hmem)
  · exact fun hmem => hheader.name (mem_of_mem_ToLower (by decide) hmem)
  · exact fun hmem => hheader.value (mem_of_mem_Trim hmem)

theorem mem_of_mem_queryItems {piece s item : ByteString} {c : UInt8}
    (hitem : item ∈ queryItems piece s) (hc : c ∈ item) : c ∈ piece ∨ c ∈ s := by
  induction s generalizing piece with
  | nil =>
      rw [List.mem_singleton.mp hitem] at hc
      exact Or.inl hc
  | cons b rest ih =>
      rw [queryItems] at hitem
      split at hitem
      · rcases List.mem_cons.mp hitem with heq | hmore
        · rw [heq] at hc
          exact Or.inl hc
        · split at hmore
          · cases hmore
          · have hin := (ih hmore).resolve_left List.not_mem_nil
            exact Or.inr (List.mem_cons_of_mem b hin)
      · rcases ih hitem with hpiece | hin
        · rcases List.mem_append.mp hpiece with hold | hnew
          · exact Or.inl hold
          · rw [List.mem_singleton.mp hnew]
            exact Or.inr List.mem_cons_self
        · exact Or.inr (List.mem_cons_of_mem b hin)

/-- A line feed in a parameter is one in the URL. -/
theorem mem_of_mem_queryItem {url : ByteString} {parameter : ByteString × ByteString}
    (hparameter : parameter ∈ queryEntries url) (hbreak : 10 ∈ queryItem parameter) :
    10 ∈ url := by
  have hquery {c : UInt8} (hc : c ∈ queryOf url) : c ∈ url :=
    (List.dropWhile_suffix _).subset (List.drop_subset 1 _ hc)
  unfold queryEntries at hparameter
  split at hparameter
  · cases hparameter
  · obtain ⟨item, hitem, rfl⟩ := List.mem_map.mp hparameter
    have hin {c : UInt8} (hc : c ∈ item) : c ∈ url :=
      hquery ((mem_of_mem_queryItems hitem hc).resolve_left List.not_mem_nil)
    have hname (hc : 10 ∈ (queryEntry item).1) : 10 ∈ url := hin (takeWhile_subset hc)
    have hvalue (hc : 10 ∈ (queryEntry item).2) : 10 ∈ url :=
      hin ((List.dropWhile_suffix _).subset (List.drop_subset 1 _ hc))
    unfold queryItem at hbreak
    split at hbreak
    · exact hname hbreak
    · rcases List.mem_append.mp hbreak with hleft | hright
      · rcases List.mem_append.mp hleft with hfirst | hequals
        · exact hname hfirst
        · exact absurd hequals (by decide)
      · exact hvalue hright

/-- What HTTP allows in a request. -/
structure OneLineRequest (method uri : ByteString) (headers : HeaderCollection) : Prop where
  method : 10 ∉ method
  uri : 10 ∉ uri
  headers : forall header, header ∈ headers.entries -> OneLine header

section Requests

variable {method uri : ByteString} {headers : HeaderCollection}
variable (hone : OneLineRequest method uri headers)

include hone

theorem canonicalHeaders_oneLine (set : HeaderSet) :
    forall line, line ∈ canonicalHeaders headers set -> OneLine line := by
  intro line hline
  obtain ⟨header, hheader, hsome⟩ := List.mem_filterMap.mp hline
  exact (hone.headers header hheader).canonical hsome

theorem listedNames_oneLine (names : List ByteString) :
    10 ∉ toHeaderSetString (signedAdditionalHeaders headers names) := by
  intro hmem
  rw [toHeaderSetString_eq] at hmem
  rcases mem_StringJoin hmem with hsemicolon | ⟨name, hname, hbreak⟩
  · cases hsemicolon with
    | tail _ hnone => cases hnone
  · obtain ⟨_, hpicked⟩ := mem_listedNames.mp hname
    have hlower := ToLower_of_toBeListed (mem_listedNames.mp hname)
    unfold picks at hpicked
    rw [Bool.and_eq_true] at hpicked
    obtain ⟨value, hvalue⟩ := Option.isSome_iff_exists.mp hpicked.2
    rw [SortedMap.find?_eq, Option.map_eq_some_iff] at hvalue
    obtain ⟨entry, hentry, _⟩ := hvalue
    have hin : entry ∈ headers.entries := List.mem_of_find?_eq_some hentry
    have hfound := List.find?_some hentry
    have hsame : SortedMap.equivalent caseInsensitiveLess entry.1 name = true := hfound
    rw [← hlower, ← ToLower_congr hsame] at hbreak
    exact (hone.headers entry hin).name (mem_of_mem_ToLower (by decide) hbreak)

theorem query_oneLine : 10 ∉ encodedQuery (ToEncodedParameters uri) := by
  intro hmem
  rw [encodedQuery_eq] at hmem
  rcases mem_StringJoin hmem with hampersand | ⟨item, hitem, hbreak⟩
  · cases hampersand with
    | tail _ hnone => cases hnone
  · obtain ⟨parameter, hparameter, rfl⟩ := List.mem_map.mp hitem
    rw [ToEncodedParameters_eq] at hparameter
    exact hone.uri (mem_of_mem_queryItem (SortedMap.mem_ofList hparameter) hbreak)

end Requests

theorem UrlEncodePath_oneLine (resource : ByteString) : 10 ∉ UrlEncodePath resource :=
  not_mem_urlEncode (by decide) resource true

/-- The parts of a canonical request, each on its own lines. -/
theorem buildCanonicalReuqest_inj {method method' resource resource' : ByteString}
    {parameters parameters' : ParameterCollection} {headers headers' : HeaderCollection}
    {set set' : HeaderSet}
    (hmethod : 10 ∉ method) (hmethod' : 10 ∉ method')
    (hquery : 10 ∉ encodedQuery parameters) (hquery' : 10 ∉ encodedQuery parameters')
    (hlines : forall line, line ∈ canonicalHeaders headers set -> OneLine line)
    (hlines' : forall line, line ∈ canonicalHeaders headers' set' -> OneLine line)
    (hnames : 10 ∉ toHeaderSetString set) (hnames' : 10 ∉ toHeaderSetString set')
    (hsame : buildCanonicalReuqest method resource parameters headers set =
      buildCanonicalReuqest method' resource' parameters' headers' set') :
    (method = method' ∧ resource = resource' ∧
      encodedQuery parameters = encodedQuery parameters') ∧
      canonicalHeaders headers set = canonicalHeaders headers' set' ∧
      toHeaderSetString set = toHeaderSetString set' ∧
      hashedPayload headers = hashedPayload headers' := by
  have hsplit (m r : ByteString) (p : ParameterCollection) (h : HeaderCollection)
      (t : HeaderSet) :
      buildCanonicalReuqest m r p h t =
        m ++ 10 :: (UrlEncodePath r ++ 10 :: (encodedQuery p ++ 10 ::
          ((canonicalHeaders h t).flatMap headerLine ++ 10 ::
            (toHeaderSetString t ++ 10 :: hashedPayload h)))) := by
    unfold buildCanonicalReuqest
    simp only [List.append_assoc]
    rfl
  rw [hsplit, hsplit] at hsame
  obtain ⟨h1, hsame⟩ := cut_inj hmethod hmethod' hsame
  obtain ⟨h2, hsame⟩ := cut_inj (UrlEncodePath_oneLine _) (UrlEncodePath_oneLine _) hsame
  obtain ⟨h3, hsame⟩ := cut_inj hquery hquery' hsame
  obtain ⟨h4, hsame⟩ := headerLines_inj hlines hlines' hsame
  obtain ⟨h5, h6⟩ := cut_inj hnames hnames' hsame
  exact ⟨⟨h1, UrlEncodePath_injective h2, h3⟩, h4, h5, h6⟩

variable {σ : Type}

/-- Two requests that agree in all that a signature in the headers is made from. -/
structure SameSigned (context context' : SigningContext) (request request' : RequestMessage σ)
    (headers headers' : HeaderCollection) : Prop where
  method : request.method = request'.method
  resource : toResource context.bucket context.key = toResource context'.bucket context'.key
  parameters : writtenParameters (ToEncodedParameters request.uri) =
    writtenParameters (ToEncodedParameters request'.uri)
  lines : canonicalHeaders headers
      (signedAdditionalHeaders headers context.additionalHeaders) =
    canonicalHeaders headers' (signedAdditionalHeaders headers' context'.additionalHeaders)
  names : toHeaderSetString (signedAdditionalHeaders headers context.additionalHeaders) =
    toHeaderSetString (signedAdditionalHeaders headers' context'.additionalHeaders)
  payload : hashedPayload headers = hashedPayload headers'

theorem headerCanonical_inj {context context' : SigningContext}
    {request request' : RequestMessage σ} {headers headers' : HeaderCollection}
    (hone : OneLineRequest request.method request.uri headers)
    (hone' : OneLineRequest request'.method request'.uri headers')
    (hsame : headerCanonical context request headers =
      headerCanonical context' request' headers') :
    SameSigned context context' request request' headers headers' := by
  obtain ⟨⟨hmethod, hresource, hquery⟩, hlines, hnames, hpayload⟩ :=
    buildCanonicalReuqest_inj hone.method hone'.method (query_oneLine hone)
      (query_oneLine hone') (canonicalHeaders_oneLine hone _)
      (canonicalHeaders_oneLine hone' _) (listedNames_oneLine hone _)
      (listedNames_oneLine hone' _) hsame
  have hparameters := encodedQuery_inj (allEncoded_ToEncodedParameters request.uri)
    (allEncoded_ToEncodedParameters request'.uri) hquery
  exact ⟨hmethod, hresource, hparameters, hlines, hnames, hpayload⟩

/-! # Strings to sign -/

theorem lowerHexDigit_inj : forall a b : Fin 16,
    lowerHexDigit a = lowerHexDigit b -> a = b := by decide

theorem LowerHexToString_inj {data other : ByteString}
    (hsame : LowerHexToString data = LowerHexToString other) : data = other := by
  induction data generalizing other with
  | nil =>
      cases other with
      | nil => rfl
      | cons b rest => cases hsame
  | cons a data ih =>
      cases other with
      | nil => cases hsame
      | cons b rest =>
          have ha := a.toNat_lt
          have hb := b.toNat_lt
          have hbytes : lowerHexDigit (a.toNat / 16) :: lowerHexDigit (a.toNat % 16) ::
              LowerHexToString data = lowerHexDigit (b.toNat / 16) ::
                lowerHexDigit (b.toNat % 16) :: LowerHexToString rest := hsame
          obtain ⟨hhigh, hmore⟩ := List.cons.inj hbytes
          obtain ⟨hlow, hlater⟩ := List.cons.inj hmore
          have h1 := congrArg Fin.val
            (lowerHexDigit_inj ⟨a.toNat / 16, by omega⟩ ⟨b.toNat / 16, by omega⟩ hhigh)
          have h2 := congrArg Fin.val
            (lowerHexDigit_inj ⟨a.toNat % 16, by omega⟩ ⟨b.toNat % 16, by omega⟩ hlow)
          have hbyte : a = b := by
            apply UInt8.toNat_inj.mp
            have hfirst : a.toNat / 16 = b.toNat / 16 := h1
            have hsecond : a.toNat % 16 = b.toNat % 16 := h2
            omega
          rw [hbyte, ih hlater]

/-- A request with one header, for an object that is named in the URL. -/
def namedRequest (uri name value : ByteString) : RequestMessage Unit where
  method := bytes "GET"
  uri := uri
  headers := SortedMap.ofList [(name, value)]
  body := none

def namedContext (bucket key : ByteString) : SigningContext :=
  { SigningContext.empty with
    bucket := bucket
    key := key
    region := bytes "cn-hangzhou"
    product := bytes "oss" }

theorem namedRequest_oneLine {uri name value : ByteString} (huri : 10 ∉ uri)
    (hheader : OneLine (name, value)) : OneLineRequest (namedRequest uri name value).method
      (namedRequest uri name value).uri (namedRequest uri name value).headers := by
  have hmethod : (10 : UInt8) ∉ bytes "GET" := by decide
  refine ⟨hmethod, huri, fun header hmem => ?_⟩
  rw [List.mem_singleton.mp (SortedMap.mem_ofList hmem)]
  exact hheader

def blankPlatform : Platform Unit where
  time _ := 0
  sha256 _ := digest 32 0
  hmacSha256 _ _ := digest 32 0
  hmacSha1 _ _ := digest 20 0

end V4
end Signer
end OssSdk
