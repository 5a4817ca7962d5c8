import OssSdk.Client.Paginator

/-!
# Listings that are read page by page

A service splits a listing into pages, and answers a request with the page that its
markers lead to.  The pages that a paginator yields make up the listing, apart from the
common prefixes of a listing of uploads.
-/

namespace OssSdk
namespace Client

open Foundation
open Internal
open Sync
open Transform
open Transport
open Utils

variable {σ : Type}

/-- A listing in pages of any sizes; `position` is the page that markers lead to. -/
structure ListingService (op : ListOperation) where
  pages : List (List Entry)
  position : List (Option ByteString) -> Nat
  some_page : pages ≠ []
  lists : forall page, page ∈ pages -> forall entry, entry ∈ page ->
    op.lists entry.kind = true

/-- The request asks what the first one asked, apart from the markers. -/
structure SameQuestion (op : ListOperation) (start : ListRequest) (target : ByteString)
    (request : RequestMessage σ) : Prop where
  method : request.method = bytes "GET"
  target : request.uri.takeWhile (· != 63) = target
  parameters : forall name, name ≠ [] -> op.isMarker name = false ->
    parameterOf request.uri name =
      (op.input start : OperationInput σ).parameters.find? name

/-- A body with this page in it, and with the markers of the next page if there is one. -/
def HasPage (c : OSSClient σ) {op : ListOperation} (service : ListingService op)
    (url : Bool) (i : Nat) (page : List Entry) (body : Option ByteString) : Prop :=
  exists str root, body = some str ∧ c.Parse str = .parsed (some root) ∧
    root.Name = op.rootName ∧
    ShowsPage op.lists url root (decide (i + 1 < service.pages.length)) page ∧
    (i + 1 < service.pages.length ->
      exists values, List.Forall₂ (ShowsMarker url root) op.markers values ∧
        service.position (values.map some) = i + 1)

/-- The service is behind the transport of the client. -/
structure ServesListing (c : OSSClient σ) {op : ListOperation} (service : ListingService op)
    (start : ListRequest) (target : ByteString) : Prop where
  plain : 63 ∉ target
  reached : forall request url, op.SameFields start request ->
    c.client.urlOf (op.input request) = some url -> url = target
  first : service.position (op.asked start.parameters.find?) = 0
  keeps : forall uri,
    KeepsRequests c.client fun request => request.method = bytes "GET" ∧ request.uri = uri
  answers : forall (request : RequestMessage σ) (options : RequestOptions σ) (env : σ)
    (response : ResponseMessage) (after : RequestMessage σ × σ),
    c.client.httpTransport.send request options env = (.response response, after) ->
    SameQuestion op start target request -> options.sinkFactory = none ->
    response.statusCode ≠ 0 ∧
      (response.statusCode.tdiv 100 = 2 -> forall page,
        service.pages[service.position (op.asked (parameterOf request.uri))]? = some page ->
        HasPage c service
          (parameterOf request.uri (bytes "encoding-type") == some (bytes "url"))
          (service.position (op.asked (parameterOf request.uri))) page response.body)

section Served

variable {c : OSSClient σ} {op : ListOperation} {service : ListingService op}
variable {start request : ListRequest} {target : ByteString}

theorem takeWhile_withQuery (hplain : 63 ∉ target) (parameters : ParameterCollection) :
    (withQuery target parameters).takeWhile (· != 63) = target := by
  unfold withQuery
  split
  · rw [List.append_nil, List.takeWhile_eq_self_iff]
    intro b hb
    rw [bne_iff_ne]
    exact fun heq => hplain (heq ▸ hb)
  · rw [← List.append_assoc]
    exact takeWhile_append_query hplain _

theorem input_marker (op : ListOperation) (request : ListRequest) :
    op.asked (op.input request : OperationInput σ).parameters.find? =
      op.asked request.parameters.find? := by
  rcases @ListOperation.input_parameters σ op with ⟨defaults, hnone, hfind⟩
  refine List.map_congr_left fun marker hmem => ?_
  rw [hfind, hnone marker hmem, Option.or_none]

theorem asked_withQuery (hplain : 63 ∉ target) (op : ListOperation)
    (parameters : ParameterCollection) :
    op.asked (parameterOf (withQuery target parameters)) = op.asked parameters.find? :=
  List.map_congr_left fun _ hmem =>
    parameterOf_withQuery hplain parameters (ListOperation.marker_ne_nil hmem)

/-- A request of the paginator asks what the caller's request asked. -/
theorem sameQuestion (hplain : 63 ∉ target) (hsame : op.SameFields start request)
    {message : RequestMessage σ} (hmethod : message.method = bytes "GET")
    (huri : message.uri =
      withQuery target (op.input request : OperationInput σ).parameters) :
    SameQuestion op start target message := by
  refine ⟨hmethod, ?_, fun name hname hmarker => ?_⟩
  · rw [huri, takeWhile_withQuery hplain]
  · rcases @ListOperation.input_parameters σ op with ⟨defaults, _, hfind⟩
    rw [huri, parameterOf_withQuery hplain _ hname, hfind, hfind,
      hsame.parameters name hmarker]

/-- A call that succeeds yields the page that the markers of its request lead to. -/
theorem ServesListing.page_of_ok (hserves : ServesListing c service start target)
    (hsame : op.SameFields start request) {i : Nat} {page : List Entry}
    (hpage : service.pages[i]? = some page)
    (hposition : service.position (op.asked request.parameters.find?) = i)
    {options : Option (OperationOptions σ)} {w : Runtime σ} {result : ListResult op.Body}
    (hok : (op.method c request options w).1 = .ok result) :
    exists url root, result = ⟨result.statusCode, result.headers, op.toBody root⟩ ∧
      ShowsPage op.lists url root (decide (i + 1 < service.pages.length)) page ∧
      (i + 1 < service.pages.length ->
        service.position (op.markers.map fun marker => some (readMarker root marker)) =
          i + 1) := by
  rcases ListOperation.method_eq c op request options w with ⟨empty, hmethod⟩
  rw [hmethod] at hok
  unfold listing at hok
  split at hok
  · cases hok
  · have hrun : Runs c.client (op.input request) options none w .sync _ _ _ := Runs.sync
    rcases hexecute : c.client.Execute (op.input request) options none w with ⟨out, w'⟩
    rw [hexecute] at hok hrun
    cases out with
    | error e => cases hok
    | output o =>
        have hown : forall inner, (none : Option (OperationInnerOptions σ)) = some inner ->
            inner.onResponseMessage = [] := fun inner hinner => nomatch hinner
        rcases hrun.of_output hown rfl with
          ⟨y, r, env, hsent, hsink, ⟨after, hsend⟩, ho, _⟩
        have htarget : y.request.method = bytes "GET" ∧ y.request.uri =
            withQuery target (op.input request : OperationInput σ).parameters := by
          refine lastSent_kept (hserves.keeps _) (fun context message hprepare => ?_) hsent
          rcases prepare_target hprepare with ⟨hget, url, hurl, huri⟩
          rw [hserves.reached request url hsame hurl] at huri
          exact ⟨hget.trans (op.input_method request), huri⟩
        have hquestion := sameQuestion hserves.plain hsame htarget.1 htarget.2
        rcases hserves.answers _ _ _ _ _ hsend hquestion hsink with ⟨hstatus, hanswer⟩
        have hasked : service.position (op.asked (parameterOf y.request.uri)) = i := by
          rw [htarget.2, asked_withQuery hserves.plain, input_marker]
          exact hposition
        have hsuccess := hrun.of_output_status hown
        rw [ho] at hsuccess
        replace hsuccess := hsuccess.resolve_right hstatus
        rw [hasked] at hanswer
        rcases hanswer hsuccess page hpage with
          ⟨str, root, hbody, hparse, hname, hshows, hnext⟩
        have hresult : result = ⟨r.statusCode, r.headers, op.toBody root⟩ := by
          simp only [ho, toListing, hbody, hparse, hname, beq_self_eq_true, if_true] at hok
          cases hok
          rfl
        refine ⟨_, root, ?_, hshows, fun hmore => ?_⟩
        · rw [hresult]
        · rcases hnext hmore with ⟨values, hvalues, hthere⟩
          rw [← hshows.doDecode_eq] at hvalues
          rw [← map_readMarker hvalues, List.map_map] at hthere
          exact hthere

/-!
# Page after page
-/

/-- A result yields the entries of a page, apart from those that are not read. -/
def ReadsEntries (op : ListOperation) (page : List Entry) (result : ListResult op.Body) :
    Prop :=
  forall kind, op.entries result.body kind =
    if op.reads kind then page.filter (·.kind == kind) else []

theorem readsEntries_page {url truncated : Bool} {root : XMLElement} {page : List Entry}
    (hshows : ShowsPage op.lists url root truncated page) (statusCode : Int)
    (headers : HeaderCollection) :
    ReadsEntries op page ⟨statusCode, headers, op.toBody root⟩ := by
  intro kind
  cases hreads : op.reads kind with
  | false => exact ListOperation.entries_unread hreads root
  | true =>
      have hlists : op.lists kind = true := by
        unfold ListOperation.reads at hreads
        rw [Bool.and_eq_true] at hreads
        exact hreads.1
      exact (ListOperation.entries_toBody hreads root).trans (hshows.read hlists)

/-- The pages that are still ahead of a paginator. -/
structure Ahead (c : OSSClient σ) {op : ListOperation} (service : ListingService op)
    (start : ListRequest) (pages : List (List Entry))
    (s : Paginator σ (ListResult op.Body) × Runtime σ) : Prop where
  callable : s.1.callable = op.method c
  running : s.1.done = false
  fields : op.SameFields start s.1.request
  pages : pages =
    service.pages.drop (service.position (op.asked s.1.request.parameters.find?))

theorem drop_cons {α : Type} {l : List α} {i : Nat} {a : α} {rest : List α}
    (hdrop : a :: rest = l.drop i) :
    l[i]? = some a ∧ rest = l.drop (i + 1) ∧ (i + 1 < l.length ↔ rest ≠ []) := by
  have hrest : rest = l.drop (i + 1) := by
    rw [← List.tail_drop, ← hdrop]
    rfl
  refine ⟨?_, hrest, ?_⟩
  · rw [← List.head?_drop, ← hdrop]
    rfl
  · rw [hrest, Ne, List.drop_eq_nil_iff, not_le]

/-- The paginator of a listing reads its pages. -/
theorem ServesListing.readsPages (hserves : ServesListing c service start target) :
    ReadsPages (fun s : Paginator σ (ListResult op.Body) × Runtime σ => s.1.hasNext)
      (fun s => s.1.nextPage op.traits s.2) (ReadsEntries op)
      (Ahead c service start) := by
  have hcall : forall page rest s r, Ahead c service start (page :: rest) s ->
      (s.1.nextPage op.traits s.2).1 = .ok r ->
      exists url root, r = ⟨r.statusCode, r.headers, op.toBody root⟩ ∧
        ShowsPage op.lists url root (decide (rest ≠ [])) page ∧
        (rest ≠ [] -> service.pages.drop (service.position
          (op.markers.map fun marker => some (readMarker root marker))) = rest) := by
    intro page rest s r hahead hok
    rw [nextPage_outcome, hahead.callable] at hok
    rcases drop_cons hahead.pages with ⟨hpage, hrest, hmore⟩
    rcases hserves.page_of_ok hahead.fields hpage rfl hok with
      ⟨url, root, hresult, hshows, hnext⟩
    rw [decide_eq_decide.mpr hmore] at hshows
    refine ⟨url, root, hresult, hshows, fun hne => ?_⟩
    rw [hnext (hmore.mpr hne), hrest]
  have htruncated : forall (r : ListResult op.Body) (url truncated : Bool)
      (root : XMLElement) (page : List Entry),
      r = ⟨r.statusCode, r.headers, op.toBody root⟩ ->
      ShowsPage op.lists url root truncated page ->
      op.traits.isTruncated r = truncated := by
    intro r url truncated root page hresult hshows
    rw [hresult, ListOperation.isTruncated_eq]
    exact hshows.isTruncated_eq
  constructor
  · intro page rest s hahead
    unfold Paginator.hasNext
    rw [hahead.running]
    exact Bool.or_true _
  · intro pages s e _ hfailed
    exact (nextPage_error hfailed).2
  · intro page rest s r hahead hok
    rcases hcall page rest s r hahead hok with ⟨url, root, hresult, hshows, _⟩
    rw [hresult]
    exact readsEntries_page hshows _ _
  · intro page rest s r hahead hok hne
    rcases hcall page rest s r hahead hok with ⟨url, root, hresult, hshows, hnext⟩
    have hmoved := nextPage_truncated hok
      ((htruncated r _ _ root page hresult hshows).trans (decide_eq_true hne))
    rw [hresult] at hmoved
    refine ⟨?_, ?_, ?_, ?_⟩
    · rw [hmoved]
      exact hahead.callable
    · rw [hmoved]
      exact hahead.running
    · rw [hmoved]
      exact hahead.fields.setNextToken _
    · rw [hmoved, ListOperation.asked_setNextToken]
      exact (hnext hne).symm
  · intro page s r hahead hok
    rcases hcall page [] s r hahead hok with ⟨url, root, hresult, hshows, _⟩
    exact nextPage_last hok (htruncated r _ _ root page hresult hshows)

/-!
# What is yielded in all
-/

/-- What results have of one kind, one result after another. -/
def yielded (op : ListOperation) (results : List (ListResult op.Body)) (kind : EntryKind) :
    List Entry :=
  results.flatMap fun result => op.entries result.body kind

/--
A paginator over a listing: the results have the pages from the first on, in order and
once; there is no more after the last page or after a page that is not truncated; and
requests keep their fields, and after a failure their markers too.
-/
structure Enumerates (c : OSSClient σ) {op : ListOperation} (service : ListingService op)
    (start : ListRequest) (options : OperationOptions σ) (w : Runtime σ) : Prop where
  beginning : forall fuel, exists results,
    ((allPages c op start options fuel w).1 = results.map .ok ∨
      exists e, (allPages c op start options fuel w).1 = results.map .ok ++ [.error e]) ∧
    forall kind, yielded op results kind =
      (service.pages.take results.length).flatten.filter (·.kind == kind)
  whole : forall fuel, service.pages.length ≤ fuel ->
    (allPages c op start options fuel w).2.1.hasNext = false ∧
      forall results, (allPages c op start options fuel w).1 = results.map .ok ->
        forall kind, yielded op results kind =
          service.pages.flatten.filter (·.kind == kind)
  fields : forall fuel,
    op.SameFields start (allPages c op start options fuel w).2.1.request
  last : forall fuel before result after,
    (allPages c op start options fuel w).1 = before ++ .ok result :: after ->
    op.traits.isTruncated result = false -> after = []
  failed : forall (p : Paginator σ (ListResult op.Body)) (w : Runtime σ)
    (e : OperationError), (p.nextPage op.traits w).1 = .error e ->
    (p.nextPage op.traits w).2.1.request = p.request

/-- Uploads are not listed together with common prefixes. -/
def HasOwnEntries {op : ListOperation} (service : ListingService op) : Prop :=
  op = .ListMultipartUploads ->
    forall page, page ∈ service.pages -> forall entry, entry ∈ page ->
      entry.kind ≠ .commonPrefix

/-- What is not read is not there, with the one exception. -/
theorem readsEntries_filter {page : List Entry} {result : ListResult op.Body}
    (hreads : ReadsEntries op page result)
    (hlists : forall entry, entry ∈ page -> op.lists entry.kind = true)
    (hown : op = .ListMultipartUploads -> forall entry, entry ∈ page ->
      entry.kind ≠ .commonPrefix) (kind : EntryKind) :
    op.entries result.body kind = page.filter (·.kind == kind) := by
  rw [hreads kind]
  split
  · rfl
  · rename_i hunread
    symm
    rw [List.filter_eq_nil_iff]
    intro entry hmem hkind
    have hsame := beq_iff_eq.mp hkind
    have hlisted := hlists entry hmem
    rw [hsame] at hlisted
    unfold ListOperation.reads at hunread
    rw [hlisted, Bool.true_and, Bool.not_eq_true, Bool.not_eq_false', Bool.and_eq_true,
      beq_iff_eq, beq_iff_eq] at hunread
    exact hown hunread.1 entry hmem (hsame.trans hunread.2)

theorem yielded_pages {pages : List (List Entry)} {results : List (ListResult op.Body)}
    (hreads : List.Forall₂ (ReadsEntries op) pages results)
    (hlists : forall page, page ∈ pages -> forall entry, entry ∈ page ->
      op.lists entry.kind = true)
    (hown : op = .ListMultipartUploads -> forall page, page ∈ pages ->
      forall entry, entry ∈ page -> entry.kind ≠ .commonPrefix) (kind : EntryKind) :
    yielded op results kind = pages.flatten.filter (·.kind == kind) := by
  induction hreads with
  | nil => rfl
  | cons hread _ ih =>
      have hfirst := readsEntries_filter hread (hlists _ List.mem_cons_self)
        (fun hop => hown hop _ List.mem_cons_self) kind
      have hrest := ih (fun page hmem => hlists page (List.mem_cons_of_mem _ hmem))
        (fun hop page hmem => hown hop page (List.mem_cons_of_mem _ hmem))
      rw [List.flatten_cons, List.filter_append, ← hfirst, ← hrest]
      rfl

theorem yielded_unread {pages : List (List Entry)} {results : List (ListResult op.Body)}
    (hreads : List.Forall₂ (ReadsEntries op) pages results) {kind : EntryKind}
    (hunread : op.reads kind = false) : yielded op results kind = [] := by
  induction hreads with
  | nil => rfl
  | cons hread _ ih =>
      have hfirst := hread kind
      rw [hunread, if_neg Bool.false_ne_true] at hfirst
      unfold yielded at ih ⊢
      rw [List.flatMap_cons, hfirst, ih]
      rfl

theorem nextPage_fields {s : Paginator σ (ListResult op.Body) × Runtime σ}
    (hsame : op.SameFields start s.1.request) :
    op.SameFields start (s.1.nextPage op.traits s.2).2.1.request := by
  unfold Paginator.nextPage
  split
  · split
    · exact hsame.setNextToken _
    · exact hsame
  · exact hsame

variable {options : OperationOptions σ}

/-- In the beginning all pages are ahead. -/
theorem ServesListing.ahead (hserves : ServesListing c service start target)
    (options : OperationOptions σ) (w : Runtime σ) :
    Ahead c service start service.pages (makePaginator c op start options, w) := by
  refine ⟨rfl, rfl, ListOperation.SameFields.refl op start, ?_⟩
  change service.pages =
    service.pages.drop (service.position (op.asked start.parameters.find?))
  rw [hserves.first, List.drop_zero]

/-- The pages of a listing without anything that is not read. -/
theorem ServesListing.enumerates (hserves : ServesListing c service start target)
    (hown : HasOwnEntries service) (w : Runtime σ) :
    Enumerates c service start options w := by
  have hread := fun fuel =>
    hserves.readsPages.read fuel (hserves.ahead options w) service.some_page
  have hyielded : forall {results : List (ListResult op.Body)} {n : Nat},
      List.Forall₂ (ReadsEntries op) (service.pages.take n) results ->
      forall kind, yielded op results kind =
        (service.pages.take n).flatten.filter (·.kind == kind) := by
    intro results n hshows
    exact yielded_pages hshows
      (fun page hmem => service.lists page (List.mem_of_mem_take hmem))
      (fun hop page hmem => hown hop page (List.mem_of_mem_take hmem))
  constructor
  · intro fuel
    rcases hread fuel with ⟨results, hpages, _⟩
    exact ⟨results, hpages.outcomes, hyielded hpages.shows⟩
  · intro fuel hfuel
    rcases hread fuel with ⟨results, hpages, hends⟩
    rcases hends hfuel with ⟨hdone, hcount⟩
    refine ⟨hdone, fun others hothers kind => ?_⟩
    have hsame := hpages.results_eq hothers
    have hlength : results.length = service.pages.length := hcount (hsame ▸ hothers)
    have hkind := hyielded hpages.shows kind
    rw [hlength, List.take_length] at hkind
    rw [hsame]
    exact hkind
  · intro fuel
    have hkept : forall s : Paginator σ (ListResult op.Body) × Runtime σ,
        op.SameFields start s.1.request ->
        op.SameFields start (s.1.nextPage op.traits s.2).2.1.request :=
      fun _ hs => nextPage_fields hs
    exact readWhile_kept hkept fuel (ListOperation.SameFields.refl op start)
  · intro fuel before result after houtcomes hlast
    refine @readWhile_stops _ _ _ _ _
      (fun outcome => exists r, outcome = .ok r ∧ op.traits.isTruncated r = false)
      (fun s hstop => ?_) _ _ _ _ _ houtcomes ⟨result, rfl, hlast⟩
    rcases hstop with ⟨r, hok, htruncated⟩
    exact nextPage_last hok htruncated
  · intro p w e hfailed
    exact (nextPage_error hfailed).1

/-- Where all pages can be read, the common prefixes of uploads are missed. -/
theorem ServesListing.ownEntries (hserves : ServesListing c service start target)
    {w : Runtime σ} {results : List (ListResult op.Body)}
    (hresults : (allPages c op start options service.pages.length w).1 = results.map .ok)
    (henumerates : Enumerates c service start options w) : HasOwnEntries service := by
  intro hop page hpage entry hentry hkind
  have hwhole := (henumerates.whole _ (Nat.le_refl _)).2 results hresults .commonPrefix
  rcases hserves.readsPages.read service.pages.length (hserves.ahead options w)
    service.some_page with ⟨others, hpages, _⟩
  have hunread : op.reads .commonPrefix = false := by
    rw [hop]
    rfl
  rw [hpages.results_eq hresults, yielded_unread hpages.shows hunread] at hwhole
  have hmem : entry ∈ service.pages.flatten.filter (·.kind == .commonPrefix) :=
    List.mem_filter.mpr
      ⟨List.mem_flatten.mpr ⟨page, hpage, hentry⟩, beq_iff_eq.mpr hkind⟩
  rw [← hwhole] at hmem
  cases hmem

end Served

/-!
# Uploads below a delimiter

The first page has an upload, the second a common prefix.
-/

def leaf (name text : String) : XMLElement := .element (bytes name) (some (bytes text)) []

/-- The text of an element. -/
def markup (name : String) (content : ByteString) : ByteString :=
  bytes "<" ++ bytes name ++ bytes ">" ++ content ++ bytes "</" ++ bytes name ++ bytes ">"

def uploadText : ByteString :=
  markup "ListMultipartUploadsResult"
    (markup "IsTruncated" (bytes "true") ++ markup "EncodingType" (bytes "url") ++
      markup "NextKeyMarker" (bytes "a%20b") ++ markup "NextUploadIdMarker" (bytes "U1") ++
      markup "Upload" (markup "Key" (bytes "a%20b") ++ markup "UploadId" (bytes "U1")))

def uploadDocument : XMLElement :=
  .element (bytes "ListMultipartUploadsResult") none
    [leaf "IsTruncated" "true", leaf "EncodingType" "url", leaf "NextKeyMarker" "a%20b",
      leaf "NextUploadIdMarker" "U1",
      .element (bytes "Upload") none [leaf "Key" "a%20b", leaf "UploadId" "U1"]]

def rolledUpText : ByteString :=
  markup "ListMultipartUploadsResult"
    (markup "EncodingType" (bytes "url") ++ markup "IsTruncated" (bytes "false") ++
      markup "CommonPrefixes" (markup "Prefix" (bytes "c%2F")))

def rolledUpDocument : XMLElement :=
  .element (bytes "ListMultipartUploadsResult") none
    [leaf "EncodingType" "url", leaf "IsTruncated" "false",
      .element (bytes "CommonPrefixes") none [leaf "Prefix" "c%2F"]]

def uploadsService : ListingService .ListMultipartUploads where
  pages :=
    [[.upload ⟨bytes "a b", bytes "U1", []⟩], [.commonPrefix ⟨bytes "c/"⟩]]
  position markers := if markers = [some (bytes "a b"), some (bytes "U1")] then 1 else 0
  some_page := List.cons_ne_nil _ _
  lists := by decide

/-- The parser, on the two texts. -/
def parseUploads (str : ByteString) : XMLDocument :=
  if str = uploadText then .parsed (some uploadDocument)
  else if str = rolledUpText then .parsed (some rolledUpDocument)
  else .error 13 (bytes "XML_ERROR_EMPTY_DOCUMENT")

def uploadsClient : OSSClient Unit where
  client :=
    { anonymousBase Unit with
      httpTransport := ⟨fun request _ env =>
        (.response ⟨200, bytes "OK", SortedMap.empty,
          some (if uploadsService.position (ListOperation.asked .ListMultipartUploads
            (parameterOf request.uri)) = 0 then uploadText else rolledUpText)⟩,
          request, env)⟩
      disableState := ⟨fun _ => false, fun _ env => (false, env)⟩ }
  Parse := parseUploads

def listUploads : ListRequest where
  headers := SortedMap.empty
  parameters := SortedMap.empty.emplace (bytes "delimiter") (bytes "/")
  bucket := bytes "bucket"
  key := []

def uploadsTarget : ByteString := bytes "https://bucket.oss-cn-hangzhou.aliyuncs.com/"

theorem writesName_urlEncode (name : ByteString) : WritesName true name (UrlEncode name) :=
  urlEncode_percentEncoded name false

theorem parse_uploads : uploadsClient.Parse = parseUploads := rfl

theorem parse_uploadText :
    uploadsClient.Parse uploadText = .parsed (some uploadDocument) := by
  rw [parse_uploads, parseUploads, if_pos rfl]

theorem parse_rolledUpText :
    uploadsClient.Parse rolledUpText = .parsed (some rolledUpDocument) := by
  have hother : rolledUpText ≠ uploadText := by decide +kernel
  rw [parse_uploads, parseUploads, if_neg hother, if_pos rfl]

theorem hasPage_upload : HasPage uploadsClient uploadsService true 0
    [.upload ⟨bytes "a b", bytes "U1", []⟩] (some uploadText) := by
  have hname : WritesName true (bytes "a b") (bytes "a%20b") :=
    writesName_urlEncode (bytes "a b")
  refine ⟨uploadText, uploadDocument, rfl, parse_uploadText, rfl, ⟨?_, ?_, ?_⟩,
    fun _ => ?_⟩
  · exact ⟨bytes "url", rfl, fun _ => rfl, fun _ => rfl⟩
  · exact ⟨some true, ⟨true, rfl, rfl⟩, rfl⟩
  · intro kind hlists
    cases kind with
    | upload =>
        exact List.Forall₂.cons ⟨⟨bytes "a%20b", rfl, hname⟩, rfl, rfl⟩ List.Forall₂.nil
    | commonPrefix => exact List.Forall₂.nil
    | bucket => cases hlists
    | object => cases hlists
    | version => cases hlists
    | deleteMarker => cases hlists
    | part => cases hlists
  · refine ⟨[bytes "a b", bytes "U1"], ?_, by decide +kernel⟩
    exact List.Forall₂.cons ⟨bytes "a%20b", rfl, hname⟩
      (List.Forall₂.cons rfl List.Forall₂.nil)

theorem hasPage_rolledUp : HasPage uploadsClient uploadsService true 1
    [.commonPrefix ⟨bytes "c/"⟩] (some rolledUpText) := by
  have hname : WritesName true (bytes "c/") (bytes "c%2F") :=
    writesName_urlEncode (bytes "c/")
  refine ⟨rolledUpText, rolledUpDocument, rfl, parse_rolledUpText, rfl, ⟨?_, ?_, ?_⟩,
    fun hmore => ?_⟩
  · exact ⟨bytes "url", rfl, fun _ => rfl, fun _ => rfl⟩
  · exact ⟨some false, ⟨false, rfl, rfl⟩, rfl⟩
  · intro kind hlists
    cases kind with
    | upload => exact List.Forall₂.nil
    | commonPrefix =>
        exact List.Forall₂.cons ⟨bytes "c%2F", rfl, hname⟩ List.Forall₂.nil
    | bucket => cases hlists
    | object => cases hlists
    | version => cases hlists
    | deleteMarker => cases hlists
    | part => cases hlists
  · exact absurd hmore (by decide)

theorem uploads_served :
    ServesListing uploadsClient uploadsService listUploads uploadsTarget := by
  constructor
  · decide +kernel
  · intro request url hsame hurl
    rcases request with ⟨headers, parameters, bucket, key⟩
    have hbucket : bucket = bytes "bucket" := hsame.bucket
    rw [hbucket] at hurl
    exact (Option.some.inj hurl).symm
  · decide +kernel
  · intro uri
    exact ⟨fun _ _ _ hkept => hkept, fun _ _ _ hkept => hkept⟩
  · intro request options env response after hsend hquestion hsink
    have hurl : (parameterOf request.uri (bytes "encoding-type") == some (bytes "url")) =
        true := by
      rw [hquestion.parameters _ (by decide) (by decide)]
      decide
    have hresponse := ResponseResult.response.inj (congrArg Prod.fst hsend)
    rw [← hresponse, hurl]
    have hstatus : (200 : Int) ≠ 0 := by decide
    refine ⟨hstatus, fun _ page hpage => ?_⟩
    simp only
    by_cases hthere : ListOperation.asked .ListMultipartUploads (parameterOf request.uri) =
        [some (bytes "a b"), some (bytes "U1")]
    · have hone : uploadsService.position (ListOperation.asked .ListMultipartUploads
          (parameterOf request.uri)) = 1 := if_pos hthere
      rw [hone] at hpage ⊢
      cases hpage
      exact hasPage_rolledUp
    · have hzero : uploadsService.position (ListOperation.asked .ListMultipartUploads
          (parameterOf request.uri)) = 0 := if_neg hthere
      rw [hzero] at hpage ⊢
      cases hpage
      exact hasPage_upload

theorem uploads_read : exists (w : Runtime Unit)
    (results : List (ListResult (ListOperation.Body .ListMultipartUploads))),
    (allPages uploadsClient .ListMultipartUploads listUploads ⟨none, none⟩
      uploadsService.pages.length w).1 = results.map .ok :=
  ⟨⟨0, ()⟩, exists_results (by decide +kernel)⟩

end Client
end OssSdk
