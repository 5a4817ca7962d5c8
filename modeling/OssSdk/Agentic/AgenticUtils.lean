import OssSdk.Internal.RequestPath

/-!
# The endpoint provider of agentic clients

The provider builds the URL of a request itself, with the address style that the
client was configured with.  The client may use another style in the end.
-/

namespace OssSdk
namespace Agentic

open Foundation
open Internal
open Utils

variable {σ : Type}

def kMaxHostLabelLength : Nat := 63

def kAliasToken : ByteString := bytes "alias"

/-- The suffix carries its own leading dash. -/
def buildAliasLabel (bucket suffix : ByteString) : ByteString :=
  bucket ++ bytes "-" ++ kAliasToken ++ suffix

def physicalName (accountId region suffix bucket : ByteString) : ByteString :=
  bucket ++ bytes "-" ++ accountId ++ bytes "-" ++ region ++ suffix

def buildName (accountId region suffix : ByteString) (input : OperationInput σ) :
    ByteString :=
  match input.bucket with
  | none => []
  | some bucket => physicalName accountId region suffix bucket

/-- The URL, or an error with its message. -/
def endpointProvider (accountId region suffix scheme authority : ByteString)
    (addressStyle : AddressStyleType) (input : OperationInput σ) :
    ByteString × ErrorCode × ByteString :=
  let fail (code : ClientErrorCode) (message : ByteString) :=
    (([] : ByteString), ErrorCode.client code, message)
  let tooLong :=
    fail .HostLabelTooLong
      (bytes "the host label exceeds the maximum length of 63 characters")
  let keyPaths :=
    match input.key with
    | some key => [UrlEncodePath key]
    | none => []
  let url (host : ByteString) (paths : List ByteString) :=
    (scheme ++ bytes "://" ++ host ++ bytes "/" ++
      StringJoin (bytes "/") (paths ++ keyPaths), ErrorCode.none, ([] : ByteString))
  match input.bucket with
  | none => url authority []
  | some bucket =>
      if accountId.isEmpty then fail .AccountIdNull (bytes "account id is null")
      else if region.isEmpty then
        fail .EndpointRegionNull (bytes "endpoint region is null")
      else
        let name := buildName accountId region suffix input
        match addressStyle with
        | .Path => url authority (name :: if input.key.isNone then [[]] else [])
        | .VirtualHostedAlias =>
            let label := buildAliasLabel bucket suffix
            if kMaxHostLabelLength < label.length then tooLong
            else url (label ++ bytes "." ++ authority) []
        | _ =>
            if kMaxHostLabelLength < name.length then tooLong
            else url (name ++ bytes "." ++ authority) []

def makeAgenticOptionsFns (accountId region suffix : ByteString) :
    List (ClientOptionsFn σ) :=
  [fun endpoint opts =>
    let url := Url.fromString endpoint
    { opts with
      bucketNameResolver := some (buildName accountId region suffix)
      endpointProvider :=
        some (endpointProvider accountId region suffix url.scheme url.authority
          opts.addressStyle) }]

/-!
# What the provider builds
-/

/-- The name that the builder of plain clients is to use for the bucket. -/
def addressedName (accountId region suffix : ByteString)
    (addressStyle : AddressStyleType) (bucket : ByteString) : ByteString :=
  match addressStyle with
  | .VirtualHostedAlias => buildAliasLabel bucket suffix
  | _ => physicalName accountId region suffix bucket

/-- The provider has no branch for custom domains. -/
def providerStyle (addressStyle : AddressStyleType) : AddressStyleType :=
  match addressStyle with
  | .CName => .VirtualHosted
  | style => style

/-- The provider has a URL for the bucket. -/
structure Provides (accountId region suffix : ByteString)
    (addressStyle : AddressStyleType) (bucket : ByteString) : Prop where
  accountId_ne_nil : accountId ≠ []
  region_ne_nil : region ≠ []
  short : addressStyle ≠ .Path ->
    (addressedName accountId region suffix addressStyle bucket).length ≤
      kMaxHostLabelLength

section provider

variable {accountId region suffix scheme authority : ByteString}
variable {addressStyle : AddressStyleType} {input : OperationInput σ}

/-- A host with the path of a key. -/
theorem join_key (host : ByteString) (key : Option ByteString) :
    scheme ++ bytes "://" ++ host ++ bytes "/" ++
        StringJoin (bytes "/")
          ([] ++ match key with
            | some key => [UrlEncodePath key]
            | none => []) =
      scheme ++ bytes "://" ++ (host ++ bytes "/" ++ UrlEncodePath (key.getD [])) := by
  cases key with
  | none =>
      simp only [List.append_assoc]
      rfl
  | some key =>
      simp only [List.append_assoc]
      rfl

theorem endpointProvider_none (hbucket : input.bucket = none)
    (style : AddressStyleType) :
    endpointProvider accountId region suffix scheme authority addressStyle input =
      (scheme ++ bytes "://" ++ buildHostPath input authority style,
        ErrorCode.none, []) := by
  unfold endpointProvider
  rw [buildHostPath_eq, hbucket]
  exact congrArg (fun url => (url, ErrorCode.none, [])) (join_key authority input.key)

theorem buildName_some {bucket : ByteString} (hbucket : input.bucket = some bucket) :
    buildName accountId region suffix input =
      physicalName accountId region suffix bucket := by
  unfold buildName
  rw [hbucket]

theorem endpointProvider_some {bucket : ByteString} (hbucket : input.bucket = some bucket)
    (hprovides : Provides accountId region suffix addressStyle bucket) :
    endpointProvider accountId region suffix scheme authority addressStyle input =
      (scheme ++ bytes "://" ++
        buildHostPath
          { input with
            bucket := some (addressedName accountId region suffix addressStyle bucket) }
          authority (providerStyle addressStyle), ErrorCode.none, []) := by
  have hid := List.isEmpty_eq_false_iff.mpr hprovides.accountId_ne_nil
  have hregion := List.isEmpty_eq_false_iff.mpr hprovides.region_ne_nil
  have hshort := hprovides.short
  rw [buildHostPath_eq]
  unfold endpointProvider
  rw [buildName_some hbucket, hbucket, hid, hregion]
  simp only [if_neg Bool.false_ne_true]
  cases addressStyle with
  | Path =>
      cases input.key with
      | none =>
          simp only [List.append_assoc]
          rfl
      | some key =>
          simp only [List.append_assoc]
          rfl
  | VirtualHostedAlias =>
      have hnot := Nat.not_lt.mpr (hshort AddressStyleType.noConfusion)
      refine (if_neg hnot).trans ?_
      exact congrArg (fun url => (url, ErrorCode.none, []))
        (join_key (buildAliasLabel bucket suffix ++ bytes "." ++ authority)
          input.key)
  | VirtualHosted =>
      have hnot := Nat.not_lt.mpr (hshort AddressStyleType.noConfusion)
      refine (if_neg hnot).trans ?_
      exact congrArg (fun url => (url, ErrorCode.none, []))
        (join_key (physicalName accountId region suffix bucket ++ bytes "." ++ authority)
          input.key)
  | CName =>
      have hnot := Nat.not_lt.mpr (hshort AddressStyleType.noConfusion)
      refine (if_neg hnot).trans ?_
      exact congrArg (fun url => (url, ErrorCode.none, []))
        (join_key (physicalName accountId region suffix bucket ++ bytes "." ++ authority)
          input.key)

theorem endpointProvider_error {bucket : ByteString} (hbucket : input.bucket = some bucket)
    (hprovides : ¬ Provides accountId region suffix addressStyle bucket) :
    (endpointProvider accountId region suffix scheme authority addressStyle
      input).2.1.isError = true := by
  unfold endpointProvider
  rw [buildName_some hbucket, hbucket]
  simp only
  split
  · rfl
  · rename_i hid
    split
    · rfl
    · rename_i hregion
      have hlong : addressStyle ≠ .Path ∧ kMaxHostLabelLength <
          (addressedName accountId region suffix addressStyle bucket).length := by
        by_contra hnot
        refine hprovides ⟨fun h => hid (List.isEmpty_iff.mpr h),
          fun h => hregion (List.isEmpty_iff.mpr h), fun hstyle => ?_⟩
        exact Nat.not_lt.mp fun hlt => hnot ⟨hstyle, hlt⟩
      cases addressStyle with
      | Path => exact absurd rfl hlong.1
      | VirtualHostedAlias =>
          exact congrArg
            (fun result : ByteString × ErrorCode × ByteString => result.2.1.isError)
            (if_pos hlong.2)
      | VirtualHosted =>
          exact congrArg
            (fun result : ByteString × ErrorCode × ByteString => result.2.1.isError)
            (if_pos hlong.2)
      | CName =>
          exact congrArg
            (fun result : ByteString × ErrorCode × ByteString => result.2.1.isError)
            (if_pos hlong.2)

end provider

/-!
# Agreement with the builder of plain clients
-/

/--
A URL of the provider is the one that the plain builder makes with the style that the
client uses in the end; it contacts that builder's host, and its path names the
resource of the resolved name.
-/
structure AgreesWithHostPath (client : ClientImplBase σ) (addressed : Option ByteString)
    (signed : Option ByteString) (input : OperationInput σ) (url : ByteString) :
    Prop where
  built : url = client.innerOptions.endpointScheme ++ bytes "://" ++
    buildHostPath { input with bucket := addressed }
      client.innerOptions.endpointAuthority client.options.addressStyle
  contacted : (urlParts url).authorityPart =
    hostOf addressed client.innerOptions.endpointAuthority client.options.addressStyle
  named : NamesResource client.options.addressStyle (signed.map UrlEncodePath) input.key
    (urlParts url).pathPart
    (UrlEncodePath (Signer.V4.toResource (signed.getD []) (input.key.getD [])))

/-- Whatever the provider of an agentic client returns without an error agrees. -/
def ProviderAgrees (c : ClientImplBase σ)
    (endpoint accountId region suffix : ByteString) (input : OperationInput σ) : Prop :=
  let client := c.init endpoint (makeAgenticOptionsFns accountId region suffix)
  forall provider resolver,
    client.options.endpointProvider = some provider ->
    client.options.bucketNameResolver = some resolver ->
    forall url ec message, provider input = (url, ec, message) -> ec.isError = false ->
      AgreesWithHostPath client
        (input.bucket.map
          (addressedName accountId region suffix client.options.addressStyle))
        (input.bucket.map fun _ => resolver input) input url

/-- Where the provider and the plain builder use one style, and its names need no care. -/
def SameStyle (addressStyle : AddressStyleType) (pathHost : Bool)
    (accountId region suffix bucket : ByteString) : Prop :=
  match addressStyle with
  | .Path =>
      UrlEncodePath (physicalName accountId region suffix bucket) =
        physicalName accountId region suffix bucket
  | .CName => False
  | style =>
      pathHost = false ∧
        Undelimited (addressedName accountId region suffix style bucket)

section agreement

variable {c : ClientImplBase σ} {endpoint accountId region suffix : ByteString}

theorem init_agentic (c : ClientImplBase σ)
    (endpoint accountId region suffix : ByteString) :
    let client := c.init endpoint (makeAgenticOptionsFns accountId region suffix)
    let url := Url.fromString endpoint
    client.options.endpointProvider =
        some (endpointProvider accountId region suffix url.scheme url.authority
          c.options.addressStyle) ∧
      client.options.bucketNameResolver = some (buildName accountId region suffix) ∧
      client.innerOptions.endpointScheme = url.scheme ∧
      client.innerOptions.endpointAuthority = url.authority ∧
      client.options.addressStyle =
        if isPathHost url.host then .Path else c.options.addressStyle := by
  unfold ClientImplBase.init makeAgenticOptionsFns
  simp only [List.foldl_cons, List.foldl_nil]
  cases isPathHost (Url.fromString endpoint).host with
  | true => exact ⟨rfl, rfl, trivial, trivial, rfl⟩
  | false => exact ⟨rfl, rfl, trivial, trivial, rfl⟩

/-- Two texts that have a slash more or less are not the same. -/
theorem slashes_of_eq {s t : ByteString} (heq : s = t) : s.count 47 = t.count 47 :=
  congrArg (List.count 47) heq

/-- With another style in the end the two builders never agree. -/
theorem buildHostPath_other {authority bucket : ByteString}
    {addressStyle : AddressStyleType} (hstyle : addressStyle ≠ .Path)
    (input : OperationInput σ) :
    buildHostPath
        { input with
          bucket := some (addressedName accountId region suffix addressStyle bucket) }
        authority (providerStyle addressStyle) ≠
      buildHostPath
        { input with bucket := some (physicalName accountId region suffix bucket) }
        authority .Path := by
  rw [buildHostPath_eq, buildHostPath_eq]
  intro heq
  have hcount := slashes_of_eq heq
  have hphysical : (addressedName accountId region suffix addressStyle bucket).count 47 ≤
      (physicalName accountId region suffix bucket).count 47 := by
    cases addressStyle with
    | VirtualHostedAlias =>
        change (buildAliasLabel bucket suffix).count 47 ≤ _
        unfold buildAliasLabel physicalName
        simp only [List.count_append]
        have hdash : (bytes "-").count 47 = 0 := by decide
        have halias : kAliasToken.count 47 = 0 := by decide
        omega
    | VirtualHosted => exact Nat.le_refl _
    | CName => exact Nat.le_refl _
    | Path => exact absurd rfl hstyle
  have hslash : (bytes "/").count 47 = 1 := by decide
  have hdot : (bytes ".").count 47 = 0 := by decide
  have hhost : hostOf
      (some (addressedName accountId region suffix addressStyle bucket)) authority
        (providerStyle addressStyle) =
      addressedName accountId region suffix addressStyle bucket ++ bytes "." ++
        authority := by
    cases addressStyle with
    | VirtualHostedAlias => rfl
    | VirtualHosted => rfl
    | CName => rfl
    | Path => exact absurd rfl hstyle
  have hpath : pathOf (some (addressedName accountId region suffix addressStyle bucket))
      input.key (providerStyle addressStyle) = UrlEncodePath (input.key.getD []) := by
    cases addressStyle with
    | VirtualHostedAlias => rfl
    | VirtualHosted => rfl
    | CName => rfl
    | Path => exact absurd rfl hstyle
  simp only at hcount
  rw [hhost, hpath] at hcount
  unfold hostOf pathOf bucketPath at hcount
  simp only [List.count_append] at hcount
  omega

/-- What is to be shown of the one provider and the one resolver. -/
theorem providerAgrees_iff (c : ClientImplBase σ)
    (endpoint accountId region suffix : ByteString) (input : OperationInput σ) :
    ProviderAgrees c endpoint accountId region suffix input ↔
      forall url ec message,
        endpointProvider accountId region suffix (Url.fromString endpoint).scheme
            (Url.fromString endpoint).authority c.options.addressStyle input =
          (url, ec, message) ->
        ec.isError = false ->
        AgreesWithHostPath
          (c.init endpoint (makeAgenticOptionsFns accountId region suffix))
          (input.bucket.map (addressedName accountId region suffix
            (c.init endpoint
              (makeAgenticOptionsFns accountId region suffix)).options.addressStyle))
          (input.bucket.map (physicalName accountId region suffix)) input url := by
  have hinit := init_agentic c endpoint accountId region suffix
  have hsigned : (input.bucket.map fun _ => buildName accountId region suffix input) =
      input.bucket.map (physicalName accountId region suffix) := by
    unfold buildName
    cases input.bucket with
    | none => rfl
    | some bucket => rfl
  unfold ProviderAgrees
  constructor
  · intro hagrees url ec message hurl hec
    rw [← hsigned]
    exact hagrees _ _ hinit.1 hinit.2.1 url ec message hurl hec
  · intro hagrees client provider resolver hprovider hresolver url ec message hurl hec
    cases Option.some.inj (hinit.1.symm.trans hprovider)
    cases Option.some.inj (hinit.2.1.symm.trans hresolver)
    rw [hsigned]
    exact hagrees url ec message hurl hec

theorem providerAgrees_none {input : OperationInput σ} (hbucket : input.bucket = none) :
    ProviderAgrees c endpoint accountId region suffix input := by
  rw [providerAgrees_iff]
  intro url ec message hurl _
  rcases init_agentic c endpoint accountId region suffix with
    ⟨_, _, hscheme, hauthority, _⟩
  have hinput : { input with bucket := none } = input := by
    rw [← hbucket]
  rw [endpointProvider_none hbucket
    (c.init endpoint
      (makeAgenticOptionsFns accountId region suffix)).options.addressStyle] at hurl
  cases hurl
  rw [hbucket]
  generalize hclient : c.init endpoint (makeAgenticOptionsFns accountId region suffix) =
    client at hscheme hauthority
  have hparts : urlParts ((Url.fromString endpoint).scheme ++ bytes "://" ++
      buildHostPath input (Url.fromString endpoint).authority
        client.options.addressStyle) =
        ⟨(Url.fromString endpoint).scheme, (Url.fromString endpoint).authority,
          bytes "/" ++ UrlEncodePath (input.key.getD []), [], []⟩ := by
    rw [buildHostPath_eq, hbucket]
    exact urlParts_path (Url.isScheme_fromString endpoint)
      (Url.undelimited_fromString endpoint) (mark_not_mem_UrlEncodePath _)
  refine ⟨?_, ?_, ?_⟩
  · rw [hscheme, hauthority]
    exact congrArg (fun input => (Url.fromString endpoint).scheme ++ bytes "://" ++
      buildHostPath input (Url.fromString endpoint).authority
        client.options.addressStyle) hinput.symm
  · rw [hparts, hauthority]
    rfl
  · rw [hparts]
    exact @namesResource_pathOf none rfl input.key _

theorem physicalName_ne_nil (accountId region suffix bucket : ByteString) :
    physicalName accountId region suffix bucket ≠ [] := by
  unfold physicalName
  simp [bytes]

example : physicalName (bytes "12") (bytes "cn-hangzhou") (bytes "-bot") (bytes "logs") =
    bytes "logs-12-cn-hangzhou-bot" := by decide +kernel

/-- A path names the resource if its bucket can stand there as it is. -/
theorem namesResource_path_iff {scheme authority name : ByteString}
    (hscheme : IsScheme scheme) (hauthority : Undelimited authority) (hname : name ≠ [])
    (key : Option ByteString) :
    NamesResource .Path (some (UrlEncodePath name)) key
        (urlParts (scheme ++ bytes "://" ++ (authority ++ bytes "/" ++
          pathOf (some name) key .Path))).pathPart
        (UrlEncodePath (Signer.V4.toResource name (key.getD []))) ↔
      UrlEncodePath name = name := by
  have hpath := (urlParts_cut hscheme hauthority (pathOf (some name) key .Path)).2
  rw [hpath]
  change bytes "/" ++ _ = UrlEncodePath (Signer.resourcePath name (key.getD [])) ↔ _
  rw [UrlEncodePath_resource hname, List.append_assoc]
  change bytes "/" ++ before 63 (before 35 (name ++ bytes "/" ++
    UrlEncodePath (key.getD []))) = _ ↔ _
  constructor
  · intro hsame
    have htail := List.append_cancel_left hsame
    have hshort : (before 63 (before 35 (name ++ bytes "/" ++
        UrlEncodePath (key.getD [])))).length ≤
          (name ++ bytes "/" ++ UrlEncodePath (key.getD [])).length :=
      Nat.le_trans (List.takeWhile_prefix _).length_le
        (List.takeWhile_prefix _).length_le
    rw [htail] at hshort
    simp only [List.length_append] at hshort
    exact length_UrlEncodePath_le (by omega)
  · intro hclean
    have hmarks := mark_not_mem_UrlEncodePath (name ++ bytes "/" ++ key.getD [])
    rw [UrlEncodePath_append, UrlEncodePath_append, hclean] at hmarks
    have hslash : UrlEncodePath (bytes "/") = bytes "/" := rfl
    rw [hslash] at hmarks
    rw [before_eq_self hmarks.1, before_eq_self hmarks.2, hclean, List.append_assoc]

theorem undelimited_label {label authority : ByteString} (hlabel : Undelimited label)
    (hauthority : Undelimited authority) :
    Undelimited (label ++ bytes "." ++ authority) := by
  refine ⟨?_, ?_, ?_⟩
  · simp only [List.mem_append, not_or]
    exact ⟨⟨hlabel.fragment, by decide⟩, hauthority.fragment⟩
  · simp only [List.mem_append, not_or]
    exact ⟨⟨hlabel.query, by decide⟩, hauthority.query⟩
  · simp only [List.mem_append, not_or]
    exact ⟨⟨hlabel.path, by decide⟩, hauthority.path⟩

/-- A host with a label in front is the host of the URL if the label has no delimiter. -/
theorem contacted_iff {scheme authority label : ByteString} (hscheme : IsScheme scheme)
    (hauthority : Undelimited authority) (key : Option ByteString) :
    (urlParts (scheme ++ bytes "://" ++ (label ++ bytes "." ++ authority ++ bytes "/" ++
        UrlEncodePath (key.getD [])))).authorityPart = label ++ bytes "." ++ authority ↔
      Undelimited label := by
  constructor
  · intro hcontacted
    have hall := undelimited_authorityPart (scheme ++ bytes "://" ++
      (label ++ bytes "." ++ authority ++ bytes "/" ++ UrlEncodePath (key.getD [])))
    rw [hcontacted, List.append_assoc] at hall
    exact ⟨fun hmem => hall.fragment (List.mem_append_left _ hmem),
      fun hmem => hall.query (List.mem_append_left _ hmem),
      fun hmem => hall.path (List.mem_append_left _ hmem)⟩
  · intro hlabel
    rw [urlParts_path hscheme (undelimited_label hlabel hauthority)
      (mark_not_mem_UrlEncodePath _)]

/-- The URL that the provider has for a bucket is to agree. -/
theorem providerAgrees_some {input : OperationInput σ} {bucket : ByteString}
    (hbucket : input.bucket = some bucket)
    (hprovides : Provides accountId region suffix c.options.addressStyle bucket) :
    ProviderAgrees c endpoint accountId region suffix input ↔
      AgreesWithHostPath
        (c.init endpoint (makeAgenticOptionsFns accountId region suffix))
        (some (addressedName accountId region suffix
          (c.init endpoint
            (makeAgenticOptionsFns accountId region suffix)).options.addressStyle bucket))
        (some (physicalName accountId region suffix bucket)) input
        ((Url.fromString endpoint).scheme ++ bytes "://" ++
          buildHostPath
            { input with
              bucket :=
                some (addressedName accountId region suffix c.options.addressStyle
                  bucket) }
            (Url.fromString endpoint).authority
            (providerStyle c.options.addressStyle)) := by
  rw [providerAgrees_iff]
  constructor
  · intro hagrees
    have h := hagrees _ _ _ (endpointProvider_some hbucket hprovides) rfl
    rw [hbucket] at h
    exact h
  · intro hagrees url ec message hurl _
    rw [endpointProvider_some hbucket hprovides] at hurl
    cases hurl
    rw [hbucket]
    exact hagrees

theorem providerAgrees_refused {input : OperationInput σ} {bucket : ByteString}
    (hbucket : input.bucket = some bucket)
    (hprovides : ¬ Provides accountId region suffix c.options.addressStyle bucket) :
    ProviderAgrees c endpoint accountId region suffix input := by
  rw [providerAgrees_iff]
  intro url ec message hurl hec
  have herror := @endpointProvider_error _ _ _ _ (Url.fromString endpoint).scheme
      (Url.fromString endpoint).authority _ _ _ hbucket hprovides
  rw [hurl, hec] at herror
  cases herror

/-- In a style with a label in the host, of the client and of the provider. -/
theorem agrees_label_iff {client : ClientImplBase σ} {input : OperationInput σ}
    {label name : ByteString} (hscheme : IsScheme client.innerOptions.endpointScheme)
    (hauthority : Undelimited client.innerOptions.endpointAuthority)
    (hname : name ≠ [])
    (hstyle : client.options.addressStyle = .VirtualHosted ∨
      client.options.addressStyle = .VirtualHostedAlias) :
    AgreesWithHostPath client (some label) (some name) input
        (client.innerOptions.endpointScheme ++ bytes "://" ++
          buildHostPath { input with bucket := some label }
            client.innerOptions.endpointAuthority client.options.addressStyle) ↔
      Undelimited label := by
  have hhost : hostOf (some label) client.innerOptions.endpointAuthority
      client.options.addressStyle =
        label ++ bytes "." ++ client.innerOptions.endpointAuthority := by
    rcases hstyle with hstyle | hstyle
    · rw [hstyle]
      rfl
    · rw [hstyle]
      rfl
  have hpath : pathOf (some label) input.key client.options.addressStyle =
      UrlEncodePath (input.key.getD []) := by
    rcases hstyle with hstyle | hstyle
    · rw [hstyle]
      rfl
    · rw [hstyle]
      rfl
  rw [buildHostPath_eq]
  simp only
  rw [hhost, hpath]
  have hcontacted := @contacted_iff _ _ label hscheme hauthority input.key
  constructor
  · intro hagrees
    have h := hagrees.contacted
    rw [hhost] at h
    exact hcontacted.mp h
  · intro hlabel
    have hparts := urlParts_path hscheme (undelimited_label hlabel hauthority)
      (mark_not_mem_UrlEncodePath (input.key.getD []))
    refine ⟨?_, ?_, ?_⟩
    · rw [buildHostPath_eq]
      simp only
      rw [hhost, hpath]
    · rw [hhost]
      exact hcontacted.mpr hlabel
    · have hnamed : bytes "/" ++ UrlEncodePath (input.key.getD []) =
            bytes "/" ++ UrlEncodePath (input.key.getD []) ∧
          UrlEncodePath (Signer.V4.toResource name (input.key.getD [])) =
            bytes "/" ++ UrlEncodePath name ++
              (bytes "/" ++ UrlEncodePath (input.key.getD [])) :=
        ⟨rfl, UrlEncodePath_resource hname _⟩
      rw [hparts]
      rcases hstyle with hstyle | hstyle
      · rw [hstyle]
        exact hnamed
      · rw [hstyle]
        exact hnamed

/-- In path style, of the client and of the provider. -/
theorem agrees_path_iff {client : ClientImplBase σ} {input : OperationInput σ}
    {name : ByteString} (hscheme : IsScheme client.innerOptions.endpointScheme)
    (hauthority : Undelimited client.innerOptions.endpointAuthority)
    (hname : name ≠ []) (hstyle : client.options.addressStyle = .Path) :
    AgreesWithHostPath client (some name) (some name) input
        (client.innerOptions.endpointScheme ++ bytes "://" ++
          buildHostPath { input with bucket := some name }
            client.innerOptions.endpointAuthority .Path) ↔
      UrlEncodePath name = name := by
  have hnamed := namesResource_path_iff hscheme hauthority hname input.key
  rw [buildHostPath_eq]
  constructor
  · intro hagrees
    have h := hagrees.named
    rw [hstyle] at h
    exact hnamed.mp h
  · intro hclean
    refine ⟨?_, ?_, ?_⟩
    · rw [buildHostPath_eq, hstyle]
    · rw [hstyle]
      exact (urlParts_cut hscheme hauthority _).1
    · rw [hstyle]
      exact hnamed.mpr hclean

/-- A custom domain is contacted with a label in front of it. -/
theorem not_agrees_cname {client : ClientImplBase σ} {input : OperationInput σ}
    {name : ByteString} {addressed signed : Option ByteString}
    (hstyle : client.options.addressStyle = .CName) :
    ¬ AgreesWithHostPath client addressed signed input
      (client.innerOptions.endpointScheme ++ bytes "://" ++
        buildHostPath { input with bucket := some name }
          client.innerOptions.endpointAuthority .VirtualHosted) := by
  intro hagrees
  have hbuilt := hagrees.built
  rw [hstyle] at hbuilt
  have hlength := congrArg List.length (List.append_cancel_left hbuilt)
  rw [buildHostPath_eq, buildHostPath_eq] at hlength
  have hhost : hostOf addressed client.innerOptions.endpointAuthority .CName =
      client.innerOptions.endpointAuthority := by
    cases addressed with
    | none => rfl
    | some bucket => rfl
  have hpath : pathOf addressed input.key .CName = UrlEncodePath (input.key.getD []) := by
    cases addressed with
    | none => rfl
    | some bucket => rfl
  have hdot : (bytes ".").length = 1 := rfl
  simp only at hlength
  rw [hhost, hpath] at hlength
  change (name ++ bytes "." ++ client.innerOptions.endpointAuthority ++ bytes "/" ++
    UrlEncodePath (input.key.getD [])).length = _ at hlength
  simp only [List.length_append] at hlength
  omega

theorem providerAgrees_some_iff {input : OperationInput σ} {bucket : ByteString}
    (hbucket : input.bucket = some bucket)
    (hprovides : Provides accountId region suffix c.options.addressStyle bucket) :
    ProviderAgrees c endpoint accountId region suffix input ↔
      SameStyle c.options.addressStyle (isPathHost (Url.fromString endpoint).host)
        accountId region suffix bucket := by
  rw [providerAgrees_some hbucket hprovides]
  rcases init_agentic c endpoint accountId region suffix with
    ⟨_, _, hscheme, hauthority, hfinal⟩
  generalize hclient : c.init endpoint (makeAgenticOptionsFns accountId region suffix) =
    client at hscheme hauthority hfinal
  have hisScheme := Url.isScheme_fromString endpoint
  have hundelimited := Url.undelimited_fromString endpoint
  rw [← hscheme] at hisScheme
  rw [← hauthority] at hundelimited
  rw [← hscheme, ← hauthority]
  have hname := physicalName_ne_nil accountId region suffix bucket
  -- a client that uses path style in the end, where the provider does not
  have hother : c.options.addressStyle ≠ .Path -> client.options.addressStyle = .Path ->
      ¬ AgreesWithHostPath client
        (some (addressedName accountId region suffix client.options.addressStyle bucket))
        (some (physicalName accountId region suffix bucket)) input
        (client.innerOptions.endpointScheme ++ bytes "://" ++
          buildHostPath
            { input with
              bucket :=
                some (addressedName accountId region suffix c.options.addressStyle
                  bucket) }
            client.innerOptions.endpointAuthority
            (providerStyle c.options.addressStyle)) := by
    intro hne hpath hagrees
    have hbuilt := hagrees.built
    rw [hpath] at hbuilt
    exact buildHostPath_other hne input (List.append_cancel_left hbuilt)
  cases hstyle : c.options.addressStyle with
  | Path =>
      rw [hstyle] at hfinal
      have hpath : client.options.addressStyle = .Path := hfinal.trans (ite_self _)
      rw [hpath]
      exact agrees_path_iff hisScheme hundelimited hname hpath
  | CName =>
      rw [hstyle] at hother hfinal
      refine iff_of_false ?_ id
      cases hpathHost : isPathHost (Url.fromString endpoint).host with
      | true =>
          rw [hpathHost, if_pos rfl] at hfinal
          exact hother AddressStyleType.noConfusion hfinal
      | false =>
          rw [hpathHost, if_neg Bool.false_ne_true] at hfinal
          exact not_agrees_cname hfinal
  | VirtualHosted =>
      rw [hstyle] at hother hfinal
      cases hpathHost : isPathHost (Url.fromString endpoint).host with
      | true =>
          rw [hpathHost, if_pos rfl] at hfinal
          exact iff_of_false (hother AddressStyleType.noConfusion hfinal)
            fun hsame => Bool.noConfusion hsame.1
      | false =>
          rw [hpathHost, if_neg Bool.false_ne_true] at hfinal
          have hiff := @agrees_label_iff _ _ input
              (addressedName accountId region suffix .VirtualHosted bucket) _
              hisScheme hundelimited hname (Or.inl hfinal)
          rw [hfinal] at hiff ⊢
          exact hiff.trans ⟨fun h => ⟨rfl, h⟩, fun h => h.2⟩
  | VirtualHostedAlias =>
      rw [hstyle] at hother hfinal
      cases hpathHost : isPathHost (Url.fromString endpoint).host with
      | true =>
          rw [hpathHost, if_pos rfl] at hfinal
          exact iff_of_false (hother AddressStyleType.noConfusion hfinal)
            fun hsame => Bool.noConfusion hsame.1
      | false =>
          rw [hpathHost, if_neg Bool.false_ne_true] at hfinal
          have hiff := @agrees_label_iff _ _ input
              (addressedName accountId region suffix .VirtualHostedAlias bucket) _
              hisScheme hundelimited hname (Or.inr hfinal)
          rw [hfinal] at hiff ⊢
          exact hiff.trans ⟨fun h => ⟨rfl, h⟩, fun h => h.2⟩

/--
The provider agrees with the plain builder exactly where it has nothing to say about
the bucket, or where neither a custom domain nor an address is the endpoint and the
names can stand in a URL as they are.
-/
theorem providerAgrees_all_iff (c : ClientImplBase σ)
    (endpoint accountId region suffix : ByteString) (input : OperationInput σ) :
    ProviderAgrees c endpoint accountId region suffix input ↔
      forall bucket, input.bucket = some bucket ->
        Provides accountId region suffix c.options.addressStyle bucket ->
        SameStyle c.options.addressStyle (isPathHost (Url.fromString endpoint).host)
          accountId region suffix bucket := by
  cases hbucket : input.bucket with
  | none =>
      refine iff_of_true (providerAgrees_none hbucket) ?_
      intro bucket hsome
      cases hsome
  | some bucket =>
      constructor
      · intro hagrees other hother hprovides
        cases hother
        exact (providerAgrees_some_iff hbucket hprovides).mp hagrees
      · intro hall
        by_cases hprovides :
            Provides accountId region suffix c.options.addressStyle bucket
        · exact (providerAgrees_some_iff hbucket hprovides).mpr (hall bucket rfl hprovides)
        · exact providerAgrees_refused hbucket hprovides

end agreement

/-!
# An address as the endpoint
-/

def customDomainBase : ClientImplBase Unit :=
  { anonymousBase Unit with
    options := { (anonymousBase Unit).options with addressStyle := .CName } }

/-- An address gets the bucket in front of it, and so does a custom domain. -/
theorem not_providerAgrees_headObject :
    ¬ ProviderAgrees (anonymousBase Unit) (bytes "http://127.0.0.1") (bytes "1234567890")
        (bytes "cn-hangzhou") (bytes "-ab-apsr") (headObjectInput Unit) ∧
      ¬ ProviderAgrees customDomainBase (bytes "https://static.example.com")
        (bytes "1234567890") (bytes "cn-hangzhou") (bytes "-ab-apsr")
        (headObjectInput Unit) := by
  have hprovides : forall style, style = .VirtualHosted ∨ style = .CName ->
      Provides (bytes "1234567890") (bytes "cn-hangzhou") (bytes "-ab-apsr") style
        (bytes "bucket") := by
    intro style hstyle
    rcases hstyle with rfl | rfl
    · exact ⟨by decide, by decide, fun _ => by decide⟩
    · exact ⟨by decide, by decide, fun _ => by decide⟩
  constructor
  · intro hagrees
    have hsame := (providerAgrees_some_iff rfl (hprovides _ (Or.inl rfl))).mp hagrees
    exact absurd hsame.1 (by decide +kernel)
  · intro hagrees
    exact (providerAgrees_some_iff rfl (hprovides _ (Or.inr rfl))).mp hagrees

end Agentic
end OssSdk
