import OssSdk.Foundation.Decimal
import OssSdk.Foundation.Pieces
import OssSdk.Utils.StringUtils

/-!
# The URL of an endpoint

An endpoint is cut into its parts, of which a client keeps the scheme and the
authority.  What it builds from them is cut into the same parts again.
-/

namespace OssSdk
namespace Internal

open Foundation
open Utils

/-- The text before the first `://`, and the text after it. -/
def splitScheme : ByteString -> Option (ByteString × ByteString)
  | [] => none
  | 58 :: 47 :: 47 :: str => some ([], str)
  | c :: str => (splitScheme str).map fun split => (c :: split.1, split.2)

structure UrlParts where
  schemePart : ByteString
  authorityPart : ByteString
  pathPart : ByteString
  queryPart : ByteString
  fragmentPart : ByteString
deriving DecidableEq

/-- `str` is cut from its end, the fragment first. -/
def urlParts (url : ByteString) : UrlParts :=
  let (schemePart, str) := (splitScheme url).getD ([], url)
  let fragmentPart := after 35 str
  let str := before 35 str
  let queryPart := after 63 str
  let str := before 63 str
  let pathPart := str.dropWhile (· != 47)
  { schemePart := schemePart
    authorityPart := before 47 str
    pathPart := if pathPart.isEmpty then bytes "/" else pathPart
    queryPart := queryPart
    fragmentPart := fragmentPart }

def INVALID_PORT : Int := 1

/-- `atoi`, which reads a `long` and keeps its low bits. -/
def atoi (str : ByteString) : Int :=
  let digits := str.dropWhile isspace
  let value : Int :=
    match digits with
    | 45 :: rest => -(ofDecimal (rest.takeWhile isDigit) : Int)
    | 43 :: rest => ofDecimal (rest.takeWhile isDigit)
    | rest => ofDecimal (rest.takeWhile isDigit)
  (BitVec.ofInt 32 (max (-2 ^ 63) (min (2 ^ 63 - 1) value))).toInt

structure Url where
  scheme : ByteString
  userName : ByteString
  password : ByteString
  host : ByteString
  path : ByteString
  port : Int
  query : ByteString
  fragment : ByteString

namespace Url

def clear : Url := ⟨[], [], [], [], [], INVALID_PORT, [], []⟩

def isEmpty (url : Url) : Bool :=
  url.scheme.isEmpty && url.userName.isEmpty && url.password.isEmpty &&
    url.host.isEmpty && url.path.isEmpty && url.port == INVALID_PORT &&
    url.query.isEmpty && url.fragment.isEmpty

def isValid (url : Url) : Bool :=
  if url.isEmpty then false
  else if url.host.isEmpty then false
  else if url.userName.isEmpty then url.password.isEmpty
  else true

def userInfo (url : Url) : ByteString :=
  if !url.isValid then []
  else url.userName ++ if url.password.isEmpty then [] else bytes ":" ++ url.password

def authority (url : Url) : ByteString :=
  if !url.isValid then []
  else
    (if url.userInfo.isEmpty then [] else url.userInfo ++ bytes "@") ++ url.host ++
      if url.port = INVALID_PORT then [] else bytes ":" ++ toDecimalInt url.port

def setScheme (url : Url) (scheme : ByteString) : Url :=
  { url with scheme := scheme.map toLowerByte }

def setHost (url : Url) (host : ByteString) : Url :=
  { url with host := host.map toLowerByte }

/-- Without a colon the password stays as it is. -/
def setUserInfo (url : Url) (userInfo : ByteString) : Url :=
  if userInfo.isEmpty then { url with userName := [], password := [] }
  else if userInfo.contains 58 then
    { url with userName := before 58 userInfo, password := after 58 userInfo }
  else { url with userName := userInfo }

def setAuthority (url : Url) (authority : ByteString) : Url :=
  if authority.isEmpty then
    { (url.setUserInfo []).setHost [] with port := INVALID_PORT }
  else
    let userinfoPart := if authority.contains 64 then before 64 authority else []
    let hostport := if authority.contains 64 then after 64 authority else authority
    let portPart := after 58 hostport
    let portVal := if portPart.isEmpty then INVALID_PORT else atoi portPart
    { (url.setUserInfo userinfoPart).setHost (before 58 hostport) with
      port := if portVal ≤ 0 then INVALID_PORT else portVal }

def fromString (url : ByteString) : Url :=
  if url.isEmpty then clear
  else
    let parts := urlParts url
    { (clear.setScheme parts.schemePart).setAuthority parts.authorityPart with
      path := parts.pathPart
      query := parts.queryPart
      fragment := parts.fragmentPart }

end Url

example : (Url.fromString (bytes "HTTP://u:p@Oss.Com:80/a?b#c")).authority =
    bytes "u:p@oss.com:80" := by decide +kernel

/-!
# Cutting a URL that is made of parts
-/

/-- A text that can stand before `://`. -/
def IsScheme (s : ByteString) : Prop := splitScheme s = none

theorem splitScheme_append {s : ByteString} (hs : IsScheme s) (rest : ByteString) :
    splitScheme (s ++ bytes "://" ++ rest) = some (s, rest) := by
  induction s using splitScheme.induct with
  | case1 => rfl
  | case2 str => cases hs
  | case3 c str hno ih =>
      unfold IsScheme at hs
      rw [splitScheme.eq_3 c str hno, Option.map_eq_none_iff] at hs
      rw [List.cons_append, List.cons_append, splitScheme.eq_3 c _ ?_, ih hs]
      · rfl
      · -- no `://` begins at a colon that was there before
        intro rest' hc heq
        cases str with
        | nil => cases heq
        | cons c' str' =>
            cases str' with
            | nil =>
                injection heq with _ hnext
                cases hnext
            | cons c'' str'' =>
                injection heq with hc' hnext
                injection hnext with hc'' _
                exact hno str'' hc (by rw [hc', hc''])

theorem splitScheme_some {url s rest : ByteString}
    (hsplit : splitScheme url = some (s, rest)) : url = s ++ bytes "://" ++ rest := by
  induction url using splitScheme.induct generalizing s with
  | case1 => cases hsplit
  | case2 str =>
      cases hsplit
      rfl
  | case3 c str hno ih =>
      rw [splitScheme.eq_3 c str hno, Option.map_eq_some_iff] at hsplit
      rcases hsplit with ⟨split, hsplit, heq⟩
      rcases split with ⟨s', rest'⟩
      cases heq
      rw [ih hsplit]
      rfl

theorem isScheme_of_splitScheme {url s rest : ByteString}
    (hsplit : splitScheme url = some (s, rest)) : IsScheme s := by
  induction url using splitScheme.induct generalizing s with
  | case1 => cases hsplit
  | case2 str =>
      cases hsplit
      rfl
  | case3 c str hno ih =>
      rw [splitScheme.eq_3 c str hno, Option.map_eq_some_iff] at hsplit
      rcases hsplit with ⟨split, hsplit, heq⟩
      rcases split with ⟨s', rest'⟩
      cases heq
      have hs' := ih hsplit
      unfold IsScheme
      rw [splitScheme.eq_3 c s' ?_, hs']
      · rfl
      · intro rest'' hc heq
        -- the text itself would begin with `://`
        rw [heq] at hsplit
        exact hno _ hc (splitScheme_some hsplit)

theorem isScheme_map_toLowerByte {s : ByteString} (hs : IsScheme s) :
    IsScheme (s.map toLowerByte) := by
  have hcolon : forall c : UInt8, toLowerByte c = 58 -> c = 58 := fun _ =>
    eq_of_toLowerByte (by decide)
  have hslash : forall c : UInt8, toLowerByte c = 47 -> c = 47 := fun _ =>
    eq_of_toLowerByte (by decide)
  induction s using splitScheme.induct with
  | case1 => rfl
  | case2 str => cases hs
  | case3 c str hno ih =>
      unfold IsScheme at hs ⊢
      rw [splitScheme.eq_3 c str hno, Option.map_eq_none_iff] at hs
      rw [List.map_cons, splitScheme.eq_3 _ _ ?_, ih hs]
      · rfl
      · intro rest hc heq
        rcases List.map_eq_cons_iff.mp heq with ⟨c', str', hstr, hc', hmore⟩
        rcases List.map_eq_cons_iff.mp hmore with ⟨c'', str'', hstr', hc'', _⟩
        refine hno str'' (hcolon c hc) ?_
        rw [hstr, hstr', hslash c' hc', hslash c'' hc'']

/-- None of the bytes that end an authority. -/
structure Undelimited (s : ByteString) : Prop where
  fragment : 35 ∉ s
  query : 63 ∉ s
  path : 47 ∉ s

/-- A URL of these parts is cut into them. -/
theorem urlParts_build {scheme authority path query : ByteString}
    (hscheme : IsScheme scheme) (hauthority : Undelimited authority)
    (hpath : 35 ∉ path ∧ 63 ∉ path) (hquery : 35 ∉ query) :
    urlParts (scheme ++ bytes "://" ++ (authority ++ bytes "/" ++ path ++
        if query.isEmpty then [] else bytes "?" ++ query)) =
      ⟨scheme, authority, bytes "/" ++ path, query, []⟩ := by
  have hfragment : 35 ∉ authority ++ bytes "/" ++ path ++
      if query.isEmpty then [] else bytes "?" ++ query := by
    simp only [List.mem_append, not_or]
    refine ⟨⟨⟨hauthority.fragment, by decide⟩, hpath.1⟩, ?_⟩
    split
    · exact List.not_mem_nil
    · rw [List.mem_append, not_or]
      exact ⟨by decide, hquery⟩
  have hbefore : 63 ∉ authority ++ bytes "/" ++ path := by
    simp only [List.mem_append, not_or]
    exact ⟨⟨hauthority.query, by decide⟩, hpath.2⟩
  have hcut : after 63 (authority ++ bytes "/" ++ path ++
        if query.isEmpty then [] else bytes "?" ++ query) = query ∧
      before 63 (authority ++ bytes "/" ++ path ++
        if query.isEmpty then [] else bytes "?" ++ query) =
          authority ++ bytes "/" ++ path := by
    split
    · rename_i hempty
      rw [List.append_nil, after_eq_nil hbefore, before_eq_self hbefore]
      exact ⟨(List.isEmpty_iff.mp hempty).symm, rfl⟩
    · exact ⟨after_append hbefore query, before_append hbefore query⟩
  have hslash : authority ++ bytes "/" ++ path = authority ++ 47 :: path :=
    List.append_assoc _ _ _
  unfold urlParts
  rw [splitScheme_append hscheme]
  simp only [Option.getD_some]
  rw [after_eq_nil hfragment, before_eq_self hfragment, hcut.1, hcut.2, hslash,
    before_append hauthority.path, dropWhile_append_left hauthority.path,
    dropWhile_cons]
  rfl

/-- Whatever the path is, the authority ends where it begins. -/
theorem urlParts_cut {scheme authority : ByteString} (hscheme : IsScheme scheme)
    (hauthority : Undelimited authority) (path : ByteString) :
    let parts := urlParts (scheme ++ bytes "://" ++ (authority ++ bytes "/" ++ path))
    parts.authorityPart = authority ∧
      parts.pathPart = bytes "/" ++ before 63 (before 35 path) := by
  have hslash : authority ++ bytes "/" ++ path = authority ++ ([47] ++ path) :=
    List.append_assoc _ _ _
  have hstr : before 63 (before 35 (authority ++ bytes "/" ++ path)) =
      authority ++ 47 :: before 63 (before 35 path) := by
    rw [hslash, before_append_left hauthority.fragment,
      before_append_left (u := [47]) (by decide),
      before_append_left hauthority.query, before_append_left (u := [47]) (by decide)]
    rfl
  unfold urlParts
  rw [splitScheme_append hscheme]
  simp only [Option.getD_some]
  rw [hstr, before_append hauthority.path, dropWhile_append_left hauthority.path,
    dropWhile_cons]
  exact ⟨rfl, rfl⟩

theorem urlParts_path {scheme authority path : ByteString}
    (hscheme : IsScheme scheme) (hauthority : Undelimited authority)
    (hpath : 35 ∉ path ∧ 63 ∉ path) :
    urlParts (scheme ++ bytes "://" ++ (authority ++ bytes "/" ++ path)) =
      ⟨scheme, authority, bytes "/" ++ path, [], []⟩ := by
  have hparts := @urlParts_build _ _ _ [] hscheme hauthority hpath List.not_mem_nil
  rw [← hparts]
  simp only [List.isEmpty_nil, if_true, List.append_nil]

/-!
# The parts that a client keeps
-/

theorem undelimited_authorityPart (url : ByteString) :
    Undelimited (urlParts url).authorityPart := by
  unfold urlParts
  simp only
  refine ⟨fun hmem => ?_, fun hmem => ?_, not_mem_before 47 _⟩
  · exact not_mem_before 35 _ (mem_of_mem_before (mem_of_mem_before hmem))
  · exact not_mem_before 63 _ (mem_of_mem_before hmem)

theorem isScheme_schemePart (url : ByteString) : IsScheme (urlParts url).schemePart := by
  unfold urlParts
  cases hsplit : splitScheme url with
  | none => rfl
  | some split => exact isScheme_of_splitScheme hsplit

namespace Url

theorem scheme_fromString (url : ByteString) :
    (fromString url).scheme =
      if url.isEmpty then [] else (urlParts url).schemePart.map toLowerByte := by
  unfold fromString
  split
  · rfl
  · unfold setAuthority setUserInfo
    simp only
    repeat' split
    all_goals rfl

theorem isScheme_fromString (url : ByteString) : IsScheme (fromString url).scheme := by
  rw [scheme_fromString]
  split
  · rfl
  · exact isScheme_map_toLowerByte (isScheme_schemePart url)

theorem mem_authority {url : Url} {c : UInt8} (hc : c ∈ url.authority) :
    c ∈ url.userName ∨ c ∈ url.password ∨ c ∈ url.host ∨ c = 58 ∨ c = 64 ∨
      c ∈ toDecimalInt url.port := by
  have huserInfo : c ∈ url.userInfo ->
      c ∈ url.userName ∨ c ∈ url.password ∨ c = 58 := by
    intro hmem
    unfold userInfo at hmem
    split at hmem
    · cases hmem
    · rcases List.mem_append.mp hmem with hname | hpassword
      · exact Or.inl hname
      · split at hpassword
        · cases hpassword
        · rcases List.mem_append.mp hpassword with hcolon | hin
          · exact Or.inr (Or.inr (List.mem_singleton.mp hcolon))
          · exact Or.inr (Or.inl hin)
  unfold authority at hc
  split at hc
  · cases hc
  · rcases List.mem_append.mp hc with hfirst | hport
    · rcases List.mem_append.mp hfirst with huser | hhost
      · split at huser
        · cases huser
        · rcases List.mem_append.mp huser with hinfo | hat
          · rcases huserInfo hinfo with hname | hpassword | hcolon
            · exact Or.inl hname
            · exact Or.inr (Or.inl hpassword)
            · exact Or.inr (Or.inr (Or.inr (Or.inl hcolon)))
          · exact Or.inr (Or.inr (Or.inr (Or.inr (Or.inl
              (List.mem_singleton.mp hat)))))
      · exact Or.inr (Or.inr (Or.inl hhost))
    · split at hport
      · cases hport
      · rcases List.mem_append.mp hport with hcolon | hdigits
        · exact Or.inr (Or.inr (Or.inr (Or.inl (List.mem_singleton.mp hcolon))))
        · exact Or.inr (Or.inr (Or.inr (Or.inr (Or.inr hdigits))))

/-- The user information of an authority is a part of it. -/
theorem mem_setUserInfo {userInfo : ByteString} {url : Url}
    (hpassword : url.password = []) {c : UInt8}
    (hc : c ∈ (url.setUserInfo userInfo).userName ∨
      c ∈ (url.setUserInfo userInfo).password) : c ∈ userInfo := by
  unfold setUserInfo at hc
  split at hc
  · rcases hc with hmem | hmem
    · cases hmem
    · cases hmem
  · split at hc
    · rcases hc with hmem | hmem
      · exact mem_of_mem_before hmem
      · exact mem_of_mem_after hmem
    · rcases hc with hmem | hmem
      · exact hmem
      · rw [hpassword] at hmem
        cases hmem

/-- The bytes that stand between the parts of an authority. -/
def IsMark (d : UInt8) : Prop := d = 58 ∨ d = 64 ∨ d = 45 ∨ isDigit d = true

theorem not_mem_authority {d : UInt8} (hmark : ¬ IsMark d) {url : Url}
    (hname : d ∉ url.userName) (hpassword : d ∉ url.password)
    (hhost : d ∉ url.host) : d ∉ url.authority := by
  unfold IsMark at hmark
  simp only [not_or] at hmark
  rcases hmark with ⟨hcolon, hat, hminus, hdigit⟩
  intro hmem
  rcases mem_authority hmem with h | h | h | h | h | h
  · exact hname h
  · exact hpassword h
  · exact hhost h
  · exact hcolon h
  · exact hat h
  · cases hport : url.port with
    | ofNat n =>
        rw [hport] at h
        exact hdigit (isDigit_of_mem_toDecimal h)
    | negSucc n =>
        rw [hport] at h
        rcases List.mem_cons.mp h with heq | hin
        · exact hminus heq
        · exact hdigit (isDigit_of_mem_toDecimal hin)

/-- A byte that is none of an authority's is none of what is kept of it. -/
theorem not_mem_setAuthority {d : UInt8} {authority : ByteString}
    (hauthority : d ∉ authority) (hlower : forall c, toLowerByte c = d -> c = d)
    {url : Url} (hpassword : url.password = []) :
    d ∉ (url.setAuthority authority).userName ∧
      d ∉ (url.setAuthority authority).password ∧
      d ∉ (url.setAuthority authority).host := by
  have huser : forall s : ByteString, d ∉ s ->
      d ∉ (url.setUserInfo s).userName ∧ d ∉ (url.setUserInfo s).password := by
    intro s hs
    exact ⟨fun hmem => hs (mem_setUserInfo hpassword (Or.inl hmem)),
      fun hmem => hs (mem_setUserInfo hpassword (Or.inr hmem))⟩
  unfold setAuthority
  split
  · rcases huser [] List.not_mem_nil with ⟨hname, hword⟩
    exact ⟨hname, hword, List.not_mem_nil⟩
  · have hinfo : d ∉ (if authority.contains 64 then before 64 authority else []) := by
      split
      · exact fun h => hauthority (mem_of_mem_before h)
      · exact List.not_mem_nil
    have hhostport :
        d ∉ (if authority.contains 64 then after 64 authority else authority) := by
      split
      · exact fun h => hauthority (mem_of_mem_after h)
      · exact hauthority
    rcases huser _ hinfo with ⟨hname, hword⟩
    refine ⟨hname, hword, fun hmem => ?_⟩
    rcases List.mem_map.mp hmem with ⟨c, hin, heq⟩
    exact hhostport (mem_of_mem_before (hlower c heq ▸ hin))

theorem not_mem_fromString {d : UInt8} {url : ByteString}
    (hpart : d ∉ (urlParts url).authorityPart) (hmark : ¬ IsMark d)
    (hlower : forall c, toLowerByte c = d -> c = d) : d ∉ (fromString url).authority := by
  unfold fromString
  split
  · exact List.not_mem_nil
  · have hkept := @not_mem_setAuthority _ _ hpart hlower
      (clear.setScheme (urlParts url).schemePart) rfl
    exact not_mem_authority hmark hkept.1 hkept.2.1 hkept.2.2

/-- The path and what follows it are no part of an authority. -/
theorem undelimited_fromString (url : ByteString) :
    Undelimited (fromString url).authority := by
  have hparts := undelimited_authorityPart url
  refine ⟨not_mem_fromString hparts.fragment ?_ ?_,
    not_mem_fromString hparts.query ?_ ?_, not_mem_fromString hparts.path ?_ ?_⟩
  · unfold IsMark
    decide
  · exact fun _ => eq_of_toLowerByte (by decide)
  · unfold IsMark
    decide
  · exact fun _ => eq_of_toLowerByte (by decide)
  · unfold IsMark
    decide
  · exact fun _ => eq_of_toLowerByte (by decide)

end Url

end Internal
end OssSdk
