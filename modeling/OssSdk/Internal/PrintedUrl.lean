import OssSdk.Internal.EndpointAuthority

/-!
# URLs that are printed

A URL that has been cut into its parts is printed from them, and cut again.
-/

namespace OssSdk
namespace Internal

open Foundation
open Utils

namespace Url

def toString (url : Url) : ByteString :=
  if !url.isValid then []
  else
    (if url.scheme.isEmpty then [] else url.scheme ++ bytes "://") ++
      (url.authority ++ (if url.path.isEmpty then bytes "/" else url.path) ++
        (if url.query.isEmpty then [] else bytes "?" ++ url.query) ++
        if url.fragment.isEmpty then [] else bytes "#" ++ url.fragment)

example : (fromString (bytes "HTTP://u:p@Oss.Com:0080/a?b#c")).toString =
    bytes "http://u:p@oss.com:80/a?b#c" := by decide +kernel

/-- What the parts of a URL are like that has been cut. -/
structure Clean (url : Url) : Prop where
  scheme : IsScheme url.scheme
  lowerScheme : url.scheme.map toLowerByte = url.scheme
  userName : 58 ∉ url.userName ∧ 64 ∉ url.userName
  password : 64 ∉ url.password
  host : 58 ∉ url.host
  lowerHost : url.host.map toLowerByte = url.host
  authority : Undelimited url.authority
  port : 1 ≤ url.port ∧ url.port < 2 ^ 31
  path : exists rest, url.path = 47 :: rest ∧ 35 ∉ rest ∧ 63 ∉ rest
  query : 35 ∉ url.query

/-!
# Cutting what was printed
-/

variable {url : Url}

theorem userInfo_of_isValid (hvalid : url.isValid = true) :
    url.userInfo = url.userName ++ if url.password.isEmpty then [] else 58 :: url.password := by
  unfold userInfo
  rw [hvalid]
  rfl

theorem before_userInfo (hclean : url.Clean) (hvalid : url.isValid = true) :
    before 58 url.userInfo = url.userName ∧ after 58 url.userInfo = url.password := by
  rw [userInfo_of_isValid hvalid]
  cases hpassword : url.password with
  | nil =>
      rw [List.isEmpty_nil, if_pos rfl, List.append_nil]
      exact ⟨before_eq_self hclean.userName.1, after_eq_nil hclean.userName.1⟩
  | cons c rest =>
      rw [if_neg (by simp)]
      exact ⟨before_append hclean.userName.1 _, after_append hclean.userName.1 _⟩

/-- A password without a user is not valid. -/
theorem userInfo_eq_nil_iff (hvalid : url.isValid = true) :
    url.userInfo = [] ↔ url.userName = [] := by
  rw [userInfo_of_isValid hvalid]
  constructor
  · intro hnil
    exact (List.append_eq_nil_iff.mp hnil).1
  · intro hname
    have hpassword : url.password.isEmpty = true := by
      unfold isValid at hvalid
      split at hvalid
      · cases hvalid
      · split at hvalid
        · cases hvalid
        · rw [hname, List.isEmpty_nil, if_pos rfl] at hvalid
          exact hvalid
    rw [hname, hpassword]
    rfl

theorem host_ne_nil (hvalid : url.isValid = true) : url.host ≠ [] := by
  intro hnil
  unfold isValid at hvalid
  rw [hnil] at hvalid
  split at hvalid
  · cases hvalid
  · cases hvalid

/-- The port as it is printed. -/
def printedPort (url : Url) : ByteString :=
  if url.port = INVALID_PORT then [] else 58 :: toDecimalInt url.port

theorem authority_of_isValid (hvalid : url.isValid = true) :
    url.authority = (if url.userInfo.isEmpty then [] else url.userInfo ++ [64]) ++
      (url.host ++ url.printedPort) := by
  unfold authority printedPort
  rw [hvalid, ← List.append_assoc]
  rfl

theorem before_hostPort (hclean : url.Clean) :
    before 58 (url.host ++ url.printedPort) = url.host ∧
      after 58 (url.host ++ url.printedPort) =
        if url.port = INVALID_PORT then [] else toDecimalInt url.port := by
  unfold printedPort
  split
  · rw [List.append_nil]
    exact ⟨before_eq_self hclean.host, after_eq_nil hclean.host⟩
  · exact ⟨before_append hclean.host _, after_append hclean.host _⟩

theorem not_mem_userInfo (hclean : url.Clean) (hvalid : url.isValid = true) :
    64 ∉ url.userInfo := by
  rw [userInfo_of_isValid hvalid, List.mem_append, not_or]
  refine ⟨hclean.userName.2, ?_⟩
  split
  · exact List.not_mem_nil
  · rw [List.mem_cons, not_or]
    exact ⟨by decide, hclean.password⟩

theorem not_mem_printedPort (hclean : url.Clean) {c : UInt8} (hcolon : c ≠ 58)
    (hdigit : isDigit c = false) : c ∉ url.printedPort := by
  unfold printedPort
  split
  · exact List.not_mem_nil
  · rw [List.mem_cons, not_or]
    refine ⟨hcolon, fun hmem => ?_⟩
    have hport := hclean.port.1
    cases hcases : url.port with
    | ofNat n =>
        rw [hcases] at hmem
        rw [isDigit_of_mem_toDecimal hmem] at hdigit
        cases hdigit
    | negSucc n =>
        rw [hcases] at hport
        omega

/-- The user is found again, if there is one or the host does not look as if there were. -/
theorem userPart_authority (hclean : url.Clean) (hvalid : url.isValid = true)
    (huser : url.userName ≠ [] ∨ 64 ∉ url.host) :
    userPart url.authority = url.userInfo ∧
      hostPortPart url.authority = url.host ++ url.printedPort := by
  rw [authority_of_isValid hvalid]
  unfold userPart hostPortPart
  cases hinfo : url.userInfo with
  | nil =>
      have hname := (userInfo_eq_nil_iff hvalid).mp hinfo
      have hnot : 64 ∉ url.host ++ url.printedPort := by
        rw [List.mem_append, not_or]
        exact ⟨huser.resolve_left (fun hne => hne hname),
          not_mem_printedPort hclean (by decide) (by decide)⟩
      rw [List.isEmpty_nil, if_pos rfl, List.nil_append,
        if_neg (mt List.contains_iff_mem.mp hnot), if_neg (mt List.contains_iff_mem.mp hnot)]
      exact ⟨rfl, rfl⟩
  | cons c rest =>
      have hat : 64 ∉ c :: rest := by
        rw [← hinfo]
        exact not_mem_userInfo hclean hvalid
      have hmem : 64 ∈ (c :: rest ++ [64]) ++ (url.host ++ url.printedPort) := by
        simp
      rw [if_neg (show ¬ (c :: rest).isEmpty = true by simp),
        if_pos (List.contains_iff_mem.mpr hmem), if_pos (List.contains_iff_mem.mpr hmem),
        List.append_assoc, List.singleton_append]
      exact ⟨before_append hat _, after_append hat _⟩

theorem atoi_toDecimalInt {n : Int} (hpos : 1 ≤ n) (hmax : n < 2 ^ 31) :
    toDecimalInt n ≠ [] ∧ atoi (toDecimalInt n) = n := by
  cases n with
  | ofNat n =>
      have hdigits : (toDecimal n).all isDigit = true :=
        List.all_eq_true.mpr fun c hc => isDigit_of_mem_toDecimal hc
      have hless : ofDecimal (toDecimal n) < 2 ^ 31 := by
        rw [ofDecimal_toDecimal]
        exact Int.ofNat_lt.mp hmax
      have hread := atoi_digits (toDecimal_ne_nil n) hdigits hless
      rw [ofDecimal_toDecimal] at hread
      exact ⟨toDecimal_ne_nil n, hread⟩
  | negSucc n => omega

theorem setAuthority_authority (hclean : url.Clean) (hvalid : url.isValid = true)
    (huser : url.userName ≠ [] ∨ 64 ∉ url.host) {url' : Url} (hpassword : url'.password = []) :
    url'.setAuthority url.authority =
      { url' with
        userName := url.userName, password := url.password, host := url.host
        port := url.port } := by
  obtain ⟨hpart, hhostPort⟩ := userPart_authority hclean hvalid huser
  obtain ⟨hname, hword⟩ := before_userInfo hclean hvalid
  obtain ⟨hhost, hport⟩ := before_hostPort hclean
  have hsome : url.authority.isEmpty = false := by
    rw [List.isEmpty_eq_false_iff, authority_of_isValid hvalid]
    exact List.append_ne_nil_of_right_ne_nil _
      (List.append_ne_nil_of_left_ne_nil (host_ne_nil hvalid) _)
  unfold userPart at hpart
  unfold hostPortPart at hhostPort
  unfold setAuthority
  rw [hsome, if_neg Bool.false_ne_true]
  simp only [hpart, hhostPort, hhost, hport]
  rw [setUserInfo_eq hpassword, hname, hword]
  unfold setHost
  rw [hclean.lowerHost]
  by_cases hnone : url.port = INVALID_PORT
  · simp only [hnone, if_true, List.isEmpty_nil]
    rfl
  · obtain ⟨hprinted, hread⟩ := atoi_toDecimalInt hclean.port.1 hclean.port.2
    have hdigits : (toDecimalInt url.port).isEmpty = false :=
      List.isEmpty_eq_false_iff.mpr hprinted
    have hkept : ¬ url.port ≤ 0 := by
      have hone := hclean.port.1
      omega
    simp only [if_neg hnone, hdigits, Bool.false_eq_true, if_false, hread, if_neg hkept]

/-!
# All parts
-/

/-- What stands behind the scheme. -/
def behindScheme (url : Url) : ByteString :=
  url.authority ++ (if url.path.isEmpty then bytes "/" else url.path) ++
    (if url.query.isEmpty then [] else bytes "?" ++ url.query) ++
    if url.fragment.isEmpty then [] else bytes "#" ++ url.fragment

theorem toString_of_isValid (hvalid : url.isValid = true) :
    url.toString =
      (if url.scheme.isEmpty then [] else url.scheme ++ bytes "://") ++ url.behindScheme := by
  unfold toString
  rw [hvalid]
  rfl

/-- The text has its scheme again, if it has one or does not look as if it had. -/
theorem splitScheme_toString (hclean : url.Clean) (hvalid : url.isValid = true)
    (hscheme : url.scheme ≠ [] ∨ IsScheme url.behindScheme) :
    (splitScheme url.toString).getD ([], url.toString) = (url.scheme, url.behindScheme) := by
  rw [toString_of_isValid hvalid]
  cases hcases : url.scheme with
  | nil =>
      have hnone : IsScheme url.behindScheme := hscheme.resolve_left fun hne => hne hcases
      rw [List.isEmpty_nil, if_pos rfl, List.nil_append]
      rw [show splitScheme url.behindScheme = none from hnone]
      rfl
  | cons c rest =>
      have hfirst := hclean.scheme
      rw [hcases] at hfirst
      rw [if_neg (by simp), splitScheme_append hfirst]
      rfl

theorem urlParts_toString (hclean : url.Clean) (hvalid : url.isValid = true)
    (hscheme : url.scheme ≠ [] ∨ IsScheme url.behindScheme) :
    urlParts url.toString =
      ⟨url.scheme, url.authority, url.path, url.query, url.fragment⟩ := by
  obtain ⟨rest, hpath, hsharp, hmark⟩ := hclean.path
  have hpathEmpty : url.path.isEmpty = false := by
    rw [hpath]
    rfl
  have hbehind : url.behindScheme = url.authority ++ url.path ++
      (if url.query.isEmpty then [] else 63 :: url.query) ++
      if url.fragment.isEmpty then [] else 35 :: url.fragment := by
    unfold behindScheme
    rw [hpathEmpty]
    rfl
  have hbase : forall c : UInt8, c ∉ url.authority -> c ≠ 47 -> c ∉ rest ->
      c ∉ url.authority ++ url.path := by
    intro c hauthority hslash hrest
    rw [hpath, List.mem_append, List.mem_cons, not_or, not_or]
    exact ⟨hauthority, hslash, hrest⟩
  have hquery : 63 ∉ url.authority ++ url.path :=
    hbase 63 hclean.authority.query (by decide) hmark
  have hfragment : 35 ∉ url.authority ++ url.path ++
      if url.query.isEmpty then [] else 63 :: url.query := by
    rw [List.mem_append, not_or]
    refine ⟨hbase 35 hclean.authority.fragment (by decide) hsharp, ?_⟩
    split
    · exact List.not_mem_nil
    · rw [List.mem_cons, not_or]
      exact ⟨by decide, hclean.query⟩
  have hcut (d : UInt8) {s : ByteString} (hs : d ∉ s) (part : ByteString) :
      after d (s ++ if part.isEmpty then [] else d :: part) = part ∧
        before d (s ++ if part.isEmpty then [] else d :: part) = s := by
    cases part with
    | nil =>
        rw [List.isEmpty_nil, if_pos rfl, List.append_nil]
        exact ⟨after_eq_nil hs, before_eq_self hs⟩
    | cons c more =>
        rw [if_neg (by simp)]
        exact ⟨after_append hs _, before_append hs _⟩
  obtain ⟨hlastPart, hfirst⟩ := hcut 35 hfragment url.fragment
  obtain ⟨hmiddle, hrest⟩ := hcut 63 hquery url.query
  unfold urlParts
  rw [splitScheme_toString hclean hvalid hscheme]
  simp only [hbehind, hlastPart, hfirst, hmiddle, hrest]
  rw [hpath, before_append hclean.authority.path, dropWhile_append_left hclean.authority.path,
    dropWhile_cons]
  rfl

theorem fromString_toString (hclean : url.Clean) (hvalid : url.isValid = true)
    (hscheme : url.scheme ≠ [] ∨ IsScheme url.behindScheme)
    (huser : url.userName ≠ [] ∨ 64 ∉ url.host) : fromString url.toString = url := by
  have hsome : url.toString.isEmpty = false := by
    rw [List.isEmpty_eq_false_iff, toString_of_isValid hvalid, behindScheme,
      authority_of_isValid hvalid]
    have hhost := host_ne_nil hvalid
    simp [hhost]
  unfold fromString
  rw [hsome, if_neg Bool.false_ne_true, urlParts_toString hclean hvalid hscheme]
  have hparts := setAuthority_authority hclean hvalid huser
    (show (clear.setScheme url.scheme).password = [] from rfl)
  simp only [hparts]
  unfold setScheme
  rw [hclean.lowerScheme]

/-!
# What has been cut
-/

theorem map_toLowerByte_twice (s : ByteString) :
    (s.map toLowerByte).map toLowerByte = s.map toLowerByte := by
  have htwice : forall c : UInt8, toLowerByte (toLowerByte c) = toLowerByte c :=
    forall_byte (by decide +kernel)
  rw [List.map_map]
  exact List.map_congr_left fun c _ => htwice c

theorem keptPort_range (port : ByteString) : 1 ≤ keptPort port ∧ keptPort port < 2 ^ 31 := by
  have hvalue (n : Int) (hn : n < 2 ^ 31) :
      1 ≤ (if n ≤ 0 then INVALID_PORT else n) ∧ (if n ≤ 0 then INVALID_PORT else n) < 2 ^ 31 := by
    unfold INVALID_PORT
    split
    · decide
    · omega
  unfold keptPort
  simp only
  split
  · exact hvalue INVALID_PORT (by decide)
  · exact hvalue _ (BitVec.toInt_lt (w := 32))

theorem pathPart_eq (text : ByteString) :
    exists rest, (urlParts text).pathPart = 47 :: rest ∧ 35 ∉ rest ∧ 63 ∉ rest := by
  unfold urlParts
  simp only
  generalize ((splitScheme text).getD ([], text)).2 = str
  have hsharp : 35 ∉ before 63 (before 35 str) := fun hmem =>
    not_mem_before 35 _ (mem_of_mem_before hmem)
  have hmark : 63 ∉ before 63 (before 35 str) := not_mem_before 63 _
  generalize before 63 (before 35 str) = cut at hsharp hmark
  by_cases hslash : 47 ∈ cut
  · have hcut := before_cons_after hslash
    have hpath : cut.dropWhile (· != 47) = 47 :: after 47 cut := by
      have hdrop := dropWhile_append_left (not_mem_before 47 cut) (47 :: after 47 cut)
      rw [hcut, dropWhile_cons] at hdrop
      exact hdrop
    rw [hpath]
    exact ⟨after 47 cut, rfl, fun h => hsharp (mem_of_mem_after h),
      fun h => hmark (mem_of_mem_after h)⟩
  · have hpath : cut.dropWhile (· != 47) = [] :=
      List.dropWhile_eq_nil_iff.mpr (forall_bne hslash)
    rw [hpath]
    exact ⟨[], rfl, List.not_mem_nil, List.not_mem_nil⟩

theorem not_mem_userPart (authority : ByteString) : 64 ∉ userPart authority := by
  unfold userPart
  split
  · exact not_mem_before 64 _
  · exact List.not_mem_nil

theorem clean_fromString {text : ByteString} (htext : text ≠ []) : (fromString text).Clean := by
  have hauthority := undelimited_fromString text
  rw [fromString_eq htext] at hauthority ⊢
  refine ⟨isScheme_map_toLowerByte (isScheme_schemePart text), map_toLowerByte_twice _,
    ⟨not_mem_before 58 _, fun h => not_mem_userPart _ (mem_of_mem_before h)⟩,
    fun h => not_mem_userPart _ (mem_of_mem_after h),
    fun h => not_mem_before 58 _ (mem_of_mem_map_toLowerByte (by decide) h),
    map_toLowerByte_twice _,
    hauthority, keptPort_range _, pathPart_eq text, ?_⟩
  show 35 ∉ (urlParts text).queryPart
  unfold urlParts
  exact fun h => not_mem_before 35 _ (mem_of_mem_after h)

/-!
# Texts that are read otherwise
-/

theorem behindScheme_head (hclean : url.Clean) (hvalid : url.isValid = true) :
    exists c rest, url.behindScheme = c :: rest ∧ c ≠ 58 := by
  have hhost := host_ne_nil hvalid
  unfold behindScheme
  rw [authority_of_isValid hvalid]
  cases hname : url.userName with
  | nil =>
      have hinfo := (userInfo_eq_nil_iff hvalid).mpr hname
      cases hcases : url.host with
      | nil => exact absurd hcases hhost
      | cons c rest =>
          have hcolon := hclean.host
          rw [hcases, List.mem_cons, not_or] at hcolon
          rw [hinfo]
          exact ⟨c, _, rfl, Ne.symm hcolon.1⟩
  | cons c rest =>
      have hcolon := hclean.userName.1
      rw [hname, List.mem_cons, not_or] at hcolon
      have hinfo := userInfo_of_isValid hvalid
      rw [hname] at hinfo
      rw [hinfo]
      exact ⟨c, _, rfl, Ne.symm hcolon.1⟩

theorem scheme_of_same (hclean : url.Clean) (hvalid : url.isValid = true)
    (hsame : fromString url.toString = url) : url.scheme ≠ [] ∨ IsScheme url.behindScheme := by
  by_contra hnot
  rw [not_or, not_not] at hnot
  obtain ⟨c, rest, hbehind, hc⟩ := behindScheme_head hclean hvalid
  have htext : url.toString = url.behindScheme := by
    rw [toString_of_isValid hvalid, hnot.1]
    rfl
  have hne : url.toString ≠ [] := by
    rw [htext, hbehind]
    exact List.cons_ne_nil c rest
  have hscheme := congrArg Url.scheme hsame
  rw [fromString_eq hne, hnot.1] at hscheme
  have hpart : (urlParts url.toString).schemePart = [] := List.map_eq_nil_iff.mp hscheme
  rw [htext] at hpart
  cases hsplit : splitScheme url.behindScheme with
  | none => exact hnot.2 hsplit
  | some split =>
      have hwhole := @splitScheme_some _ split.1 split.2 hsplit
      unfold urlParts at hpart
      rw [hsplit] at hpart
      change split.1 = [] at hpart
      rw [hpart, hbehind] at hwhole
      injection hwhole with hcolon _
      exact hc hcolon

theorem user_of_same (hclean : url.Clean) (hvalid : url.isValid = true)
    (hscheme : url.scheme ≠ [] ∨ IsScheme url.behindScheme)
    (hsame : fromString url.toString = url) : url.userName ≠ [] ∨ 64 ∉ url.host := by
  by_contra hnot
  rw [not_or, not_not, not_not] at hnot
  obtain ⟨hname, hat⟩ := hnot
  have hinfo := (userInfo_eq_nil_iff hvalid).mpr hname
  have hauthority : url.authority = url.host ++ url.printedPort := by
    rw [authority_of_isValid hvalid, hinfo]
    rfl
  have hne : url.toString ≠ [] := by
    intro hnil
    rw [hnil] at hsame
    have hhost := congrArg Url.host hsame
    exact host_ne_nil hvalid hhost.symm
  have hmem : 64 ∈ url.host ++ url.printedPort := List.mem_append_left _ hat
  have hhost := congrArg Url.host hsame
  rw [fromString_eq hne, urlParts_toString hclean hvalid hscheme] at hhost
  unfold hostPortPart at hhost
  simp only [hauthority] at hhost
  rw [if_pos (List.contains_iff_mem.mpr hmem), (before_after_append hat _).2] at hhost
  have hcolon : 58 ∉ after 64 url.host := fun h => hclean.host (mem_of_mem_after h)
  have hshort : (before 58 (after 64 url.host ++ url.printedPort)).length ≤
      (after 64 url.host).length := by
    rw [before_append_left hcolon, List.length_append]
    unfold printedPort
    split
    · exact Nat.le_refl _
    · rw [before_cons]
      exact Nat.le_refl _
  have hless : (after 64 url.host).length < url.host.length := by
    have hcut := congrArg List.length (before_cons_after hat)
    rw [List.length_append, List.length_cons] at hcut
    omega
  have hlength := congrArg List.length hhost
  rw [List.length_map] at hlength
  omega

/--
A URL that has been cut is printed so that it is cut in the same way, but for one without a
scheme that looks as if it had one, and one without a user that looks as if it had one.
-/
theorem fromString_toString_iff {text : ByteString} (hvalid : (fromString text).isValid = true) :
    fromString (fromString text).toString = fromString text ↔
      ((fromString text).scheme ≠ [] ∨ IsScheme (fromString text).behindScheme) ∧
        ((fromString text).userName ≠ [] ∨ 64 ∉ (fromString text).host) := by
  have htext : text ≠ [] := by
    intro hnil
    rw [hnil] at hvalid
    cases hvalid
  have hclean := clean_fromString htext
  constructor
  · intro hsame
    have hscheme := scheme_of_same hclean hvalid hsame
    exact ⟨hscheme, user_of_same hclean hvalid hscheme hsame⟩
  · intro hcut
    exact fromString_toString hclean hvalid hcut.1 hcut.2

theorem fromString_toString_iff_port :
    fromString (fromString (bytes "HTTP://u:p@Oss.Com:0080/a?b#c")).toString =
      fromString (bytes "HTTP://u:p@Oss.Com:0080/a?b#c") :=
  (fromString_toString_iff (by decide +kernel)).mpr ⟨Or.inl (by decide +kernel),
    Or.inl (by decide +kernel)⟩

end Url
end Internal
end OssSdk
