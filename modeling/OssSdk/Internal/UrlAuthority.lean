import OssSdk.Internal.OSSUtils
import OssSdk.Internal.Url

/-!
# The authority of a URL

A URL with a scheme has its authority cut into a user, a host and a port, and what a
client contacts is printed from these three.
-/

namespace OssSdk
namespace Internal

open Foundation
open Utils

/-- The authority that a URL begins with. -/
def authorityText (rest : ByteString) : ByteString := before 47 (before 63 (before 35 rest))

def userPart (authority : ByteString) : ByteString :=
  if authority.contains 64 then before 64 authority else []

def hostPortPart (authority : ByteString) : ByteString :=
  if authority.contains 64 then after 64 authority else authority

/-- The port as it is printed. -/
def portText (port : ByteString) : ByteString :=
  if port = [] ∨ atoi port ≤ 1 then [] else 58 :: toDecimalInt (atoi port)

example : authorityText (bytes "u@h:1?a/b#c") = bytes "u@h:1" := by decide +kernel

/-- Small letters are all that can be new. -/
theorem mem_of_mem_map_toLowerByte {s : ByteString} {d : UInt8}
    (hd : ¬ (97 ≤ d.toNat ∧ d.toNat ≤ 122)) (hmem : d ∈ s.map toLowerByte) : d ∈ s := by
  rcases List.mem_map.mp hmem with ⟨c, hc, hlower⟩
  rw [eq_of_toLowerByte hd hlower] at hc
  exact hc

namespace Url

/-- What `fromString` finds in a URL with a scheme. -/
structure Parsed (url : Url) (authority : ByteString) : Prop where
  scheme : url.scheme ≠ []
  userName : url.userName = before 58 (userPart authority)
  password : url.password = after 58 (userPart authority)
  host : url.host = (before 58 (hostPortPart authority)).map toLowerByte
  port : (if url.port = INVALID_PORT then [] else bytes ":" ++ toDecimalInt url.port) =
    portText (after 58 (hostPortPart authority))

theorem setUserInfo_eq {url : Url} (hpassword : url.password = []) (userInfo : ByteString) :
    url.setUserInfo userInfo =
      { url with userName := before 58 userInfo, password := after 58 userInfo } := by
  unfold setUserInfo
  cases userInfo with
  | nil => rfl
  | cons c rest =>
      rw [if_neg (by simp)]
      by_cases hcolon : 58 ∈ c :: rest
      · rw [if_pos (List.contains_iff_mem.mpr hcolon)]
      · rw [if_neg (mt List.contains_iff_mem.mp hcolon), before_eq_self hcolon,
          after_eq_nil hcolon, ← hpassword]

/-- The port that is kept. -/
def keptPort (port : ByteString) : Int :=
  let portVal := if port.isEmpty then INVALID_PORT else atoi port
  if portVal ≤ 0 then INVALID_PORT else portVal

theorem port_eq (port : ByteString) :
    (if keptPort port = INVALID_PORT then [] else bytes ":" ++ toDecimalInt (keptPort port)) =
      portText port := by
  unfold portText keptPort
  by_cases hempty : port = []
  · rw [hempty]
    rfl
  · have hsome : port.isEmpty = false := List.isEmpty_eq_false_iff.mpr hempty
    simp only [hsome, Bool.false_eq_true, if_false]
    by_cases hsmall : atoi port ≤ 1
    · have hkept : (if atoi port ≤ 0 then INVALID_PORT else atoi port) = INVALID_PORT := by
        unfold INVALID_PORT
        split
        · rfl
        · omega
      rw [hkept, if_pos rfl, if_pos (Or.inr hsmall)]
    · have hkept : (if atoi port ≤ 0 then INVALID_PORT else atoi port) = atoi port :=
        if_neg (by omega)
      have hother : atoi port ≠ INVALID_PORT := by
        unfold INVALID_PORT
        omega
      have hprinted : ¬ (port = [] ∨ atoi port ≤ 1) := by
        rw [not_or]
        exact ⟨hempty, hsmall⟩
      rw [hkept, if_neg hother, if_neg hprinted]
      rfl

theorem setAuthority_eq {url : Url} (hpassword : url.password = []) (authority : ByteString) :
    url.setAuthority authority =
      { url with
        userName := before 58 (userPart authority)
        password := after 58 (userPart authority)
        host := (before 58 (hostPortPart authority)).map toLowerByte
        port := keptPort (after 58 (hostPortPart authority)) } := by
  unfold setAuthority
  cases authority with
  | nil => rfl
  | cons c rest =>
      rw [if_neg (by simp)]
      have hinfo := setUserInfo_eq hpassword (userPart (c :: rest))
      unfold userPart at hinfo
      simp only [hinfo]
      rfl

theorem fromString_eq {text : ByteString} (htext : text ≠ []) :
    fromString text =
      ⟨(urlParts text).schemePart.map toLowerByte,
        before 58 (userPart (urlParts text).authorityPart),
        after 58 (userPart (urlParts text).authorityPart),
        (before 58 (hostPortPart (urlParts text).authorityPart)).map toLowerByte,
        (urlParts text).pathPart, keptPort (after 58 (hostPortPart (urlParts text).authorityPart)),
        (urlParts text).queryPart, (urlParts text).fragmentPart⟩ := by
  unfold fromString
  rw [List.isEmpty_eq_false_iff.mpr htext, if_neg Bool.false_ne_true]
  simp only
  rw [setAuthority_eq rfl]
  rfl

theorem parsed_fromString {scheme : ByteString} (hscheme : IsScheme scheme)
    (hne : scheme ≠ []) (rest : ByteString) :
    Parsed (fromString (scheme ++ bytes "://" ++ rest)) (authorityText rest) := by
  have hsome : scheme ++ bytes "://" ++ rest ≠ [] := by
    rw [List.append_assoc]
    exact List.append_ne_nil_of_left_ne_nil hne _
  have hparts : (urlParts (scheme ++ bytes "://" ++ rest)).schemePart = scheme ∧
      (urlParts (scheme ++ bytes "://" ++ rest)).authorityPart = authorityText rest := by
    unfold urlParts
    rw [splitScheme_append hscheme]
    exact ⟨rfl, rfl⟩
  rw [fromString_eq hsome, hparts.1, hparts.2]
  exact ⟨fun h => hne (List.map_eq_nil_iff.mp h), rfl, rfl, rfl, port_eq _⟩

variable {url : Url} {authority : ByteString}

theorem Parsed.isValid_eq (hparsed : Parsed url authority) :
    url.isValid = (!url.host.isEmpty &&
      (!url.userName.isEmpty || url.password.isEmpty)) := by
  unfold isValid isEmpty
  rw [List.isEmpty_eq_false_iff.mpr hparsed.scheme]
  simp only [Bool.false_and, Bool.false_eq_true, if_false]
  cases url.host.isEmpty with
  | true => rfl
  | false =>
      cases url.userName.isEmpty with
      | true => rfl
      | false => rfl

theorem Parsed.authority_of_no_host (hparsed : Parsed url authority)
    (hhost : before 58 (hostPortPart authority) = []) : url.authority = [] := by
  have hvalid := hparsed.isValid_eq
  rw [hparsed.host, hhost] at hvalid
  unfold Url.authority
  rw [hvalid]
  rfl

/-- A password without a user. -/
theorem Parsed.authority_of_password (hparsed : Parsed url authority)
    (hhead : (userPart authority).head? = some 58) (hmore : userPart authority ≠ [58]) :
    url.authority = [] := by
  rcases List.head?_eq_some_iff.mp hhead with ⟨rest, huser⟩
  have hrest : rest ≠ [] := by
    intro hnil
    rw [hnil] at huser
    exact hmore huser
  have hvalid := hparsed.isValid_eq
  rw [hparsed.userName, hparsed.password, huser, before_cons, after_cons,
    List.isEmpty_eq_false_iff.mpr hrest] at hvalid
  simp only [List.isEmpty_nil, Bool.not_true, Bool.or_self, Bool.and_false] at hvalid
  unfold Url.authority
  rw [hvalid]
  rfl

theorem Parsed.authority_of_no_user (hparsed : Parsed url authority)
    (hhost : before 58 (hostPortPart authority) ≠ [])
    (huser : userPart authority = [] ∨ userPart authority = [58]) :
    url.authority = (before 58 (hostPortPart authority)).map toLowerByte ++
      portText (after 58 (hostPortPart authority)) := by
  have hname : url.userName = [] ∧ url.password = [] := by
    rw [hparsed.userName, hparsed.password]
    rcases huser with hnil | hcolon
    · rw [hnil]
      exact ⟨rfl, rfl⟩
    · rw [hcolon]
      exact ⟨rfl, rfl⟩
  have hsome : url.host.isEmpty = false := by
    rw [hparsed.host, List.isEmpty_eq_false_iff]
    exact fun h => hhost (List.map_eq_nil_iff.mp h)
  have hvalid : url.isValid = true := by
    rw [hparsed.isValid_eq, hname.1, hname.2, hsome]
    rfl
  have hinfo : url.userInfo = [] := by
    unfold userInfo
    rw [hvalid, hname.1, hname.2]
    rfl
  unfold Url.authority
  rw [hvalid, hinfo, hparsed.port, hparsed.host]
  rfl

theorem Parsed.at_mem_authority (hparsed : Parsed url authority)
    (hhost : before 58 (hostPortPart authority) ≠ [])
    (huser : before 58 (userPart authority) ≠ []) : 64 ∈ url.authority := by
  have hsome : url.host.isEmpty = false := by
    rw [hparsed.host, List.isEmpty_eq_false_iff]
    exact fun h => hhost (List.map_eq_nil_iff.mp h)
  have hname : url.userName.isEmpty = false := by
    rw [hparsed.userName]
    exact List.isEmpty_eq_false_iff.mpr huser
  have hvalid : url.isValid = true := by
    rw [hparsed.isValid_eq, hsome, hname]
    rfl
  have hinfo : url.userInfo.isEmpty = false := by
    unfold userInfo
    rw [hvalid, List.isEmpty_eq_false_iff]
    exact List.append_ne_nil_of_left_ne_nil (List.isEmpty_eq_false_iff.mp hname) _
  unfold Url.authority
  rw [hvalid, hinfo]
  simp only [Bool.not_true, Bool.false_eq_true, if_false, List.mem_append]
  exact Or.inl (Or.inl (Or.inr (by decide)))

end Url

/-!
# Texts that end nothing
-/

def NoLineEnd (s : ByteString) : Prop := 10 ∉ s ∧ 13 ∉ s

/-- None of the bytes that end an authority, a user or a line. -/
structure Inert (s : ByteString) : Prop where
  undelimited : Undelimited s
  noUser : 64 ∉ s
  noLineEnd : NoLineEnd s

theorem not_mem_of_all {p : UInt8 -> Bool} {s : ByteString} {c : UInt8}
    (hall : s.all p = true) (hc : p c = false) : c ∉ s := by
  intro hmem
  rw [List.all_eq_true.mp hall c hmem] at hc
  cases hc

theorem inert_of_all {p : UInt8 -> Bool} {s : ByteString} (hall : s.all p = true)
    (hp : p 35 = false ∧ p 63 = false ∧ p 47 = false ∧ p 64 = false ∧ p 10 = false ∧
      p 13 = false) : Inert s := by
  rcases hp with ⟨hfragment, hquery, hslash, huser, hfeed, hreturn⟩
  constructor
  · exact ⟨not_mem_of_all hall hfragment, not_mem_of_all hall hquery,
      not_mem_of_all hall hslash⟩
  · exact not_mem_of_all hall huser
  · exact ⟨not_mem_of_all hall hfeed, not_mem_of_all hall hreturn⟩

theorem inert_colon : Inert [58] :=
  inert_of_all (p := fun c => c == 58) (by decide) (by decide)

theorem Inert.append {s t : ByteString} (hs : Inert s) (ht : Inert t) : Inert (s ++ t) := by
  rcases hs with ⟨⟨hs35, hs63, hs47⟩, hs64, hs10, hs13⟩
  rcases ht with ⟨⟨ht35, ht63, ht47⟩, ht64, ht10, ht13⟩
  have happend : forall c : UInt8, c ∉ s -> c ∉ t -> c ∉ s ++ t := by
    intro c hcs hct
    rw [List.mem_append, not_or]
    exact ⟨hcs, hct⟩
  exact ⟨⟨happend _ hs35 ht35, happend _ hs63 ht63, happend _ hs47 ht47⟩,
    happend _ hs64 ht64, happend _ hs10 ht10, happend _ hs13 ht13⟩

theorem authorityText_append {u tail : ByteString} (hu : Undelimited u)
    (htail : forall c, c ∈ tail.head? -> c = 47 ∨ c = 63 ∨ c = 35) :
    authorityText (u ++ tail) = u := by
  unfold authorityText
  cases tail with
  | nil =>
      rw [List.append_nil, before_eq_self hu.fragment, before_eq_self hu.query,
        before_eq_self hu.path]
  | cons c rest =>
      rcases htail c rfl with hslash | hquery | hfragment
      · have hkept : before 63 (before 35 (c :: rest)) =
            c :: before 63 (before 35 rest) := by
          have hpiece : c :: rest = [47] ++ rest := by rw [hslash, List.singleton_append]
          rw [hpiece, before_append_left (by decide), before_append_left (by decide), hslash]
          rfl
        rw [before_append_left hu.fragment, before_append_left hu.query, hkept, hslash,
          before_append hu.path]
      · have hkept : before 35 (c :: rest) = c :: before 35 rest := by
          have hpiece : c :: rest = [63] ++ rest := by rw [hquery, List.singleton_append]
          rw [hpiece, before_append_left (by decide), hquery]
          rfl
        rw [before_append_left hu.fragment, hkept, hquery, before_append hu.query,
          before_eq_self hu.path]
      · rw [hfragment, before_append hu.fragment, before_eq_self hu.query,
          before_eq_self hu.path]

/-- The authority of a URL whose authority has no user. -/
theorem authority_fromString {scheme u tail : ByteString} (hscheme : IsScheme scheme)
    (hne : scheme ≠ []) (hu : Inert u) (hhost : before 58 u ≠ [])
    (htail : forall c, c ∈ tail.head? -> c = 47 ∨ c = 63 ∨ c = 35) :
    (Url.fromString (scheme ++ bytes "://" ++ (u ++ tail))).authority =
      (before 58 u).map toLowerByte ++ portText (after 58 u) := by
  have hnot : u.contains 64 = false := by
    rw [← Bool.not_eq_true, List.contains_iff_mem]
    exact hu.noUser
  have huser : userPart u = [] := by
    unfold userPart
    rw [hnot]
    rfl
  have hhostPort : hostPortPart u = u := by
    unfold hostPortPart
    rw [hnot]
    rfl
  have hparsed := Url.parsed_fromString hscheme hne (u ++ tail)
  rw [authorityText_append hu.undelimited htail] at hparsed
  have hauthority := hparsed.authority_of_no_user (by rwa [hhostPort]) (Or.inl huser)
  rwa [hhostPort] at hauthority

/-!
# Where the scheme is looked for
-/

theorem isScheme_of_no_colon {s : ByteString} (hcolon : 58 ∉ s) : IsScheme s := by
  unfold IsScheme
  cases hsplit : splitScheme s with
  | none => rfl
  | some split =>
      exfalso
      apply hcolon
      rw [splitScheme_some hsplit]
      simp only [List.mem_append]
      exact Or.inl (Or.inr (by decide))

theorem noLineEnd_append {s t : ByteString} :
    NoLineEnd (s ++ t) ↔ NoLineEnd s ∧ NoLineEnd t := by
  unfold NoLineEnd
  simp only [List.mem_append, not_or]
  constructor
  · rintro ⟨⟨hs, ht⟩, hs', ht'⟩
    exact ⟨⟨hs, hs'⟩, ht, ht'⟩
  · rintro ⟨⟨hs, hs'⟩, ht, ht'⟩
    exact ⟨⟨hs, ht⟩, hs', ht'⟩

theorem all_noLineEnd_iff (s : ByteString) :
    (s.all fun c => c != 10 && c != 13) = true ↔ NoLineEnd s := by
  rw [List.all_eq_true]
  constructor
  · intro hall
    constructor
    · intro hmem
      cases hall 10 hmem
    · intro hmem
      cases hall 13 hmem
  · rintro ⟨hfeed, hreturn⟩ c hc
    have hother : c ≠ 10 ∧ c ≠ 13 :=
      ⟨fun heq => hfeed (heq ▸ hc), fun heq => hreturn (heq ▸ hc)⟩
    rw [bne_iff_ne.mpr hother.1, bne_iff_ne.mpr hother.2]
    rfl

/-- A colon before the first one does not count. -/
theorem hasScheme_append {u : ByteString} (hne : u ≠ []) (hcolon : 58 ∉ u)
    (rest : ByteString) :
    hasScheme (u ++ bytes "://" ++ rest) = true ↔ NoLineEnd rest := by
  have hpieces : u ++ bytes "://" ++ rest = u ++ 58 :: (47 :: 47 :: rest) := by
    rw [List.append_assoc]
    rfl
  have hslashes : NoLineEnd [47, 47] := by
    constructor
    · decide
    · decide
  unfold hasScheme
  rw [hpieces, before_append hcolon, after_append hcolon, List.isEmpty_eq_false_iff.mpr hne,
    Bool.and_eq_true, all_noLineEnd_iff]
  constructor
  · rintro ⟨_, hline⟩
    exact (noLineEnd_append (s := [47, 47]).mp hline).2
  · intro hline
    exact ⟨rfl, noLineEnd_append (s := [47, 47]).mpr ⟨hslashes, hline⟩⟩

theorem pieces_of_hasScheme {value : ByteString} (hhas : hasScheme value = true) :
    exists u rest : ByteString, 58 ∉ u ∧ NoLineEnd rest ∧
      value = u ++ bytes "://" ++ rest := by
  have hconverse := hhas
  unfold hasScheme at hhas
  rw [Bool.and_eq_true, Bool.and_eq_true, all_noLineEnd_iff] at hhas
  rcases hhas with ⟨⟨_, hslashes⟩, hline⟩
  rcases List.isPrefixOf_iff_prefix.mp hslashes with ⟨rest, hafter⟩
  have hcolon : 58 ∈ value := by
    by_contra hnot
    rw [after_eq_nil hnot] at hafter
    cases hafter
  refine ⟨before 58 value, rest, not_mem_before 58 value, ?_, ?_⟩
  · rw [← hafter, noLineEnd_append] at hline
    exact hline.2
  · have hwhole := before_cons_after hcolon
    rw [← hafter] at hwhole
    rw [List.append_assoc]
    exact hwhole.symm

/-!
# The port that is printed
-/

theorem portText_eq_nil_iff (port : ByteString) :
    portText port = [] ↔ port = [] ∨ atoi port ≤ 1 := by
  unfold portText
  constructor
  · intro hnil
    by_contra hnot
    rw [if_neg hnot] at hnil
    cases hnil
  · intro hsmall
    rw [if_pos hsmall]

theorem lower_append_portText {s t port : ByteString} (ht : 58 ∉ t) :
    s.map toLowerByte ++ portText port = t.map toLowerByte ↔
      s.map toLowerByte = t.map toLowerByte ∧ portText port = [] := by
  constructor
  · intro hsame
    have hnil : portText port = [] := by
      by_contra hne
      have hcolon : 58 ∈ t.map toLowerByte := by
        rw [← hsame, List.mem_append]
        right
        unfold portText at hne ⊢
        split
        · rename_i hsmall
          rw [if_pos hsmall] at hne
          exact absurd rfl hne
        · exact List.mem_cons_self
      exact ht (mem_of_mem_map_toLowerByte (by decide) hcolon)
    rw [hnil, List.append_nil] at hsame
    exact ⟨hsame, hnil⟩
  · rintro ⟨hsame, hnil⟩
    rw [hnil, List.append_nil]
    exact hsame

end Internal
end OssSdk
