import OssSdk.Internal.RequestPath
import OssSdk.Internal.UrlAuthority

/-!
# The host and the port of an endpoint

An endpoint is what a user writes, and the authority of the requests is to be made of the
host and the port in it.
-/

namespace OssSdk
namespace Internal

open Foundation
open Utils

variable {σ : Type}

/-!
# Endpoints
-/

/-- A domain name, or an IPv4 address. -/
def IsName (host : ByteString) : Prop :=
  host ≠ [] ∧ host.all (fun c => isAlnum c || c == 45 || c == 46 || c == 95) = true

/-- An IPv6 address in brackets. -/
def IsLiteral (host : ByteString) : Prop :=
  exists address : ByteString, 58 ∈ address ∧
    address.all (fun c => isxdigit c || c == 58 || c == 46) = true ∧
    host = 91 :: address ++ [93]

def IsSchemeName (scheme : ByteString) : Prop :=
  scheme ≠ [] ∧ scheme.all (fun c => isAlnum c || c == 43 || c == 45 || c == 46) = true

def IsPort (port : ByteString) : Prop :=
  port ≠ [] ∧ port.all isDigit = true ∧ 1 ≤ ofDecimal port ∧ ofDecimal port ≤ 65535

/-- `tail` has the path, the query and the fragment, as far as they are there. -/
structure Endpoint where
  scheme : Option ByteString
  host : ByteString
  port : Option ByteString
  tail : ByteString
  isScheme : forall s, s ∈ scheme -> IsSchemeName s
  isHost : IsName host ∨ IsLiteral host
  isPort : forall p, p ∈ port -> IsPort p
  isTail : forall c, c ∈ tail.head? -> c = 47 ∨ c = 63 ∨ c = 35

namespace Endpoint

def hostPort (e : Endpoint) : ByteString :=
  e.host ++ e.port.elim [] fun p => 58 :: p

def text (e : Endpoint) : ByteString :=
  (e.scheme.elim [] fun s => s ++ bytes "://") ++ (e.hostPort ++ e.tail)

/-- The host in small letters, and the port as a number. -/
def authority (e : Endpoint) : ByteString :=
  e.host.map toLowerByte ++ e.port.elim [] fun p => 58 :: toDecimal (ofDecimal p)

end Endpoint

/-- A client that makes no requests at all. -/
def ReportsInvalid (c : ClientImplBase σ) : Prop :=
  forall input, exists message,
    verifyOperation c input =
      some (ErrorCode.client .EndpointInvalid, bytes "IllegalArgument", message)

/-- The requests of a client go to what an authority says. -/
def Contacts (c : ClientImplBase σ) (authority : ByteString) : Prop :=
  forall input : OperationInput σ,
    buildHostPath input c.innerOptions.endpointAuthority c.options.addressStyle =
      buildHostPath input authority c.options.addressStyle

/-- The client that an endpoint makes. -/
def ClientImplBase.withEndpoint (c : ClientImplBase σ) (fns : List (ClientOptionsFn σ))
    (disableSsl : Bool) (e : Endpoint) : ClientImplBase σ :=
  c.init (addScheme e.text disableSsl) fns

/-- The endpoint is reported as invalid, or it is contacted as it was written. -/
def ContactedAsWritten (c : ClientImplBase σ) (fns : List (ClientOptionsFn σ))
    (disableSsl : Bool) (e : Endpoint) : Prop :=
  ReportsInvalid (c.withEndpoint fns disableSsl e) ∨
    Contacts (c.withEndpoint fns disableSsl e) e.authority

/-!
# When the endpoint is kept
-/

/--
An authority that does no harm in the place of a host: it is not valid, or it has the
same host, no user and no port that is printed.
-/
def Harmless (host authority : ByteString) : Prop :=
  before 58 (hostPortPart authority) = [] ∨
  ((userPart authority).head? = some 58 ∧ userPart authority ≠ [58]) ∨
  ((userPart authority = [] ∨ userPart authority = [58]) ∧
    (before 58 (hostPortPart authority)).map toLowerByte = host.map toLowerByte ∧
    (after 58 (hostPortPart authority) = [] ∨ atoi (after 58 (hostPortPart authority)) ≤ 1))

/-- With a scheme: the tail has no line end, or scheme and host are the same. -/
def KeptWithScheme (scheme : ByteString) (e : Endpoint) : Prop :=
  NoLineEnd e.tail ∨
    (e.port = none ∧ scheme.map toLowerByte = e.host.map toLowerByte)

/-- Without one: no part of the tail is taken for the authority, or it does no harm. -/
def KeptWithoutScheme (e : Endpoint) : Prop :=
  e.port = none -> forall u rest : ByteString, 58 ∉ u -> NoLineEnd rest ->
    e.tail = u ++ bytes "://" ++ rest -> Harmless e.host (authorityText rest)

/-- The host is no IPv6 address, the port is not 1, and the text is not misread. -/
structure Endpoint.Kept (e : Endpoint) : Prop where
  isName : IsName e.host
  port : forall p, p ∈ e.port -> ofDecimal p ≠ 1
  scheme : forall s, e.scheme = some s -> KeptWithScheme s e
  noScheme : e.scheme = none -> KeptWithoutScheme e

/-!
# What a client makes of its endpoint
-/

theorem reportsInvalid_iff (c : ClientImplBase σ) :
    ReportsInvalid c ↔ c.innerOptions.endpointAuthority = [] := by
  constructor
  · intro hreports
    by_contra hne
    rcases hreports ⟨[], [], SortedMap.empty, SortedMap.empty, none, none,
      SortedMap.empty, none⟩ with ⟨message, hverify⟩
    unfold verifyOperation at hverify
    simp only [List.isEmpty_eq_false_iff.mpr hne, Bool.false_eq_true, if_false] at hverify
    rw [if_pos (by decide)] at hverify
    cases hverify
  · intro hnil input
    refine ⟨bytes "endpoint or region is invalid", ?_⟩
    unfold verifyOperation
    simp only [hnil, List.isEmpty_nil, if_true]

theorem contacts_iff (c : ClientImplBase σ) (authority : ByteString) :
    Contacts c authority ↔ c.innerOptions.endpointAuthority = authority := by
  constructor
  · intro hcontacts
    have hbare := hcontacts ⟨[], [], SortedMap.empty, SortedMap.empty, none, none,
      SortedMap.empty, none⟩
    rw [buildHostPath_eq, buildHostPath_eq] at hbare
    exact List.append_cancel_right (List.append_cancel_right hbare)
  · intro hsame input
    rw [hsame]

theorem contactedAsWritten_iff_authority (c : ClientImplBase σ)
    (fns : List (ClientOptionsFn σ)) (disableSsl : Bool) (e : Endpoint) :
    ContactedAsWritten c fns disableSsl e ↔
      (Url.fromString (addScheme e.text disableSsl)).authority = [] ∨
        (Url.fromString (addScheme e.text disableSsl)).authority = e.authority := by
  unfold ContactedAsWritten
  rw [reportsInvalid_iff, contacts_iff]
  exact Iff.rfl

/-!
# The text of an endpoint
-/

theorem inert_name {host : ByteString} (hhost : IsName host) : Inert host ∧ 58 ∉ host :=
  ⟨inert_of_all hhost.2 (by decide), not_mem_of_all hhost.2 (by decide)⟩

theorem inert_scheme {scheme : ByteString} (hscheme : IsSchemeName scheme) :
    Inert scheme ∧ 58 ∉ scheme :=
  ⟨inert_of_all hscheme.2 (by decide), not_mem_of_all hscheme.2 (by decide)⟩

theorem inert_literal {host : ByteString} (hhost : IsLiteral host) : Inert host := by
  rcases hhost with ⟨address, _, hall, hhost⟩
  have hopen : Inert [91] := inert_of_all (p := fun c => c == 91) (by decide) (by decide)
  have hclose : Inert [93] := inert_of_all (p := fun c => c == 93) (by decide) (by decide)
  have haddress : Inert address := inert_of_all hall (by decide)
  rw [hhost]
  exact (hopen.append haddress).append hclose

theorem inert_port {port : ByteString} (hport : IsPort port) : Inert (58 :: port) := by
  have hdigits : Inert port := inert_of_all hport.2.1 (by decide)
  exact inert_colon.append hdigits

theorem Endpoint.inert_hostPort (e : Endpoint) : Inert e.hostPort := by
  have hhost : Inert e.host := e.isHost.elim (fun h => (inert_name h).1) inert_literal
  unfold Endpoint.hostPort
  cases hport : e.port with
  | none =>
      have hsame : e.host ++ (none : Option ByteString).elim [] (fun p => 58 :: p) = e.host :=
        List.append_nil _
      rw [hsame]
      exact hhost
  | some p => exact hhost.append (inert_port (e.isPort p hport))

/-!
# The port that is printed
-/

theorem atoi_digits {port : ByteString} (hne : port ≠ []) (hdigits : port.all isDigit = true)
    (hmax : ofDecimal port < 2 ^ 31) : atoi port = ofDecimal port := by
  have hmark : forall c : UInt8, isDigit c = true -> isspace c = false ∧ c ≠ 45 ∧ c ≠ 43 :=
    forall_byte (by decide +kernel)
  cases port with
  | nil => exact absurd rfl hne
  | cons c rest =>
      have hc := hmark c (List.all_eq_true.mp hdigits c List.mem_cons_self)
      have hspace : (c :: rest).dropWhile isspace = c :: rest :=
        List.dropWhile_cons_of_neg (by rw [hc.1]; exact Bool.false_ne_true)
      have hall : (c :: rest).takeWhile isDigit = c :: rest :=
        List.takeWhile_eq_self_iff.mpr (List.all_eq_true.mp hdigits)
      unfold atoi
      rw [hspace]
      simp only
      split
      · rename_i heq
        injection heq with hminus
        exact absurd hminus hc.2.1
      · rename_i heq
        injection heq with hplus
        exact absurd hplus hc.2.2
      · rw [hall, BitVec.toInt_ofInt]
        generalize ofDecimal (c :: rest) = n at hmax
        have hclamp : max (-2 ^ 63) (min (2 ^ 63 - 1) (n : Int)) = n := by omega
        rw [hclamp]
        exact Int.bmod_eq_of_le (by omega) (by omega)

theorem atoi_port {port : ByteString} (hport : IsPort port) : atoi port = ofDecimal port :=
  atoi_digits hport.1 hport.2.1 (Nat.lt_of_le_of_lt hport.2.2.2 (by decide))

theorem portText_port {port : ByteString} (hport : IsPort port) :
    portText port = if ofDecimal port = 1 then [] else 58 :: toDecimal (ofDecimal port) := by
  unfold portText
  rw [atoi_port hport]
  by_cases hone : ofDecimal port = 1
  · rw [if_pos hone, if_pos (Or.inr (by omega))]
  · have hlarge : ¬ (port = [] ∨ (ofDecimal port : Int) ≤ 1) := by
      rw [not_or]
      have hmin := hport.2.2.1
      exact ⟨hport.1, by omega⟩
    rw [if_neg hone, if_neg hlarge]
    rfl

/-!
# Names and literals
-/

/-- What is contacted when the text is read as it was meant. -/
def Endpoint.plainAuthority (e : Endpoint) : ByteString :=
  (before 58 e.hostPort).map toLowerByte ++ portText (after 58 e.hostPort)

namespace Endpoint

variable {e : Endpoint}

theorem before_hostPort (hname : IsName e.host) : before 58 e.hostPort = e.host := by
  have hcolon := (inert_name hname).2
  unfold hostPort
  cases e.port with
  | none => exact (congrArg (before 58) (List.append_nil _)).trans (before_eq_self hcolon)
  | some p => exact before_append hcolon p

theorem after_hostPort (hname : IsName e.host) :
    after 58 e.hostPort = e.port.elim [] fun p => p := by
  have hcolon := (inert_name hname).2
  unfold hostPort
  cases e.port with
  | none => exact (congrArg (after 58) (List.append_nil _)).trans (after_eq_nil hcolon)
  | some p => exact after_append hcolon p

theorem before_hostPort_ne_nil (e : Endpoint) : before 58 e.hostPort ≠ [] := by
  rcases e.isHost with hname | hliteral
  · rw [before_hostPort hname]
    exact hname.1
  · rcases hliteral with ⟨address, _, _, hhost⟩
    unfold hostPort
    rw [hhost]
    intro hnil
    cases hnil

theorem plainAuthority_ne_nil (e : Endpoint) : e.plainAuthority ≠ [] := by
  unfold plainAuthority
  refine List.append_ne_nil_of_left_ne_nil ?_ _
  intro hnil
  exact e.before_hostPort_ne_nil (List.map_eq_nil_iff.mp hnil)

theorem plainAuthority_name (hname : IsName e.host) :
    e.plainAuthority = e.authority ↔ forall p, p ∈ e.port -> ofDecimal p ≠ 1 := by
  unfold plainAuthority authority
  rw [before_hostPort hname, after_hostPort hname, List.append_cancel_left_eq]
  cases hport : e.port with
  | none =>
      constructor
      · intro _ p hp
        cases hp
      · intro _
        rfl
  | some p =>
      change portText p = 58 :: toDecimal (ofDecimal p) ↔ _
      rw [portText_port (e.isPort p hport)]
      constructor
      · intro hsame p' hp' hone
        cases hp'
        rw [if_pos hone] at hsame
        cases hsame
      · intro hother
        rw [if_neg (hother p rfl)]

theorem bracket_mem_authority (hliteral : IsLiteral e.host) : 93 ∈ e.authority := by
  rcases hliteral with ⟨address, _, _, hhost⟩
  unfold authority
  rw [hhost, List.map_append]
  simp only [List.mem_append]
  exact Or.inl (Or.inr (by decide))

theorem bracket_not_mem_portText (port : ByteString) : 93 ∉ portText port := by
  unfold portText
  split
  · exact List.not_mem_nil
  · rename_i hlarge
    rw [not_or] at hlarge
    intro hmem
    rcases List.mem_cons.mp hmem with hcolon | hdigits
    · cases hcolon
    · cases hvalue : atoi port with
      | ofNat n =>
          rw [hvalue] at hdigits
          cases isDigit_of_mem_toDecimal hdigits
      | negSucc n =>
          have hneg := hlarge.2
          rw [hvalue] at hneg
          omega

/-- The address is cut at its first colon, before the bracket that closes it. -/
theorem plainAuthority_literal (hliteral : IsLiteral e.host) :
    e.plainAuthority ≠ e.authority := by
  intro hsame
  have hmem : 93 ∈ e.plainAuthority := hsame ▸ bracket_mem_authority hliteral
  rcases hliteral with ⟨address, hcolon, hall, hhost⟩
  have hbefore : before 58 e.hostPort = 91 :: before 58 address := by
    have hpieces : e.hostPort =
        [91] ++ (address ++ ([93] ++ e.port.elim [] fun p => 58 :: p)) := by
      unfold hostPort
      rw [hhost]
      simp only [List.append_assoc, List.cons_append, List.nil_append]
    rw [hpieces, before_append_left (by decide), (before_after_append hcolon _).1]
    rfl
  unfold plainAuthority at hmem
  rw [hbefore] at hmem
  rcases List.mem_append.mp hmem with hin | hin
  · rcases List.mem_cons.mp (mem_of_mem_map_toLowerByte (by decide) hin) with hopen | haddress
    · cases hopen
    · have hdigit := List.all_eq_true.mp hall 93 (mem_of_mem_before haddress)
      revert hdigit
      decide
  · exact bracket_not_mem_portText _ hin

/-- The text is read as it was meant: is what is contacted what was written? -/
theorem plainAuthority_iff (e : Endpoint) :
    (e.plainAuthority = [] ∨ e.plainAuthority = e.authority) ↔
      IsName e.host ∧ forall p, p ∈ e.port -> ofDecimal p ≠ 1 := by
  constructor
  · rintro (hnil | hsame)
    · exact absurd hnil e.plainAuthority_ne_nil
    · rcases e.isHost with hname | hliteral
      · exact ⟨hname, (plainAuthority_name hname).mp hsame⟩
      · exact absurd hsame (plainAuthority_literal hliteral)
  · rintro ⟨hname, hport⟩
    exact Or.inr ((plainAuthority_name hname).mpr hport)

end Endpoint

/-!
# Where the scheme of an endpoint is found
-/

namespace Endpoint

variable {e : Endpoint}

theorem text_of_scheme {s : ByteString} (hscheme : e.scheme = some s) :
    e.text = s ++ bytes "://" ++ (e.hostPort ++ e.tail) := by
  unfold text
  rw [hscheme]
  rfl

theorem text_of_no_scheme (hscheme : e.scheme = none) : e.text = e.hostPort ++ e.tail := by
  unfold text
  rw [hscheme]
  rfl

theorem authority_of_scheme {s : ByteString} (hscheme : e.scheme = some s)
    (hline : NoLineEnd e.tail) (disableSsl : Bool) :
    (Url.fromString (addScheme e.text disableSsl)).authority = e.plainAuthority := by
  have hname := e.isScheme s hscheme
  have hcolon := (inert_scheme hname).2
  have hhas : hasScheme e.text = true := by
    rw [text_of_scheme hscheme, hasScheme_append hname.1 hcolon, noLineEnd_append]
    exact ⟨e.inert_hostPort.noLineEnd, hline⟩
  unfold addScheme
  rw [hhas, if_pos rfl, text_of_scheme hscheme]
  exact authority_fromString (isScheme_of_no_colon hcolon) hname.1 e.inert_hostPort
    e.before_hostPort_ne_nil e.isTail

theorem added_scheme (disableSsl : Bool) :
    IsScheme (if disableSsl then bytes "http" else bytes "https") ∧
      (if disableSsl then bytes "http" else bytes "https") ≠ [] := by
  cases disableSsl with
  | false => exact ⟨rfl, fun h => (nomatch h)⟩
  | true => exact ⟨rfl, fun h => (nomatch h)⟩

/-- Over a line end the scheme is not seen, and is contacted. -/
theorem authority_of_hidden_scheme {s : ByteString} (hscheme : e.scheme = some s)
    (hline : ¬ NoLineEnd e.tail) (disableSsl : Bool) :
    (Url.fromString (addScheme e.text disableSsl)).authority = s.map toLowerByte := by
  have hname := e.isScheme s hscheme
  rcases inert_scheme hname with ⟨hinert, hcolon⟩
  have hhas : ¬ hasScheme e.text = true := by
    rw [text_of_scheme hscheme, hasScheme_append hname.1 hcolon, noLineEnd_append]
    exact fun h => hline h.2
  have hmark : Inert [58] := inert_colon
  have hpieces : e.text = (s ++ [58]) ++ (47 :: 47 :: (e.hostPort ++ e.tail)) := by
    rw [text_of_scheme hscheme, List.append_assoc, List.append_assoc]
    rfl
  have hbefore : before 58 (s ++ [58]) = s := before_append hcolon []
  have hafter : after 58 (s ++ [58]) = [] := after_append hcolon []
  rcases added_scheme disableSsl with ⟨hadded, hsome⟩
  unfold addScheme
  rw [if_neg hhas, hpieces, authority_fromString hadded hsome (hinert.append hmark)
    (by rw [hbefore]; exact hname.1) (by rintro c hc; cases hc; exact Or.inl rfl), hbefore,
    hafter]
  exact List.append_nil _

theorem authority_of_no_scheme (hscheme : e.scheme = none) {disableSsl : Bool}
    (hhas : ¬ hasScheme e.text = true) :
    (Url.fromString (addScheme e.text disableSsl)).authority = e.plainAuthority := by
  rcases added_scheme disableSsl with ⟨hadded, hsome⟩
  unfold addScheme
  rw [if_neg hhas, text_of_no_scheme hscheme]
  exact authority_fromString hadded hsome e.inert_hostPort e.before_hostPort_ne_nil e.isTail

/-- After a colon in host and port no slash comes. -/
theorem after_hostPort_ne_nil (hcolon : 58 ∈ e.hostPort) : after 58 e.hostPort ≠ [] := by
  rcases e.isHost with hname | hliteral
  · rw [after_hostPort hname]
    cases hport : e.port with
    | none =>
        have hsame : e.hostPort = e.host := by
          unfold hostPort
          rw [hport]
          exact List.append_nil _
        exact absurd (hsame ▸ hcolon) (inert_name hname).2
    | some p => exact (e.isPort p hport).1
  · rcases hliteral with ⟨address, hin, _, hhost⟩
    have hpieces : e.hostPort =
        [91] ++ (address ++ ([93] ++ e.port.elim [] fun p => 58 :: p)) := by
      unfold hostPort
      rw [hhost]
      simp only [List.append_assoc, List.cons_append, List.nil_append]
    rw [hpieces, after_append_left (by decide), (before_after_append hin _).2]
    intro hnil
    have hlast := (List.append_eq_nil_iff.mp hnil).2
    cases hlast

/-- A scheme that is seen where none is written is seen in the tail. -/
theorem misread (hscheme : e.scheme = none) (hhas : hasScheme e.text = true) :
    IsName e.host ∧ e.port = none ∧ exists u rest : ByteString, 58 ∉ u ∧ NoLineEnd rest ∧
      e.tail = u ++ bytes "://" ++ rest := by
  rcases pieces_of_hasScheme hhas with ⟨v, rest, hv, hline, htext⟩
  rw [text_of_no_scheme hscheme] at htext
  have hafter : after 58 (e.hostPort ++ e.tail) = 47 :: 47 :: rest := by
    rw [htext, List.append_assoc]
    exact after_append hv _
  have hno : 58 ∉ e.hostPort := by
    intro hcolon
    rw [(before_after_append hcolon _).2] at hafter
    cases hpart : after 58 e.hostPort with
    | nil => exact after_hostPort_ne_nil hcolon hpart
    | cons c more =>
        rw [hpart] at hafter
        injection hafter with hc
        apply e.inert_hostPort.undelimited.path
        apply mem_of_mem_after (d := 58)
        rw [hpart, hc]
        exact List.mem_cons_self
  have hport : e.port = none := by
    cases hport : e.port with
    | none => rfl
    | some p =>
        exfalso
        apply hno
        unfold hostPort
        rw [hport]
        exact List.mem_append_right _ List.mem_cons_self
  have hhost : e.hostPort = e.host := by
    unfold hostPort
    rw [hport]
    exact List.append_nil _
  have hname : IsName e.host := by
    rcases e.isHost with hname | hliteral
    · exact hname
    · exfalso
      rcases hliteral with ⟨address, hin, _, hshape⟩
      rw [hhost, hshape] at hno
      apply hno
      exact List.mem_append_left _ (List.mem_cons_of_mem _ hin)
  -- the scheme that is seen begins with the whole host
  have htail : 58 ∈ e.tail := by
    by_contra hnot
    have hnone : 58 ∉ e.hostPort ++ e.tail := by
      rw [List.mem_append, not_or]
      exact ⟨hno, hnot⟩
    rw [after_eq_nil hnone] at hafter
    cases hafter
  refine ⟨hname, hport, before 58 e.tail, rest, not_mem_before 58 e.tail, hline, ?_⟩
  rw [after_append_left hno] at hafter
  have hwhole := before_cons_after htail
  rw [hafter] at hwhole
  rw [List.append_assoc]
  exact hwhole.symm

end Endpoint

/-!
# What is contacted
-/

/-- An authority does no harm when and only when no other host than `host` is contacted. -/
theorem harmless_iff {url : Url} {host authority : ByteString} (hhost : IsName host)
    (hparsed : url.Parsed authority) :
    (url.authority = [] ∨ url.authority = host.map toLowerByte) ↔
      Harmless host authority := by
  rcases inert_name hhost with ⟨hinert, hcolon⟩
  unfold Harmless
  by_cases hnoHost : before 58 (hostPortPart authority) = []
  · constructor
    · intro _
      exact Or.inl hnoHost
    · intro _
      exact Or.inl (hparsed.authority_of_no_host hnoHost)
  · by_cases huser : userPart authority = [] ∨ userPart authority = [58]
    · have hne : url.authority ≠ [] := by
        rw [hparsed.authority_of_no_user hnoHost huser]
        refine List.append_ne_nil_of_left_ne_nil ?_ _
        intro hnil
        exact hnoHost (List.map_eq_nil_iff.mp hnil)
      have hnoPassword : ¬ ((userPart authority).head? = some 58 ∧
          userPart authority ≠ [58]) := by
        rintro ⟨hhead, hmore⟩
        rcases huser with hnil | hone
        · rw [hnil] at hhead
          cases hhead
        · exact hmore hone
      rw [hparsed.authority_of_no_user hnoHost huser] at hne ⊢
      rw [lower_append_portText hcolon, portText_eq_nil_iff]
      constructor
      · rintro (hnil | hsame)
        · exact absurd hnil hne
        · exact Or.inr (Or.inr ⟨huser, hsame⟩)
      · rintro (hnil | hpassword | ⟨_, hsame⟩)
        · exact absurd hnil hnoHost
        · exact absurd hpassword hnoPassword
        · exact Or.inr hsame
    · rw [not_or] at huser
      by_cases hhead : (userPart authority).head? = some 58
      · constructor
        · intro _
          exact Or.inr (Or.inl ⟨hhead, huser.2⟩)
        · intro _
          exact Or.inl (hparsed.authority_of_password hhead huser.2)
      · have hname : before 58 (userPart authority) ≠ [] := by
          cases hpart : userPart authority with
          | nil => exact absurd hpart huser.1
          | cons c rest =>
              have hc : (c != 58) = true := by
                rw [bne_iff_ne]
                intro heq
                rw [hpart, heq] at hhead
                exact hhead rfl
              unfold before
              rw [List.takeWhile_cons, hc]
              exact List.cons_ne_nil _ _
        have hat := hparsed.at_mem_authority hnoHost hname
        constructor
        · rintro (hnil | hsame)
          · rw [hnil] at hat
            cases hat
          · rw [hsame] at hat
            exact absurd (mem_of_mem_map_toLowerByte (by decide) hat) hinert.noUser
        · rintro (hnil | hpassword | ⟨hnone, _⟩)
          · exact absurd hnil hnoHost
          · exact absurd hpassword.1 hhead
          · exact absurd hnone (by rw [not_or]; exact huser)

namespace Endpoint

variable {e : Endpoint}

theorem authority_of_no_port (hport : e.port = none) :
    e.authority = e.host.map toLowerByte := by
  unfold authority
  rw [hport]
  exact List.append_nil _

/-- Over a line end a scheme is contacted: is it the host? -/
theorem hidden_scheme_iff {s : ByteString} (hname : IsSchemeName s) :
    (s.map toLowerByte = [] ∨ s.map toLowerByte = e.authority) ↔
      IsName e.host ∧ e.port = none ∧ s.map toLowerByte = e.host.map toLowerByte := by
  have hcolon : 58 ∉ s.map toLowerByte := fun hmem =>
    (inert_scheme hname).2 (mem_of_mem_map_toLowerByte (by decide) hmem)
  constructor
  · rintro (hnil | hsame)
    · exact absurd (List.map_eq_nil_iff.mp hnil) hname.1
    · have hport : e.port = none := by
        cases hport : e.port with
        | none => rfl
        | some p =>
            exfalso
            apply hcolon
            rw [hsame]
            unfold authority
            rw [hport]
            exact List.mem_append_right _ List.mem_cons_self
      refine ⟨?_, hport, ?_⟩
      · rcases e.isHost with hhost | hliteral
        · exact hhost
        · exfalso
          have hbracket := bracket_mem_authority hliteral
          rw [← hsame] at hbracket
          have hmark := List.all_eq_true.mp hname.2 93
            (mem_of_mem_map_toLowerByte (by decide) hbracket)
          revert hmark
          decide
      · rw [hsame, authority_of_no_port hport]
  · rintro ⟨_, hport, hsame⟩
    right
    rw [hsame, authority_of_no_port hport]

theorem text_of_bare (hscheme : e.scheme = none) (hport : e.port = none) {u rest : ByteString}
    (htail : e.tail = u ++ bytes "://" ++ rest) :
    e.text = e.host ++ u ++ bytes "://" ++ rest := by
  rw [text_of_no_scheme hscheme, htail]
  unfold hostPort
  rw [hport]
  simp only [Option.elim_none, List.append_nil, List.append_assoc]

theorem kept_iff_of_scheme {s : ByteString} (hscheme : e.scheme = some s) :
    e.Kept ↔ IsName e.host ∧ (forall p, p ∈ e.port -> ofDecimal p ≠ 1) ∧
      KeptWithScheme s e := by
  constructor
  · intro hkept
    exact ⟨hkept.isName, hkept.port, hkept.scheme s hscheme⟩
  · rintro ⟨hname, hport, hkept⟩
    refine ⟨hname, hport, ?_, ?_⟩
    · intro s' hs'
      rw [hscheme] at hs'
      cases hs'
      exact hkept
    · intro hnone
      rw [hscheme] at hnone
      cases hnone

theorem kept_iff_of_no_scheme (hscheme : e.scheme = none) :
    e.Kept ↔ IsName e.host ∧ (forall p, p ∈ e.port -> ofDecimal p ≠ 1) ∧
      KeptWithoutScheme e := by
  constructor
  · intro hkept
    exact ⟨hkept.isName, hkept.port, hkept.noScheme hscheme⟩
  · rintro ⟨hname, hport, hkept⟩
    refine ⟨hname, hport, ?_, fun _ => hkept⟩
    intro s hs
    rw [hscheme] at hs
    cases hs

theorem kept_of_no_line_end {s : ByteString} (hscheme : e.scheme = some s)
    (hline : NoLineEnd e.tail) :
    (e.plainAuthority = [] ∨ e.plainAuthority = e.authority) ↔ e.Kept := by
  rw [plainAuthority_iff, kept_iff_of_scheme hscheme]
  constructor
  · rintro ⟨hname, hport⟩
    exact ⟨hname, hport, Or.inl hline⟩
  · rintro ⟨hname, hport, _⟩
    exact ⟨hname, hport⟩

theorem kept_of_line_end {s : ByteString} (hscheme : e.scheme = some s)
    (hline : ¬ NoLineEnd e.tail) :
    (s.map toLowerByte = [] ∨ s.map toLowerByte = e.authority) ↔ e.Kept := by
  rw [hidden_scheme_iff (e.isScheme s hscheme), kept_iff_of_scheme hscheme]
  constructor
  · rintro ⟨hname, hport, hsame⟩
    refine ⟨hname, ?_, Or.inr ⟨hport, hsame⟩⟩
    intro p hp
    rw [hport] at hp
    cases hp
  · rintro ⟨hname, _, hkept⟩
    exact ⟨hname, hkept.resolve_left hline⟩

theorem kept_of_unread (hscheme : e.scheme = none) (hhas : ¬ hasScheme e.text = true) :
    (e.plainAuthority = [] ∨ e.plainAuthority = e.authority) ↔ e.Kept := by
  rw [plainAuthority_iff, kept_iff_of_no_scheme hscheme]
  constructor
  · rintro ⟨hname, hport⟩
    refine ⟨hname, hport, ?_⟩
    intro hnone u rest hu hline htail
    exfalso
    apply hhas
    have hcolon : 58 ∉ e.host ++ u := by
      rw [List.mem_append, not_or]
      exact ⟨(inert_name hname).2, hu⟩
    have hne : e.host ++ u ≠ [] := List.append_ne_nil_of_left_ne_nil hname.1 _
    rw [text_of_bare hscheme hnone htail]
    exact (hasScheme_append hne hcolon rest).mpr hline
  · rintro ⟨hname, hport, _⟩
    exact ⟨hname, hport⟩

theorem kept_of_misread (hscheme : e.scheme = none) (hhas : hasScheme e.text = true)
    (disableSsl : Bool) :
    ((Url.fromString (addScheme e.text disableSsl)).authority = [] ∨
      (Url.fromString (addScheme e.text disableSsl)).authority = e.authority) ↔ e.Kept := by
  rcases misread hscheme hhas with ⟨hname, hport, u, rest, hu, hline, htail⟩
  have hcolon : 58 ∉ e.host ++ u := by
    rw [List.mem_append, not_or]
    exact ⟨(inert_name hname).2, hu⟩
  have hparsed : (Url.fromString (addScheme e.text disableSsl)).Parsed
      (authorityText rest) := by
    unfold addScheme
    rw [hhas, if_pos rfl, text_of_bare hscheme hport htail]
    exact Url.parsed_fromString (isScheme_of_no_colon hcolon)
      (List.append_ne_nil_of_left_ne_nil hname.1 _) rest
  rw [authority_of_no_port hport, harmless_iff hname hparsed, kept_iff_of_no_scheme hscheme]
  constructor
  · intro hharmless
    refine ⟨hname, ?_, ?_⟩
    · intro p hp
      rw [hport] at hp
      cases hp
    · intro _ u' rest' hu' _ htail'
      -- both begin at the first colon of the tail
      have hafter := congrArg (after 58) (htail'.symm.trans htail)
      rw [List.append_assoc, List.append_assoc] at hafter
      have hleft : 47 :: 47 :: rest' = after 58 (u' ++ (bytes "://" ++ rest')) :=
        (after_append hu' (bytes "//" ++ rest')).symm
      have hright : after 58 (u ++ (bytes "://" ++ rest)) = 47 :: 47 :: rest :=
        after_append hu (bytes "//" ++ rest)
      have hsame : 47 :: 47 :: rest' = 47 :: 47 :: rest :=
        (hleft.trans hafter).trans hright
      injection hsame with _ hsame
      injection hsame with _ hsame
      rw [hsame]
      exact hharmless
  · rintro ⟨_, _, hkept⟩
    exact hkept hport u rest hu hline htail

end Endpoint

/--
An endpoint is contacted as it was written, or reported, when and only when its host is
not an IPv6 address, its port is not 1, which stands for no port, and its text is not
misread: a line end hides a scheme that is there, and a `://` in a path, a query or a
fragment is taken for one that is not.
-/
theorem contactedAsWritten_iff (c : ClientImplBase σ) (fns : List (ClientOptionsFn σ))
    (disableSsl : Bool) (e : Endpoint) :
    ContactedAsWritten c fns disableSsl e ↔ e.Kept := by
  rw [contactedAsWritten_iff_authority]
  cases hscheme : e.scheme with
  | some s =>
      by_cases hline : NoLineEnd e.tail
      · rw [Endpoint.authority_of_scheme hscheme hline]
        exact Endpoint.kept_of_no_line_end hscheme hline
      · rw [Endpoint.authority_of_hidden_scheme hscheme hline]
        exact Endpoint.kept_of_line_end hscheme hline
  | none =>
      by_cases hhas : hasScheme e.text = true
      · exact Endpoint.kept_of_misread hscheme hhas disableSsl
      · rw [Endpoint.authority_of_no_scheme hscheme hhas]
        exact Endpoint.kept_of_unread hscheme hhas

/-- `http://[::1]:8080` -/
def loopbackEndpoint : Endpoint where
  scheme := some (bytes "http")
  host := bytes "[::1]"
  port := some (bytes "8080")
  tail := []
  isScheme := by
    intro s hs
    cases hs
    exact ⟨by decide, by decide⟩
  isHost := Or.inr ⟨bytes "::1", by decide, by decide, rfl⟩
  isPort := by
    intro p hp
    cases hp
    exact ⟨by decide, by decide, by decide, by decide⟩
  isTail := by
    intro c hc
    cases hc

/-- The host that is contacted is an opening bracket. -/
theorem not_contactedAsWritten_loopback :
    ¬ ContactedAsWritten (anonymousBase Unit) [] false loopbackEndpoint := by
  rw [contactedAsWritten_iff_authority]
  decide +kernel

end Internal
end OssSdk
