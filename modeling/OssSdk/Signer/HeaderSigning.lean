import OssSdk.Signer.SignerV4
import OssSdk.Signer.SignerV1

/-!
# Signing the same request again

A call stamps the headers of the request, makes a string to sign of them and assigns
the `Authorization` header.  What the next call stamps over is not seen again; what
it does not stamp over stays.
-/

namespace OssSdk
namespace Signer

open Foundation
open Internal
open Utils

variable {σ : Type}

/-- Credentials and a time to sign with; the clock is read when the time is not set. -/
structure SignCall (σ : Type) where
  credentials : Credentials
  hasKeys : credentials.hasKeys = true
  signTimeInEpoch : Int
  clockOffset : Int
  env : σ

namespace SignCall

def context (call : SignCall σ) (context : SigningContext) : SigningContext :=
  { context with
    credentials := call.credentials
    signTimeInEpoch := call.signTimeInEpoch
    clockOffset := call.clockOffset }

/-- A call on the request and the context that the calls before it left. -/
def run (signer : Internal.Signer σ) (call : SignCall σ)
    (s : RequestMessage σ × SigningContext) : RequestMessage σ × SigningContext :=
  let (_, request, context, _) := signer.sign s.1 (call.context s.2) call.env
  (request, context)

def timeNow (p : Platform σ) (call : SignCall σ) : Int :=
  if 0 < call.signTimeInEpoch then call.signTimeInEpoch
  else p.time call.env + call.clockOffset

end SignCall

def runCalls (signer : Internal.Signer σ) (calls : List (SignCall σ))
    (s : RequestMessage σ × SigningContext) : RequestMessage σ × SigningContext :=
  calls.foldl (fun s call => call.run signer s) s

theorem runCalls_concat (signer : Internal.Signer σ) (calls : List (SignCall σ))
    (call : SignCall σ) (s : RequestMessage σ × SigningContext) :
    runCalls signer (calls ++ [call]) s = call.run signer (runCalls signer calls s) := by
  unfold runCalls
  rw [List.foldl_append]
  rfl

/-!
# The token that calls leave behind
-/

def tokenOf (cred : Credentials) : Option ByteString :=
  if cred.sessionToken.isEmpty then none else some cred.sessionToken

/-- The token of the last call that has one. -/
def lastToken (calls : List (SignCall σ)) : Option ByteString :=
  calls.foldl (fun token call => (tokenOf call.credentials).or token) none

theorem lastToken_concat (calls : List (SignCall σ)) (call : SignCall σ) :
    lastToken (calls ++ [call]) = (tokenOf call.credentials).or (lastToken calls) := by
  unfold lastToken
  rw [List.foldl_append]
  rfl

/-- A header that is assigned when there is a value for it. -/
def assignSome (name : ByteString) (value : Option ByteString)
    (headers : HeaderCollection) : HeaderCollection :=
  match value with
  | some value => headers.insertOrAssign name value
  | none => headers

theorem stampToken_eq (cred : Credentials) (headers : HeaderCollection) :
    stampToken cred headers =
      assignSome (bytes "x-oss-security-token") (tokenOf cred) headers := by
  unfold stampToken tokenOf
  split
  · rfl
  · rfl

theorem assignSome_or (name : ByteString) (value old : Option ByteString)
    (headers : HeaderCollection) :
    assignSome name value (assignSome name old headers) =
      assignSome name (value.or old) headers := by
  cases value with
  | none => rfl
  | some v =>
      cases old with
      | none => rfl
      | some v' => exact SortedMap.insertOrAssign_insertOrAssign headers name v' v

theorem assignSome_comm {a b : ByteString}
    (hab : SortedMap.equivalent caseInsensitiveLess a b = false)
    (x y : Option ByteString) (headers : HeaderCollection) :
    assignSome b y (assignSome a x headers) =
      assignSome a x (assignSome b y headers) := by
  cases x with
  | none => rfl
  | some v =>
      cases y with
      | none => rfl
      | some v' => exact SortedMap.insertOrAssign_comm hab headers v v'

theorem find?_assignSome (name k : ByteString) (value : Option ByteString)
    (headers : HeaderCollection) :
    (assignSome name value headers).find? k =
      if SortedMap.equivalent caseInsensitiveLess name k = true then
        value.or (headers.find? k)
      else headers.find? k := by
  cases value with
  | none => simp [assignSome]
  | some v => simp [assignSome]

/-!
# Signing in the headers
-/

/-- `stamp` is what is assigned whatever the credentials are. -/
structure HeaderSigning (σ : Type) where
  signer : Internal.Signer σ
  time : SignCall σ -> Int
  stamp : Int -> HeaderCollection -> HeaderCollection
  stringToSign :
    SigningContext -> Int -> RequestMessage σ -> HeaderCollection -> ByteString
  authorization : SigningContext -> Int -> HeaderCollection -> ByteString -> ByteString
  stamp_stamp : forall t t' headers, stamp t (stamp t' headers) = stamp t headers
  stamp_assign : forall t name value headers,
    name = bytes "x-oss-security-token" ∨ name = bytes "Authorization" ->
      stamp t (assignSome name value headers) = assignSome name value (stamp t headers)
  find_stamp : forall t name headers,
    name = bytes "x-oss-security-token" ∨ name = bytes "Authorization" ->
      (stamp t headers).find? name = headers.find? name
  run_eq : forall (call : SignCall σ) (request : RequestMessage σ)
      (context : SigningContext), context.authMethodQuery = false ->
    let headers := stampToken call.credentials (stamp (time call) request.headers)
    let string := stringToSign (call.context context) (time call) request headers
    call.run signer (request, context) =
      ({ request with
          headers :=
            headers.insertOrAssign (bytes "Authorization")
              (authorization (call.context context) (time call) headers string) },
        { call.context context with
          stringToSign := string, signTimeInEpoch := time call })
  /-- Nothing of the context that a call changes is read, except what every call sets. -/
  frame : forall (context : SigningContext) (call : SignCall σ) (string : ByteString)
      (t : Int) (request : RequestMessage σ) (headers headers' : HeaderCollection),
    stringToSign (call.context { context with stringToSign := string }) t
        { request with headers := headers' } headers =
      stringToSign (call.context context) t request headers ∧
    authorization (call.context { context with stringToSign := string }) t headers =
      authorization (call.context context) t headers

/-- What calls on a request carry over to the next one. -/
structure Carried (S : HeaderSigning σ) (calls : List (SignCall σ))
    (request : RequestMessage σ) (context : SigningContext)
    (s : RequestMessage σ × SigningContext) : Prop where
  sameRequest : s.1 = { request with headers := s.1.headers }
  inHeaders : s.2.authMethodQuery = false
  sameContext : exists string, forall call : SignCall σ,
    call.context s.2 = call.context { context with stringToSign := string }
  sameHeaders : exists auth,
    (forall t, S.stamp t s.1.headers =
      assignSome (bytes "Authorization") auth
        (assignSome (bytes "x-oss-security-token") (lastToken calls)
          (S.stamp t request.headers))) ∧
    s.1.headers.find? (bytes "Authorization") =
      auth.or (request.headers.find? (bytes "Authorization"))

section Calls

variable {S : HeaderSigning σ} {request : RequestMessage σ} {context : SigningContext}

/-- The headers that a call signs, from those that are carried over to it. -/
theorem Carried.stamped {calls : List (SignCall σ)}
    {s : RequestMessage σ × SigningContext}
    (hcarried : Carried S calls request context s) (cred : Credentials) :
    exists auth, (forall t, stampToken cred (S.stamp t s.1.headers) =
        assignSome (bytes "Authorization") auth
          (assignSome (bytes "x-oss-security-token") ((tokenOf cred).or (lastToken calls))
            (S.stamp t request.headers))) ∧
      s.1.headers.find? (bytes "Authorization") =
        auth.or (request.headers.find? (bytes "Authorization")) := by
  rcases hcarried.sameHeaders with ⟨auth, hstamp, hfind⟩
  refine ⟨auth, ?_, hfind⟩
  intro t
  have hnames : SortedMap.equivalent caseInsensitiveLess (bytes "Authorization")
      (bytes "x-oss-security-token") = false := by decide
  rw [stampToken_eq, hstamp, assignSome_comm hnames, assignSome_or]

theorem Carried.call {calls : List (SignCall σ)}
    {s : RequestMessage σ × SigningContext}
    (hcarried : Carried S calls request context s) (call : SignCall σ) :
    Carried S (calls ++ [call]) request context (call.run S.signer s) := by
  rcases hcarried.sameContext with ⟨string, hcontext⟩
  rcases hcarried.stamped call.credentials with ⟨auth, hstamp, _⟩
  obtain ⟨headers, hheaders⟩ : exists headers, headers =
    stampToken call.credentials (S.stamp (S.time call) s.1.headers) := ⟨_, rfl⟩
  have hrun := S.run_eq call s.1 s.2 hcarried.inHeaders
  simp only [← hheaders, Prod.mk.eta] at hrun
  obtain ⟨text, htext⟩ : exists text, text =
    S.authorization (call.context s.2) (S.time call) headers
      (S.stringToSign (call.context s.2) (S.time call) s.1 headers) := ⟨_, rfl⟩
  rw [← htext] at hrun
  rw [hrun]
  have hauth : bytes "Authorization" = bytes "x-oss-security-token" ∨
      bytes "Authorization" = bytes "Authorization" := Or.inr rfl
  have hsame : SortedMap.equivalent caseInsensitiveLess (bytes "Authorization")
      (bytes "Authorization") = true := SortedMap.equivalent_refl _
  refine ⟨?_, hcarried.inHeaders, ?_, some text, ?_, ?_⟩
  · rw [hcarried.sameRequest]
  · refine ⟨S.stringToSign (call.context s.2) (S.time call) s.1 headers, ?_⟩
    intro next
    calc
      _ = { next.context s.2 with
            stringToSign :=
              S.stringToSign (call.context s.2) (S.time call) s.1 headers } := rfl
      _ = _ := by
        rw [hcontext next]
        rfl
  · intro t
    change S.stamp t (assignSome (bytes "Authorization") (some text) headers) = _
    rw [S.stamp_assign t _ (some text) headers hauth, hheaders, hstamp,
      S.stamp_assign t _ _ _ hauth, S.stamp_assign t _ _ _ (Or.inl rfl), S.stamp_stamp,
      assignSome_or, lastToken_concat, Option.some_or]
  · rw [SortedMap.find?_insertOrAssign, if_pos hsame]
    rfl

theorem Carried.calls (hheader : context.authMethodQuery = false)
    (calls : List (SignCall σ)) :
    Carried S calls request context (runCalls S.signer calls (request, context)) := by
  induction calls using List.reverseRecOn with
  | nil =>
      exact
        { sameRequest := rfl
          inHeaders := hheader
          sameContext := ⟨context.stringToSign, fun _ => rfl⟩
          sameHeaders := ⟨none, fun _ => rfl, rfl⟩ }
  | append_singleton calls call ih =>
      rw [runCalls_concat]
      exact ih.call call

/-- What a call makes of what is carried over to it. -/
theorem Carried.run_signed {calls : List (SignCall σ)}
    {s : RequestMessage σ × SigningContext}
    (hcarried : Carried S calls request context s) (last : SignCall σ) :
    let carried := stampToken last.credentials (S.stamp (S.time last) s.1.headers)
    let string := S.stringToSign (last.context context) (S.time last) request carried
    (last.run S.signer s).1.headers =
        carried.insertOrAssign (bytes "Authorization")
          (S.authorization (last.context context) (S.time last) carried string) ∧
      (last.run S.signer s).2.stringToSign = string := by
  intro carried string
  rcases hcarried.sameContext with ⟨old, hcontext⟩
  rcases S.frame context last old (S.time last) request carried s.1.headers with
    ⟨hstring, htext⟩
  have hstring' : S.stringToSign (last.context s.2) (S.time last) s.1 carried = string := by
    rw [hcontext last, hcarried.sameRequest]
    exact hstring
  have htext' : S.authorization (last.context s.2) (S.time last) carried =
      S.authorization (last.context context) (S.time last) carried := by
    rw [hcontext last]
    exact htext
  have hrun := S.run_eq last s.1 s.2 hcarried.inHeaders
  simp only [Prod.mk.eta] at hrun
  rw [hrun, hstring', htext']
  exact ⟨rfl, rfl⟩

end Calls

/-!
# Signing once
-/

/-- The last call leaves what it would leave on a fresh copy of the request. -/
def SignsAfresh (signer : Internal.Signer σ) (calls : List (SignCall σ))
    (last : SignCall σ) (request : RequestMessage σ) (context : SigningContext) : Prop :=
  let resigned := runCalls signer (calls ++ [last]) (request, context)
  let fresh := runCalls signer [last] (request, context)
  resigned.1.headers = fresh.1.headers ∧ resigned.2.stringToSign = fresh.2.stringToSign

/-- No earlier call leaves a token that the last call does not replace. -/
def TokenGone (calls : List (SignCall σ)) (last : SignCall σ)
    (request : RequestMessage σ) : Prop :=
  forall token, lastToken calls = some token -> last.credentials.sessionToken = [] ->
    request.headers.find? (bytes "x-oss-security-token") = some token

theorem tokenOf_eq_none {cred : Credentials} :
    tokenOf cred = none ↔ cred.sessionToken = [] := by
  unfold tokenOf
  split
  · rename_i hempty
    exact ⟨fun _ => List.isEmpty_iff.mp hempty, fun _ => rfl⟩
  · rename_i hsome
    constructor
    · intro hnone
      cases hnone
    · intro hnil
      rw [hnil] at hsome
      exact absurd rfl hsome

section Fresh

variable {S : HeaderSigning σ} {request : RequestMessage σ} {context : SigningContext}
variable {calls : List (SignCall σ)} {last : SignCall σ}

/-- The headers that the last call signs on a fresh copy. -/
def HeaderSigning.freshHeaders (S : HeaderSigning σ) (last : SignCall σ)
    (request : RequestMessage σ) : HeaderCollection :=
  stampToken last.credentials (S.stamp (S.time last) request.headers)

theorem assignToken_of_gone (hgone : TokenGone calls last request) :
    assignSome (bytes "x-oss-security-token")
        ((tokenOf last.credentials).or (lastToken calls))
        (S.stamp (S.time last) request.headers) =
      S.freshHeaders last request := by
  unfold HeaderSigning.freshHeaders
  rw [stampToken_eq]
  cases hlast : tokenOf last.credentials with
  | some token => rfl
  | none =>
      cases htoken : lastToken calls with
      | none => rfl
      | some token =>
          have hfound := hgone token htoken (tokenOf_eq_none.mp hlast)
          rw [← S.find_stamp (S.time last) _ _ (Or.inl rfl)] at hfound
          exact SortedMap.insertOrAssign_eq_self hfound

theorem tokenGone_of_find
    (hsame : ((tokenOf last.credentials).or (lastToken calls)).or
        (request.headers.find? (bytes "x-oss-security-token")) =
      (tokenOf last.credentials).or
        (request.headers.find? (bytes "x-oss-security-token"))) :
    TokenGone calls last request := by
  intro token htoken hempty
  rw [tokenOf_eq_none.mpr hempty, htoken] at hsame
  exact hsame.symm

/--
Signing again is signing once when no token stays behind and the `Authorization`
header of an earlier call makes no difference.
-/
theorem signsAfresh_iff (hheader : context.authMethodQuery = false) :
    exists auth, (runCalls S.signer calls (request, context)).1.headers.find?
          (bytes "Authorization") =
        auth.or (request.headers.find? (bytes "Authorization")) ∧
      let ctx := last.context context
      let fresh := S.freshHeaders last request
      let again := assignSome (bytes "Authorization") auth fresh
      let string := S.stringToSign ctx (S.time last) request
      let text := S.authorization ctx (S.time last)
      (TokenGone calls last request ->
        stampToken last.credentials (S.stamp (S.time last)
          (runCalls S.signer calls (request, context)).1.headers) = again) ∧
      (SignsAfresh S.signer calls last request context ↔
        TokenGone calls last request ∧ string again = string fresh ∧
          text again (string again) = text fresh (string fresh)) := by
  obtain ⟨s, hs⟩ : exists s, s = runCalls S.signer calls (request, context) := ⟨_, rfl⟩
  have hcarried : Carried S calls request context s := hs ▸ Carried.calls hheader calls
  rcases hcarried.stamped last.credentials with ⟨auth, hstamp, hfind⟩
  refine ⟨auth, by rw [← hs]; exact hfind, ?_⟩
  obtain ⟨carried, hcarriedHeaders⟩ : exists carried, carried =
    stampToken last.credentials (S.stamp (S.time last) s.1.headers) := ⟨_, rfl⟩
  intro ctx fresh again string text
  have hfresh : (last.run S.signer (request, context)).1.headers =
        fresh.insertOrAssign (bytes "Authorization") (text fresh (string fresh)) ∧
      (last.run S.signer (request, context)).2.stringToSign = string fresh :=
    (Carried.calls hheader []).run_signed last
  have hagain : (last.run S.signer s).1.headers =
        carried.insertOrAssign (bytes "Authorization") (text carried (string carried)) ∧
      (last.run S.signer s).2.stringToSign = string carried := by
    rw [hcarriedHeaders]
    exact hcarried.run_signed last
  have hsign : SignsAfresh S.signer calls last request context ↔
      carried.insertOrAssign (bytes "Authorization") (text carried (string carried)) =
          fresh.insertOrAssign (bytes "Authorization") (text fresh (string fresh)) ∧
        string carried = string fresh := by
    unfold SignsAfresh
    rw [runCalls_concat, ← hs]
    change (last.run S.signer s).1.headers =
          (last.run S.signer (request, context)).1.headers ∧
        (last.run S.signer s).2.stringToSign =
          (last.run S.signer (request, context)).2.stringToSign ↔ _
    rw [hagain.1, hagain.2, hfresh.1, hfresh.2]
  have hcarriedEq := hcarriedHeaders.trans (hstamp (S.time last))
  have hgoneAgain : TokenGone calls last request -> carried = again := by
    intro hgone
    rw [hcarriedEq, assignToken_of_gone hgone]
  refine ⟨fun hgone => by rw [← hs, ← hcarriedHeaders, hgoneAgain hgone], ?_⟩
  rw [hsign]
  constructor
  · intro hsame
    rcases hsame with ⟨hheaders, hstring⟩
    have hgone : TokenGone calls last request := by
      have htoken := congrArg
        (fun h => SortedMap.find? h (bytes "x-oss-security-token")) hheaders
      have hother : ¬ SortedMap.equivalent caseInsensitiveLess (bytes "Authorization")
          (bytes "x-oss-security-token") = true := by decide
      have hfresh' : fresh = assignSome (bytes "x-oss-security-token")
          (tokenOf last.credentials) (S.stamp (S.time last) request.headers) :=
        stampToken_eq _ _
      simp only [SortedMap.find?_insertOrAssign, if_neg hother, hcarriedEq,
        find?_assignSome, SortedMap.equivalent_refl, if_true, hfresh',
        S.find_stamp _ _ _ (Or.inl rfl)] at htoken
      exact tokenGone_of_find htoken
    have hauth := congrArg (fun h => SortedMap.find? h (bytes "Authorization")) hheaders
    simp only [SortedMap.find?_insertOrAssign, SortedMap.equivalent_refl, if_true] at hauth
    rw [hgoneAgain hgone] at hstring hauth
    exact ⟨hgone, hstring, Option.some.inj hauth⟩
  · intro hgood
    rcases hgood with ⟨hgone, hstring, htext⟩
    rw [hgoneAgain hgone]
    refine ⟨?_, hstring⟩
    change assignSome (bytes "Authorization") (some _) (assignSome _ auth fresh) = _
    rw [assignSome_or, Option.some_or]
    exact congrArg (fun v => fresh.insertOrAssign (bytes "Authorization") v) htext

end Fresh

end Signer
end OssSdk
