import OssSdk.Client.DownloadRun

/-!
# The file that a download leaves

A service that keeps to the ranges it is asked for, and a connection that may break off
after any part of a body.  The file of a successful download is the range of the object,
but for a body that is empty and for a range that a resumed download turns around.
-/

namespace OssSdk
namespace Client

open Foundation
open Internal
open Sync
open Transport
open Utils

variable {τ : Type}

/-!
# Ranges of an object
-/

def slice (object : ByteString) (first last : Int) : ByteString :=
  (if last = -1 then object else object.take (last + 1).toNat).drop first.toNat

/-- What a service has for a range: nothing, where the range begins past the end. -/
def rangeBytes (object : ByteString) : Option (Int × Int) -> Option ByteString
  | none => some object
  | some (first, last) =>
      if (object.length : Int) ≤ first then none else some (slice object first last)

/-- An end of -1 is that of the object. -/
structure Ordered (first last : Int) : Prop where
  nonneg : 0 ≤ first
  upTo : last = -1 ∨ first ≤ last

/-- The ranges that are accepted, where one is asked for. -/
def Accepted (range : Option (Int × Int)) : Prop :=
  forall first last, range = some (first, last) ->
    Ordered first last ∧ first < 2 ^ 63 ∧ last < 2 ^ 63

def rangeHeader (range : Option (Int × Int)) : Option ByteString :=
  range.map fun r => printRange r.1 r.2

section Ranges

variable {object bytes : ByteString} {first last : Int}

theorem rangeBytes_eq {range : Option (Int × Int)}
    (hbytes : rangeBytes object range = some bytes) :
    bytes = slice object (range.getD (0, -1)).1 (range.getD (0, -1)).2 := by
  cases range with
  | none =>
      cases hbytes
      rfl
  | some r =>
      rcases r with ⟨first, last⟩
      unfold rangeBytes at hbytes
      rw [Option.ite_none_left_eq_some] at hbytes
      exact (Option.some.inj hbytes.2).symm

theorem slice_drop (object : ByteString) (hfirst : 0 ≤ first) (last : Int) (offset : Nat) :
    slice object (first + offset) last = (slice object first last).drop offset := by
  have hsum : (first + offset).toNat = first.toNat + offset := by omega
  unfold slice
  rw [List.drop_drop, hsum]

theorem length_slice (object : ByteString) (hlast : last ≠ -1) :
    (slice object first last).length ≤ (last + 1).toNat - first.toNat := by
  unfold slice
  rw [if_neg hlast, List.length_drop]
  have htake : (object.take (last + 1).toNat).length ≤ (last + 1).toNat :=
    List.length_take_le _ _
  omega

end Ranges

/-!
# The service and the connection
-/

/--
A reply where these bytes are to be had.  Nothing comes of a connection that is lost
before there is a body; a refusal has a status of its own; of what is served some part
comes in, and all of it where the transfer is good.
-/
inductive Serves (bytes : Option ByteString) (reply : Curl.Reply) : Prop where
  | lost : reply.res ≠ Curl.CURLE_OK -> reply.chunks = [] -> Serves bytes reply
  | refused : 300 ≤ reply.statusCode -> reply.statusCode < 600 -> Serves bytes reply
  | served (content : ByteString) : bytes = some content ->
      (reply.statusCode = 200 ∨ reply.statusCode = 206) ->
      reply.chunks.flatten <+: content ->
      (reply.res = Curl.CURLE_OK -> reply.chunks.flatten = content) ->
      Serves bytes reply

/-- What comes in for a range that is out of order is left open. -/
def DownloadClient.Conforming (c : DownloadClient τ) (object : ByteString) : Prop :=
  forall (request : RequestMessage τ) (env : τ) (range : Option (Int × Int)),
    request.headers.find? (bytes "Range") = rangeHeader range ->
    (forall first last, range = some (first, last) -> Ordered first last) ->
    Serves (rangeBytes object range) (c.curl.wire request env).1

section Served

variable {c : DownloadClient τ} {y : Exchange τ} {wanted : Option ByteString}

/-- A reply that brings bytes, or that a result is made of, has served the range. -/
theorem served_body {result : GetObjectResult}
    (hserves : Serves wanted (c.replied y))
    (hused : taken (c.replied y) ≠ [] ∨ Answered c y result) :
    exists content, wanted = some content ∧ c.body y <+: content ∧
      ((c.replied y).res = Curl.CURLE_OK -> c.body y = content) := by
  cases hserves with
  | lost hres hchunks =>
      exfalso
      rcases hused with htaken | hanswered
      · refine htaken ?_
        unfold taken
        rw [hchunks, ite_self]
      · exact hres hanswered.res
  | refused hlow hhigh =>
      exfalso
      have hstatus : (c.replied y).statusCode.tdiv 100 ≠ 2 := by
        rw [Int.tdiv_eq_ediv_of_nonneg (by omega)]
        omega
      rcases hused with htaken | hanswered
      · refine htaken (if_pos ?_)
        unfold isErrorStatus
        simp [hstatus]
      · rcases hanswered.status with htwo | hzero
        · exact hstatus htwo
        · omega
  | served content hwanted hstatus hprefix hwhole =>
      have hgood : isErrorStatus (c.replied y).statusCode = false := by
        rcases hstatus with hcode | hcode
        · rw [hcode]
          decide
        · rw [hcode]
          decide
      have hbody : c.body y = (c.replied y).chunks.flatten := by
        unfold DownloadClient.body taken
        rw [hgood, if_neg Bool.false_ne_true]
      rw [hbody]
      exact ⟨content, hwanted, hprefix, hwhole⟩

end Served

/-!
# The ranges of a resumed download
-/

section Resumed

variable {c : DownloadClient τ} {plan : DownloadPlan} {request : GetObjectRequest τ}
variable {object whole : ByteString} {range : Option (Int × Int)}

/-- The range that a pass asks for. -/
def passRange (plan : DownloadPlan) (range : Option (Int × Int)) (offset : Nat) :
    Option (Int × Int) :=
  if 0 < (offset : Int) + plan.rangeStart ∨ plan.rangeEnd ≠ -1 then
    some (plan.rangeStart + offset, plan.rangeEnd)
  else range

theorem asked_eq (hheader : request.headers.find? (bytes "Range") = rangeHeader range)
    (offset : Nat) : asked plan request offset = rangeHeader (passRange plan range offset) := by
  unfold asked passRange
  split
  · rfl
  · exact hheader

/-- The plan is that of the range. -/
structure PlanOf (plan : DownloadPlan) (range : Option (Int × Int)) : Prop where
  accepted : Accepted range
  start : plan.rangeStart = (range.getD (0, -1)).1
  rangeEnd : plan.rangeEnd = (range.getD (0, -1)).2

theorem PlanOf.ordered (hplan : PlanOf plan range) :
    Ordered plan.rangeStart plan.rangeEnd := by
  rw [hplan.start, hplan.rangeEnd]
  cases range with
  | none => exact ⟨Int.le_refl 0, Or.inl rfl⟩
  | some r => exact (hplan.accepted r.1 r.2 rfl).1

/-- What is left of the bytes, where the range has not been turned around. -/
theorem passRange_bytes (hplan : PlanOf plan range)
    (hrange : rangeBytes object range = some whole)
    {offset : Nat} {content : ByteString}
    (hcontent : rangeBytes object (passRange plan range offset) = some content) :
    content = whole.drop offset := by
  have hwhole := rangeBytes_eq hrange
  rw [← hplan.start, ← hplan.rangeEnd] at hwhole
  unfold passRange at hcontent
  split at hcontent
  · have hpart := rangeBytes_eq hcontent
    rw [hpart, hwhole]
    exact slice_drop object hplan.ordered.nonneg _ offset
  · rename_i hnot
    have hzero : offset = 0 := by
      have hfirst := hplan.ordered.nonneg
      omega
    rw [hrange] at hcontent
    cases hcontent
    rw [hzero, List.drop_zero]

theorem passRange_zero (hplan : PlanOf plan range) :
    passRange plan range 0 = range := by
  unfold passRange
  split
  · rename_i hmoved
    cases range with
    | none =>
        have hstart := hplan.start
        have hend := hplan.rangeEnd
        simp only [Option.getD_none] at hstart hend
        omega
    | some r =>
        have hstart : plan.rangeStart = r.1 := hplan.start
        have hend : plan.rangeEnd = r.2 := hplan.rangeEnd
        rw [hstart, hend]
        exact congrArg some (Prod.ext (Int.add_zero _) rfl)
  · rfl

/-- A range is turned around only when all of its bytes have come in. -/
theorem passRange_ordered (hplan : PlanOf plan range) {offset : Nat}
    (hoffset : plan.rangeEnd = -1 ∨ plan.rangeStart + offset ≤ plan.rangeEnd)
    (first last : Int) (hpass : passRange plan range offset = some (first, last)) :
    Ordered first last := by
  have hfirst := hplan.ordered.nonneg
  unfold passRange at hpass
  split at hpass
  · cases hpass
    exact ⟨by omega, hoffset⟩
  · exact (hplan.accepted first last hpass).1

theorem PlanOf.length_le (hplan : PlanOf plan range)
    (hrange : rangeBytes object range = some whole) (hend : plan.rangeEnd ≠ -1) :
    (whole.length : Int) ≤ plan.rangeEnd + 1 - plan.rangeStart := by
  have hwhole := rangeBytes_eq hrange
  rw [← hplan.start, ← hplan.rangeEnd] at hwhole
  have hlength := @length_slice plan.rangeStart _ object hend
  rcases hplan.ordered with ⟨hnonneg, hupTo⟩
  rw [← hwhole] at hlength
  omega

/-- The range that an exchange asks for ends before it begins. -/
def TurnedAround (y : Exchange τ) : Prop :=
  exists first last : Int,
    y.request.headers.find? (bytes "Range") = some (printRange first last) ∧
      0 ≤ last ∧ last < first

theorem not_turnedAround {y : Exchange τ} {range : Option (Int × Int)}
    (hheader : y.request.headers.find? (bytes "Range") = rangeHeader range)
    (hordered : forall first last, range = some (first, last) -> Ordered first last) :
    ¬ TurnedAround y := by
  intro hturned
  rcases hturned with ⟨first, last, hprinted, hlast, hless⟩
  rw [hheader] at hprinted
  unfold rangeHeader at hprinted
  rw [Option.map_eq_some_iff] at hprinted
  rcases hprinted with ⟨r, hsome, hsame⟩
  rcases hordered r.1 r.2 hsome with ⟨hnonneg, hupTo⟩
  have hinjective :=
    printRange_injective hnonneg (by omega) (by omega) (by omega) hsame
  omega

/-- Only a download that has all of its bytes turns its range around. -/
theorem turnedAround_iff (hplan : PlanOf plan range)
    (hheader : request.headers.find? (bytes "Range") = rangeHeader range)
    {y : Exchange τ} {offset : Nat}
    (hask : y.request.headers.find? (bytes "Range") = asked plan request offset) :
    TurnedAround y ↔
      plan.rangeEnd ≠ -1 ∧ plan.rangeEnd < plan.rangeStart + offset := by
  rcases hplan.ordered with ⟨hnonneg, hupTo⟩
  rw [asked_eq hheader] at hask
  constructor
  · intro hturned
    by_contra hnot
    exact not_turnedAround hask (passRange_ordered hplan (by omega)) hturned
  · intro hturned
    have hmoved : passRange plan range offset =
        some (plan.rangeStart + offset, plan.rangeEnd) := if_pos (Or.inr hturned.1)
    refine ⟨plan.rangeStart + offset, plan.rangeEnd, ?_, by omega, hturned.2⟩
    rw [hask, hmoved]
    rfl

/-- One body goes on from where the bytes so far end. -/
theorem pass_body (hconforming : c.Conforming object)
    (hheader : request.headers.find? (bytes "Range") = rangeHeader range)
    (hplan : PlanOf plan range) (hrange : rangeBytes object range = some whole)
    {written : ByteString} (hwritten : written <+: whole)
    {y : Exchange τ} {result : GetObjectResult}
    (hask : y.request.headers.find? (bytes "Range") = asked plan request written.length)
    (hused : taken (c.replied y) ≠ [] ∨ Answered c y result)
    (hturned : TurnedAround y -> taken (c.replied y) = []) :
    written ++ c.body y <+: whole ∧
      ((c.replied y).res = Curl.CURLE_OK -> written ++ c.body y = whole) := by
  by_cases hpast : plan.rangeEnd ≠ -1 ∧ plan.rangeEnd < plan.rangeStart + written.length
  · have hnone := hturned ((turnedAround_iff hplan hheader hask).mpr hpast)
    have hlength := hplan.length_le hrange hpast.1
    have hall : written = whole := hwritten.eq_of_length_le (by omega)
    rw [body_eq_nil_iff.mpr hnone, List.append_nil, hall]
    exact ⟨List.prefix_refl whole, fun _ => rfl⟩
  · have hserves := hconforming y.request y.runtime.env
      (passRange plan range written.length) (by rw [hask, asked_eq hheader])
      (passRange_ordered hplan (by omega))
    rcases served_body hserves hused with ⟨content, hcontent, hprefix, hgood⟩
    have hrest := passRange_bytes hplan hrange hcontent
    have hsplit : written ++ whole.drop written.length = whole := by
      conv => lhs; lhs; rw [List.prefix_iff_eq_take.mp hwritten]
      exact List.take_append_drop _ _
    rw [hrest] at hprefix hgood
    constructor
    · rw [← hsplit]
      exact (List.prefix_append_right_inj written).mpr hprefix
    · intro hres
      rw [hgood hres]
      exact hsplit

/-- Bodies that follow one another make up the whole. -/
theorem bodies_joined (hconforming : c.Conforming object)
    (hheader : request.headers.find? (bytes "Range") = rangeHeader range)
    (hplan : PlanOf plan range) (hrange : rangeBytes object range = some whole)
    {y : Exchange τ} {result : GetObjectResult} (hanswered : Answered c y result)
    (earlier : List (Exchange τ)) {written : ByteString} (hwritten : written <+: whole)
    (hasks : AsksFrom c plan request written.length (earlier ++ [y]))
    (hearlier : forall z, z ∈ earlier -> taken (c.replied z) ≠ [])
    (hturned : forall z, z ∈ earlier ++ [y] -> TurnedAround z ->
      taken (c.replied z) = []) :
    written ++ c.bodies (earlier ++ [y]) = whole := by
  induction earlier generalizing written with
  | nil =>
      have hbody := pass_body hconforming hheader hplan hrange hwritten hasks.1
        (Or.inr hanswered) (hturned y List.mem_cons_self)
      rw [List.nil_append, bodies_single]
      exact hbody.2 hanswered.res
  | cons z earlier ih =>
      have hbody := @pass_body _ _ _ _ _ _ _ hconforming hheader hplan hrange _
          hwritten _ result hasks.1 (Or.inl (hearlier z List.mem_cons_self))
          (hturned z List.mem_cons_self)
      have hrest := hasks.2
      rw [← List.length_append] at hrest
      rw [List.cons_append, bodies_cons, ← List.append_assoc]
      exact ih hbody.1 hrest (fun z' hz' => hearlier z' (List.mem_cons_of_mem _ hz'))
        fun z' hz' => hturned z' (List.mem_cons_of_mem _ hz')

/-- What comes in for a range that was turned around is too much. -/
theorem turned_too_long
    (hheader : request.headers.find? (bytes "Range") = rangeHeader range)
    (hplan : PlanOf plan range) (hrange : rangeBytes object range = some whole)
    (sent : List (Exchange τ)) {written : ByteString}
    (hasks : AsksFrom c plan request written.length sent)
    {z : Exchange τ} (hz : z ∈ sent) (hturned : TurnedAround z)
    (htaken : taken (c.replied z) ≠ []) :
    whole.length < (written ++ c.bodies sent).length := by
  induction sent generalizing written with
  | nil => cases hz
  | cons y rest ih =>
      rw [bodies_cons, ← List.append_assoc]
      rcases List.mem_cons.mp hz with hfirst | hlater
      · rw [hfirst] at hturned htaken
        rcases (turnedAround_iff hplan hheader hasks.1).mp hturned with ⟨hend, hless⟩
        have hlength := hplan.length_le hrange hend
        have hpos : 0 < (c.body y).length :=
          List.length_pos_iff.mpr fun h => htaken (body_eq_nil_iff.mp h)
        rw [List.length_append, List.length_append]
        omega
      · have hrest := hasks.2
        rw [← List.length_append] at hrest
        exact ih hrest hlater

end Resumed

/-!
# Both clients
-/

/--
What it takes for the file to be right: an empty range finds an empty file, and no bytes
come in for a range that is turned around.
-/
structure WritesAll (c : DownloadClient τ) (object : ByteString)
    (range : Option (Int × Int)) (before : Option ByteString)
    (sent : List (Exchange τ)) : Prop where
  reaches : rangeBytes object range = some [] -> before = some []
  turned : forall y, y ∈ sent -> TurnedAround y -> taken (c.replied y) = []

/-- The file holds the bytes of the range, and nothing else. -/
def HoldsRange (c : DownloadClient τ) (object : ByteString) (range : Option (Int × Int))
    (w' : Runtime τ) : Prop :=
  exists whole, rangeBytes object range = some whole ∧
    (c.download w').file.content = some whole

section Both

variable {c : DownloadClient τ} {request : GetObjectRequest τ}
variable {object : ByteString} {range : Option (Int × Int)}
variable {result : GetObjectResult} {w' : Runtime τ}

theorem downloadRange_accepted (haccepted : Accepted range)
    (hheader : request.headers.find? (bytes "Range") = rangeHeader range) :
    downloadRange request.getRange = .ok (range.getD (0, -1)) := by
  unfold GetObjectRequest.getRange
  rw [hheader]
  cases range with
  | none => rfl
  | some r =>
      rcases r with ⟨first, last⟩
      rcases haccepted first last rfl with ⟨⟨hnonneg, hupTo⟩, hfirst, hlast⟩
      obtain ⟨n, rfl⟩ := Int.eq_ofNat_of_zero_le hnonneg
      rcases @exists_side last (by omega) with ⟨side, hside⟩
      have hsome : forall m, side = some m -> n ≤ m ∧ m < 2 ^ 63 := by
        intro m hm
        rw [hm, Option.elim_some] at hside
        omega
      have hparse := ParseRangeHeader_printRange (by omega) hsome
      rw [← hside] at hparse
      have hpresent : ¬ ((n : Int) = -1) := by omega
      have hnonempty : (printRange n last).isEmpty = false := by
        rw [List.isEmpty_eq_false_iff]
        exact printRange_ne_nil _ _
      unfold downloadRange
      simp only [rangeHeader, Option.map_some, Option.getD_some, hnonempty,
        Bool.false_eq_true, if_false, hparse, if_neg hpresent]

/-- What a successful download asks for first is there. -/
theorem completed_served {plan : DownloadPlan} (hconforming : c.Conforming object)
    (hheader : request.headers.find? (bytes "Range") = rangeHeader range)
    (hplan : PlanOf plan range)
    {earlier : List (Exchange τ)} {y : Exchange τ} (hanswered : Answered c y result)
    (hearlier : forall z, z ∈ earlier -> taken (c.replied z) ≠ [])
    (hasks : AsksFrom c plan request 0 (earlier ++ [y])) :
    exists whole, rangeBytes object range = some whole := by
  obtain ⟨z, rest, hall, hused⟩ : exists z rest, earlier ++ [y] = z :: rest ∧
      (taken (c.replied z) ≠ [] ∨ Answered c z result) := by
    cases earlier with
    | nil => exact ⟨y, [], rfl, Or.inr hanswered⟩
    | cons z earlier =>
        exact ⟨z, earlier ++ [y], rfl, Or.inl (hearlier z List.mem_cons_self)⟩
  rw [hall] at hasks
  have hask := hasks.1
  rw [asked_eq hheader, passRange_zero hplan] at hask
  have hserves := hconforming z.request z.runtime.env range hask
    fun first last hsome => (hplan.accepted first last hsome).1
  rcases served_body hserves hused with ⟨whole, hwhole, _, _⟩
  exact ⟨whole, hwhole⟩

theorem sync_holdsRange_iff (hconforming : c.Conforming object)
    (hsigner : c.base.options.signer.KeepsHeader (bytes "Range"))
    (hheader : request.headers.find? (bytes "Range") = rangeHeader range)
    {plan : DownloadPlan} (hplan : PlanOf plan range)
    {before : Option ByteString} {crc : BitVec 64} {sent : List (Exchange τ)}
    (hcompleted : Completed c plan request before [] crc sent result w') :
    HoldsRange c object range w' ↔ WritesAll c object range before sent := by
  rcases hcompleted.attempts with ⟨earlier, y, hsent, hearlier, hanswered⟩
  have hasks := hcompleted.asks hsigner
  have hholds := hcompleted.holds
  unfold Holds at hholds
  rw [List.nil_append] at hholds
  rw [hsent] at hasks hholds ⊢
  rcases completed_served hconforming hheader hplan hanswered hearlier hasks with
    ⟨whole, hwhole⟩
  constructor
  · intro hright
    rcases hright with ⟨whole', hwhole', hcontent⟩
    rw [hwhole] at hwhole'
    cases hwhole'
    rw [hholds] at hcontent
    constructor
    · intro hempty
      rw [hwhole] at hempty
      cases hempty
      split at hcontent
      · exact hcontent
      · rename_i hne
        exact absurd (Option.some.inj hcontent) hne
    · intro z hz hturned
      by_contra htaken
      have hlong := @turned_too_long _ _ _ _ _ _ _ hheader hplan hwhole _ [] hasks _
          hz hturned htaken
      rw [List.nil_append] at hlong
      have hne : c.bodies (earlier ++ [y]) ≠ [] := by
        intro hnil
        rw [hnil] at hlong
        exact Nat.not_lt_zero _ hlong
      rw [if_neg hne] at hcontent
      rw [Option.some.inj hcontent] at hlong
      exact Nat.lt_irrefl _ hlong
  · intro hwrites
    have hjoined := bodies_joined hconforming hheader hplan hwhole hanswered earlier
      (List.nil_prefix) hasks hearlier hwrites.turned
    rw [List.nil_append] at hjoined
    rw [hjoined] at hholds
    refine ⟨whole, hwhole, hholds.trans ?_⟩
    split
    · rename_i hnil
      rw [hnil] at hwhole ⊢
      exact hwrites.reaches hwhole
    · rfl

theorem bodies_eq_nil {sent : List (Exchange τ)}
    (hnone : forall z, z ∈ sent -> c.body z = []) : c.bodies sent = [] := by
  unfold DownloadClient.bodies
  rw [List.flatten_eq_nil_iff]
  intro body hbody
  rcases List.mem_map.mp hbody with ⟨z, hz, hsame⟩
  rw [← hsame]
  exact hnone z hz

theorem async_holdsRange_iff (hconforming : c.Conforming object)
    (hsigner : c.base.options.signer.KeepsHeader (bytes "Range"))
    (hheader : request.headers.find? (bytes "Range") = rangeHeader range)
    (haccepted : Accepted range) {d : Download} {sent : List (Exchange τ)}
    (hcompleted : CompletedAsync c request d sent result w') :
    HoldsRange c object range w' ↔ WritesAll c object range d.file.content sent := by
  rcases hcompleted.attempts with ⟨earlier, y, hsent, hanswered⟩
  have hordered : forall first last, range = some (first, last) -> Ordered first last :=
    fun first last hsome => (haccepted first last hsome).1
  have hasks : forall z, z ∈ sent ->
      z.request.headers.find? (bytes "Range") = rangeHeader range :=
    fun z hz => (hcompleted.asks hsigner z hz).trans hheader
  have hserves := fun z hz =>
    hconforming z.request z.runtime.env range (hasks z hz) hordered
  have hy : y ∈ sent := by
    rw [hsent]
    exact List.mem_append_right _ List.mem_cons_self
  rcases served_body (hserves y hy) (Or.inr hanswered) with ⟨whole, hwhole, _, hgood⟩
  have hbody := hgood hanswered.res
  have hdownload := hcompleted.download
  have hturned : forall z, z ∈ sent -> TurnedAround z -> taken (c.replied z) = [] :=
    fun z hz hbad => absurd hbad (not_turnedAround (hasks z hz) hordered)
  by_cases hempty : whole = []
  · rw [hempty] at hwhole
    have hnone : c.bodies sent = [] := by
      refine bodies_eq_nil fun z hz => ?_
      by_contra hsome
      have htaken : taken (c.replied z) ≠ [] := fun h => hsome (body_eq_nil_iff.mpr h)
      rcases @served_body _ _ _ _ result (hserves z hz) (Or.inl htaken) with
        ⟨content, hcontent, hprefix, _⟩
      rw [hwhole] at hcontent
      cases hcontent
      exact hsome (List.prefix_nil.mp hprefix)
    rw [(anew_foldl _ sent d).1 hnone] at hdownload
    unfold HoldsRange
    rw [hdownload]
    constructor
    · intro hright
      rcases hright with ⟨content, hcontent, hfile⟩
      rw [hwhole] at hcontent
      cases hcontent
      exact ⟨fun _ => hfile, hturned⟩
    · intro hwrites
      exact ⟨[], hwhole, hwrites.reaches hwhole⟩
  · have htaken : taken (c.replied y) ≠ [] := by
      intro hnone
      rw [body_eq_nil_iff.mpr hnone] at hbody
      exact hempty hbody.symm
    have hfile : (c.download w').file.content = some whole := by
      rw [hdownload, hsent, List.foldl_append]
      have hanew := (anew_taken (c.asyncObservers request)
        (earlier.foldl (c.effect (c.asyncObservers request)
          (c.asyncObservers request).openAnew) d) htaken).1
      rw [hbody] at hanew
      exact congrArg OutputFile.content hanew
    constructor
    · intro _
      refine ⟨fun hnil => ?_, hturned⟩
      rw [hwhole] at hnil
      exact absurd (Option.some.inj hnil) hempty
    · exact fun _ => ⟨whole, hwhole, hfile⟩

/-- The file of a successful download is right exactly under `WritesAll`. -/
theorem holdsRange_iff (c : DownloadClient τ) (hundisturbed : c.Undisturbed)
    (hsigner : c.base.options.signer.KeepsHeader (bytes "Range"))
    (object : ByteString) (hconforming : c.Conforming object)
    (request : GetObjectRequest τ) (range : Option (Int × Int))
    (hheader : request.headers.find? (bytes "Range") = rangeHeader range)
    (haccepted : Accepted range)
    (opts : Option (OperationOptions τ)) (w w' : Runtime τ) (kind : ClientKind)
    (sent : List (Exchange τ)) (result : GetObjectResult)
    (hdownloads : Downloads c request opts w kind sent (.ok result) w') :
    HoldsRange c object range w' ↔
      WritesAll c object range (c.download w).file.content sent := by
  cases hdownloads with
  | sync hrun =>
      rcases sync_completed hundisturbed hrun with ⟨first, last, hrange, hcompleted⟩
      rw [downloadRange_accepted haccepted hheader] at hrange
      have hplan : PlanOf (c.plan request first last) range := by
        rw [Except.ok.injEq] at hrange
        exact ⟨haccepted, by rw [hrange]; rfl, by rw [hrange]; rfl⟩
      exact sync_holdsRange_iff hconforming hsigner hheader hplan hcompleted
  | async hrun =>
      have hcompleted := async_completed hundisturbed hrun
      exact async_holdsRange_iff (d := (c.download w).observersMade) hconforming hsigner
        hheader haccepted hcompleted

end Both

/-!
# A download that is resumed, and one of an empty object
-/

/-- A client that signs nothing, and whose service looks at the range alone. -/
def rangeClient (reply : Option ByteString -> Curl.Reply) : DownloadClient Download where
  base := anonymousBase Download
  disableState := ⟨fun _ => false, fun _ d => (false, d)⟩
  curl := ⟨fun request d => (reply (request.headers.find? (bytes "Range")), d), none⟩
  cell := Cell.whole

theorem rangeClient_undisturbed (reply : Option ByteString -> Curl.Reply) :
    (rangeClient reply).Undisturbed := by
  refine ⟨⟨?_, fun _ _ _ => rfl, fun _ _ => rfl, fun _ _ _ => rfl⟩, fun _ _ => rfl⟩
  intro provider hprovider env
  cases hprovider
  rfl

def refusal (statusCode : Int) : Curl.Reply where
  statusCode := statusCode
  headers := SortedMap.empty
  recvDataLength := 0
  chunks := []
  res := Curl.CURLE_OK
  text := []
  chunks_nonempty := Curl.no_chunks

/-- Half of four bytes, and the other half when it is asked for. -/
def halves (range : Option ByteString) : Curl.Reply :=
  if range = none then
    { refusal 200 with
      recvDataLength := 4
      chunks := [[1, 2]]
      res := 18
      chunks_nonempty := by decide }
  else if range = some (printRange 2 (-1)) then
    { refusal 206 with
      recvDataLength := 2
      chunks := [[3, 4]]
      chunks_nonempty := by decide }
  else refusal 503

theorem halves_conforming : (rangeClient halves).Conforming [1, 2, 3, 4] := by
  intro request env range hheader hordered
  have hreply : ((rangeClient halves).curl.wire request env).1 =
      halves (rangeHeader range) := congrArg halves hheader
  rw [hreply]
  cases range with
  | none =>
      refine .served [1, 2, 3, 4] rfl (Or.inl rfl) ⟨[3, 4], rfl⟩ fun hres => ?_
      cases hres
  | some r =>
      rcases r with ⟨first, last⟩
      rcases hordered first last rfl with ⟨hnonneg, hupTo⟩
      have hsome : rangeHeader (some (first, last)) ≠ none := fun h => nomatch h
      unfold halves
      rw [if_neg hsome]
      split
      · rename_i hsame
        have hprinted := Option.some.inj hsame
        have hinjective := printRange_injective hnonneg (by decide) (by omega) (by decide)
          hprinted
        simp only at hinjective
        rw [hinjective.1, hinjective.2]
        exact .served [3, 4] rfl (Or.inr rfl) (List.prefix_refl _) fun _ => rfl
      · exact .refused (by decide) (by decide)

def wholeObject : GetObjectRequest Download where
  bucket := bytes "bucket"
  key := bytes "key"
  headers := SortedMap.empty
  parameters := SortedMap.empty
  sinkFactory := none

/-- A file, before anything is downloaded to it. -/
def fileOf (content : Option ByteString) : Runtime Download :=
  ⟨0, ⟨content, none⟩, 0, ⟨0, 0, 0, []⟩⟩

/-- The file when the second half has been written behind the first. -/
def afterHalves : Runtime Download :=
  ⟨0, OutputFile.atEnd [1, 2, 3, 4], CalcCRC64 0 [1, 2, 3, 4], ⟨-1, 0, 0, []⟩⟩

theorem halves_run :
    (rangeClient halves).getObjectToFile 2 wholeObject none (fileOf (some [9])) =
      some (.ok ⟨206, SortedMap.empty, none⟩, afterHalves) := by
  decide +kernel

theorem holdsRange_iff_halves :
    HoldsRange (rangeClient halves) [1, 2, 3, 4] none afterHalves ↔
      WritesAll (rangeClient halves) [1, 2, 3, 4] none (some [9])
        ((rangeClient halves).sent 2 wholeObject none (fileOf (some [9]))) :=
  holdsRange_iff (rangeClient halves) (rangeClient_undisturbed halves)
    (fun _ _ _ => rfl) [1, 2, 3, 4] halves_conforming wholeObject none rfl
    (fun _ _ hnone => nomatch hnone) none (fileOf (some [9])) afterHalves .sync _ _
    (Downloads.sync halves_run)

/-- An empty object: there is no body, and no range that begins in it. -/
def emptyReply (range : Option ByteString) : Curl.Reply :=
  if range = none then refusal 200 else refusal 416

theorem emptyReply_conforming : (rangeClient emptyReply).Conforming [] := by
  intro request env range hheader _
  have hreply : ((rangeClient emptyReply).curl.wire request env).1 =
      emptyReply (rangeHeader range) := congrArg emptyReply hheader
  rw [hreply]
  cases range with
  | none => exact .served [] rfl (Or.inl rfl) (List.prefix_refl _) fun _ => rfl
  | some r =>
      have hrefused : emptyReply (rangeHeader (some r)) = refusal 416 :=
        if_neg fun h => nomatch h
      rw [hrefused]
      exact .refused (by decide) (by decide)

/-- The file keeps what it held before, and the download is a success. -/
theorem not_holdsRange_emptyObject :
    (rangeClient emptyReply).Conforming [] ∧
      (exists sent result w',
        Downloads (rangeClient emptyReply) wholeObject none (fileOf (some [9])) .sync sent
          (.ok result) w' ∧
        (w'.env.file.content = some [9]) ∧
        ¬ HoldsRange (rangeClient emptyReply) [] none w') := by
  have hrun : (rangeClient emptyReply).getObjectToFile 1 wholeObject none
      (fileOf (some [9])) =
        some (.ok ⟨200, SortedMap.empty, none⟩,
          ⟨0, ⟨some [9], none⟩, 0, ⟨-1, 0, 0, []⟩⟩) := by
    decide +kernel
  refine ⟨emptyReply_conforming, _, _, _, Downloads.sync hrun, rfl, ?_⟩
  intro hright
  rcases hright with ⟨whole, hwhole, hcontent⟩
  cases hwhole
  cases hcontent

end Client
end OssSdk
