import OssSdk.Client.DownloadedFile

/-!
# The ranges that a download asks for

Each pass asks for what is missing: from where the bodies so far end, to the end of the
range.  When they end with the range itself, what is asked for ends before it begins.
-/

namespace OssSdk
namespace Client

open Foundation
open Internal
open Sync
open Transport
open Utils

variable {τ : Type}

/--
A header asks for a part of the range from `first` to `last`, which does not end before
it begins.  The whole object may be asked for by the header of the caller.
-/
inductive AsksWithin (own : Option ByteString) (first last : Int) :
    Option ByteString -> Prop where
  | whole : first = 0 -> last = -1 -> AsksWithin own first last own
  | part {a b : Int} : Ordered a b -> first ≤ a -> (last = -1 ∨ b ≠ -1 ∧ b ≤ last) ->
      AsksWithin own first last (some (printRange a b))

/-- There is one more attempt, when all of a range with an end has come in. -/
def GoesOnAtEnd (c : DownloadClient τ) (first last : Int) (sent : List (Exchange τ)) :
    Prop :=
  exists earlier y later, sent = earlier ++ y :: later ∧
    last ≠ -1 ∧ last < first + (c.bodies earlier).length

theorem downloadRange_ordered {range : ByteString} {first last : Int}
    (hrange : downloadRange range = .ok (first, last)) : Ordered first last := by
  unfold downloadRange at hrange
  simp only at hrange
  split at hrange
  · cases hrange
    exact ⟨Int.le_refl 0, Or.inl rfl⟩
  · split at hrange
    · rename_i first' last' hparse
      split at hrange
      · cases hrange
      · rename_i hpresent
        cases hrange
        rcases ParseRangeHeader_parsed hparse List.mem_cons_self with
          ⟨hfirst, hlast, _, hordered⟩
        exact ⟨by omega, by omega⟩
    · cases hrange

section Asked

variable {c : DownloadClient τ} {plan : DownloadPlan} {request : GetObjectRequest τ}

/-- A pass asks for a part of the range until all of it is there. -/
theorem asked_within_iff (hordered : Ordered plan.rangeStart plan.rangeEnd)
    (offset : Nat) :
    AsksWithin (request.headers.find? (bytes "Range")) plan.rangeStart plan.rangeEnd
        (asked plan request offset) ↔
      plan.rangeEnd = -1 ∨ plan.rangeStart + offset ≤ plan.rangeEnd := by
  have hnonneg := hordered.nonneg
  constructor
  · intro hwithin
    by_contra hnot
    rw [not_or] at hnot
    have hmoved : asked plan request offset =
        some (printRange (plan.rangeStart + offset) plan.rangeEnd) :=
      if_pos (Or.inr hnot.1)
    have hupTo := hordered.upTo
    rw [hmoved] at hwithin
    generalize hheader : some (printRange (plan.rangeStart + offset) plan.rangeEnd) =
      header at hwithin
    cases hwithin with
    | whole _ hend => exact hnot.1 hend
    | @part a b hpart _ _ =>
        have hside := hpart.upTo
        have hzero := hpart.nonneg
        have hinjective := printRange_injective (by omega) hzero (by omega) (by omega)
          (Option.some.inj hheader)
        omega
  · intro hupTo
    unfold asked
    split
    · exact .part ⟨by omega, hupTo⟩ (by omega) (by omega)
    · exact .whole (by omega) (by omega)

/-- In a run the bodies of the exchanges before say where a pass begins. -/
theorem asksFrom_within_iff (hordered : Ordered plan.rangeStart plan.rangeEnd)
    {offset : Nat} {sent : List (Exchange τ)}
    (hasks : AsksFrom c plan request offset sent) :
    (forall y, y ∈ sent ->
        AsksWithin (request.headers.find? (bytes "Range")) plan.rangeStart plan.rangeEnd
          (y.request.headers.find? (bytes "Range"))) ↔
      forall earlier y later, sent = earlier ++ y :: later ->
        plan.rangeEnd = -1 ∨
          plan.rangeStart + offset + (c.bodies earlier).length ≤ plan.rangeEnd := by
  induction sent generalizing offset with
  | nil =>
      constructor
      · intro _ earlier y later hsent
        exact absurd hsent.symm
          (List.append_ne_nil_of_right_ne_nil _ (List.cons_ne_nil y later))
      · intro _ y hy
        cases hy
  | cons z rest ih =>
      have hrest := ih hasks.2
      have hhead := @asked_within_iff _ plan request hordered offset
      rw [← hasks.1] at hhead
      constructor
      · intro hall earlier y later hsent
        cases earlier with
        | nil =>
            have hfirst := hhead.mp (hall z List.mem_cons_self)
            simp only [DownloadClient.bodies, List.map_nil, List.flatten_nil,
              List.length_nil]
            omega
        | cons z' earlier =>
            rw [List.cons_append, List.cons.injEq] at hsent
            have hlater := hrest.mp (fun y' hy' => hall y' (List.mem_cons_of_mem _ hy'))
              earlier y later hsent.2
            rw [bodies_cons, List.length_append, ← hsent.1]
            omega
      · intro hall y hy
        rcases List.mem_cons.mp hy with hfirst | hlater
        · rw [hfirst]
          have hnone := hall [] z rest rfl
          rw [DownloadClient.bodies, List.map_nil, List.flatten_nil, List.length_nil]
            at hnone
          exact hhead.mpr (by omega)
        · refine hrest.mpr ?_ y hlater
          intro earlier y' later hsent
          have hsame := hall (z :: earlier) y' later (by rw [hsent]; rfl)
          rw [bodies_cons, List.length_append] at hsame
          omega

end Asked

/--
Whatever comes in, every request of a download asks for a part of the range if and only
if no attempt follows when all of the range has come in.
-/
theorem sent_within_iff (c : DownloadClient τ) (hundisturbed : c.Undisturbed)
    (hsigner : c.base.options.signer.KeepsHeader (bytes "Range"))
    (request : GetObjectRequest τ) (first last : Int)
    (haccepted : downloadRange request.getRange = .ok (first, last))
    (opts : Option (OperationOptions τ)) (w : Runtime τ) (fuel : Nat) :
    (forall y, y ∈ c.sent fuel request opts w ->
        AsksWithin (request.headers.find? (bytes "Range")) first last
          (y.request.headers.find? (bytes "Range"))) ↔
      ¬ GoesOnAtEnd c first last (c.sent fuel request opts w) := by
  have hordered := downloadRange_ordered haccepted
  have hsent : c.sent fuel request opts w =
      c.loopSent (c.plan request first last) opts fuel 0 request
        (c.modify Download.observersMade w) := by
    unfold DownloadClient.sent
    rw [haccepted]
  have hholds : Holds (c.download w).file.content []
      (c.download (c.modify Download.observersMade w)) := by
    rw [download_modify]
    rfl
  have hasks := @loop_asks _ _ (c.plan request first last) opts request hundisturbed
    hsigner hordered.nonneg fuel _ _ _ hholds
  rw [hsent]
  have hplan : Ordered (c.plan request first last).rangeStart
      (c.plan request first last).rangeEnd := hordered
  refine (asksFrom_within_iff hplan hasks).trans ?_
  constructor
  · intro hall hgoes
    rcases hgoes with ⟨earlier, y, later, hsplit, hend, hless⟩
    rcases hall earlier y later hsplit with hnone | hupTo
    · exact hend hnone
    · have hstart : (c.plan request first last).rangeStart = first := rfl
      have hlast : (c.plan request first last).rangeEnd = last := rfl
      rw [List.length_nil] at hupTo
      omega
  · intro hnot earlier y later hsplit
    by_contra hbad
    rw [not_or, not_le] at hbad
    refine hnot ⟨earlier, y, later, hsplit, hbad.1, ?_⟩
    have hless : last < first + (0 : Nat) + (c.bodies earlier).length := hbad.2
    omega

/-!
# Four bytes that are all there when the connection breaks off
-/

def brokenAtEnd (range : Option ByteString) : Curl.Reply :=
  if range = some (printRange 0 3) then
    { refusal 206 with
      recvDataLength := 4
      chunks := [[1, 2], [3, 4]]
      res := 18
      chunks_nonempty := by decide }
  else refusal 416

theorem brokenAtEnd_conforming : (rangeClient brokenAtEnd).Conforming [1, 2, 3, 4, 5] := by
  intro request env range hheader hordered
  have hreply : ((rangeClient brokenAtEnd).curl.wire request env).1 =
      brokenAtEnd (rangeHeader range) := congrArg brokenAtEnd hheader
  rw [hreply]
  unfold brokenAtEnd
  split
  · rename_i hsame
    cases range with
    | none => cases hsame
    | some r =>
        rcases r with ⟨first, last⟩
        rcases hordered first last rfl with ⟨hnonneg, hupTo⟩
        have hinjective := printRange_injective hnonneg (by decide) (by omega) (by decide)
          (Option.some.inj hsame)
        simp only at hinjective
        rw [hinjective.1, hinjective.2]
        exact .served [1, 2, 3, 4] rfl (Or.inr rfl) (List.prefix_refl _) fun _ => rfl
  · exact .refused (by decide) (by decide)

def firstFourBytes : GetObjectRequest Download :=
  { wholeObject with
    headers := (SortedMap.empty : HeaderCollection).insertOrAssign (bytes "Range")
      (bytes "bytes=0-3") }

theorem sent_within_iff_firstFour :
    (forall y,
        y ∈ (rangeClient brokenAtEnd).sent 1 firstFourBytes none (fileOf none) ->
        AsksWithin (firstFourBytes.headers.find? (bytes "Range")) 0 3
          (y.request.headers.find? (bytes "Range"))) ↔
      ¬ GoesOnAtEnd (rangeClient brokenAtEnd) 0 3
        ((rangeClient brokenAtEnd).sent 1 firstFourBytes none (fileOf none)) :=
  sent_within_iff (rangeClient brokenAtEnd) (rangeClient_undisturbed brokenAtEnd)
    (fun _ _ _ => rfl) firstFourBytes 0 3 rfl none (fileOf none) 1

/-- The second request asks for the bytes from 4 to 3. -/
theorem not_within_firstFour :
    (rangeClient brokenAtEnd).Conforming [1, 2, 3, 4, 5] ∧
      downloadRange firstFourBytes.getRange = .ok (0, 3) ∧
      ((rangeClient brokenAtEnd).sent 2 firstFourBytes none (fileOf none)).map
          (fun y => y.request.headers.find? (bytes "Range")) =
        [some (bytes "bytes=0-3"), some (bytes "bytes=4-3")] ∧
      ¬ forall y,
        y ∈ (rangeClient brokenAtEnd).sent 2 firstFourBytes none (fileOf none) ->
        AsksWithin (firstFourBytes.headers.find? (bytes "Range")) 0 3
          (y.request.headers.find? (bytes "Range")) := by
  have hsent : ((rangeClient brokenAtEnd).sent 2 firstFourBytes none (fileOf none)).map
      (fun y => y.request.headers.find? (bytes "Range")) =
        [some (bytes "bytes=0-3"), some (bytes "bytes=4-3")] := by
    decide +kernel
  refine ⟨brokenAtEnd_conforming, rfl, hsent, fun hall => ?_⟩
  have hmem : some (bytes "bytes=4-3") ∈
      ((rangeClient brokenAtEnd).sent 2 firstFourBytes none (fileOf none)).map
        (fun y => y.request.headers.find? (bytes "Range")) := by
    rw [hsent]
    exact List.mem_cons_of_mem _ List.mem_cons_self
  rcases List.mem_map.mp hmem with ⟨y, hy, hheader⟩
  have hwithin := hall y hy
  rw [hheader] at hwithin
  have hprinted : some (bytes "bytes=4-3") = some (printRange 4 3) := rfl
  rw [hprinted] at hwithin
  generalize hsame : some (printRange 4 3) = header at hwithin
  cases hwithin with
  | whole _ hend => cases hend
  | @part a b hpart _ _ =>
      have hside := hpart.upTo
      have hinjective := printRange_injective (by decide) hpart.nonneg (by decide)
        (by have hnonneg := hpart.nonneg; omega) (Option.some.inj hsame)
      omega

end Client
end OssSdk
