import OssSdk.Internal.RetryDiscipline

/-!
# Errors of the clock

The service answers with one of two errors when a request was signed at the wrong time.
The check that recognises them computes how far the local clock is behind.
-/

namespace OssSdk
namespace Internal

open Foundation

variable {σ : Type}

/-!
# The checks of a response
-/

/-- The offset that `onClockSkewError` computes, if it recognises an error. -/
def skewOffset (p : Platform σ) (c : Checked σ) : Option Int :=
  if !isClockSkewError c.response.statusCode c.errorContext.errorFields then none
  else
    let time := serverTime p c.response.headers c.errorContext.errorFields
    if time = -1 then none
    else
      let newOffset := time - p.time c.runtime.env
      if c.response.statusCode = 400 ∧ newOffset.natAbs < 900 then none
      else some newOffset

/-- The offset of the client gives way to one that is more than a minute away. -/
def replacedOffset (clockOffset newOffset : Int) : Int :=
  if 60 < (newOffset - clockOffset).natAbs then newOffset else clockOffset

/-- What a recognised error makes of the context. -/
def Checked.skewed (c : Checked σ) (newOffset : Int) : Checked σ :=
  { c with
    runtime :=
      { c.runtime with clockOffset := replacedOffset c.runtime.clockOffset newOffset }
    signingContext := { c.signingContext with clockOffset := newOffset }
    errorContext :=
      { c.errorContext with error := ErrorCode.retryableServer c.response.statusCode } }

theorem onClockSkewError_eq (p : Platform σ) (c : Checked σ) :
    onClockSkewError p c = (true, ((skewOffset p c).map c.skewed).getD c) := by
  unfold onClockSkewError skewOffset
  split
  · rfl
  · simp only
    split
    · rfl
    · split
      · rfl
      · rfl

/-- The new error is one, since the status that it is made of is 400 or 403. -/
theorem skewed_isError {p : Platform σ} {c : Checked σ} {newOffset : Int}
    (hskew : skewOffset p c = some newOffset) :
    (c.skewed newOffset).errorContext.error.isError = true := by
  have hstatus : c.response.statusCode = 403 ∨ c.response.statusCode = 400 := by
    by_contra hnot
    rw [not_or] at hnot
    unfold skewOffset isClockSkewError at hskew
    simp only [if_neg hnot.1, if_neg hnot.2, Bool.not_false, if_true] at hskew
    cases hskew
  unfold Checked.skewed
  rcases hstatus with h | h
  · simp only [h]
    rfl
  · simp only [h]
    rfl

theorem replacedOffset_near (clockOffset newOffset : Int) :
    (replacedOffset clockOffset newOffset - newOffset).natAbs ≤ 60 := by
  unfold replacedOffset
  split
  · rw [Int.sub_self]
    exact Nat.zero_le 60
  · omega

/-- The offset that the checks of a response compute. -/
def ClientImplBase.skewOf (b : ClientImplBase σ) (c : Checked σ) : Option Int :=
  if b.hasFlag .CorrectClockSkew then
    skewOffset b.platform (onPreServiceError b.platform c).2
  else none

/-- The checks that an operation may bring along. -/
def OwnChecks (fns : List (ResponseMessageFn σ)) : Prop :=
  forall fn, fn ∈ fns -> exists crcAsString, fn = CRC64ResponseChecker crcAsString

theorem crcChecks_keep {fns : List (ResponseMessageFn σ)} (hown : OwnChecks fns)
    (c : Checked σ) :
    (runChecks fns c).runtime = c.runtime ∧
      (runChecks fns c).signingContext = c.signingContext := by
  induction fns generalizing c with
  | nil => exact ⟨rfl, rfl⟩
  | cons fn rest ih =>
      have hrest : OwnChecks rest := fun fn h => hown fn (List.mem_cons_of_mem _ h)
      have hfirst : (fn c).2.runtime = c.runtime ∧
          (fn c).2.signingContext = c.signingContext := by
        rcases hown fn List.mem_cons_self with ⟨crcAsString, rfl⟩
        unfold CRC64ResponseChecker
        split
        · simp only
          split
          · exact ⟨rfl, rfl⟩
          · exact ⟨rfl, rfl⟩
        · exact ⟨rfl, rfl⟩
      rw [runChecks_cons]
      split
      · rcases ih hrest (fn c).2 with ⟨hruntime, hsigning⟩
        exact ⟨hruntime.trans hfirst.1, hsigning.trans hfirst.2⟩
      · exact hfirst

/-- The offsets that the checks of a response leave. -/
structure SkewChecked (b : ClientImplBase σ) (c c' : Checked σ) : Prop where
  clockOffset : c'.runtime.clockOffset =
    ((b.skewOf c).map (replacedOffset c.runtime.clockOffset)).getD c.runtime.clockOffset
  signingContext : c'.signingContext =
    ((b.skewOf c).map fun newOffset =>
      { c.signingContext with clockOffset := newOffset }).getD c.signingContext
  failed : (b.skewOf c).isSome = true -> c'.errorContext.error.isError = true

theorem runChecks_skew (b : ClientImplBase σ) {fns : List (ResponseMessageFn σ)}
    (hown : OwnChecks fns) (c : Checked σ) :
    SkewChecked b c (runChecks (serviceChecks b ++ fns) c) := by
  have hpre : (onPreServiceError b.platform c).1 = true ∧
      (onPreServiceError b.platform c).2.runtime = c.runtime ∧
      (onPreServiceError b.platform c).2.signingContext = c.signingContext := by
    unfold onPreServiceError
    split
    · exact ⟨rfl, rfl, rfl⟩
    · exact ⟨rfl, rfl, rfl⟩
  have hpost : forall c' : Checked σ,
      (runChecks (onPostServiceError :: fns) c').runtime = c'.runtime ∧
      (runChecks (onPostServiceError :: fns) c').signingContext = c'.signingContext ∧
      (c'.errorContext.error.isError = true ->
        runChecks (onPostServiceError :: fns) c' = c') := by
    intro c'
    rw [runChecks_cons]
    unfold onPostServiceError
    cases herror : c'.errorContext.error.isError with
    | true => exact ⟨rfl, rfl, fun _ => rfl⟩
    | false =>
        rcases crcChecks_keep hown c' with ⟨hruntime, hsigning⟩
        exact ⟨hruntime, hsigning, fun h => (nomatch h)⟩
  unfold serviceChecks
  rw [List.append_assoc, List.append_assoc, List.singleton_append, runChecks_cons,
    if_pos hpre.1]
  cases hflag : b.hasFlag .CorrectClockSkew with
  | false =>
      have hnone : b.skewOf c = none := by
        unfold ClientImplBase.skewOf
        rw [hflag]
        rfl
      rcases hpost (onPreServiceError b.platform c).2 with ⟨hruntime, hsigning, _⟩
      refine ⟨?_, ?_, fun h => ?_⟩
      · rw [hnone]
        exact congrArg Runtime.clockOffset (hruntime.trans hpre.2.1)
      · rw [hnone]
        exact hsigning.trans hpre.2.2
      · rw [hnone] at h
        cases h
  | true =>
      have hskew : b.skewOf c = skewOffset b.platform
          (onPreServiceError b.platform c).2 := by
        unfold ClientImplBase.skewOf
        rw [hflag]
        rfl
      simp only [if_true, List.singleton_append]
      rw [runChecks_cons, onClockSkewError_eq, if_pos rfl]
      simp only
      cases hoffset : skewOffset b.platform (onPreServiceError b.platform c).2 with
      | none =>
          rcases hpost (onPreServiceError b.platform c).2 with ⟨hruntime, hsigning, _⟩
          have hnone := hskew.trans hoffset
          refine ⟨?_, ?_, fun h => ?_⟩
          · rw [hnone]
            exact congrArg Runtime.clockOffset (hruntime.trans hpre.2.1)
          · rw [hnone]
            exact hsigning.trans hpre.2.2
          · rw [hnone] at h
            cases h
      | some newOffset =>
          let c' := (onPreServiceError b.platform c).2.skewed newOffset
          have herror : c'.errorContext.error.isError = true :=
            skewed_isError hoffset
          have hsame := (hpost c').2.2 herror
          simp only [Option.map_some, Option.getD_some]
          refine ⟨?_, ?_, fun _ => ?_⟩
          · rw [hsame]
            simp only [c', Checked.skewed, hpre.2.1, hskew, hoffset, Option.map_some,
              Option.getD_some]
          · rw [hsame]
            simp only [c', Checked.skewed, hpre.2.2, hskew, hoffset, Option.map_some,
              Option.getD_some]
          · rw [hsame]
            exact herror

end Internal
end OssSdk
