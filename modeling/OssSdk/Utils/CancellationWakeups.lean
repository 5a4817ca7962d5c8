import OssSdk.Utils.CancellationToken

/-!
# Wake-ups of a cancellation

A call of `cancel` that has notified has been heard by all who are in `waitFor`, and by all
who will be.
-/

namespace OssSdk
namespace Utils

open Foundation

namespace SharedSource

variable {s t : SharedSource} {c : SourceCall}

/-!
# Nearer to the end
-/

/-- How many steps a call may still take, when every look finds the deadline over. -/
def rank : SourceCall -> Nat
  | .returning _ _ | .releasing => 1
  | .notifying | .looking _ .first (some _) | .looking _ .last (some _) => 2
  | .locking | .looking _ .first none | .looking _ .last none => 3
  | .entering _ | .looking _ _ (some _) => 4
  | .looking _ _ none => 5
  | .woken _ _ => 6
  | _ => 0

/-- A step brings a call nearer to its end, and a notification finds nobody asleep. -/
theorem advance_rank {choice : Bool} (hc : c.Heard s.source.steadyNow)
    (hothers : forall c', c' ∈ s.calls -> c'.Heard s.source.steadyNow)
    (hupdate : c.update = none) (hadvance : s.advance choice c = some t) :
    tally t.calls rank < rank c + tally s.calls rank := by
  have hgoes {c' : SourceCall} (hless : rank c' < rank c) :
      tally (c' ::ₘ s.calls) rank < rank c + tally s.calls rank := by
    rw [tally_cons]
    exact Nat.add_lt_add_right hless _
  have hlocks {c' : SourceCall} (hlock : s.lock c' = some t) (hless : rank c' < rank c) :
      tally t.calls rank < rank c + tally s.calls rank := by
    rw [lock_some hlock]
    exact hgoes hless
  cases c with
  | updating => cases hupdate
  | reading | choosing | falling | asleep => exact absurd hc id
  | locking => exact hlocks hadvance (by decide)
  | entering w => exact hlocks hadvance (by show 3 < 4; decide)
  | releasing | returning =>
      cases hadvance
      exact Nat.lt_add_of_pos_left Nat.one_pos
  | notifying =>
      cases hadvance
      show tally (SourceCall.releasing ::ₘ s.calls.map SourceCall.wake) rank < _
      rw [tally_cons, tally_map]
      have hsame : tally s.calls (fun c' => rank c'.wake) ≤ tally s.calls rank := by
        apply tally_le
        intro c' hc'
        have hheard := hothers c' hc'
        cases c' with
        | asleep => exact absurd hheard id
        | _ => exact Nat.le_refl _
      show 1 + _ < 2 + _
      omega
  | woken w wakeTime =>
      cases choice with
      | false => exact hlocks hadvance (by show 5 < 6; decide)
      | true =>
          simp only [advance, if_pos] at hadvance
          exact hlocks (Option.ite_none_left_eq_some.mp hadvance).2 (by show 5 < 6; decide)
  | looking w look loaded =>
      cases loaded with
      | none =>
          cases hadvance
          apply hgoes
          cases look
          · show 2 < 3; decide
          · show 4 < 5; decide
          · show 4 < 5; decide
          · show 2 < 3; decide
      | some seen =>
          cases hadvance
          apply hgoes
          rw [decide_eq_true (hc seen rfl)]
          cases look
          · show 1 < 2; decide
          · show 3 < 4; decide
          · show 3 < 4; decide
          · show 1 < 2; decide

/-- Who waits goes on if the mutex is free, and who holds it goes on. -/
theorem advance_false (hupdate : c.update = none) (hfree : c.holds = 1 ∨ s.locked = false) :
    exists t, s.advance false c = some t := by
  have hlocks (hself : c.holds ≠ 1) (c' : SourceCall) : exists t, s.lock c' = some t := by
    unfold SharedSource.lock
    rw [hfree.resolve_left hself]
    exact ⟨_, rfl⟩
  cases c with
  | updating => cases hupdate
  | locking => exact hlocks (by decide) _
  | entering w | woken w => exact hlocks (fun h => by cases h) _
  | looking w look loaded =>
      cases loaded with
      | none => exact ⟨_, rfl⟩
      | some seen => exact ⟨_, rfl⟩
  | _ => exact ⟨_, rfl⟩

/-!
# Answers behind a notification
-/

/-- An answer comes from the call that returns. -/
theorem advance_answers {choice : Bool} (hadvance : s.advance choice c = some t) :
    s.notified ≤ t.notified ∧ (t.answers = s.answers ∨ exists w canceled a,
      c = .returning w canceled ∧ t.answers = a :: s.answers ∧ a.canceled = canceled) := by
  have hlocks {c' : SourceCall} (hlock : s.lock c' = some t) :
      s.notified ≤ t.notified ∧ t.answers = s.answers := by
    rw [lock_some hlock]
    exact ⟨Nat.le_refl _, rfl⟩
  cases c with
  | updating wakes u =>
      rcases Option.map_eq_some_iff.mp hadvance with ⟨source, _, ht⟩
      split at ht
      · rw [← ht]
        exact ⟨Nat.le_refl _, Or.inl rfl⟩
      · split at ht
        · rw [← ht]
          exact ⟨Nat.le_refl _, Or.inl rfl⟩
        · rw [← ht]
          exact ⟨Nat.le_refl _, Or.inl rfl⟩
  | locking | entering => exact (hlocks hadvance).imp_right Or.inl
  | notifying =>
      cases hadvance
      exact ⟨Nat.le_succ _, Or.inl rfl⟩
  | releasing | reading | choosing | falling | asleep =>
      cases hadvance
      exact ⟨Nat.le_refl _, Or.inl rfl⟩
  | looking w look loaded =>
      cases loaded with
      | none =>
          cases hadvance
          exact ⟨Nat.le_refl _, Or.inl rfl⟩
      | some seen =>
          cases hadvance
          exact ⟨Nat.le_refl _, Or.inl rfl⟩
  | woken w wakeTime =>
      cases choice with
      | false => exact (hlocks hadvance).imp_right Or.inl
      | true =>
          simp only [advance, if_pos] at hadvance
          exact (hlocks (Option.ite_none_left_eq_some.mp hadvance).2).imp_right Or.inl
  | returning w canceled =>
      cases hadvance
      exact ⟨Nat.le_refl _, Or.inr ⟨w, canceled, _, rfl, rfl, rfl⟩⟩

/-- The answers that have come since are cancellations. -/
def OnlyCanceledSince (answers : List WaitAnswer) (s : SharedSource) : Prop :=
  exists more, s.answers = more ++ answers ∧ forall a, a ∈ more -> a.canceled = true

theorem OnlyCanceledSince.cons {answers : List WaitAnswer}
    (hs : OnlyCanceledSince answers s) {a : WaitAnswer} (ht : t.answers = a :: s.answers)
    (ha : a.canceled = true) : OnlyCanceledSince answers t := by
  rcases hs with ⟨more, hmore, hall⟩
  refine ⟨a :: more, ?_, ?_⟩
  · rw [ht, hmore]
    rfl
  · intro a' ha'
    rcases List.mem_cons.mp ha' with hself | hother
    · rw [hself]
      exact ha
    · exact hall a' hother

theorem OnlyCanceledSince.same {answers : List WaitAnswer}
    (hs : OnlyCanceledSince answers s) (ht : t.answers = s.answers) :
    OnlyCanceledSince answers t := by
  rcases hs with ⟨more, hmore, hall⟩
  exact ⟨more, ht.trans hmore, hall⟩

theorem step_onlyCanceledSince {answers : List WaitAnswer} {e : SourceEvent} (hs : s.Sound)
    (hnotified : s.notified ≠ 0) (hanswers : OnlyCanceledSince answers s)
    (hstep : s.step e = some t) : t.notified ≠ 0 ∧ OnlyCanceledSince answers t := by
  cases e with
  | tick steady system =>
      rcases Option.map_eq_some_iff.mp hstep with ⟨source, _, ht⟩
      rw [← ht]
      exact ⟨hnotified, hanswers.same rfl⟩
  | copies | drops =>
      rw [← Option.some.inj (Option.ite_none_left_eq_some.mp hstep).2]
      exact ⟨hnotified, hanswers.same rfl⟩
  | changes call =>
      rcases Option.ite_none_left_eq_some.mp hstep with ⟨_, hmap⟩
      rcases Option.map_eq_some_iff.mp hmap with ⟨source, _, ht⟩
      rw [← ht]
      exact ⟨hnotified, hanswers.same rfl⟩
  | waits timeout =>
      cases hstep
      split
      · exact ⟨hnotified, hanswers.same rfl⟩
      · exact ⟨hnotified, hanswers.cons rfl rfl⟩
  | acts c choice =>
      rcases step_acts hstep with ⟨r, hr, hadvance⟩
      rw [hr] at hs hnotified hanswers
      rcases advance_answers hadvance with ⟨hmore, hsame | ⟨w, canceled, a, hc, ha, hvalue⟩⟩
      · exact ⟨Nat.ne_of_gt (Nat.lt_of_lt_of_le (Nat.pos_of_ne_zero hnotified) hmore),
          hanswers.same hsame⟩
      · have hheard := hs.heard hnotified c (Multiset.mem_cons_self _ _)
        rw [hc] at hheard
        exact ⟨Nat.ne_of_gt (Nat.lt_of_lt_of_le (Nat.pos_of_ne_zero hnotified) hmore),
          hanswers.cons ha (hvalue.trans hheard)⟩

/-!
# All who wait come out
-/

/-- A step of a call that does not lower the deadline. -/
def OwnMove (e : SourceEvent) : Prop :=
  exists c choice, e = .acts c choice ∧ c.update = none

theorem ownMove_rank {e : SourceEvent} (hs : s.Sound) (hnotified : s.notified ≠ 0)
    (hown : OwnMove e) (hstep : s.step e = some t) : tally t.calls rank < tally s.calls rank := by
  rcases hown with ⟨c, choice, he, hupdate⟩
  rw [he] at hstep
  rcases step_acts hstep with ⟨r, hr, hadvance⟩
  rw [hr] at hs hnotified ⊢
  rw [tally_become]
  exact advance_rank (hs.heard hnotified c (Multiset.mem_cons_self _ _))
    (fun c' hc' => hs.heard hnotified c' (Multiset.mem_cons_of_mem hc')) hupdate hadvance

/-- Who has not lowered the deadline yet is all that is left. -/
theorem updates_of_atRest (hs : s.Sound) (hrest : system.AtRest OwnMove s) (hc : c ∈ s.calls) :
    c.update ≠ none := by
  have hstuck {c' : SourceCall} (hc' : c' ∈ s.calls) (hupdate : c'.update = none)
      (hfree : c'.holds = 1 ∨ s.locked = false) : False := by
    rcases advance_false (s := { s with calls := s.calls.erase c' }) hupdate hfree
      with ⟨t, hadvance⟩
    have hstep : s.step (.acts c' false) = some t := (if_pos hc').trans hadvance
    have hnone : s.step (.acts c' false) = none :=
      hrest (.acts c' false) ⟨c', false, rfl, hupdate⟩
    rw [hnone] at hstep
    cases hstep
  intro hupdate
  cases hlocked : s.locked with
  | false => exact hstuck hc hupdate (Or.inr hlocked)
  | true =>
      have hmutex := hs.mutex
      rw [hlocked, if_pos rfl] at hmutex
      rcases exists_of_tally (by rw [hmutex]; exact Nat.one_ne_zero) with ⟨c', hc', hholds⟩
      refine hstuck hc' ?_ (Or.inl ?_)
      · cases c' with
        | updating => exact absurd rfl hholds
        | _ => rfl
      · cases c' <;> first | rfl | exact absurd rfl hholds

/-- One who waits for five milliseconds has fallen asleep, when another cancels. -/
def canceledAsleep : List SourceEvent :=
  let w : TokenWait := ⟨5, 1000⟩
  [.waits 5, .acts (.entering w) false, .acts (.looking w .first none) false,
    .acts (.looking w .first (some maxTimePoint)) false, .acts (.reading w) false,
    .acts (.choosing w 1000) false, .acts (.looking w (.predicate 5001000) none) false,
    .acts (.looking w (.predicate 5001000) (some maxTimePoint)) false,
    .acts (.falling w 5001000) false, .changes .cancel,
    .acts (.updating true ⟨1000, none⟩) false,
    .acts (.updating true ⟨1000, some maxTimePoint⟩) false, .acts .locking false,
    .acts .notifying false, .acts .releasing false]

end SharedSource
end Utils
end OssSdk
