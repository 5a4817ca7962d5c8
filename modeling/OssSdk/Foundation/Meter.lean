import Mathlib.Algebra.GroupWithZero.Nat
import Mathlib.Data.List.Chain
import Mathlib.Data.List.Induction
import Mathlib.Data.List.Infix

/-!
# Meters

A meter counts what goes by, and from zero again when it is restarted.  It reports what
goes by where it is past its mark, which is how far it had come when it was restarted last.
-/

namespace OssSdk
namespace Foundation

/-- What happens to a meter. -/
inductive Tick where
  | count (n : Nat)
  | restart
deriving DecidableEq

/-- Each report has what went by, and how far the meter has come. -/
structure Meter where
  reached : Nat
  mark : Nat
  reports : List (Nat × Nat)
deriving DecidableEq

/-- The last count that was reported, zero before the first report. -/
def lastReport (reports : List (Nat × Nat)) : Nat := (reports.getLast?.map Prod.snd).getD 0

/-- Reports that go up, and whose increments add up to the last of them. -/
structure ConsistentReports (reports : List (Nat × Nat)) : Prop where
  increasing : reports.IsChain fun a b => a.2 < b.2
  summed : (reports.map Prod.fst).sum = lastReport reports

namespace Meter

def zero : Meter := ⟨0, 0, []⟩

def step (m : Meter) : Tick -> Meter
  | .count n =>
      let reached := m.reached + n
      if m.mark < reached then
        { m with reached := reached, reports := m.reports ++ [(n, reached)] }
      else { m with reached := reached }
  | .restart => { m with mark := m.reached, reached := 0 }

def run (ticks : List Tick) : Meter := ticks.foldl step zero

/-- How far the meter has come since it was restarted. -/
def reachedAfter (ticks : List Tick) : Nat := (run ticks).reached

def markAfter (ticks : List Tick) : Nat := (run ticks).mark

/-- The farthest that the meter has ever come. -/
def farthest (ticks : List Tick) : Nat :=
  (ticks.inits.map reachedAfter).foldl max 0

/--
Every count that takes the meter past its mark begins at the farthest place that it has
come to, and moves it on.
-/
def GoesOn (ticks : List Tick) : Prop :=
  forall past n rest, ticks = past ++ .count n :: rest ->
    markAfter past < reachedAfter past + n ->
      0 < n ∧ reachedAfter past = farthest past

theorem step_past {m : Meter} {n : Nat} (hpast : m.mark < m.reached + n) :
    m.step (.count n) =
      { m with
        reached := m.reached + n
        reports := m.reports ++ [(n, m.reached + n)] } := if_pos hpast

theorem step_within {m : Meter} {n : Nat} (hwithin : ¬ m.mark < m.reached + n) :
    m.step (.count n) = { m with reached := m.reached + n } := if_neg hwithin

theorem run_snoc (ticks : List Tick) (t : Tick) :
    run (ticks ++ [t]) = (run ticks).step t := by
  unfold run
  rw [List.foldl_append]
  rfl

theorem farthest_snoc (ticks : List Tick) (t : Tick) :
    farthest (ticks ++ [t]) = max (farthest ticks) (reachedAfter (ticks ++ [t])) := by
  unfold farthest
  rw [List.inits_append, List.map_append, List.foldl_append]
  rfl

theorem reachedAfter_count (ticks : List Tick) (n : Nat) :
    reachedAfter (ticks ++ [.count n]) = reachedAfter ticks + n := by
  unfold reachedAfter
  rw [run_snoc]
  unfold step
  simp only
  split
  · rfl
  · rfl

theorem reached_le_farthest (ticks : List Tick) : reachedAfter ticks ≤ farthest ticks := by
  induction ticks using List.reverseRecOn with
  | nil => exact Nat.le_refl 0
  | append_singleton ticks t ih =>
      rw [farthest_snoc]
      exact le_max_right _ _

/-- A meter that is restarted before its mark lowers it. -/
theorem mark_le_farthest (ticks : List Tick) : markAfter ticks ≤ farthest ticks := by
  induction ticks using List.reverseRecOn with
  | nil => exact Nat.le_refl 0
  | append_singleton ticks t ih =>
      rw [farthest_snoc]
      cases t with
      | count n =>
          have hmark : markAfter (ticks ++ [.count n]) = markAfter ticks := by
            unfold markAfter
            rw [run_snoc]
            unfold step
            simp only
            split
            · rfl
            · rfl
          rw [hmark]
          exact le_trans ih (le_max_left _ _)
      | restart =>
          have hmark : markAfter (ticks ++ [.restart]) = reachedAfter ticks := by
            unfold markAfter reachedAfter
            rw [run_snoc]
            rfl
          rw [hmark]
          exact le_trans (reached_le_farthest ticks) (le_max_left _ _)

theorem reports_restart (ticks : List Tick) :
    (run (ticks ++ [.restart])).reports = (run ticks).reports ∧
      farthest (ticks ++ [.restart]) = farthest ticks := by
  have hreached : reachedAfter (ticks ++ [.restart]) = 0 := by
    unfold reachedAfter
    rw [run_snoc]
    rfl
  rw [farthest_snoc, hreached, run_snoc]
  exact ⟨rfl, max_eq_left (Nat.zero_le _)⟩

theorem reports_within {ticks : List Tick} {n : Nat}
    (hwithin : ¬ markAfter ticks < reachedAfter ticks + n) :
    (run (ticks ++ [.count n])).reports = (run ticks).reports ∧
      farthest (ticks ++ [.count n]) = farthest ticks := by
  have hmark := mark_le_farthest ticks
  rw [farthest_snoc, reachedAfter_count, run_snoc]
  constructor
  · rw [step_within hwithin]
  · apply max_eq_left
    omega

theorem reports_past {ticks : List Tick} {n : Nat}
    (hpast : markAfter ticks < reachedAfter ticks + n) :
    (run (ticks ++ [.count n])).reports =
      (run ticks).reports ++ [(n, reachedAfter ticks + n)] := by
  rw [run_snoc, step_past hpast]
  rfl

theorem lastReport_snoc (reports : List (Nat × Nat)) (r : Nat × Nat) :
    lastReport (reports ++ [r]) = r.2 := by
  unfold lastReport
  rw [List.getLast?_append, List.getLast?_singleton]
  rfl

theorem increasing_snoc_iff (reports : List (Nat × Nat)) {r : Nat × Nat} (hr : 0 < r.2) :
    (reports ++ [r]).IsChain (fun a b => a.2 < b.2) ↔
      reports.IsChain (fun a b => a.2 < b.2) ∧ lastReport reports < r.2 := by
  rw [List.isChain_append]
  constructor
  · rintro ⟨hreports, _, hlast⟩
    refine ⟨hreports, ?_⟩
    unfold lastReport
    cases hgot : reports.getLast? with
    | none => exact hr
    | some last => exact hlast last hgot r rfl
  · rintro ⟨hreports, hlast⟩
    refine ⟨hreports, List.isChain_singleton _, ?_⟩
    intro last hgot r' hr'
    cases hr'
    unfold lastReport at hlast
    rw [Option.mem_def.mp hgot] at hlast
    exact hlast

/-- Reports that go up report the farthest place last, and no increment is too small. -/
theorem increasing_farthest {ticks : List Tick}
    (hincreasing : (run ticks).reports.IsChain fun a b => a.2 < b.2) :
    lastReport (run ticks).reports = farthest ticks ∧
      farthest ticks ≤ ((run ticks).reports.map Prod.fst).sum := by
  induction ticks using List.reverseRecOn with
  | nil => exact ⟨rfl, Nat.le_refl 0⟩
  | append_singleton ticks t ih =>
      cases t with
      | restart =>
          rcases reports_restart ticks with ⟨hreports, hfarthest⟩
          rw [hreports] at hincreasing ⊢
          rw [hfarthest]
          exact ih hincreasing
      | count n =>
          by_cases hpast : markAfter ticks < reachedAfter ticks + n
          · rw [reports_past hpast] at hincreasing ⊢
            rcases (increasing_snoc_iff _ (Nat.zero_lt_of_lt hpast)).mp hincreasing with
              ⟨hbefore, hlast⟩
            rcases ih hbefore with ⟨hreported, hsum⟩
            have hreached := reached_le_farthest ticks
            rw [hreported] at hlast
            rw [lastReport_snoc, farthest_snoc, reachedAfter_count, List.map_append,
              List.sum_append, max_eq_right (Nat.le_of_lt hlast)]
            refine ⟨rfl, ?_⟩
            rw [List.map_singleton, List.sum_singleton]
            exact Nat.add_le_add_right (le_trans hreached hsum) n
          · rcases reports_within hpast with ⟨hreports, hfarthest⟩
            rw [hreports] at hincreasing ⊢
            rw [hfarthest]
            exact ih hincreasing

theorem consistent_snoc_iff (ticks : List Tick) (n : Nat) :
    ConsistentReports (run (ticks ++ [.count n])).reports ↔
      ConsistentReports (run ticks).reports ∧
        (markAfter ticks < reachedAfter ticks + n ->
          0 < n ∧ reachedAfter ticks = farthest ticks) := by
  by_cases hpast : markAfter ticks < reachedAfter ticks + n
  · have hpositive : 0 < reachedAfter ticks + n := Nat.zero_lt_of_lt hpast
    have hreached := reached_le_farthest ticks
    rw [reports_past hpast]
    constructor
    · rintro ⟨hincreasing, hsummed⟩
      rcases (increasing_snoc_iff _ hpositive).mp hincreasing with ⟨hbefore, hlast⟩
      rcases increasing_farthest hbefore with ⟨hreported, hsum⟩
      rw [lastReport_snoc, List.map_append, List.sum_append, List.map_singleton,
        List.sum_singleton] at hsummed
      have hsame := Nat.add_right_cancel hsummed
      refine ⟨⟨hbefore, ?_⟩, fun _ => ⟨?_, ?_⟩⟩
      · omega
      · omega
      · omega
    · rintro ⟨⟨hbefore, hsummed⟩, hgoes⟩
      rcases hgoes hpast with ⟨hn, hfarthest⟩
      have hreported := (increasing_farthest hbefore).1
      refine ⟨(increasing_snoc_iff _ hpositive).mpr ⟨hbefore, ?_⟩, ?_⟩
      · rw [hreported, ← hfarthest]
        exact Nat.lt_add_of_pos_right hn
      · rw [lastReport_snoc, List.map_append, List.sum_append, hsummed, hreported,
          ← hfarthest, List.map_singleton, List.sum_singleton]
  · rw [(reports_within hpast).1]
    exact ⟨fun hbefore => ⟨hbefore, fun h => absurd h hpast⟩, fun h => h.1⟩

theorem goesOn_snoc_iff (ticks : List Tick) (t : Tick) :
    GoesOn (ticks ++ [t]) ↔ GoesOn ticks ∧
      forall n, t = .count n -> markAfter ticks < reachedAfter ticks + n ->
        0 < n ∧ reachedAfter ticks = farthest ticks := by
  constructor
  · intro hgoes
    constructor
    · intro past n rest hsplit
      refine hgoes past n (rest ++ [t]) ?_
      rw [hsplit, List.append_assoc, List.cons_append]
    · intro n ht
      refine hgoes ticks n [] ?_
      rw [ht]
  · rintro ⟨hgoes, hlast⟩ past n rest hsplit
    cases rest using List.reverseRecOn with
    | nil =>
        rcases List.append_inj' hsplit rfl with ⟨hticks, ht⟩
        rw [← hticks]
        exact hlast n (List.singleton_inj.mp ht)
    | append_singleton rest t' =>
        rw [← List.cons_append, ← List.append_assoc] at hsplit
        exact hgoes past n rest (List.append_inj' hsplit rfl).1

/-- The reports are consistent where the meter always goes on from the farthest place. -/
theorem consistentReports_iff (ticks : List Tick) :
    ConsistentReports (run ticks).reports ↔ GoesOn ticks := by
  induction ticks using List.reverseRecOn with
  | nil =>
      constructor
      · intro _ past n rest hsplit
        exact absurd hsplit.symm (List.append_ne_nil_of_right_ne_nil _ (List.cons_ne_nil _ _))
      · exact fun _ => ⟨List.isChain_nil, rfl⟩
  | append_singleton ticks t ih =>
      rw [goesOn_snoc_iff, ← ih]
      cases t with
      | restart =>
          rw [(reports_restart ticks).1]
          exact ⟨fun h => ⟨h, fun n hn => (nomatch hn)⟩, fun h => h.1⟩
      | count n =>
          rw [consistent_snoc_iff]
          constructor
          · rintro ⟨hbefore, hgoes⟩
            refine ⟨hbefore, fun n' hn' => ?_⟩
            cases hn'
            exact hgoes
          · rintro ⟨hbefore, hgoes⟩
            exact ⟨hbefore, hgoes n rfl⟩

end Meter
end Foundation
end OssSdk
