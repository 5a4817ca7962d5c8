import Mathlib.Data.List.Basic
import Mathlib.Data.List.Forall2

/-!
# Reading page after page

A reader says whether there is more, and each of its calls yields a result or an error.
It reads a list of pages when each call that succeeds shows the next of them, and there
is no more after the last one or after an error.
-/

namespace OssSdk
namespace Foundation

section Reading

variable {state ε ρ α : Type}

/-- Calls as long as there is more, at most `fuel` of them. -/
def readWhile (hasNext : state -> Bool) (next : state -> Except ε ρ × state) :
    Nat -> state -> List (Except ε ρ) × state
  | 0, s => ([], s)
  | fuel + 1, s =>
      if hasNext s then
        let (outcome, s) := next s
        let (outcomes, s) := readWhile hasNext next fuel s
        (outcome :: outcomes, s)
      else ([], s)

variable {hasNext : state -> Bool} {next : state -> Except ε ρ × state}

theorem readWhile_done {s : state} (hdone : hasNext s = false) (fuel : Nat) :
    readWhile hasNext next fuel s = ([], s) := by
  cases fuel with
  | zero => rfl
  | succ fuel =>
      rw [readWhile, hdone]
      rfl

theorem readWhile_more {s : state} (hmore : hasNext s = true) (fuel : Nat) :
    readWhile hasNext next (fuel + 1) s =
      ((next s).1 :: (readWhile hasNext next fuel (next s).2).1,
        (readWhile hasNext next fuel (next s).2).2) := by
  rw [readWhile, hmore]
  rfl

/-- What every call keeps, all of them keep. -/
theorem readWhile_kept {P : state -> Prop} (hkeeps : forall s, P s -> P (next s).2)
    (fuel : Nat) {s : state} (hs : P s) : P (readWhile hasNext next fuel s).2 := by
  induction fuel generalizing s with
  | zero => exact hs
  | succ fuel ih =>
      cases hmore : hasNext s with
      | false =>
          rw [readWhile_done hmore]
          exact hs
      | true =>
          rw [readWhile_more hmore]
          exact ih (hkeeps s hs)

/-- Nothing is called for after an outcome that there is no more behind. -/
theorem readWhile_stops {stop : Except ε ρ -> Prop}
    (hstop : forall s, stop (next s).1 -> hasNext (next s).2 = false) {fuel : Nat}
    {s : state} {before after : List (Except ε ρ)} {outcome : Except ε ρ}
    (houtcomes : (readWhile hasNext next fuel s).1 = before ++ outcome :: after)
    (houtcome : stop outcome) : after = [] := by
  induction fuel generalizing s before with
  | zero => exact absurd houtcomes.symm (List.append_ne_nil_of_right_ne_nil _ (by simp))
  | succ fuel ih =>
      cases hmore : hasNext s with
      | false =>
          rw [readWhile_done hmore] at houtcomes
          exact absurd houtcomes.symm (List.append_ne_nil_of_right_ne_nil _ (by simp))
      | true =>
          rw [readWhile_more hmore] at houtcomes
          cases before with
          | nil =>
              rw [List.nil_append, List.cons.injEq] at houtcomes
              have hdone := hstop s (houtcomes.1.symm ▸ houtcome)
              rw [readWhile_done hdone] at houtcomes
              exact houtcomes.2.symm
          | cons first before =>
              rw [List.cons_append, List.cons.injEq] at houtcomes
              exact ih houtcomes.2

/-- A reader of pages; `Ahead` says which pages are still ahead of it. -/
structure ReadsPages (hasNext : state -> Bool) (next : state -> Except ε ρ × state)
    (Shows : α -> ρ -> Prop) (Ahead : List α -> state -> Prop) : Prop where
  more : forall page rest s, Ahead (page :: rest) s -> hasNext s = true
  fails : forall pages s e, Ahead pages s -> (next s).1 = .error e ->
    hasNext (next s).2 = false
  yields : forall page rest s r, Ahead (page :: rest) s -> (next s).1 = .ok r ->
    Shows page r
  moves : forall page rest s r, Ahead (page :: rest) s -> (next s).1 = .ok r ->
    rest ≠ [] -> Ahead rest (next s).2
  ends : forall page s r, Ahead [page] s -> (next s).1 = .ok r ->
    hasNext (next s).2 = false

/-- What calls have yielded: pages in order, and an error where one of them failed. -/
structure PagesRead (Shows : α -> ρ -> Prop) (pages : List α)
    (outcomes : List (Except ε ρ)) (results : List ρ) : Prop where
  outcomes : outcomes = results.map .ok ∨
    exists e, outcomes = results.map .ok ++ [.error e]
  shows : List.Forall₂ Shows (pages.take results.length) results

variable {Shows : α -> ρ -> Prop} {Ahead : List α -> state -> Prop}

/-- Outcomes without an error are the results. -/
theorem PagesRead.results_eq {pages : List α} {outcomes : List (Except ε ρ)}
    {results others : List ρ} (hread : PagesRead Shows pages outcomes results)
    (hothers : outcomes = others.map .ok) : others = results := by
  rcases hread.outcomes with hall | ⟨e, hfailed⟩
  · exact List.map_injective_iff.mpr (fun _ _ hab => Except.ok.inj hab)
      (hothers.symm.trans hall)
  · have hmem : Except.error e ∈ others.map (Except.ok : ρ -> Except ε ρ) := by
      rw [hothers.symm.trans hfailed]
      exact List.mem_append_right _ (List.mem_singleton_self _)
    rcases List.mem_map.mp hmem with ⟨r, _, hr⟩
    cases hr

theorem exists_results {outcomes : List (Except ε ρ)}
    (hok : outcomes.all Except.isOk = true) :
    exists results : List ρ, outcomes = results.map .ok := by
  induction outcomes with
  | nil => exact ⟨[], rfl⟩
  | cons outcome rest ih =>
      rw [List.all_cons, Bool.and_eq_true] at hok
      rcases ih hok.2 with ⟨results, hresults⟩
      cases outcome with
      | error e => exact absurd hok.1 Bool.false_ne_true
      | ok r => exact ⟨r :: results, congrArg (List.cons (.ok r)) hresults⟩

/-- The pages come one after another, up to an error. -/
theorem ReadsPages.read (hreads : ReadsPages hasNext next Shows Ahead) (fuel : Nat)
    {pages : List α} {s : state} (hahead : Ahead pages s) (hne : pages ≠ []) :
    exists results,
      PagesRead Shows pages (readWhile hasNext next fuel s).1 results ∧
        (pages.length ≤ fuel ->
          hasNext (readWhile hasNext next fuel s).2 = false ∧
            ((readWhile hasNext next fuel s).1 = results.map .ok ->
              results.length = pages.length)) := by
  induction fuel generalizing pages s with
  | zero =>
      refine ⟨[], ⟨Or.inl rfl, List.Forall₂.nil⟩, fun hlength => ?_⟩
      exact absurd (List.length_eq_zero_iff.mp (Nat.le_zero.mp hlength)) hne
  | succ fuel ih =>
      cases pages with
      | nil => exact absurd rfl hne
      | cons page rest =>
          rw [readWhile_more (hreads.more page rest s hahead)]
          cases houtcome : (next s).1 with
          | error e =>
              rw [readWhile_done (hreads.fails _ s e hahead houtcome)]
              refine ⟨[], ⟨Or.inr ⟨e, rfl⟩, List.Forall₂.nil⟩, fun _ => ⟨?_, ?_⟩⟩
              · exact hreads.fails _ s e hahead houtcome
              · intro hnil
                cases hnil
          | ok r =>
              have hshows := hreads.yields page rest s r hahead houtcome
              cases rest with
              | nil =>
                  have hdone := hreads.ends page s r hahead houtcome
                  rw [readWhile_done hdone]
                  exact ⟨[r], ⟨Or.inl rfl, List.Forall₂.cons hshows List.Forall₂.nil⟩,
                    fun _ => ⟨hdone, fun _ => rfl⟩⟩
              | cons page' rest' =>
                  have hmoved := hreads.moves page _ s r hahead houtcome
                    (List.cons_ne_nil _ _)
                  rcases ih hmoved (List.cons_ne_nil _ _) with ⟨results, hread, hends⟩
                  refine ⟨r :: results, ⟨?_, List.Forall₂.cons hshows hread.shows⟩,
                    fun hlength => ?_⟩
                  · rcases hread.outcomes with hall | ⟨e, hfailed⟩
                    · exact Or.inl (congrArg (List.cons (.ok r)) hall)
                    · exact Or.inr ⟨e, congrArg (List.cons (.ok r)) hfailed⟩
                  · rcases hends (Nat.le_of_succ_le_succ hlength) with ⟨hdone, hcount⟩
                    refine ⟨hdone, fun hall => ?_⟩
                    rw [List.length_cons, List.length_cons,
                      hcount (List.cons.inj hall).2]

end Reading

end Foundation
end OssSdk
