import Mathlib.Data.List.Count
import Mathlib.Data.List.Induction
import Mathlib.Order.Basic

/-!
# Labelled transition systems with executable steps

A system is a set of initial states and a partial step function: a label says
which party moves and which choice it makes, and the step is undefined where the
label is not enabled.  Runs are lists of labels, so a concrete schedule can be
evaluated, and a property of all interleavings is a property of all label lists.

A guard is a condition on the state before a step and on its label.  It restricts
a system to the runs all of whose steps meet it.
-/

namespace OssSdk
namespace Foundation

structure TransitionSystem (state label : Type) where
  initial : state -> Prop
  step : state -> label -> Option state

namespace TransitionSystem

variable {state label : Type}

/-- Follow a schedule; undefined as soon as one of its labels is not enabled. -/
def run (T : TransitionSystem state label) : state -> List label -> Option state
  | s, [] => some s
  | s, l :: rest =>
      match T.step s l with
      | none => none
      | some s' => run T s' rest

def Reachable (T : TransitionSystem state label) (s : state) : Prop :=
  exists s0 labels, T.initial s0 ∧ T.run s0 labels = some s

def Invariant (T : TransitionSystem state label) (P : state -> Prop) : Prop :=
  forall s, T.Reachable s -> P s

/-- The same system, with the steps that break the guard taken out. -/
def guarded (T : TransitionSystem state label)
    (guard : state -> label -> Prop) [forall s l, Decidable (guard s l)] :
    TransitionSystem state label where
  initial := T.initial
  step s l := if guard s l then T.step s l else none

/-!
# Runs
-/

@[simp] theorem run_nil (T : TransitionSystem state label) (s : state) :
    T.run s [] = some s := rfl

theorem run_cons_of_step
    {T : TransitionSystem state label} {s s' : state} {l : label}
    (rest : List label) (hstep : T.step s l = some s') :
    T.run s (l :: rest) = T.run s' rest := by
  simp [run, hstep]

theorem run_cons_some
    {T : TransitionSystem state label} {s t : state} {l : label}
    {rest : List label} (hrun : T.run s (l :: rest) = some t) :
    exists s', T.step s l = some s' ∧ T.run s' rest = some t := by
  cases hstep : T.step s l with
  | none => simp [run, hstep] at hrun
  | some s' =>
      exact ⟨s', rfl, by simpa [run, hstep] using hrun⟩

theorem run_append
    (T : TransitionSystem state label) (s : state) (xs ys : List label) :
    T.run s (xs ++ ys) = (T.run s xs).bind fun t => T.run t ys := by
  induction xs generalizing s with
  | nil => rfl
  | cons l rest ih =>
      cases hstep : T.step s l with
      | none => simp [run, hstep]
      | some s' => simpa [run, hstep] using ih s'

/-- What every step preserves, a whole run preserves. -/
theorem run_preserves
    {T : TransitionSystem state label} {P : state -> Prop}
    (hstep : forall s l t, P s -> T.step s l = some t -> P t)
    {s t : state} {labels : List label}
    (hs : P s) (hrun : T.run s labels = some t) : P t := by
  induction labels generalizing s with
  | nil =>
      cases hrun
      exact hs
  | cons l rest ih =>
      rcases run_cons_some hrun with ⟨s', hs', hrest⟩
      exact ih (hstep s l s' hs hs') hrest

theorem invariant_of_step
    {T : TransitionSystem state label} {P : state -> Prop}
    (hinitial : forall s, T.initial s -> P s)
    (hstep : forall s l t, P s -> T.step s l = some t -> P t) :
    T.Invariant P := by
  intro s hs
  rcases hs with ⟨s0, labels, hs0, hrun⟩
  exact run_preserves hstep (hinitial s0 hs0) hrun

theorem reachable_of_run
    {T : TransitionSystem state label} {s t : state} {labels : List label}
    (hs : T.initial s) (hrun : T.run s labels = some t) : T.Reachable t :=
  ⟨s, labels, hs, hrun⟩

theorem Reachable.run {T : TransitionSystem state label} {s t : state} {labels : List label}
    (hs : T.Reachable s) (hrun : T.run s labels = some t) : T.Reachable t := by
  rcases hs with ⟨s0, before, hs0, hbefore⟩
  refine ⟨s0, before ++ labels, hs0, ?_⟩
  rw [run_append, hbefore]
  exact hrun

/-!
# Simulations
-/

/-- A step that looks like some steps of another system leads to a state of that. -/
theorem reachable_of_simulation {state' label' : Type} {T : TransitionSystem state label}
    {T' : TransitionSystem state' label'} {f : state -> state'}
    (hinitial : forall s, T.initial s -> T'.initial (f s))
    (hstep : forall s l t, T.Reachable s -> T.step s l = some t ->
      exists labels, T'.run (f s) labels = some (f t))
    {s : state} (hs : T.Reachable s) : T'.Reachable (f s) := by
  rcases hs with ⟨s0, labels, hs0, hrun⟩
  induction labels using List.reverseRecOn generalizing s with
  | nil =>
      cases hrun
      exact reachable_of_run (hinitial s0 hs0) (run_nil T' (f s0))
  | append_singleton labels l ih =>
      rw [run_append] at hrun
      rcases Option.bind_eq_some_iff.mp hrun with ⟨s', hfirst, hlast⟩
      rcases run_cons_some hlast with ⟨t, hl, hdone⟩
      cases hdone
      rcases hstep s' l s (reachable_of_run hs0 hfirst) hl with ⟨more, hmore⟩
      rcases ih hfirst with ⟨t0, labels', ht0, hrun'⟩
      refine ⟨t0, labels' ++ more, ht0, ?_⟩
      rw [run_append, hrun']
      exact hmore

/-!
# Guarded runs
-/

section Guarded

variable {T : TransitionSystem state label}
variable {guard : state -> label -> Prop} [forall s l, Decidable (guard s l)]

theorem guarded_step_some {s t : state} {l : label}
    (hstep : (T.guarded guard).step s l = some t) :
    guard s l ∧ T.step s l = some t := by
  by_cases hguard : guard s l
  · exact ⟨hguard, by simpa [guarded, hguard] using hstep⟩
  · simp [guarded, hguard] at hstep

/-- An invariant of the guarded system may use the guard in its step lemma. -/
theorem guarded_invariant_of_step {P : state -> Prop}
    (hinitial : forall s, T.initial s -> P s)
    (hstep : forall s l t, P s -> guard s l -> T.step s l = some t -> P t) :
    (T.guarded guard).Invariant P := by
  apply invariant_of_step (T := T.guarded guard) hinitial
  intro s l t hs hst
  rcases guarded_step_some hst with ⟨hguard, hst⟩
  exact hstep s l t hs hguard hst

theorem run_of_guarded_run {s t : state} {labels : List label}
    (hrun : (T.guarded guard).run s labels = some t) :
    T.run s labels = some t := by
  induction labels generalizing s with
  | nil => simpa using hrun
  | cons l rest ih =>
      rcases run_cons_some hrun with ⟨s', hstep, hrest⟩
      rw [run_cons_of_step rest (guarded_step_some hstep).right]
      exact ih hrest

theorem reachable_of_guarded {s : state}
    (hs : (T.guarded guard).Reachable s) : T.Reachable s := by
  rcases hs with ⟨s0, labels, hs0, hrun⟩
  exact ⟨s0, labels, hs0, run_of_guarded_run hrun⟩

end Guarded

/-!
# Bounded activity

A measure that some labels decrease, and that no label increases, bounds how
often those labels occur in any run.
-/

theorem run_countP_le
    {T : TransitionSystem state label} {P : state -> Prop}
    {measure : state -> Nat} {p : label -> Bool}
    (hpres : forall s l t, P s -> T.step s l = some t -> P t)
    (hdecr : forall s l t, P s -> T.step s l = some t ->
      measure t + (if p l then 1 else 0) ≤ measure s)
    {s t : state} {labels : List label}
    (hs : P s) (hrun : T.run s labels = some t) :
    labels.countP p + measure t ≤ measure s := by
  induction labels generalizing s with
  | nil =>
      cases hrun
      simp
  | cons l rest ih =>
      rcases run_cons_some hrun with ⟨s', hstep, hrest⟩
      have htail := ih (hpres s l s' hs hstep) hrest
      have hhead := hdecr s l s' hs hstep
      rw [List.countP_cons]
      omega

/-!
# Coming to rest

Some labels are moves that a system makes by itself.  It comes to rest if these moves
end, however they are ordered; what holds at rest is all that is waited for.
-/

section Rest

variable (T : TransitionSystem state label) (own : label -> Prop)

def AtRest (s : state) : Prop := forall l, own l -> T.step s l = none

/-- Own moves are made at most `bound` times, and when there are none, `P` holds. -/
def Settles (P : state -> Prop) (s : state) : Prop :=
  exists bound, forall labels t, (forall l, l ∈ labels -> own l) -> T.run s labels = some t ->
    labels.length ≤ bound ∧ (T.AtRest own t -> P t)

variable {T} {own}

theorem run_length_le {measure : state -> Nat}
    (hdecr : forall s l t, own l -> T.step s l = some t -> measure t < measure s)
    {s t : state} {labels : List label} (hown : forall l, l ∈ labels -> own l)
    (hrun : T.run s labels = some t) : labels.length + measure t ≤ measure s := by
  induction labels generalizing s with
  | nil =>
      cases hrun
      exact Nat.le_of_eq (Nat.zero_add _)
  | cons l rest ih =>
      rcases run_cons_some hrun with ⟨s', hstep, hrest⟩
      have hhead := hdecr s l s' (hown l List.mem_cons_self) hstep
      have htail := ih (fun l' hl' => hown l' (List.mem_cons_of_mem l hl')) hrest
      rw [List.length_cons]
      omega

theorem settles_of_measure {measure : state -> Nat} {P : state -> Prop}
    (hdecr : forall s l t, own l -> T.step s l = some t -> measure t < measure s)
    (hrest : forall s, T.Reachable s -> T.AtRest own s -> P s)
    {s : state} (hs : T.Reachable s) : T.Settles own P s := by
  refine ⟨measure s, ?_⟩
  intro labels t hown hrun
  constructor
  · exact Nat.le_trans (Nat.le_add_right _ _) (run_length_le hdecr hown hrun)
  · exact hrest t (hs.run hrun)

/-- The same, where only the states that own moves lead to from here are looked at. -/
theorem settles_of_measure_under {measure : state -> Nat} {P Q : state -> Prop}
    (hstep : forall s l t, own l -> P s -> T.step s l = some t -> P t ∧ measure t < measure s)
    (hrest : forall s, P s -> T.AtRest own s -> Q s) {s : state} (hs : P s) :
    T.Settles own Q s := by
  refine ⟨measure s, ?_⟩
  intro labels t hown hrun
  have hall : labels.length + measure t ≤ measure s ∧ P t := by
    induction labels generalizing s with
    | nil =>
        cases hrun
        exact ⟨Nat.le_of_eq (Nat.zero_add _), hs⟩
    | cons l rest ih =>
        rcases run_cons_some hrun with ⟨s', hl, hrun'⟩
        have hhead := hstep s l s' (hown l List.mem_cons_self) hs hl
        have htail := ih hhead.1 (fun l' hl' => hown l' (List.mem_cons_of_mem l hl')) hrun'
        refine ⟨?_, htail.2⟩
        rw [List.length_cons]
        omega
  exact ⟨Nat.le_trans (Nat.le_add_right _ _) hall.1, hrest t hall.2⟩

end Rest

end TransitionSystem
end Foundation
end OssSdk
