import Mathlib.Logic.Basic

/-!
# Conversations of a caller with a service

A caller makes one call at a time and goes on from the answer.  A service answers a
call from what it has in store, and may have a choice of answers.  A conversation ends
where the caller makes no more calls.
-/

namespace OssSdk
namespace Foundation

structure Caller (state call answer : Type) where
  call : state -> Option call
  resume : state -> answer -> state

/-- What may be answered to a call, and what is in store after it. -/
abbrev Service (store call answer : Type) := store -> call -> answer -> store -> Prop

variable {state state' store call answer : Type}

/-- A conversation to its end, with the answers in it. -/
inductive Converses (C : Caller state call answer) (V : Service store call answer) :
    state -> store -> List answer -> state -> Prop where
  | done {s : state} {v : store} : C.call s = none -> Converses C V s v [] s
  | step {s t : state} {v v' : store} {c : call} {a : answer} {answers : List answer} :
      C.call s = some c -> V v c a v' -> Converses C V (C.resume s a) v' answers t ->
      Converses C V s v (a :: answers) t

namespace Converses

variable {C : Caller state call answer} {D : Caller state' call answer}
variable {V : Service store call answer}

/-- A caller that makes no call has the conversation behind it. -/
theorem of_call_none {s t : state} {v : store} {answers : List answer}
    (hconverses : Converses C V s v answers t) (hcall : C.call s = none) :
    answers = [] ∧ t = s := by
  cases hconverses with
  | done _ => exact ⟨rfl, rfl⟩
  | step hsome _ _ =>
      rw [hcall] at hsome
      cases hsome

theorem of_call_some {s t : state} {v : store} {answers : List answer} {c : call}
    (hconverses : Converses C V s v answers t) (hcall : C.call s = some c) :
    exists a rest v', answers = a :: rest ∧ V v c a v' ∧
      Converses C V (C.resume s a) v' rest t := by
  cases hconverses with
  | done hnone =>
      rw [hcall] at hnone
      cases hnone
  | @step _ _ _ v' c' a rest hsome hanswer hrest =>
      rw [hcall] at hsome
      cases hsome
      exact ⟨a, rest, v', rfl, hanswer, hrest⟩

/--
Two callers that make the same calls as long as they are related.  Where a relation ends
the rest of both conversations is to meet `Q`, which answers that both get do not
change.
-/
theorem lockstep {R : state -> state' -> store -> Prop}
    {Q : List answer -> state -> List answer -> state' -> Prop}
    {S : answer -> Prop}
    (hR : forall s s' v, R s s' v ->
      (forall as t bs t', Converses C V s v as t -> Converses D V s' v bs t' ->
        Q as t bs t') ∨
      exists c, C.call s = some c ∧ D.call s' = some c ∧
        (forall a w b w', V v c a w -> V v c b w' -> a = b ∧ w = w') ∧
        forall a w, V v c a w -> S a ∧ R (C.resume s a) (D.resume s' a) w)
    (hQ : forall a as t bs t', S a -> Q as t bs t' -> Q (a :: as) t (a :: bs) t')
    {s t : state} {s' t' : state'} {v : store} {as bs : List answer}
    (hrelated : R s s' v) (hleft : Converses C V s v as t)
    (hright : Converses D V s' v bs t') : Q as t bs t' := by
  induction hleft generalizing s' bs with
  | @done s v hnone =>
      rcases hR s s' v hrelated with hend | ⟨c, hcall, _⟩
      · exact hend _ _ _ _ (.done hnone) hright
      · rw [hnone] at hcall
        cases hcall
  | @step s t v w c a as hcall hanswer hrest ih =>
      rcases hR s s' v hrelated with hend | ⟨c', hleftCall, hrightCall, hone, hgoOn⟩
      · exact hend _ _ _ _ (.step hcall hanswer hrest) hright
      · rw [hcall] at hleftCall
        cases hleftCall
        rcases hright.of_call_some hrightCall with ⟨b, bs', w', hbs, hanswer', hrest'⟩
        rcases hone a w b w' hanswer hanswer' with ⟨hab, hww⟩
        rw [← hab, ← hww] at hrest'
        rw [hbs, ← hab]
        rcases hgoOn a w hanswer with ⟨hshared, hR'⟩
        exact hQ a as t bs' t' hshared (ih hR' hrest')

end Converses
end Foundation
end OssSdk
