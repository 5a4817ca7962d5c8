import Mathlib.Data.List.Basic

/-!
# Streams of frames

A frame is a header of a fixed length followed by a body whose length the header
tells.  A stream is cut into frames as its elements come in, and what is left at
its end is the beginning of a frame.
-/

namespace OssSdk
namespace Foundation

structure Framing (element : Type) where
  headerLength : Nat
  bodyLength : List element -> Nat
  header_pos : 0 < headerLength

/-- The whole frames of a stream, and the beginning of the next one. -/
structure Split (element : Type) where
  frames : List (List element)
  pending : List element
deriving DecidableEq

namespace Framing

variable {element : Type} (F : Framing element)

/-- The length of a frame that begins like this, as far as that can be told. -/
def length (p : List element) : Nat :=
  if p.length < F.headerLength then F.headerLength
  else F.headerLength + F.bodyLength (p.take F.headerLength)

def Partial (p : List element) : Prop := p.length < F.length p

def Whole (p : List element) : Prop := p.length = F.length p

instance (p : List element) : Decidable (F.Partial p) :=
  inferInstanceAs (Decidable (p.length < F.length p))

instance (p : List element) : Decidable (F.Whole p) :=
  inferInstanceAs (Decidable (p.length = F.length p))

def push (s : Split element) (a : element) : Split element :=
  if F.Partial (s.pending ++ [a]) then { s with pending := s.pending ++ [a] }
  else { frames := s.frames ++ [s.pending ++ [a]], pending := [] }

def feed (s : Split element) (as : List element) : Split element :=
  as.foldl F.push s

def split (as : List element) : Split element :=
  F.feed ⟨[], []⟩ as

/-!
# The length of a frame
-/

variable {F}

theorem length_of_short {p : List element} (hshort : p.length < F.headerLength) :
    F.length p = F.headerLength :=
  if_pos hshort

theorem length_of_header {p : List element}
    (hheader : F.headerLength ≤ p.length) :
    F.length p = F.headerLength + F.bodyLength (p.take F.headerLength) :=
  if_neg (Nat.not_lt.mpr hheader)

/-- Once the header is there, the length does not change. -/
theorem length_append {p : List element} (q : List element)
    (hheader : F.headerLength ≤ p.length) :
    F.length (p ++ q) = F.length p := by
  have hmore : F.headerLength ≤ (p ++ q).length := by
    rw [List.length_append]
    omega
  rw [length_of_header hheader, length_of_header hmore,
    List.take_append_of_le_length hheader]

theorem partial_of_short {p : List element}
    (hshort : p.length < F.headerLength) : F.Partial p := by
  unfold Partial
  rw [length_of_short hshort]
  exact hshort

theorem partial_nil : F.Partial [] := partial_of_short F.header_pos

theorem header_of_whole {p : List element} (hwhole : F.Whole p) :
    F.headerLength ≤ p.length := by
  by_contra hshort
  have hunfinished := partial_of_short (F := F) (Nat.lt_of_not_le hshort)
  unfold Whole at hwhole
  unfold Partial at hunfinished
  omega

theorem not_partial_of_whole {p : List element} (hwhole : F.Whole p) :
    ¬ F.Partial p := by
  unfold Whole at hwhole
  unfold Partial
  omega

/-- Every beginning of a partial frame is partial. -/
theorem Partial.of_append {p q : List element} (hunfinished : F.Partial (p ++ q)) :
    F.Partial p := by
  by_cases hshort : p.length < F.headerLength
  · exact partial_of_short hshort
  · have hlength := length_append q (Nat.le_of_not_lt hshort)
    unfold Partial at hunfinished ⊢
    rw [hlength, List.length_append] at hunfinished
    omega

/-- Every proper beginning of a whole frame is partial. -/
theorem Whole.partial_of_append {p q : List element}
    (hwhole : F.Whole (p ++ q))
    (hq : q ≠ []) :
    F.Partial p := by
  by_cases hshort : p.length < F.headerLength
  · exact partial_of_short hshort
  · have hlength := length_append q (Nat.le_of_not_lt hshort)
    have hpos := List.length_pos_of_ne_nil hq
    unfold Whole at hwhole
    unfold Partial
    rw [hlength, List.length_append] at hwhole
    omega

/-- One element takes a partial frame at most to its end. -/
theorem Partial.whole_of_push {p : List element} {a : element}
    (hunfinished : F.Partial p)
    (hnot : ¬ F.Partial (p ++ [a])) :
    F.Whole (p ++ [a]) := by
  unfold Whole
  unfold Partial at hunfinished hnot
  by_cases hshort : p.length < F.headerLength
  · by_cases hstill : (p ++ [a]).length < F.headerLength
    · exact absurd (partial_of_short hstill) hnot
    · rw [length_of_header (Nat.le_of_not_lt hstill)] at hnot ⊢
      rw [List.length_append, List.length_singleton] at hnot hstill ⊢
      omega
  · have hlength := length_append [a] (Nat.le_of_not_lt hshort)
    rw [hlength, List.length_append, List.length_singleton] at hnot ⊢
    omega

/-- What comes in either leaves the frame partial or makes it whole. -/
theorem Partial.append_cases {p : List element} (hunfinished : F.Partial p)
    (as : List element) :
    F.Partial (p ++ as) ∨
      exists q rest, as = q ++ rest ∧ q ≠ [] ∧ F.Whole (p ++ q) := by
  induction as generalizing p with
  | nil =>
      rw [List.append_nil]
      exact Or.inl hunfinished
  | cons a more ih =>
      by_cases hstill : F.Partial (p ++ [a])
      · rcases ih hstill with hmore | ⟨q, rest, hsplit, _, hwhole⟩
        · rw [List.append_cons]
          exact Or.inl hmore
        · refine Or.inr ⟨a :: q, rest, ?_, List.cons_ne_nil a q, ?_⟩
          · rw [hsplit]
            rfl
          · rw [List.append_cons]
            exact hwhole
      · exact Or.inr ⟨[a], more, rfl, List.cons_ne_nil a [],
          hunfinished.whole_of_push hstill⟩

theorem ne_nil_of_whole {p : List element} (hwhole : F.Whole p) : p ≠ [] := by
  intro hp
  rw [hp] at hwhole
  exact not_partial_of_whole hwhole partial_nil

/-!
# Feeding a stream
-/

example : (Framing.mk 1 List.sum Nat.one_pos).split [1, 7, 0, 2, 8, 9, 3] =
    ⟨[[1, 7], [0], [2, 8, 9]], [3]⟩ := by decide +kernel

theorem feed_append (s : Split element) (as bs : List element) :
    F.feed s (as ++ bs) = F.feed (F.feed s as) bs :=
  List.foldl_append

theorem feed_partial (s : Split element) (as : List element)
    (hunfinished : F.Partial (s.pending ++ as)) :
    F.feed s as = { s with pending := s.pending ++ as } := by
  induction as generalizing s with
  | nil =>
      rw [List.append_nil]
      rfl
  | cons a rest ih =>
      rw [List.append_cons] at hunfinished ⊢
      have hpush : F.push s a = { s with pending := s.pending ++ [a] } :=
        if_pos hunfinished.of_append
      have hrest := ih { s with pending := s.pending ++ [a] } hunfinished
      simpa only [feed, List.foldl_cons, hpush] using hrest

theorem feed_whole (s : Split element) {as : List element}
    (has : as ≠ [])
    (hwhole : F.Whole (s.pending ++ as)) :
    F.feed s as =
      { frames := s.frames ++ [s.pending ++ as], pending := [] } := by
  rcases List.eq_nil_or_concat as with hnil | ⟨front, a, hconcat⟩
  · exact absurd hnil has
  · rw [hconcat, List.concat_eq_append, ← List.append_assoc] at hwhole ⊢
    rw [feed_append,
      feed_partial s front (hwhole.partial_of_append (by simp))]
    exact if_neg (not_partial_of_whole hwhole)

/-- Frames that are whole stay as they are. -/
theorem frames_feed (s : Split element) (as : List element)
    {f : List element}
    (hf : f ∈ s.frames) :
    f ∈ (F.feed s as).frames := by
  induction as generalizing s with
  | nil => exact hf
  | cons a rest ih =>
      refine ih (F.push s a) ?_
      unfold push
      split
      · exact hf
      · exact List.mem_append_left _ hf

end Framing
end Foundation
end OssSdk
