import OssSdk.Io.ByteStream

/-!
# Reading a source into a buffer

A source may give fewer bytes than are asked for, in reads of any size.  `readToCount`
asks again until the buffer is full or a read gives nothing.
-/

namespace OssSdk

open Foundation

variable {ρ : Type}

/-- A body: its length, if it has one, and the source that it is read from. -/
structure SpanContent (ρ : Type) where
  length : Option Nat
  spanSource : Option (ByteSource ρ × ρ)

/-- `st != 0` without `eofbit`. -/
def IoState.readFailed (st : IoState) : Bool := !st.eof && (st.failbit || st.badbit)

namespace ByteSource

/-- The loop of `readToCount`; each turn but the last one reads a byte or more. -/
def readTurns (source : ByteSource ρ) : Nat -> Nat -> ρ -> ByteString × ρ
  | 0, _, r => ([], r)
  | turns + 1, count, r =>
      let (piece, r) := source.read count r
      if piece.length = count ∨ piece = [] then (piece, r)
      else
        let (rest, r) := readTurns source turns (count - piece.length) r
        (piece ++ rest, r)

def readToCount (source : ByteSource ρ) (count : Nat) (r : ρ) : ByteString × ρ :=
  source.readTurns count count r

/--
What is left of the content of a source.  A read takes some of it from the front, and
gives nothing only at the end.
-/
structure Spans (source : ByteSource ρ) (left : ρ -> ByteString) : Prop where
  split : forall count r, left r = (source.read count r).1 ++ left (source.read count r).2
  ended : forall count r, 0 < count -> (source.read count r).1 = [] -> left r = []

theorem Fills.spans {source : ByteSource ρ} {left : ρ -> ByteString}
    (hfills : source.Fills left) : source.Spans left where
  split count r := by
    rw [hfills.read, hfills.rest]
    exact (List.take_append_drop count (left r)).symm
  ended count r hcount hnone := by
    rw [hfills.read] at hnone
    exact (List.take_eq_nil_iff.mp hnone).resolve_left (Nat.ne_of_gt hcount)

/-- A source that fails before its end, when it is read into buffers of this size. -/
inductive Unreadable (source : ByteSource ρ) (count : Nat) : ρ -> Prop where
  | here {r : ρ} : (source.readToCount count r).1.length < count ->
      (source.iostate (source.readToCount count r).2).readFailed = true ->
      Unreadable source count r
  | later {r : ρ} : (source.readToCount count r).1 ≠ [] ->
      Unreadable source count (source.readToCount count r).2 ->
      Unreadable source count r

theorem unreadable_iff {source : ByteSource ρ} {count : Nat} {r : ρ}
    (hread : ¬ ((source.readToCount count r).1.length < count ∧
      (source.iostate (source.readToCount count r).2).readFailed = true)) :
    source.Unreadable count r ↔ (source.readToCount count r).1 ≠ [] ∧
      source.Unreadable count (source.readToCount count r).2 := by
  constructor
  · intro hunreadable
    cases hunreadable with
    | here hshort hfailed => exact absurd ⟨hshort, hfailed⟩ hread
    | later hbuffer hrest => exact ⟨hbuffer, hrest⟩
  · intro hlater
    exact .later hlater.1 hlater.2

theorem readTurns_last {source : ByteSource ρ} {count : Nat} {r : ρ} (turns : Nat)
    (hlast : (source.read count r).1.length = count ∨ (source.read count r).1 = []) :
    source.readTurns (turns + 1) count r = source.read count r :=
  if_pos hlast

theorem readTurns_again {source : ByteSource ρ} {count : Nat} {r : ρ} (turns : Nat)
    (hnot : ¬ ((source.read count r).1.length = count ∨ (source.read count r).1 = [])) :
    source.readTurns (turns + 1) count r =
      ((source.read count r).1 ++ (source.readTurns turns
        (count - (source.read count r).1.length) (source.read count r).2).1,
      (source.readTurns turns
        (count - (source.read count r).1.length) (source.read count r).2).2) :=
  if_neg hnot

theorem readTurns_spans {source : ByteSource ρ} {left : ρ -> ByteString}
    (hspans : source.Spans left) (turns count : Nat) (hturns : count ≤ turns) (r : ρ) :
    left r = (source.readTurns turns count r).1 ++
        left (source.readTurns turns count r).2 ∧
      ((source.readTurns turns count r).1.length < count ->
        left (source.readTurns turns count r).2 = []) := by
  induction turns generalizing count r with
  | zero =>
      rw [Nat.le_zero.mp hturns]
      exact ⟨rfl, fun h => absurd h (Nat.not_lt_zero _)⟩
  | succ turns ih =>
      have hsplit := hspans.split count r
      by_cases hlast : (source.read count r).1.length = count ∨
          (source.read count r).1 = []
      · rw [readTurns_last turns hlast]
        refine ⟨hsplit, ?_⟩
        intro hshort
        rcases hlast with hfull | hnone
        · exact absurd hfull (Nat.ne_of_lt hshort)
        · have hleft := hspans.ended count r (Nat.zero_lt_of_lt hshort) hnone
          rw [hleft] at hsplit
          exact (List.append_eq_nil_iff.mp hsplit.symm).2
      · have hnot := not_or.mp hlast
        have hpositive := List.length_pos_iff.mpr hnot.2
        rw [readTurns_again turns hlast]
        rcases ih (count - (source.read count r).1.length) (by omega)
          (source.read count r).2 with ⟨hrest, hended⟩
        refine ⟨?_, ?_⟩
        · rw [List.append_assoc, ← hrest]
          exact hsplit
        · intro hshort
          rw [List.length_append] at hshort
          exact hended (by omega)

/-- A buffer is filled from the front of what is left, and it is full or it is the last. -/
theorem readToCount_spans {source : ByteSource ρ} {left : ρ -> ByteString}
    (hspans : source.Spans left) (count : Nat) (r : ρ) :
    left r = (source.readToCount count r).1 ++ left (source.readToCount count r).2 ∧
      ((source.readToCount count r).1.length < count ->
        left (source.readToCount count r).2 = []) :=
  readTurns_spans hspans count count (Nat.le_refl count) r

end ByteSource

end OssSdk
