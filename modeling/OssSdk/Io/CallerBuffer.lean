import OssSdk.Io.ByteWriter
import Mathlib.Data.List.Induction

/-!
# What a caller's buffer holds

A `MemoryWriter` stores nothing of a write that does not fit in what is left of its
buffer.  It does not look at its flag when it is written to again, so that a later and
smaller write is stored behind the gap.
-/

namespace OssSdk

open Foundation

/-- A writer that has just been made. -/
def MemoryWriterState.init (capacity : Nat) : MemoryWriterState := ⟨[], capacity, false⟩

/-- The writer, after these writes. -/
def memoryAfter (capacity : Nat) (offered : List ByteString) : MemoryWriterState :=
  (MemoryWriter Cell.whole).writes offered (MemoryWriterState.init capacity)

/-- The first `written()` bytes of the buffer. -/
def stored (capacity : Nat) (offered : List ByteString) : ByteString :=
  (memoryAfter capacity offered).buf

/-- The write that follows these writes is not taken as a whole. -/
def Rejects (capacity : Nat) (offered : List ByteString) (data : ByteString) : Prop :=
  ((MemoryWriter Cell.whole).write data (memoryAfter capacity offered)).1 < data.length

/--
At all times the buffer holds the beginning of what has been offered, and nothing goes
into it once a write has been rejected.
-/
structure HoldsPrefix (capacity : Nat) (offered : List ByteString) : Prop where
  held : forall past, past <+: offered -> stored capacity past <+: past.flatten
  gapless : forall past data more, past ++ data :: more <+: offered ->
    Rejects capacity past data ->
      stored capacity (past ++ data :: more) = stored capacity past

/-- Behind the first write that is too large, every other one is empty or too large. -/
def NothingFitsBehind (capacity : Nat) (offered : List ByteString) : Prop :=
  forall past data rest, offered = past ++ data :: rest ->
    past.flatten.length ≤ capacity -> capacity < past.flatten.length + data.length ->
      forall next, next ∈ rest -> next = [] ∨ capacity < past.flatten.length + next.length

section Writes

variable {capacity : Nat} {m : MemoryWriterState}

theorem onWrite_fits {data : ByteString} (hfits : m.buf.length + data.length ≤ m.capacity) :
    m.onWrite data = (data.length, { m with buf := m.buf ++ data }) :=
  if_neg (Nat.not_lt.mpr hfits)

theorem onWrite_overflows {data : ByteString}
    (hlarge : m.capacity < m.buf.length + data.length) :
    m.onWrite data = (0, { m with overflow := true }) := if_pos hlarge

theorem memoryAfter_append (past rest : List ByteString) :
    memoryAfter capacity (past ++ rest) =
      (MemoryWriter Cell.whole).writes rest (memoryAfter capacity past) := by
  unfold memoryAfter
  generalize MemoryWriterState.init capacity = m
  induction past generalizing m with
  | nil => rfl
  | cons data past ih => exact ih _

theorem writes_capacity (rest : List ByteString) :
    ((MemoryWriter Cell.whole).writes rest m).capacity = m.capacity := by
  induction rest generalizing m with
  | nil => rfl
  | cons data rest ih =>
      have hstep : (m.onWrite data).2.capacity = m.capacity := by
        unfold MemoryWriterState.onWrite
        split
        · rfl
        · rfl
      exact (@ih (m.onWrite data).2).trans hstep

theorem memoryAfter_capacity (past : List ByteString) :
    (memoryAfter capacity past).capacity = capacity := writes_capacity past

/-- What fits as a whole is stored as a whole. -/
theorem writes_fit {rest : List ByteString}
    (hfits : m.buf.length + rest.flatten.length ≤ m.capacity) :
    ((MemoryWriter Cell.whole).writes rest m).buf = m.buf ++ rest.flatten := by
  induction rest generalizing m with
  | nil => exact (List.append_nil _).symm
  | cons data rest ih =>
      rw [List.flatten_cons, List.length_append] at hfits
      have hstep := @onWrite_fits m data (by omega)
      have hrest := @ih { m with buf := m.buf ++ data } (by
        rw [List.length_append]
        exact Nat.add_assoc _ _ _ ▸ hfits)
      rw [List.flatten_cons, ← List.append_assoc]
      have hwrites : (MemoryWriter Cell.whole).writes (data :: rest) m =
          (MemoryWriter Cell.whole).writes rest (m.onWrite data).2 := rfl
      rw [hwrites, hstep]
      exact hrest

theorem stored_of_fits {past : List ByteString} (hfits : past.flatten.length ≤ capacity) :
    stored capacity past = past.flatten :=
  writes_fit (m := MemoryWriterState.init capacity) (by
    rw [MemoryWriterState.init, List.length_nil, Nat.zero_add]
    exact hfits)

/-- Writes that are empty or too large leave the buffer as it is. -/
theorem writes_refused {rest : List ByteString}
    (hnone : forall next, next ∈ rest -> next = [] ∨ m.capacity < m.buf.length + next.length) :
    ((MemoryWriter Cell.whole).writes rest m).buf = m.buf := by
  induction rest generalizing m with
  | nil => rfl
  | cons data rest ih =>
      have hstep : (m.onWrite data).2.buf = m.buf ∧
          (m.onWrite data).2.capacity = m.capacity := by
        by_cases hlarge : m.capacity < m.buf.length + data.length
        · rw [onWrite_overflows hlarge]
          exact ⟨rfl, rfl⟩
        · rcases hnone data List.mem_cons_self with hempty | hlarge'
          · rw [hempty, onWrite_fits (by rw [hempty] at hlarge; exact Nat.not_lt.mp hlarge)]
            exact ⟨List.append_nil _, rfl⟩
          · exact absurd hlarge' hlarge
      have hrest := @ih (m.onWrite data).2 (by
        intro next hnext
        rw [hstep.1, hstep.2]
        exact hnone next (List.mem_cons_of_mem _ hnext))
      exact hrest.trans hstep.1

/-- Where not all of the writes fit, there is a first one that does not. -/
theorem exists_first_large {past : List ByteString}
    (hlarge : capacity < past.flatten.length) :
    exists before data rest, past = before ++ data :: rest ∧
      before.flatten.length ≤ capacity ∧ capacity < before.flatten.length + data.length := by
  induction past using List.reverseRecOn with
  | nil => exact absurd hlarge (Nat.not_lt_zero _)
  | append_singleton past last ih =>
      by_cases hpast : capacity < past.flatten.length
      · rcases ih hpast with ⟨before, data, rest, hsplit, hfits, hfirst⟩
        refine ⟨before, data, rest ++ [last], ?_, hfits, hfirst⟩
        rw [hsplit, List.append_assoc, List.cons_append]
      · refine ⟨past, last, [], rfl, Nat.not_lt.mp hpast, ?_⟩
        rw [List.flatten_append, List.length_append, List.flatten_singleton] at hlarge
        exact hlarge

theorem rejects_iff {past : List ByteString} {data : ByteString} :
    Rejects capacity past data ↔
      data ≠ [] ∧ capacity < (stored capacity past).length + data.length := by
  have hcapacity : (memoryAfter capacity past).capacity = capacity :=
    memoryAfter_capacity past
  have hwrite : ((MemoryWriter Cell.whole).write data (memoryAfter capacity past)).1 =
      ((memoryAfter capacity past).onWrite data).1 := rfl
  unfold Rejects
  rw [hwrite]
  by_cases hlarge : (memoryAfter capacity past).capacity <
      (memoryAfter capacity past).buf.length + data.length
  · rw [onWrite_overflows hlarge, hcapacity] at *
    rw [List.length_pos_iff]
    exact ⟨fun hdata => ⟨hdata, hlarge⟩, fun h => h.1⟩
  · rw [onWrite_fits (Nat.not_lt.mp hlarge)]
    rw [hcapacity] at hlarge
    exact ⟨fun hless => absurd hless (Nat.lt_irrefl _), fun h => absurd h.2 hlarge⟩

end Writes

section Prefix

variable {capacity : Nat} {offered : List ByteString}

/-- From the first write that is too large on, the buffer stays as it is. -/
theorem NothingFitsBehind.stored_eq (hnothing : NothingFitsBehind capacity offered)
    {before rest : List ByteString} {data : ByteString}
    (hpast : before ++ data :: rest <+: offered)
    (hfits : before.flatten.length ≤ capacity)
    (hlarge : capacity < before.flatten.length + data.length) :
    stored capacity (before ++ data :: rest) = before.flatten := by
  rcases hpast with ⟨more, hoffered⟩
  rw [List.append_assoc, List.cons_append] at hoffered
  have hbehind := hnothing before data (rest ++ more) hoffered.symm hfits hlarge
  have hstored := stored_of_fits hfits
  unfold stored at hstored ⊢
  rw [memoryAfter_append]
  refine (writes_refused ?_).trans hstored
  intro next hnext
  rw [memoryAfter_capacity, hstored]
  rcases List.mem_cons.mp hnext with heq | hrest
  · rw [heq]
    exact Or.inr hlarge
  · exact hbehind next (List.mem_append_left _ hrest)

theorem NothingFitsBehind.holdsPrefix (hnothing : NothingFitsBehind capacity offered) :
    HoldsPrefix capacity offered where
  held past hpast := by
    by_cases hfits : past.flatten.length ≤ capacity
    · exact stored_of_fits hfits ▸ List.prefix_refl _
    · rcases exists_first_large (Nat.not_le.mp hfits) with
        ⟨before, data, rest, hsplit, hbefore, hlarge⟩
      rw [hsplit] at hpast ⊢
      rw [hnothing.stored_eq hpast hbefore hlarge, List.flatten_append]
      exact List.prefix_append _ _
  gapless past data more hpast hrejects := by
    by_cases hfits : past.flatten.length ≤ capacity
    · have hlarge := (rejects_iff.mp hrejects).2
      rw [stored_of_fits hfits] at hlarge ⊢
      exact hnothing.stored_eq hpast hfits hlarge
    · rcases exists_first_large (Nat.not_le.mp hfits) with
        ⟨before, first, rest, hsplit, hbefore, hlarge⟩
      rw [hsplit] at hpast ⊢
      rw [List.append_assoc, List.cons_append] at hpast ⊢
      have hshort : before ++ first :: rest <+: offered := by
        refine List.IsPrefix.trans ?_ hpast
        rw [← List.cons_append, ← List.append_assoc]
        exact List.prefix_append _ _
      rw [hnothing.stored_eq hpast hbefore hlarge, hnothing.stored_eq hshort hbefore hlarge]

theorem HoldsPrefix.nothingFitsBehind (hholds : HoldsPrefix capacity offered) :
    NothingFitsBehind capacity offered := by
  intro past data rest hoffered hfits hlarge next hnext
  rcases List.append_of_mem hnext with ⟨between, behind, hrest⟩
  have hstored := stored_of_fits hfits
  have hsome : data ≠ [] := by
    intro hempty
    rw [hempty, List.length_nil] at hlarge
    omega
  have hrejects : Rejects capacity past data :=
    rejects_iff.mpr ⟨hsome, by rw [hstored]; exact hlarge⟩
  have hnow : past ++ data :: between <+: offered := by
    refine ⟨next :: behind, ?_⟩
    rw [hoffered, hrest, List.append_assoc, List.cons_append]
  have hthen : past ++ data :: (between ++ [next]) <+: offered := by
    refine ⟨behind, ?_⟩
    rw [hoffered, hrest, List.append_assoc, List.cons_append, List.append_assoc,
      List.singleton_append]
  have hbefore := (hholds.gapless past data between hnow hrejects).trans hstored
  have hafter := (hholds.gapless past data (between ++ [next]) hthen hrejects).trans hstored
  rw [← List.cons_append, ← List.append_assoc] at hafter
  unfold stored at hbefore hafter
  rw [memoryAfter_append] at hafter
  by_cases hnextFits : (memoryAfter capacity (past ++ data :: between)).buf.length +
      next.length ≤ capacity
  · have hstep : ((MemoryWriter Cell.whole).writes [next]
        (memoryAfter capacity (past ++ data :: between))).buf =
          (memoryAfter capacity (past ++ data :: between)).buf ++ next := by
      have hwrites := @writes_fit (memoryAfter capacity (past ++ data :: between)) [next]
        (by
          rw [memoryAfter_capacity, List.flatten_singleton]
          exact hnextFits)
      rw [List.flatten_singleton] at hwrites
      exact hwrites
    rw [hstep, hbefore] at hafter
    exact Or.inl (List.append_right_eq_self.mp hafter)
  · rw [hbefore] at hnextFits
    exact Or.inr (Nat.not_le.mp hnextFits)

end Prefix

theorem memoryWriter_holdsPrefix_iff (capacity : Nat) (offered : List ByteString) :
    HoldsPrefix capacity offered ↔ NothingFitsBehind capacity offered :=
  ⟨HoldsPrefix.nothingFitsBehind, NothingFitsBehind.holdsPrefix⟩

/-- Two bytes of four are left, three are rejected, and the last one goes in their place. -/
theorem not_holdsPrefix_gap :
    stored 4 [[1, 2], [3, 4, 5], [6]] = [1, 2, 6] ∧
      ¬ HoldsPrefix 4 [[1, 2], [3, 4, 5], [6]] := by
  refine ⟨by decide, fun hholds => ?_⟩
  have hheld := hholds.held _ (List.prefix_refl _)
  revert hheld
  decide

end OssSdk
