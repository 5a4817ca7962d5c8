import OssSdk.Io.ByteWriter

/-!
# Partial writes

A writer takes any number of the bytes that it is offered.  What it has taken is the
beginning of all that was offered, or there is a hole in it, which the bytes alone may not
show.
-/

namespace OssSdk

open Foundation

variable {σ : Type}

/-- A piece that was offered, and how many of its bytes were taken. -/
structure PartialWrite where
  piece : ByteString
  written : Nat
  le : written ≤ piece.length
deriving DecidableEq

/-- The places of the bytes that were taken, among all that were offered from a place on. -/
def takenAt : Nat -> List PartialWrite -> List Nat
  | _, [] => []
  | start, e :: rest =>
      List.range' start e.written ++ takenAt (start + e.piece.length) rest

def takenBytes (log : List PartialWrite) : ByteString :=
  (log.map fun e => e.piece.take e.written).flatten

def offeredBytes (log : List PartialWrite) : ByteString :=
  (log.map PartialWrite.piece).flatten

/-!
# Places without a hole
-/

section Places

variable {start k : Nat} {log : List PartialWrite}

theorem le_of_mem_takenAt {i : Nat} (hi : i ∈ takenAt start log) : start ≤ i := by
  induction log generalizing start with
  | nil => cases hi
  | cons e rest ih =>
      rcases List.mem_append.mp hi with hfirst | hrest
      · exact (List.mem_range'_1.mp hfirst).1
      · exact Nat.le_trans (Nat.le_add_right _ _) (ih hrest)

theorem length_takenAt (start : Nat) (log : List PartialWrite) :
    (takenAt start log).length = (takenBytes log).length := by
  induction log generalizing start with
  | nil => rfl
  | cons e rest ih =>
      have hbytes : takenBytes (e :: rest) = e.piece.take e.written ++ takenBytes rest :=
        List.flatten_cons
      rw [takenAt, hbytes, List.length_append, List.length_append, ih, List.length_range',
        List.length_take, Nat.min_eq_left e.le]

theorem takenBytes_length_le (log : List PartialWrite) :
    (takenBytes log).length ≤ (offeredBytes log).length := by
  induction log with
  | nil => exact Nat.le_refl 0
  | cons e rest ih =>
      have htaken : takenBytes (e :: rest) = e.piece.take e.written ++ takenBytes rest :=
        List.flatten_cons
      have hoffered : offeredBytes (e :: rest) = e.piece ++ offeredBytes rest :=
        List.flatten_cons
      rw [htaken, hoffered, List.length_append, List.length_append]
      exact Nat.add_le_add (List.length_take_le' _ _) ih

/-- Consecutive places go on where the first ones end. -/
theorem range'_append_iff (start n k : Nat) (places : List Nat) :
    List.range' start n ++ places = List.range' start k ↔
      n ≤ k ∧ places = List.range' (start + n) (k - n) := by
  constructor
  · intro hsame
    have hlength := congrArg List.length hsame
    rw [List.length_append, List.length_range', List.length_range'] at hlength
    have hle : n ≤ k := by omega
    refine ⟨hle, ?_⟩
    have hsplit : List.range' start n ++ List.range' (start + n) (k - n) =
        List.range' start k := by
      rw [List.range'_append_1, Nat.add_sub_cancel' hle]
    exact List.append_cancel_left (hsame.trans hsplit.symm)
  · rintro ⟨hle, hplaces⟩
    rw [hplaces, List.range'_append_1, Nat.add_sub_cancel' hle]

/-- Behind a piece that was not taken whole nothing may be taken. -/
theorem takenAt_short (e : PartialWrite) (hshort : e.written < e.piece.length) :
    takenAt (start + e.piece.length) log = List.range' (start + e.written) k ↔
      k = 0 ∧ takenAt (start + e.piece.length) log = [] := by
  cases k with
  | zero => exact ⟨fun h => ⟨rfl, h⟩, fun h => h.2⟩
  | succ k =>
      constructor
      · intro hsame
        have hmem : start + e.written ∈ takenAt (start + e.piece.length) log := by
          rw [hsame, List.range'_succ]
          exact List.mem_cons_self
        have hle := le_of_mem_takenAt hmem
        omega
      · exact fun h => absurd h.1 (Nat.succ_ne_zero k)

/-- Without a hole, the bytes that were taken are the first of those that were offered. -/
theorem takenBytes_of_range (hplaces : takenAt start log = List.range' start k) :
    takenBytes log = (offeredBytes log).take k := by
  induction log generalizing start k with
  | nil =>
      unfold takenBytes offeredBytes
      rw [List.map_nil, List.map_nil, List.flatten_nil, List.take_nil]
  | cons e rest ih =>
      have htaken : takenBytes (e :: rest) = e.piece.take e.written ++ takenBytes rest :=
        List.flatten_cons
      have hoffered : offeredBytes (e :: rest) = e.piece ++ offeredBytes rest :=
        List.flatten_cons
      rw [takenAt, range'_append_iff] at hplaces
      rcases hplaces with ⟨hle, hrest⟩
      rw [htaken, hoffered]
      rcases Nat.lt_or_eq_of_le e.le with hshort | hwhole
      · rcases (takenAt_short e hshort).mp hrest with ⟨hk, hnone⟩
        have hnil : takenBytes rest = [] := by
          apply List.length_eq_zero_iff.mp
          rw [← length_takenAt (start + e.piece.length), hnone]
          rfl
        have hsame : e.written = k := by omega
        rw [hnil, List.append_nil, ← hsame, List.take_append_of_le_length e.le]
      · rw [hwhole] at hrest hle ⊢
        rw [ih hrest, List.take_length, List.take_append, List.take_of_length_le hle]

/-- Pieces that were taken whole leave no hole. -/
theorem takenAt_whole {whole : List PartialWrite}
    (hwhole : forall e, e ∈ whole -> e.written = e.piece.length) (start : Nat)
    (rest : List PartialWrite) :
    takenAt start (whole ++ rest) =
      List.range' start (offeredBytes whole).length ++
        takenAt (start + (offeredBytes whole).length) rest := by
  induction whole generalizing start with
  | nil => rfl
  | cons e whole ih =>
      have hoffered : offeredBytes (e :: whole) = e.piece ++ offeredBytes whole :=
        List.flatten_cons
      have hrest := ih (fun e' he' => hwhole e' (List.mem_cons_of_mem e he'))
        (start + e.piece.length)
      rw [List.cons_append, takenAt, hrest, hoffered, hwhole e List.mem_cons_self,
        ← List.append_assoc, List.range'_append_1, List.length_append, Nat.add_assoc]

end Places

/-!
# Offering pieces one after the other
-/

namespace ByteWriter

variable (b : ByteWriter σ)

/-- A writer, with what it has taken of every piece. -/
def logged : ByteWriter (σ × List PartialWrite) where
  onWrite data w :=
    ((b.onWrite data w.1).1, (b.onWrite data w.1).2,
      w.2 ++ [⟨data, (b.onWrite data w.1).1, b.onWrite_le data w.1⟩])
  iostate w := b.iostate w.1
  onWrite_le data w := b.onWrite_le data w.1

/-- Nothing is taken, and the writer has failed. -/
def refuses (piece : ByteString) (w : σ) : Bool :=
  (b.write piece w).1 == 0 && b.fail (b.write piece w).2

/-- The last part says whether a piece has been refused, which ends it. -/
def offer (r : σ × List PartialWrite × Bool) (piece : ByteString) :
    σ × List PartialWrite × Bool :=
  if r.2.2 then r
  else
    ((b.write piece r.1).2,
      r.2.1 ++ [⟨piece, (b.write piece r.1).1, b.onWrite_le piece r.1⟩],
      b.refuses piece r.1)

def offerAll (pieces : List ByteString) (w : σ) : σ × List PartialWrite × Bool :=
  pieces.foldl b.offer (w, [], false)

/-- No byte is taken of these pieces. -/
def TakesNoMore : List ByteString -> σ -> Prop
  | [], _ => True
  | piece :: rest, w =>
      (b.write piece w).1 = 0 ∧
        (b.fail (b.write piece w).2 = true ∨ TakesNoMore rest (b.write piece w).2)

/-- The first piece that is not taken whole is refused, or is the last one taken of. -/
def TakesInOrder : List ByteString -> σ -> Prop
  | [], _ => True
  | piece :: rest, w =>
      b.refuses piece w = true ∨
        if (b.write piece w).1 = piece.length then
          TakesInOrder rest (b.write piece w).2
        else b.TakesNoMore rest (b.write piece w).2

variable {b}

theorem foldl_offer_refused (pieces : List ByteString) (w : σ) (log : List PartialWrite) :
    pieces.foldl b.offer (w, log, true) = (w, log, true) := by
  induction pieces with
  | nil => rfl
  | cons piece rest ih => exact ih

theorem foldl_offer_log (pieces : List ByteString) (w : σ) (log : List PartialWrite)
    (refused : Bool) :
    pieces.foldl b.offer (w, log, refused) =
      ((pieces.foldl b.offer (w, [], refused)).1,
        log ++ (pieces.foldl b.offer (w, [], refused)).2.1,
        (pieces.foldl b.offer (w, [], refused)).2.2) := by
  induction pieces generalizing w log refused with
  | nil => rw [List.foldl_nil, List.foldl_nil, List.append_nil]
  | cons piece rest ih =>
      cases refused with
      | true =>
          rw [foldl_offer_refused, foldl_offer_refused, List.append_nil]
      | false =>
          have hstep : forall log, b.offer (w, log, false) piece =
              ((b.write piece w).2,
                log ++ [⟨piece, (b.write piece w).1, b.onWrite_le piece w⟩],
                b.refuses piece w) := fun _ => rfl
          rw [List.foldl_cons, List.foldl_cons, hstep, hstep, ih, ih _ ([] ++ _),
            List.nil_append, List.append_assoc]

theorem offerAll_cons (piece : ByteString) (rest : List ByteString) (w : σ) :
    (b.offerAll (piece :: rest) w).2.1 =
      ⟨piece, (b.write piece w).1, b.onWrite_le piece w⟩ ::
        if b.refuses piece w then [] else (b.offerAll rest (b.write piece w).2).2.1 := by
  have hstep : b.offer (w, [], false) piece =
      ((b.write piece w).2, [⟨piece, (b.write piece w).1, b.onWrite_le piece w⟩],
        b.refuses piece w) := rfl
  unfold offerAll
  rw [List.foldl_cons, hstep, foldl_offer_log]
  cases b.refuses piece w with
  | true =>
      rw [foldl_offer_refused]
      rfl
  | false => rfl

theorem offerAll_append (pieces rest : List ByteString) (w : σ) :
    b.offerAll (pieces ++ rest) w = rest.foldl b.offer (b.offerAll pieces w) :=
  List.foldl_append

/-- A piece that is refused is the last one. -/
theorem offerAll_refused {pieces : List ByteString} {w : σ}
    (hrefused : (b.offerAll pieces w).2.2 = true) {more : List ByteString}
    (hmore : pieces <+: more) : b.offerAll more w = b.offerAll pieces w := by
  rcases hmore with ⟨rest, hrest⟩
  rw [← hrest, offerAll_append]
  rcases hoffered : b.offerAll pieces w with ⟨w', log, refused⟩
  rw [hoffered] at hrefused
  cases hrefused
  exact foldl_offer_refused rest w' log

theorem offered_prefix (pieces : List ByteString) (w : σ) :
    (b.offerAll pieces w).2.1.map PartialWrite.piece <+: pieces := by
  induction pieces generalizing w with
  | nil => exact List.prefix_refl _
  | cons piece rest ih =>
      rw [offerAll_cons, List.map_cons]
      apply List.prefix_cons_inj piece |>.mpr
      cases b.refuses piece w with
      | true => exact List.nil_prefix
      | false => exact ih _

theorem offeredBytes_prefix (pieces : List ByteString) (w : σ) :
    offeredBytes (b.offerAll pieces w).2.1 <+: pieces.flatten := by
  rcases offered_prefix (b := b) pieces w with ⟨rest, hrest⟩
  refine ⟨rest.flatten, ?_⟩
  unfold offeredBytes
  rw [← List.flatten_append, hrest]

theorem takenAt_nil_iff (start : Nat) (pieces : List ByteString) (w : σ) :
    takenAt start (b.offerAll pieces w).2.1 = [] ↔ b.TakesNoMore pieces w := by
  induction pieces generalizing start w with
  | nil => exact ⟨fun _ => trivial, fun _ => rfl⟩
  | cons piece rest ih =>
      rw [offerAll_cons, takenAt, List.append_eq_nil_iff, TakesNoMore]
      have hzero : List.range' start (b.write piece w).1 = [] ↔
          (b.write piece w).1 = 0 := List.range'_eq_nil_iff
      rw [hzero]
      refine and_congr_right fun hnone => ?_
      cases hfail : b.fail (b.write piece w).2 with
      | true =>
          have hrefused : b.refuses piece w = true := by
            unfold refuses
            rw [hnone, hfail]
            rfl
          rw [hrefused]
          exact ⟨fun _ => Or.inl rfl, fun _ => rfl⟩
      | false =>
          have hgoes : b.refuses piece w = false := by
            unfold refuses
            rw [hfail, Bool.and_false]
          rw [hgoes]
          exact (ih _ _).trans ⟨Or.inr, fun h => h.resolve_left Bool.false_ne_true⟩

/-- There is no hole where the writer takes nothing after a piece it did not take whole. -/
theorem takenAt_range_iff (start : Nat) (pieces : List ByteString) (w : σ) :
    (exists k, takenAt start (b.offerAll pieces w).2.1 = List.range' start k) ↔
      b.TakesInOrder pieces w := by
  induction pieces generalizing start w with
  | nil => exact ⟨fun _ => trivial, fun _ => ⟨0, rfl⟩⟩
  | cons piece rest ih =>
      rw [offerAll_cons, takenAt, TakesInOrder]
      simp only [range'_append_iff]
      cases hrefused : b.refuses piece w with
      | true =>
          refine ⟨fun _ => Or.inl rfl, fun _ => ⟨(b.write piece w).1, Nat.le_refl _, ?_⟩⟩
          rw [Nat.sub_self]
          rfl
      | false =>
          simp only [Bool.false_eq_true, if_false, false_or]
          by_cases hwhole : (b.write piece w).1 = piece.length
          · rw [if_pos hwhole, ← ih (start + piece.length), hwhole]
            constructor
            · rintro ⟨k, _, hplaces⟩
              exact ⟨_, hplaces⟩
            · rintro ⟨k, hplaces⟩
              refine ⟨piece.length + k, Nat.le_add_right _ _, ?_⟩
              rw [Nat.add_sub_cancel_left]
              exact hplaces
          · have hshort := Nat.lt_of_le_of_ne (b.onWrite_le piece w) hwhole
            have hnone := fun k => @takenAt_short start k
              (b.offerAll rest (b.write piece w).2).2.1
              ⟨piece, (b.write piece w).1, b.onWrite_le piece w⟩ hshort
            rw [if_neg hwhole, ← takenAt_nil_iff (start + piece.length)]
            constructor
            · rintro ⟨k, _, hplaces⟩
              exact ((hnone _).mp hplaces).2
            · intro hnil
              refine ⟨(b.write piece w).1, Nat.le_refl _, ?_⟩
              rw [Nat.sub_self]
              exact hnil

end ByteWriter

end OssSdk
