import OssSdk.Utils.HttpUtils
import OssSdk.Foundation.Pieces

/-!
# Range headers

What comes out of the parser is well formed, and a range that has been printed comes
back.
-/

namespace OssSdk
namespace Utils

open Foundation

/-!
# Ranges that have been parsed
-/

/-- A range as it is parsed: a side is missing or a number, and not both are missing. -/
structure ParsedRange (first last : Int) : Prop where
  firstSide : first = -1 ∨ 0 ≤ first ∧ first < 2 ^ 63
  lastSide : last = -1 ∨ 0 ≤ last ∧ last < 2 ^ 63
  present : ¬ (first = -1 ∧ last = -1)
  ordered : first ≠ -1 -> last ≠ -1 -> first ≤ last

theorem fromCharsInt64_lt {sv : ByteString} {out : Int}
    (hout : fromCharsInt64 sv = some out) : out < 2 ^ 63 := by
  unfold fromCharsInt64 at hout
  split at hout
  · rw [Option.ite_none_right_eq_some] at hout
    rcases hout with ⟨_, hsome⟩
    cases hsome
    omega
  · rw [Option.ite_none_right_eq_some] at hout
    rcases hout with ⟨⟨_, _, hless⟩, hsome⟩
    cases hsome
    omega

theorem parseSide_bounds {sv : ByteString} {out : Int}
    (hout : parseSide sv = some out) : out = -1 ∨ 0 ≤ out ∧ out < 2 ^ 63 := by
  unfold parseSide at hout
  split at hout
  · cases hout
    exact Or.inl rfl
  · split at hout
    · rename_i value hvalue
      rw [Option.ite_none_right_eq_some] at hout
      rcases hout with ⟨hnonneg, hsome⟩
      cases hsome
      exact Or.inr ⟨hnonneg, fromCharsInt64_lt hvalue⟩
    · cases hout

theorem parseRangeItem_parsed {item : ByteString} {first last : Int}
    (hitem : parseRangeItem item = some (first, last)) : ParsedRange first last := by
  unfold parseRangeItem at hitem
  rw [Option.ite_none_right_eq_some] at hitem
  rcases hitem with ⟨_, hitem⟩
  simp only [Option.bind_eq_bind, Option.bind_eq_some_iff] at hitem
  rcases hitem with ⟨first', hfirst, last', hlast, hitem⟩
  rw [Option.ite_none_left_eq_some, Option.ite_none_left_eq_some] at hitem
  rcases hitem with ⟨hpresent, hordered, hsome⟩
  cases hsome
  refine ⟨parseSide_bounds hfirst, parseSide_bounds hlast, hpresent, ?_⟩
  intro hfirst' hlast'
  exact Int.not_lt.mp fun hless => hordered ⟨hfirst', hlast', hless⟩

theorem parseRangeItems_mem {ranges out : List (Int × Int)} {items : List ByteString}
    {b : Bool}
    (hout : parseRangeItems ranges items = (b, out))
    {range : Int × Int}
    (hrange : range ∈ out) :
    range ∈ ranges ∨ exists item, parseRangeItem item = some range := by
  induction items generalizing ranges with
  | nil =>
      cases hout
      exact Or.inl hrange
  | cons item rest ih =>
      rw [parseRangeItems] at hout
      cases hitem : parseRangeItem (trim item) with
      | none =>
          rw [hitem] at hout
          cases hout
          exact Or.inl hrange
      | some found =>
          rw [hitem] at hout
          rcases ih hout with hold | hnew
          · rcases List.mem_append.mp hold with hold | hlast
            · exact Or.inl hold
            · rw [List.mem_singleton] at hlast
              exact Or.inr ⟨_, hlast ▸ hitem⟩
          · exact Or.inr hnew

theorem ParseRangeHeader_parsed {s : ByteString} {b : Bool} {out : List (Int × Int)}
    (hout : ParseRangeHeader s [] = (b, out))
    {first last : Int}
    (hrange : (first, last) ∈ out) : ParsedRange first last := by
  unfold ParseRangeHeader at hout
  simp only at hout
  split at hout
  · cases hout
    cases hrange
  · rcases parseRangeItems_mem hout hrange with hnone | ⟨item, hitem⟩
    · cases hnone
    · exact parseRangeItem_parsed hitem

/-!
# Ranges that have been printed
-/

/-- The text of a range; an end of -1 is left out. -/
def printRange (first last : Int) : ByteString :=
  let range := bytes "bytes=" ++ toDecimalInt first ++ bytes "-"
  if 0 ≤ last then range ++ toDecimalInt last else range

theorem printRange_ne_nil (first last : Int) : printRange first last ≠ [] := by
  unfold printRange
  simp only
  split
  · exact fun h => nomatch h
  · exact fun h => nomatch h

theorem parseSide_toDecimal {n : Nat} (hn : n < 2 ^ 63) :
    parseSide (toDecimal n) = some (n : Int) := by
  have hall : (toDecimal n).all isDigit = true :=
    List.all_eq_true.mpr fun c hc => isDigit_of_mem_toDecimal hc
  have hchars : fromCharsInt64 (toDecimal n) = some (n : Int) := by
    unfold fromCharsInt64
    split
    · rename_i ds hminus
      rw [hminus] at hall
      cases hall
    · rw [ofDecimal_toDecimal]
      exact if_pos ⟨toDecimal_ne_nil n, hall, hn⟩
  unfold parseSide
  rw [hchars, if_neg (by simpa using toDecimal_ne_nil n)]
  exact if_pos (Int.natCast_nonneg n)

theorem rangeItems_single {s : ByteString} (hcomma : (44 : UInt8) ∉ s) (piece : ByteString) :
    rangeItems piece s = [piece ++ s] := by
  induction s generalizing piece with
  | nil => rw [rangeItems, List.append_nil]
  | cons c rest ih =>
      have hc : (c == 44) = false := beq_eq_false_iff_ne.mpr fun h =>
        hcomma (h ▸ List.mem_cons_self)
      have hrest := ih (fun h => hcomma (List.mem_cons_of_mem _ h)) (piece ++ [c])
      rw [rangeItems, hc, if_neg Bool.false_ne_true, hrest, List.append_assoc]
      rfl

theorem trim_of_no_blank {s : ByteString} (hblank : forall c, c ∈ s -> isBlank c = false) :
    trim s = s := by
  have hdrop : forall t : ByteString, (forall c, c ∈ t -> isBlank c = false) ->
      t.dropWhile isBlank = t := by
    intro t ht
    cases t with
    | nil => rfl
    | cons c rest => rw [List.dropWhile_cons, ht c List.mem_cons_self]; rfl
  unfold trim
  rw [hdrop s hblank, hdrop s.reverse fun c hc => hblank c (List.mem_reverse.mp hc),
    List.reverse_reverse]

/-- The sides of a printed range. -/
def printSides (first : Nat) (last : Option Nat) : ByteString :=
  toDecimal first ++ 45 :: last.elim [] toDecimal

theorem mem_printSides {first : Nat} {last : Option Nat} {c : UInt8}
    (hc : c ∈ printSides first last) : isDigit c = true ∨ c = 45 := by
  unfold printSides at hc
  rcases List.mem_append.mp hc with hfirst | hrest
  · exact Or.inl (isDigit_of_mem_toDecimal hfirst)
  · rcases List.mem_cons.mp hrest with hdash | hlast
    · exact Or.inr hdash
    · cases last with
      | none => cases hlast
      | some n => exact Or.inl (isDigit_of_mem_toDecimal hlast)

theorem parseRangeItem_printSides {first : Nat} {last : Option Nat}
    (hfirst : first < 2 ^ 63)
    (hlast : forall n, last = some n -> first ≤ n ∧ n < 2 ^ 63) :
    parseRangeItem (printSides first last) =
      some ((first : Int), last.elim (-1) fun n => (n : Int)) := by
  have hdigit : forall c, c ∈ toDecimal first -> (c != 45) = true := by
    intro c hc
    rw [bne_iff_ne]
    intro hdash
    have hbad := isDigit_of_mem_toDecimal hc
    rw [hdash] at hbad
    cases hbad
  have htake : (printSides first last).takeWhile (· != 45) = toDecimal first := by
    rw [printSides, List.takeWhile_append_of_pos hdigit]
    exact List.append_nil _
  have hdrop : ((printSides first last).dropWhile (· != 45)).drop 1 =
      last.elim [] toDecimal := by
    rw [printSides, List.dropWhile_append_of_pos hdigit]
    rfl
  have hdash : (printSides first last).contains 45 = true := by
    rw [List.contains_iff_mem]
    exact List.mem_append_right _ List.mem_cons_self
  have hside : parseSide (last.elim [] toDecimal) =
      some (last.elim (-1) fun n => (n : Int)) := by
    cases last with
    | none => rfl
    | some n => exact parseSide_toDecimal (hlast n rfl).2
  have hordered : last.elim (-1 : Int) (fun n => (n : Int)) = -1 ∨
      (first : Int) ≤ last.elim (-1) fun n => (n : Int) := by
    cases last with
    | none => exact Or.inl rfl
    | some n => exact Or.inr (Int.ofNat_le.mpr (hlast n rfl).1)
  unfold parseRangeItem
  rw [if_pos hdash, htake, hdrop, parseSide_toDecimal hfirst]
  generalize last.elim (-1 : Int) (fun n => (n : Int)) = side at hside hordered ⊢
  have hpresent : ¬ ((first : Int) = -1 ∧ side = -1) := by omega
  have hnot : ¬ ((first : Int) ≠ -1 ∧ side ≠ -1 ∧ side < first) := by omega
  rw [hside]
  simp only [Option.bind_eq_bind, Option.bind_some, if_neg hpresent, if_neg hnot]

theorem printRange_eq (first : Nat) (last : Option Nat) :
    printRange first (last.elim (-1) fun n => (n : Int)) =
      bytes "bytes=" ++ printSides first last := by
  unfold printRange printSides
  cases last with
  | none =>
      rw [List.append_assoc]
      rfl
  | some n =>
      rw [Option.elim_some, Option.elim_some]
      simp only [Int.natCast_nonneg, if_true]
      rw [List.append_assoc, List.append_assoc]
      rfl

theorem dash_not_mem_toDecimal (n : Nat) : (45 : UInt8) ∉ toDecimal n := by
  intro hmem
  have hdigit := isDigit_of_mem_toDecimal hmem
  cases hdigit

theorem printSides_injective {first first' : Nat} {last last' : Option Nat}
    (hsame : printSides first last = printSides first' last') :
    first = first' ∧ last = last' := by
  have hbefore := congrArg (before 45) hsame
  have hafter := congrArg (after 45) hsame
  unfold printSides at hbefore hafter
  rw [before_append (dash_not_mem_toDecimal _), before_append (dash_not_mem_toDecimal _)]
    at hbefore
  rw [after_append (dash_not_mem_toDecimal _), after_append (dash_not_mem_toDecimal _)]
    at hafter
  refine ⟨toDecimal_injective hbefore, ?_⟩
  cases last with
  | none =>
      cases last' with
      | none => rfl
      | some n => exact absurd hafter.symm (toDecimal_ne_nil n)
  | some m =>
      cases last' with
      | none => exact absurd hafter (toDecimal_ne_nil m)
      | some n => exact congrArg some (toDecimal_injective hafter)

theorem exists_side {last : Int} (hlast : -1 ≤ last) :
    exists side : Option Nat, last = side.elim (-1) fun n => (n : Int) := by
  by_cases hnone : last = -1
  · exact ⟨none, hnone⟩
  · exact ⟨some last.toNat, by rw [Option.elim_some]; omega⟩

/-- Different ranges are printed differently, also those that are out of order. -/
theorem printRange_injective {first first' last last' : Int}
    (hfirst : 0 ≤ first) (hfirst' : 0 ≤ first') (hlast : -1 ≤ last) (hlast' : -1 ≤ last')
    (hsame : printRange first last = printRange first' last') :
    first = first' ∧ last = last' := by
  obtain ⟨m, rfl⟩ := Int.eq_ofNat_of_zero_le hfirst
  obtain ⟨m', rfl⟩ := Int.eq_ofNat_of_zero_le hfirst'
  rcases exists_side hlast with ⟨side, hside⟩
  rcases exists_side hlast' with ⟨side', hside'⟩
  rw [hside, hside', printRange_eq, printRange_eq] at hsame
  rcases printSides_injective (List.append_cancel_left hsame) with ⟨hm, hsides⟩
  rw [hside, hside', hm, hsides]
  exact ⟨rfl, rfl⟩

/-- A printed range is parsed as it is. -/
theorem ParseRangeHeader_printRange {first : Nat} {last : Option Nat}
    (hfirst : first < 2 ^ 63)
    (hlast : forall n, last = some n -> first ≤ n ∧ n < 2 ^ 63) :
    ParseRangeHeader (printRange first (last.elim (-1) fun n => (n : Int))) [] =
      (true, [((first : Int), last.elim (-1) fun n => (n : Int))]) := by
  have hcomma : (44 : UInt8) ∉ printSides first last := by
    intro hmem
    rcases mem_printSides hmem with hdigit | hdash
    · cases hdigit
    · cases hdash
  have hblank : forall c, c ∈ printSides first last -> isBlank c = false := by
    intro c hc
    rcases mem_printSides hc with hdigit | hdash
    · have hspace := isSpace_of_isDigit hdigit
      unfold isBlank
      rw [Bool.or_eq_false_iff, beq_eq_false_iff_ne, beq_eq_false_iff_ne]
      constructor
      · intro h
        rw [h] at hdigit
        cases hdigit
      · intro h
        rw [h] at hdigit
        cases hdigit
    · rw [hdash]
      rfl
  have hnonempty : 0 < (printSides first last).length :=
    List.length_pos_of_mem (a := 45) (List.mem_append_right _ List.mem_cons_self)
  have hlength : ¬ ((bytes "bytes=" ++ printSides first last).length ≤
      (bytes "bytes=").length) := by
    rw [List.length_append]
    omega
  rw [printRange_eq]
  unfold ParseRangeHeader
  simp only
  rw [List.take_left, List.drop_left, if_neg (not_or.mpr ⟨hlength, not_not.mpr rfl⟩),
    rangeItems_single hcomma, List.nil_append]
  rw [parseRangeItems, trim_of_no_blank hblank, parseRangeItem_printSides hfirst hlast]
  rfl

end Utils
end OssSdk
