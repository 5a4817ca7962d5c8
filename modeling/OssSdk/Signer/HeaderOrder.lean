import OssSdk.Signer.CanonicalRequest

/-!
# The order of the canonical headers

A header map is walked in the order of its names, where a byte counts as the signed number
that `tolower` returns.  The canonical headers are to stand in the order of their bytes.
-/

namespace OssSdk
namespace Signer

open Foundation
open Utils

/-! # Signed bytes -/

def signedByte (c : UInt8) : Int := if c.toNat < 128 then c.toNat else c.toNat - 256

theorem signedByte_inj {c d : UInt8} : signedByte c = signedByte d ↔ c = d := by
  have hc := c.toNat_lt
  have hd := d.toNat_lt
  constructor
  · intro hsame
    apply UInt8.toNat_inj.mp
    unfold signedByte at hsame
    split at hsame <;> split at hsame <;> omega
  · exact congrArg signedByte

theorem tolower_eq (c : UInt8) : tolower c = signedByte (toLowerByte c) := by
  revert c
  exact forall_byte (by decide +kernel)

/-- Of two bytes in the one order, those of the same half are in the other. -/
theorem toNat_lt_iff {x y : UInt8} (hsigned : signedByte x < signedByte y) :
    x.toNat < y.toNat ↔ (x.toNat < 128 ↔ y.toNat < 128) := by
  have hx := x.toNat_lt
  have hy := y.toNat_lt
  unfold signedByte at hsigned
  split at hsigned <;> split at hsigned <;> omega

theorem caseInsensitiveLess_eq (a b : ByteString) :
    caseInsensitiveLess a b =
      lexLess signedByte (a.map toLowerByte) (b.map toLowerByte) := by
  unfold caseInsensitiveLess
  induction a generalizing b with
  | nil =>
      cases b with
      | nil => rfl
      | cons d rest' => rfl
  | cons c rest ih =>
      cases b with
      | nil => rfl
      | cons d rest' =>
          rw [List.map_cons, List.map_cons, lexLess_cons, lexLess_cons, ih, tolower_eq,
            tolower_eq]

/-! # Where two names differ first -/

/-- After `u`, which both start with, the one has `x` and the other has `y`. -/
inductive DifferAt : ByteString -> UInt8 -> UInt8 -> ByteString -> ByteString -> Prop where
  | here {x y : UInt8} (hne : x ≠ y) (s t : ByteString) : DifferAt [] x y (x :: s) (y :: t)
  | there {u s t : ByteString} {x y : UInt8} (c : UInt8) (hrest : DifferAt u x y s t) :
      DifferAt (c :: u) x y (c :: s) (c :: t)

/-- Both bytes are of the same half, wherever two names differ first before a NUL. -/
def SameHalf (a b : ByteString) : Prop :=
  forall u x y, DifferAt u x y a b -> 0 ∉ u -> (x.toNat < 128 ↔ y.toNat < 128)

theorem DifferAt.symm {u a b : ByteString} {x y : UInt8} (hdiffer : DifferAt u x y a b) :
    DifferAt u y x b a := by
  induction hdiffer with
  | here hne s t => exact .here hne.symm t s
  | there c _ ih => exact .there c ih

theorem DifferAt.ne {u a b : ByteString} {x y : UInt8} (hdiffer : DifferAt u x y a b) :
    a ≠ b := by
  induction hdiffer with
  | here hne => exact fun hsame => hne (List.cons.inj hsame).1
  | there _ _ ih => exact fun hsame => ih (List.cons.inj hsame).2

theorem SameHalf.symm {a b : ByteString} (hhalf : SameHalf a b) : SameHalf b a :=
  fun u x y hdiffer hnul => (hhalf u y x hdiffer.symm hnul).symm

theorem SameHalf.refl (a : ByteString) : SameHalf a a :=
  fun _ _ _ hdiffer => absurd rfl hdiffer.ne

theorem sameHalf_cons {c : UInt8} (hc : c ≠ 0) (s t : ByteString) :
    SameHalf (c :: s) (c :: t) ↔ SameHalf s t := by
  constructor
  · intro hsame u x y hdiffer hnul
    apply hsame (c :: u) x y (.there c hdiffer)
    rw [List.mem_cons, not_or]
    exact ⟨hc.symm, hnul⟩
  · intro hsame u x y hdiffer hnul
    cases hdiffer with
    | here hne => exact absurd rfl hne
    | there _ hrest => exact hsame _ x y hrest fun hmem => hnul (List.mem_cons_of_mem c hmem)

theorem sameHalf_of_ne {x y : UInt8} (hne : x ≠ y) (s t : ByteString) :
    SameHalf (x :: s) (y :: t) ↔ (x.toNat < 128 ↔ y.toNat < 128) := by
  constructor
  · intro hsame
    exact hsame [] x y (.here hne s t) List.not_mem_nil
  · intro hhalf u x' y' hdiffer _
    cases hdiffer with
    | here => exact hhalf
    | there => exact absurd rfl hne

theorem cStr_cons {c : UInt8} (hc : c ≠ 0) (s : ByteString) : cStr (c :: s) = c :: cStr s :=
  List.takeWhile_cons_of_pos (by simpa using hc)

theorem cStr_nul (s : ByteString) : cStr (0 :: s) = [] := rfl

/-- What two names in the order of signed bytes are in the order of bytes, up to a NUL. -/
theorem caseSensitiveLess_cStr_iff {a b : ByteString}
    (hless : lexLess signedByte a b = true) (hne : cStr a ≠ cStr b) :
    caseSensitiveLess (cStr a) (cStr b) = true ↔ SameHalf a b := by
  unfold caseSensitiveLess
  induction a generalizing b with
  | nil =>
      cases b with
      | nil => exact absurd rfl hne
      | cons d t =>
          have hd : d ≠ 0 := by
            rintro rfl
            exact hne rfl
          rw [cStr_cons hd]
          exact ⟨fun _ => nofun, fun _ => rfl⟩
  | cons c s ih =>
      cases b with
      | nil => cases hless
      | cons d t =>
          rw [lexLess_cons] at hless
          by_cases hcd : c = d
          · rw [← hcd] at hless hne ⊢
            have hc : c ≠ 0 := by
              rintro rfl
              exact hne rfl
            rw [if_pos rfl] at hless
            rw [cStr_cons hc, cStr_cons hc] at hne
            rw [cStr_cons hc, cStr_cons hc, lexLess_cons, if_pos rfl, sameHalf_cons hc]
            exact ih hless fun hsame => hne (congrArg (List.cons c) hsame)
          · rw [if_neg fun hsame => hcd (signedByte_inj.mp hsame), decide_eq_true_eq] at hless
            rw [sameHalf_of_ne hcd]
            by_cases hc : c = 0
            · have hd : d ≠ 0 := fun hzero => hcd (hc.trans hzero.symm)
              rw [hc, cStr_nul, cStr_cons hd]
              rw [hc] at hless
              refine ⟨fun _ => (toNat_lt_iff hless).mp ?_, fun _ => rfl⟩
              exact Nat.pos_of_ne_zero fun hzero => hd (UInt8.toNat_inj.mp hzero)
            · rw [cStr_cons hc, ← toNat_lt_iff hless]
              by_cases hd : d = 0
              · rw [hd, cStr_nul]
                exact ⟨nofun, nofun⟩
              · rw [cStr_cons hd, lexLess_cons,
                  if_neg fun hsame => hcd (UInt8.toNat_inj.mp hsame), decide_eq_true_eq]

/-! # The lines -/

namespace V4

/-- The headers that are lines of the canonical request. -/
def Canonicalised (set : HeaderSet) (header : ByteString × ByteString) : Prop :=
  Trim header.2 ≠ [] ∧ (isDefaultSignedHeader (ToLower header.1) = true ∨
    (set.find? (ToLower header.1)).isSome = true)

theorem canonicalHeader_eq_some_iff {set : HeaderSet} {header line : ByteString × ByteString} :
    canonicalHeader set header = some line ↔
      Canonicalised set header ∧ line = (ToLower header.1, Trim header.2) := by
  constructor
  · intro hline
    obtain ⟨hpair, hvalue⟩ := canonicalHeader_some hline
    refine ⟨⟨hvalue, ?_⟩, hpair⟩
    by_contra hnot
    rw [not_or] at hnot
    unfold canonicalHeader at hline
    dsimp only at hline
    rw [if_neg (mt List.isEmpty_iff.mp hvalue), if_neg hnot.1, if_neg hnot.2] at hline
    cases hline
  · rintro ⟨⟨hvalue, hsigned⟩, hpair⟩
    unfold canonicalHeader
    dsimp only
    rw [if_neg (mt List.isEmpty_iff.mp hvalue), hpair]
    by_cases hdefault : isDefaultSignedHeader (ToLower header.1) = true
    · rw [if_pos hdefault]
    · rw [if_neg hdefault, if_pos (hsigned.resolve_left hdefault)]

/-- The lines of the canonical headers stand in the order of the bytes of their names. -/
def InOrder (headers : HeaderCollection) (set : HeaderSet) : Prop :=
  ((canonicalHeaders headers set).map Prod.fst).Pairwise fun a b =>
    caseSensitiveLess a b = true

/-- What is asked of two headers that are lines, the first of which comes first. -/
theorem inOrder_iff_pairwise (headers : HeaderCollection) (set : HeaderSet) :
    InOrder headers set ↔ headers.entries.Pairwise fun h h' =>
      Canonicalised set h -> Canonicalised set h' ->
        caseSensitiveLess (ToLower h.1) (ToLower h'.1) = true := by
  unfold InOrder canonicalHeaders
  rw [List.pairwise_map, List.pairwise_filterMap]
  constructor
  · refine List.Pairwise.imp fun hlines hcanon hcanon' => ?_
    exact hlines _ (canonicalHeader_eq_some_iff.mpr ⟨hcanon, rfl⟩)
      _ (canonicalHeader_eq_some_iff.mpr ⟨hcanon', rfl⟩)
  · refine List.Pairwise.imp fun hless line hline line' hline' => ?_
    rw [canonicalHeader_eq_some_iff] at hline hline'
    rw [hline.2, hline'.2]
    exact hless hline.1 hline'.1

/-- What is said of the comparison, of a header map and of the lines made from it. -/
structure HeadersOrdered (headers : HeaderCollection) (set : HeaderSet) : Prop where
  weakOrder : IsStrictWeakOrder ByteString fun a b => caseInsensitiveLess a b = true
  lowerCase : forall a b, SortedMap.equivalent caseInsensitiveLess a b = true ↔
    a.map toLowerByte = b.map toLowerByte
  distinct : headers.entries.Pairwise fun h h' =>
    h.1.map toLowerByte ≠ h'.1.map toLowerByte
  inOrder : InOrder headers set

theorem distinct_entries (headers : HeaderCollection) :
    headers.entries.Pairwise fun h h' => h.1.map toLowerByte ≠ h'.1.map toLowerByte := by
  refine headers.sorted.imp fun hless hsame => ?_
  have hequivalent := (equivalent_iff_map _ _).mpr hsame
  rw [SortedMap.not_equivalent_of_less hless] at hequivalent
  cases hequivalent

/-- The lines of two headers, of which the first one comes first in the map. -/
theorem lines_in_order_iff {h h' : ByteString × ByteString}
    (hless : caseInsensitiveLess h.1 h'.1 = true) :
    caseSensitiveLess (ToLower h.1) (ToLower h'.1) = true ↔
      ToLower h.1 ≠ ToLower h'.1 ∧
        SameHalf (h.1.map toLowerByte) (h'.1.map toLowerByte) := by
  rw [caseInsensitiveLess_eq] at hless
  rw [ToLower_eq_cStr, ToLower_eq_cStr]
  constructor
  · intro horder
    have hne : cStr (h.1.map toLowerByte) ≠ cStr (h'.1.map toLowerByte) := by
      intro hsame
      rw [hsame, caseSensitiveLess, lexLess_irrefl] at horder
      cases horder
    exact ⟨hne, (caseSensitiveLess_cStr_iff hless hne).mp horder⟩
  · rintro ⟨hne, hhalf⟩
    exact (caseSensitiveLess_cStr_iff hless hne).mpr hhalf

/-- No two of the headers that are lines have the same line name, and they keep to one half. -/
def LinesApart (set : HeaderSet) (h h' : ByteString × ByteString) : Prop :=
  Canonicalised set h -> Canonicalised set h' ->
    (ToLower h.1 = ToLower h'.1 -> h = h') ∧
      SameHalf (h.1.map toLowerByte) (h'.1.map toLowerByte)

instance (set : HeaderSet) : Std.Symm (LinesApart set) where
  symm h h' hapart hcanon' hcanon := by
    obtain ⟨hname, hhalf⟩ := hapart hcanon hcanon'
    exact ⟨fun hsame => (hname hsame.symm).symm, hhalf.symm⟩

end V4
end Signer
end OssSdk
