import OssSdk.Utils.RangeHeader
import Mathlib.Data.List.Forall2

/-!
# The grammar of range headers

What a range header may look like is said without the parser, and the parser is compared
with that.
-/

namespace OssSdk
namespace Utils

open Foundation

/-!
# The grammar
-/

/-- A decimal value that fits in an `int64_t`. -/
structure Numeral (text : ByteString) (n : Nat) : Prop where
  present : text ≠ []
  digits : text.all isDigit = true
  value : ofDecimal text = n
  fits : n < 2 ^ 63

/-- `first-last`, `first-` and `-suffix`. -/
inductive SpecText : ByteString -> Int × Int -> Prop where
  | both {ds es : ByteString} {n m : Nat} :
      Numeral ds n -> Numeral es m -> n ≤ m -> SpecText (ds ++ 45 :: es) (n, m)
  | start {ds : ByteString} {n : Nat} : Numeral ds n -> SpecText (ds ++ [45]) (n, -1)
  | suffix {es : ByteString} {m : Nat} : Numeral es m -> SpecText (45 :: es) (-1, m)

/-- Spaces and tabs around a text. -/
def Padded (item inner : ByteString) : Prop :=
  exists left right : ByteString, left.all isBlank = true ∧ right.all isBlank = true ∧
    item = left ++ inner ++ right

def ElementText (item : ByteString) (range : Int × Int) : Prop :=
  exists spec, Padded item spec ∧ SpecText spec range

/-- A header of at least one element, with commas between them. -/
def RangeText (s : ByteString) (listed : List (Int × Int)) : Prop :=
  exists items, items ≠ [] ∧ s = bytes "bytes=" ++ [44].intercalate items ∧
    List.Forall₂ ElementText items listed

/-!
# Zeros with a sign

`std::from_chars` reads a minus sign, and a zero with one passes for a value.
-/

def Zeros (text : ByteString) : Prop := text ≠ [] ∧ text.all (· == 48) = true

inductive ZeroText : ByteString -> Int × Int -> Prop where
  | start {zeros zeros' : ByteString} :
      Zeros zeros -> Zeros zeros' -> ZeroText (zeros ++ 45 :: 45 :: zeros') (0, 0)
  | suffix {zeros' : ByteString} : Zeros zeros' -> ZeroText (45 :: 45 :: zeros') (-1, 0)

def MinusZero (item : ByteString) : Prop :=
  exists spec range, Padded item spec ∧ ZeroText spec range

/-!
# One side
-/

theorem ofDecimal_eq_zero {ds : ByteString} (hdigits : ds.all isDigit = true) :
    ofDecimal ds = 0 ↔ ds.all (· == 48) = true := by
  induction ds using List.reverseRecOn with
  | nil => exact ⟨fun _ => rfl, fun _ => rfl⟩
  | append_singleton ds c ih =>
      have hbyte : forall c : UInt8, isDigit c = true ->
          (digitValue c = 0 ↔ (c == 48) = true) := forall_byte (by decide +kernel)
      rw [List.all_append, Bool.and_eq_true] at hdigits
      have hc : isDigit c = true := by simpa using hdigits.2
      have hlast := hbyte c hc
      have hfirst := ih hdigits.1
      rw [ofDecimal_concat, List.all_append, Bool.and_eq_true, ← hfirst, List.all_cons,
        List.all_nil, Bool.and_true, ← hlast]
      omega

theorem parseSide_numeral {text : ByteString} {n : Nat} (hnumeral : Numeral text n) :
    parseSide text = some (n : Int) := by
  have hchars : fromCharsInt64 text = some (n : Int) := by
    unfold fromCharsInt64
    split
    · have hdigits := hnumeral.digits
      cases hdigits
    · rw [hnumeral.value]
      exact if_pos ⟨hnumeral.present, hnumeral.digits, hnumeral.fits⟩
  unfold parseSide
  rw [hchars, if_neg (by simpa using hnumeral.present)]
  exact if_pos (Int.natCast_nonneg n)

theorem parseSide_minus {zeros : ByteString} (hzeros : Zeros zeros) :
    parseSide (45 :: zeros) = some 0 := by
  have hdigits : zeros.all isDigit = true := by
    rw [List.all_eq_true]
    intro c hc
    have hzero := List.all_eq_true.mp hzeros.2 c hc
    rw [beq_iff_eq.mp hzero]
    rfl
  have hvalue := (ofDecimal_eq_zero hdigits).mpr hzeros.2
  have hchars : fromCharsInt64 (45 :: zeros) = some 0 := by
    rw [fromCharsInt64, hvalue]
    exact if_pos ⟨hzeros.1, hdigits, Nat.zero_le _⟩
  unfold parseSide
  rw [hchars]
  rfl

/-- A side is missing, or a value, or a zero with a minus sign. -/
theorem parseSide_cases {text : ByteString} {side : Int}
    (hside : parseSide text = some side) :
    (text = [] ∧ side = -1) ∨ (exists n : Nat, Numeral text n ∧ side = n) ∨
      exists zeros, Zeros zeros ∧ text = 45 :: zeros ∧ side = 0 := by
  unfold parseSide at hside
  split at hside
  · rename_i hempty
    cases hside
    exact Or.inl ⟨List.isEmpty_iff.mp hempty, rfl⟩
  · apply Or.inr
    split at hside
    · rename_i value hvalue
      rw [Option.ite_none_right_eq_some] at hside
      rcases hside with ⟨hnonneg, hsome⟩
      cases hsome
      unfold fromCharsInt64 at hvalue
      split at hvalue
      · rename_i ds _
        rw [Option.ite_none_right_eq_some] at hvalue
        rcases hvalue with ⟨⟨hpresent, hdigits, _⟩, hsome⟩
        cases hsome
        have hzero : ofDecimal ds = 0 := by omega
        refine Or.inr ⟨ds, ⟨hpresent, (ofDecimal_eq_zero hdigits).mp hzero⟩, rfl, ?_⟩
        rw [hzero]
        rfl
      · rw [Option.ite_none_right_eq_some] at hvalue
        rcases hvalue with ⟨⟨hpresent, hdigits, hfits⟩, hsome⟩
        cases hsome
        exact Or.inl ⟨_, ⟨hpresent, hdigits, rfl, hfits⟩, rfl⟩
    · cases hside

theorem Numeral.dash_not_mem {text : ByteString} {n : Nat} (hnumeral : Numeral text n) :
    45 ∉ text := by
  intro hmem
  have hdigit := List.all_eq_true.mp hnumeral.digits 45 hmem
  cases hdigit

theorem Zeros.numeral {zeros : ByteString} (hzeros : Zeros zeros) : Numeral zeros 0 := by
  have hdigits : zeros.all isDigit = true := by
    rw [List.all_eq_true]
    intro c hc
    have hzero := List.all_eq_true.mp hzeros.2 c hc
    rw [beq_iff_eq.mp hzero]
    rfl
  exact ⟨hzeros.1, hdigits, (ofDecimal_eq_zero hdigits).mpr hzeros.2, by decide⟩

/-!
# One element
-/

theorem parseRangeItem_sides {a b : ByteString} (ha : 45 ∉ a) {first last : Int}
    (hfirst : parseSide a = some first)
    (hlast : parseSide b = some last) :
    parseRangeItem (a ++ 45 :: b) =
      if first = -1 ∧ last = -1 then none
      else if first ≠ -1 ∧ last ≠ -1 ∧ last < first then none
      else some (first, last) := by
  have hdash : (a ++ 45 :: b).contains 45 = true := by
    rw [List.contains_iff_mem]
    exact List.mem_append_right _ List.mem_cons_self
  have htake : (a ++ 45 :: b).takeWhile (· != 45) = a := before_append ha b
  have hdrop : ((a ++ 45 :: b).dropWhile (· != 45)).drop 1 = b := after_append ha b
  unfold parseRangeItem
  rw [if_pos hdash, htake, hdrop, hfirst, hlast]
  rfl

theorem parseRangeItem_spec {spec : ByteString} {range : Int × Int}
    (hspec : SpecText spec range) : parseRangeItem spec = some range := by
  cases hspec with
  | @both ds es n m hds hes hle =>
      have hordered : ¬ ((m : Int) < n) := Int.not_lt.mpr (Int.ofNat_le.mpr hle)
      rw [parseRangeItem_sides hds.dash_not_mem (parseSide_numeral hds)
        (parseSide_numeral hes), if_neg (by omega), if_neg fun h => hordered h.2.2]
  | start hds =>
      rw [parseRangeItem_sides hds.dash_not_mem (parseSide_numeral hds) rfl,
        if_neg (by omega), if_neg fun h => h.2.1 rfl]
  | suffix hes =>
      have hsides := parseRangeItem_sides List.not_mem_nil rfl (parseSide_numeral hes)
      rw [List.nil_append] at hsides
      rw [hsides, if_neg (by omega), if_neg fun h => h.1 rfl]

theorem parseRangeItem_zero {spec : ByteString} {range : Int × Int}
    (hspec : ZeroText spec range) : parseRangeItem spec = some range := by
  cases hspec with
  | start hzeros hzeros' =>
      have hnumeral := hzeros.numeral
      exact parseRangeItem_sides hnumeral.dash_not_mem (parseSide_numeral hnumeral)
        (parseSide_minus hzeros')
  | suffix hzeros' =>
      exact parseRangeItem_sides List.not_mem_nil rfl (parseSide_minus hzeros')

theorem parseRangeItem_iff (item : ByteString) (range : Int × Int) :
    parseRangeItem item = some range ↔ SpecText item range ∨ ZeroText item range := by
  constructor
  · intro hitem
    have hdash : 45 ∈ item := by
      rw [← List.contains_iff_mem]
      by_contra hnone
      unfold parseRangeItem at hitem
      rw [if_neg hnone] at hitem
      cases hitem
    have hsplit := before_cons_after hdash
    have hnot := not_mem_before 45 item
    have hparsed := hitem
    unfold parseRangeItem at hparsed
    rw [if_pos (List.contains_iff_mem.mpr hdash)] at hparsed
    simp only [Option.bind_eq_bind, Option.bind_eq_some_iff] at hparsed
    rcases hparsed with ⟨first, hfirst, last, hlast, hparsed⟩
    rw [Option.ite_none_left_eq_some, Option.ite_none_left_eq_some] at hparsed
    rcases hparsed with ⟨hpresent, hordered, hsome⟩
    cases hsome
    change parseSide (before 45 item) = some first at hfirst
    change parseSide (after 45 item) = some last at hlast
    generalize before 45 item = a at hsplit hnot hfirst
    generalize after 45 item = b at hsplit hlast
    rw [← hsplit]
    rcases parseSide_cases hfirst with ⟨ha, hf⟩ | ⟨n, hn, hf⟩ | ⟨zeros, _, ha, _⟩
    · rcases parseSide_cases hlast with ⟨hb, hl⟩ | ⟨m, hm, hl⟩ | ⟨zeros, hz, hb, hl⟩
      · exact absurd ⟨hf, hl⟩ hpresent
      · rw [ha, hf, hl]
        exact Or.inl (SpecText.suffix hm)
      · rw [ha, hf, hl, hb]
        exact Or.inr (ZeroText.suffix hz)
    · rcases parseSide_cases hlast with ⟨hb, hl⟩ | ⟨m, hm, hl⟩ | ⟨zeros, hz, hb, hl⟩
      · rw [hf, hl, hb]
        exact Or.inl (SpecText.start hn)
      · have hle : n ≤ m := by
          by_contra hless
          exact hordered ⟨by omega, by omega, by omega⟩
        rw [hf, hl]
        exact Or.inl (SpecText.both hn hm hle)
      · have hzero : n = 0 := by
          by_contra hne
          exact hordered ⟨by omega, by omega, by omega⟩
        have hzeros : Zeros a :=
          ⟨hn.present, (ofDecimal_eq_zero hn.digits).mp (hn.value.trans hzero)⟩
        rw [hf, hl, hb, hzero]
        exact Or.inr (ZeroText.start hzeros hz)
    · rw [ha] at hnot
      exact absurd List.mem_cons_self hnot
  · intro htext
    rcases htext with hspec | hzero
    · exact parseRangeItem_spec hspec
    · exact parseRangeItem_zero hzero

/-!
# Blanks around an element
-/

theorem padded_trim (item : ByteString) : Padded item (trim item) := by
  refine ⟨item.takeWhile isBlank, ((item.dropWhile isBlank).reverse.takeWhile
    isBlank).reverse, List.all_takeWhile, ?_, ?_⟩
  · rw [List.all_reverse]
    exact List.all_takeWhile
  · unfold trim
    rw [List.append_assoc, ← List.reverse_append, List.takeWhile_append_dropWhile,
      List.reverse_reverse, List.takeWhile_append_dropWhile]

theorem dropWhile_padding {left s : ByteString} (hleft : left.all isBlank = true)
    (hs : forall c, c ∈ s.head? -> isBlank c = false) :
    (left ++ s).dropWhile isBlank = s := by
  rw [List.dropWhile_append_of_pos (List.all_eq_true.mp hleft)]
  cases s with
  | nil => rfl
  | cons c rest =>
      rw [List.dropWhile_cons, hs c rfl]
      rfl

theorem trim_padded {item inner : ByteString} (hpadded : Padded item inner)
    (hne : inner ≠ [])
    (hinner : forall c, c ∈ inner -> isBlank c = false) : trim item = inner := by
  rcases hpadded with ⟨left, right, hleft, hright, hitem⟩
  have hhead : forall (s t : ByteString), s ≠ [] -> (forall c, c ∈ s -> isBlank c = false) ->
      forall c, c ∈ (s ++ t).head? -> isBlank c = false := by
    intro s t hs hall c hc
    cases s with
    | nil => exact absurd rfl hs
    | cons c' rest =>
        cases hc
        exact hall _ List.mem_cons_self
  unfold trim
  rw [hitem, List.append_assoc, dropWhile_padding hleft (hhead inner right hne hinner),
    List.reverse_append, dropWhile_padding (by rwa [List.all_reverse]) ?_,
    List.reverse_reverse]
  have hback := hhead inner.reverse [] (by simpa using hne)
    fun c hc => hinner c (List.mem_reverse.mp hc)
  rwa [List.append_nil] at hback

theorem SpecText.mem {spec : ByteString} {range : Int × Int} (hspec : SpecText spec range)
    {c : UInt8} (hc : c ∈ spec) : isDigit c = true ∨ c = 45 := by
  cases hspec with
  | both hds hes _ =>
      rcases List.mem_append.mp hc with hfirst | hrest
      · exact Or.inl (List.all_eq_true.mp hds.digits c hfirst)
      · rcases List.mem_cons.mp hrest with hdash | hlast
        · exact Or.inr hdash
        · exact Or.inl (List.all_eq_true.mp hes.digits c hlast)
  | start hds =>
      rcases List.mem_append.mp hc with hfirst | hdash
      · exact Or.inl (List.all_eq_true.mp hds.digits c hfirst)
      · exact Or.inr (List.mem_singleton.mp hdash)
  | suffix hes =>
      rcases List.mem_cons.mp hc with hdash | hlast
      · exact Or.inr hdash
      · exact Or.inl (List.all_eq_true.mp hes.digits c hlast)

theorem ZeroText.mem {spec : ByteString} {range : Int × Int} (hspec : ZeroText spec range)
    {c : UInt8} (hc : c ∈ spec) : isDigit c = true ∨ c = 45 := by
  cases hspec with
  | start hzeros hzeros' =>
      rcases List.mem_append.mp hc with hfirst | hrest
      · exact Or.inl (List.all_eq_true.mp hzeros.numeral.digits c hfirst)
      · rcases List.mem_cons.mp hrest with hdash | hrest
        · exact Or.inr hdash
        · rcases List.mem_cons.mp hrest with hdash | hlast
          · exact Or.inr hdash
          · exact Or.inl (List.all_eq_true.mp hzeros'.numeral.digits c hlast)
  | suffix hzeros' =>
      rcases List.mem_cons.mp hc with hdash | hrest
      · exact Or.inr hdash
      · rcases List.mem_cons.mp hrest with hdash | hlast
        · exact Or.inr hdash
        · exact Or.inl (List.all_eq_true.mp hzeros'.numeral.digits c hlast)

theorem not_blank_or_comma {c : UInt8} (hc : isDigit c = true ∨ c = 45) :
    isBlank c = false ∧ c ≠ 44 := by
  have hbyte : forall c : UInt8, isDigit c = true -> isBlank c = false ∧ c ≠ 44 :=
    forall_byte (by decide +kernel)
  rcases hc with hdigit | hdash
  · exact hbyte c hdigit
  · rw [hdash]
    exact ⟨rfl, by decide⟩

theorem spec_ne_nil {spec : ByteString} {range : Int × Int}
    (hspec : SpecText spec range ∨ ZeroText spec range) : spec ≠ [] := by
  rcases hspec with hspec | hzero
  · cases hspec with
    | both hds _ _ => exact List.append_ne_nil_of_left_ne_nil hds.present _
    | start hds => exact List.append_ne_nil_of_left_ne_nil hds.present _
    | suffix _ => exact List.cons_ne_nil _ _
  · cases hzero with
    | start hzeros _ => exact List.append_ne_nil_of_left_ne_nil hzeros.1 _
    | suffix _ => exact List.cons_ne_nil _ _

theorem trim_spec {item spec : ByteString} {range : Int × Int}
    (hpadded : Padded item spec)
    (hspec : SpecText spec range ∨ ZeroText spec range) : trim item = spec := by
  apply trim_padded hpadded (spec_ne_nil hspec)
  intro c hc
  rcases hspec with hspec | hzero
  · exact (not_blank_or_comma (hspec.mem hc)).1
  · exact (not_blank_or_comma (hzero.mem hc)).1

/-- What the parser takes for an element. -/
theorem parseRangeItem_trim_iff (item : ByteString) (range : Int × Int) :
    parseRangeItem (trim item) = some range ↔
      ElementText item range ∨ exists spec, Padded item spec ∧ ZeroText spec range := by
  rw [parseRangeItem_iff]
  constructor
  · intro htext
    rcases htext with hspec | hzero
    · exact Or.inl ⟨_, padded_trim item, hspec⟩
    · exact Or.inr ⟨_, padded_trim item, hzero⟩
  · intro htext
    rcases htext with ⟨spec, hpadded, hspec⟩ | ⟨spec, hpadded, hzero⟩
    · rw [trim_spec hpadded (Or.inl hspec)]
      exact Or.inl hspec
    · rw [trim_spec hpadded (Or.inr hzero)]
      exact Or.inr hzero

theorem ElementText.comma_not_mem {item : ByteString} {range : Int × Int}
    (helement : ElementText item range) : 44 ∉ item := by
  have hblank : forall s : ByteString, s.all isBlank = true -> 44 ∉ s := by
    intro s hs hmem
    have hbad := List.all_eq_true.mp hs 44 hmem
    cases hbad
  rcases helement with ⟨spec, ⟨left, right, hleft, hright, hitem⟩, hspec⟩
  rw [hitem, List.mem_append, List.mem_append]
  intro hmem
  rcases hmem with (hin | hin) | hin
  · exact hblank left hleft hin
  · exact (not_blank_or_comma (hspec.mem hin)).2 rfl
  · exact hblank right hright hin

theorem ElementText.ne_nil {item : ByteString} {range : Int × Int}
    (helement : ElementText item range) : item ≠ [] := by
  rcases helement with ⟨spec, ⟨left, right, _, _, hitem⟩, hspec⟩
  have hne := spec_ne_nil (Or.inl hspec)
  rw [hitem]
  exact List.append_ne_nil_of_left_ne_nil (List.append_ne_nil_of_right_ne_nil _ hne) _

/-!
# All elements
-/

/-- The elements that the parser looks at: an empty one at the end is passed over. -/
def looked (items : List ByteString) : List ByteString :=
  if items.getLast? = some [] then items.dropLast else items

theorem modifyHead_nil (items : List ByteString) :
    items.modifyHead ([] ++ ·) = items := by
  cases items with
  | nil => rfl
  | cons first others => rfl

theorem rangeItems_eq {piece s : ByteString} (hne : piece ++ s ≠ []) :
    rangeItems piece s = looked ((s.splitOn 44).modifyHead (piece ++ ·)) := by
  induction s generalizing piece with
  | nil =>
      rw [List.append_nil] at hne
      have hlast : ¬ [piece].getLast? = some [] := fun h => hne (Option.some.inj h)
      rw [List.splitOn_nil, List.modifyHead_cons, List.append_nil]
      exact (if_neg hlast).symm
  | cons c rest ih =>
      rw [rangeItems, List.splitOn_cons_eq_if_modifyHead]
      by_cases hc : (c == 44) = true
      · rw [if_pos hc, if_pos hc, List.modifyHead_cons, List.append_nil]
        cases rest with
        | nil => rfl
        | cons c' rest' =>
            have hrest := @ih [] (List.cons_ne_nil _ _)
            rw [modifyHead_nil] at hrest
            rw [if_neg (by simp), hrest]
            have hsome := List.splitOn_ne_nil 44 (c' :: rest')
            generalize (c' :: rest').splitOn 44 = items at hsome
            cases items with
            | nil => exact absurd rfl hsome
            | cons first others =>
                unfold looked
                rw [List.getLast?_cons_cons,
                  List.dropLast_cons_of_ne_nil (List.cons_ne_nil first others)]
                split
                · rfl
                · rfl
      · rw [if_neg hc, if_neg hc, ih (by simp)]
        congr 1
        cases rest.splitOn 44 with
        | nil => rfl
        | cons first others =>
            rw [List.modifyHead_cons, List.modifyHead_cons, List.modifyHead_cons,
              List.append_assoc]
            rfl

theorem rangeItems_body {body : ByteString} (hbody : body ≠ []) :
    rangeItems [] body = looked (body.splitOn 44) := by
  have hitems := @rangeItems_eq [] body hbody
  rwa [modifyHead_nil] at hitems

def Parses (item : ByteString) (range : Int × Int) : Prop :=
  parseRangeItem (trim item) = some range

theorem parseRangeItems_accepts {items : List ByteString} {found : List (Int × Int)}
    (hfound : List.Forall₂ Parses items found) (ranges : List (Int × Int)) :
    parseRangeItems ranges items = (!(ranges ++ found).isEmpty, ranges ++ found) := by
  induction hfound generalizing ranges with
  | nil => rw [List.append_nil]; rfl
  | @cons item range items found hitem _ ih =>
      unfold Parses at hitem
      rw [parseRangeItems, hitem]
      refine (ih (ranges ++ [range])).trans ?_
      rw [List.append_assoc, List.singleton_append]

/-- All elements are good, or those before the first bad one are. -/
theorem parseRangeItems_cases (items : List ByteString) (ranges : List (Int × Int)) :
    (exists found, List.Forall₂ Parses items found) ∨
      exists good bad rest found, items = good ++ bad :: rest ∧
        List.Forall₂ Parses good found ∧ parseRangeItem (trim bad) = none ∧
        parseRangeItems ranges items = (false, ranges ++ found) := by
  induction items generalizing ranges with
  | nil => exact Or.inl ⟨[], List.Forall₂.nil⟩
  | cons item rest ih =>
      cases hitem : parseRangeItem (trim item) with
      | none =>
          refine Or.inr ⟨[], item, rest, [], rfl, List.Forall₂.nil, hitem, ?_⟩
          rw [parseRangeItems, hitem, List.append_nil]
      | some range =>
          rcases ih (ranges ++ [range]) with ⟨found, hfound⟩ |
            ⟨good, bad, rest', found, hsplit, hgood, hbad, hout⟩
          · exact Or.inl ⟨range :: found, List.Forall₂.cons hitem hfound⟩
          · refine Or.inr ⟨item :: good, bad, rest', range :: found, ?_,
              List.Forall₂.cons hitem hgood, hbad, ?_⟩
            · rw [hsplit]
              rfl
            · rw [parseRangeItems, hitem]
              refine hout.trans ?_
              rw [List.append_assoc, List.singleton_append]

theorem Parses.of_elements {items : List ByteString} {listed : List (Int × Int)}
    (helements : List.Forall₂ ElementText items listed) :
    List.Forall₂ Parses items listed :=
  helements.imp fun _ _ helement => (parseRangeItem_trim_iff _ _).mpr (Or.inl helement)

theorem ParseRangeHeader_body {body : ByteString} (hbody : body ≠ [])
    (ranges : List (Int × Int)) :
    ParseRangeHeader (bytes "bytes=" ++ body) ranges =
      parseRangeItems ranges (looked (body.splitOn 44)) := by
  have hlength : ¬ (bytes "bytes=" ++ body).length ≤ (bytes "bytes=").length := by
    rw [List.length_append]
    have hpos := List.length_pos_iff.mpr hbody
    omega
  have htake : (bytes "bytes=" ++ body).take (bytes "bytes=").length = bytes "bytes=" :=
    List.take_left
  have hdrop : (bytes "bytes=" ++ body).drop (bytes "bytes=").length = body :=
    List.drop_left
  unfold ParseRangeHeader
  simp only [hdrop, rangeItems_body hbody]
  exact if_neg fun h => h.elim hlength fun hne => hne htake

theorem ParseRangeHeader_other {s : ByteString} (ranges : List (Int × Int))
    (hother : forall body, body ≠ [] -> s ≠ bytes "bytes=" ++ body) :
    ParseRangeHeader s ranges = (false, ranges) := by
  unfold ParseRangeHeader
  refine if_pos ?_
  by_contra hnot
  rw [not_or, Nat.not_le, not_not] at hnot
  apply hother (s.drop (bytes "bytes=").length)
  · exact List.ne_nil_of_length_pos (by rw [List.length_drop]; omega)
  · exact ((congrArg (· ++ _) hnot.2.symm).trans (List.take_append_drop _ s)).symm

/-- A header of the grammar has something after the equals sign. -/
theorem RangeText.body {s : ByteString} {listed : List (Int × Int)}
    (htext : RangeText s listed) :
    exists body, body ≠ [] ∧ s = bytes "bytes=" ++ body ∧
      List.Forall₂ ElementText (body.splitOn 44) listed ∧
      looked (body.splitOn 44) = body.splitOn 44 := by
  rcases htext with ⟨items, hne, hs, helements⟩
  have hitems : forall item, item ∈ items -> exists range, ElementText item range := by
    intro item hitem
    rcases List.getElem_of_mem hitem with ⟨i, hi, heq⟩
    have hget : ElementText items[i] _ :=
      List.Forall₂.get helements hi (helements.length_eq ▸ hi)
    rw [heq] at hget
    exact ⟨_, hget⟩
  have hsplit : ([44].intercalate items).splitOn 44 = items :=
    List.splitOn_intercalate 44 (fun item hitem =>
      (hitems item hitem).elim fun _ helement => helement.comma_not_mem) hne
  refine ⟨[44].intercalate items, ?_, hs, ?_, ?_⟩
  · intro hnil
    rw [hnil, List.splitOn_nil] at hsplit
    rcases hitems [] (hsplit ▸ List.mem_singleton_self _) with ⟨range, helement⟩
    exact helement.ne_nil rfl
  · rwa [hsplit]
  · rw [hsplit]
    refine if_neg fun hlast => ?_
    rcases hitems [] (List.mem_of_getLast? hlast) with ⟨range, helement⟩
    exact helement.ne_nil rfl

theorem ParseRangeHeader_text {s : ByteString} {listed : List (Int × Int)}
    (htext : RangeText s listed) (ranges : List (Int × Int)) :
    ParseRangeHeader s ranges = (true, ranges ++ listed) := by
  rcases htext.body with ⟨body, hne, hs, helements, hlooked⟩
  have hsome : ranges ++ listed ≠ [] := by
    intro hnil
    rw [(List.append_eq_nil_iff.mp hnil).2] at helements
    exact List.splitOn_ne_nil 44 body (List.forall₂_nil_right_iff.mp helements)
  rw [hs, ParseRangeHeader_body hne, hlooked,
    parseRangeItems_accepts (Parses.of_elements helements),
    List.isEmpty_eq_false_iff.mpr hsome]
  rfl

/-!
# The parser and the grammar
-/

/-- The answer is that of the grammar, and ranges are added only when it is yes. -/
structure FollowsGrammar (s : ByteString) (ranges : List (Int × Int)) : Prop where
  accepts : (ParseRangeHeader s ranges).1 = true ↔ exists listed, RangeText s listed
  appends : forall listed, RangeText s listed ->
    (ParseRangeHeader s ranges).2 = ranges ++ listed
  keeps : (ParseRangeHeader s ranges).1 = false -> (ParseRangeHeader s ranges).2 = ranges

/-- An element that is not of the grammar, and not of zeros with a sign either. -/
def Refusable (item : ByteString) : Prop :=
  (forall range, ¬ ElementText item range) ∧ ¬ MinusZero item

/-- Every element is of the grammar, or the first one is already bad. -/
def Decisive (s : ByteString) : Prop :=
  (exists listed, RangeText s listed) ∨
    forall body, body ≠ [] -> s = bytes "bytes=" ++ body -> Refusable (before 44 body)

theorem refusable_iff (item : ByteString) :
    Refusable item ↔ parseRangeItem (trim item) = none := by
  rw [Option.eq_none_iff_forall_ne_some]
  constructor
  · intro hrefusable range hparsed
    rcases (parseRangeItem_trim_iff item range).mp hparsed with helement |
      ⟨spec, hpadded, hzero⟩
    · exact hrefusable.1 range helement
    · exact hrefusable.2 ⟨spec, range, hpadded, hzero⟩
  · intro hnone
    constructor
    · exact fun range helement =>
        hnone range ((parseRangeItem_trim_iff item range).mpr (Or.inl helement))
    · intro hminus
      rcases hminus with ⟨spec, range, hpadded, hzero⟩
      exact hnone range ((parseRangeItem_trim_iff item range).mpr
        (Or.inr ⟨spec, hpadded, hzero⟩))

theorem splitOn_before (body : ByteString) :
    exists rest, body.splitOn 44 = before 44 body :: rest := by
  by_cases hcomma : 44 ∈ body
  · refine ⟨(after 44 body).splitOn 44, ?_⟩
    rw [← List.splitOn_append_cons_self_of_not_mem (not_mem_before 44 body),
      before_cons_after hcomma]
  · exact ⟨[], by rw [List.splitOn_eq_singleton hcomma, before_eq_self hcomma]⟩

/-- The first element is looked at, also when nothing follows it. -/
theorem looked_before {body : ByteString} (hbody : body ≠ []) :
    exists rest, looked (body.splitOn 44) = before 44 body :: rest := by
  rcases splitOn_before body with ⟨rest, hrest⟩
  rw [hrest]
  unfold looked
  cases rest with
  | nil =>
      refine ⟨[], if_neg fun hlast => ?_⟩
      have hempty : before 44 body = [] := Option.some.inj hlast
      have hjoin : [44].intercalate (body.splitOn 44) = body := List.intercalate_splitOn 44
      rw [hrest, hempty] at hjoin
      exact hbody hjoin.symm
  | cons next rest' =>
      split
      · exact ⟨_, List.dropLast_cons_of_ne_nil (List.cons_ne_nil next rest')⟩
      · exact ⟨_, rfl⟩

theorem Refusable.not_text {body : ByteString} (hrefusable : Refusable (before 44 body))
    {listed : List (Int × Int)} : ¬ RangeText (bytes "bytes=" ++ body) listed := by
  intro htext
  rcases htext.body with ⟨body', _, hsame, helements, _⟩
  rcases splitOn_before body with ⟨rest, hrest⟩
  rw [← List.append_cancel_left hsame, hrest] at helements
  cases helements with
  | cons helement _ => exact hrefusable.1 _ helement

theorem ParseRangeHeader_refusable {body : ByteString} (hbody : body ≠ [])
    (hrefusable : Refusable (before 44 body)) (ranges : List (Int × Int)) :
    ParseRangeHeader (bytes "bytes=" ++ body) ranges = (false, ranges) := by
  rcases looked_before hbody with ⟨rest, hrest⟩
  rw [ParseRangeHeader_body hbody, hrest, parseRangeItems,
    (refusable_iff _).mp hrefusable]

/-- The parser follows the grammar exactly on the headers that are decided at once. -/
theorem followsGrammar_iff (s : ByteString) (ranges : List (Int × Int)) :
    FollowsGrammar s ranges ↔ Decisive s := by
  constructor
  · intro hfollows
    by_cases htext : exists listed, RangeText s listed
    · exact Or.inl htext
    · refine Or.inr fun body hbody hs => ?_
      have hno : ¬ (ParseRangeHeader s ranges).1 = true := mt hfollows.accepts.mp htext
      have hkept := hfollows.keeps (Bool.eq_false_iff.mpr hno)
      rcases looked_before hbody with ⟨rest, hrest⟩
      rw [hs, ParseRangeHeader_body hbody, hrest] at hno hkept
      rcases parseRangeItems_cases (before 44 body :: rest) ranges with ⟨found, hfound⟩ |
        ⟨good, bad, rest', found, hsplit, hgood, hbad, hout⟩
      · -- all that was looked at is taken for ranges, and so the answer is yes
        rw [parseRangeItems_accepts hfound] at hno
        cases hfound with
        | cons _ _ => exact absurd (by simp) hno
      · -- what was good before the first bad element stays
        rw [hout] at hkept
        have hnone : found = [] := List.append_right_eq_self.mp hkept
        rw [hnone] at hgood
        cases hgood
        rw [List.nil_append] at hsplit
        rw [(List.cons.inj hsplit).1]
        exact (refusable_iff bad).mpr hbad
  · intro hdecisive
    rcases hdecisive with ⟨listed, htext⟩ | hother
    · have hparsed := ParseRangeHeader_text htext ranges
      refine ⟨⟨fun _ => ⟨listed, htext⟩, fun _ => by rw [hparsed]⟩, ?_, ?_⟩
      · exact fun listed' htext' => by rw [ParseRangeHeader_text htext' ranges]
      · intro hno
        rw [hparsed] at hno
        cases hno
    · have hrefused : ParseRangeHeader s ranges = (false, ranges) ∧
          forall listed, ¬ RangeText s listed := by
        by_cases hbody : exists body, body ≠ [] ∧ s = bytes "bytes=" ++ body
        · rcases hbody with ⟨body, hne, hs⟩
          have hrefusable := hother body hne hs
          rw [hs]
          exact ⟨ParseRangeHeader_refusable hne hrefusable ranges,
            fun listed => hrefusable.not_text⟩
        · have hnot : forall body, body ≠ [] -> s ≠ bytes "bytes=" ++ body :=
            fun body hne hs => hbody ⟨body, hne, hs⟩
          refine ⟨ParseRangeHeader_other ranges hnot, fun listed htext => ?_⟩
          rcases htext.body with ⟨body, hne, hs, _⟩
          exact hnot body hne hs
      rcases hrefused with ⟨hparsed, hno⟩
      refine ⟨⟨fun hyes => ?_, fun hsome => ?_⟩, ?_, fun _ => by rw [hparsed]⟩
      · rw [hparsed] at hyes
        cases hyes
      · exact absurd hsome fun h => h.elim hno
      · exact fun listed htext => absurd htext (hno listed)

/-- A bad element after a good one: the answer is no, and the good one stays. -/
theorem not_followsGrammar_second :
    ¬ FollowsGrammar (bytes "bytes=0-1,x") [] := by
  intro hfollows
  have hkept := hfollows.keeps (by decide)
  exact absurd hkept (by decide)

end Utils
end OssSdk
