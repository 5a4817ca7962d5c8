import OssSdk.Utils.XmlUtils
import Mathlib.Algebra.Group.Nat.Defs
import Mathlib.Data.List.GetD

/-!
# Texts of documents

A text is decoded where it lies: the read pointer goes ahead, and the write pointer comes
behind it.  A reference is never shorter than what it stands for.
-/

namespace OssSdk
namespace Transform

open Foundation

/-- The flags of a text, and how many values an `unsigned long` has. -/
structure TextMode where
  newlineNormalization : Bool
  entityProcessing : Bool
  wideLong : Bool
deriving DecidableEq

namespace TextMode

def longValues (mode : TextMode) : Nat := if mode.wideLong then 2 ^ 64 else 2 ^ 32

end TextMode

namespace StrPair

def LF : UInt8 := 10

def CR : UInt8 := 13

/-- How far away the byte is; the search stops at the end of the text. -/
def strchr (c : UInt8) : ByteString -> Option Nat
  | [] => none
  | b :: rest =>
      if b = c then some 0 else if b = 0 then none else (strchr c rest).map (· + 1)

def hexDigit (c : UInt8) : Option Nat :=
  if 48 ≤ c ∧ c ≤ 57 then some (c.toNat - 48)
  else if 97 ≤ c ∧ c ≤ 102 then some (c.toNat - 97 + 10)
  else if 65 ≤ c ∧ c ≤ 70 then some (c.toNat - 65 + 10)
  else none

def decimalDigit (c : UInt8) : Option Nat :=
  if 48 ≤ c ∧ c ≤ 57 then some (c.toNat - 48) else none

/-- The digits come from the last to the first; `mult` is an `unsigned`. -/
def readDigits (mode : TextMode) (base : Nat) (digit : UInt8 -> Option Nat) (stop : UInt8)
    (mult ucs : Nat) : ByteString -> Option Nat
  | [] => some ucs
  | c :: rest =>
      if c = stop then some ucs
      else
        match digit c with
        | none => none
        | some d =>
            readDigits mode base digit stop (mult * base % 2 ^ 32)
              ((ucs + mult * d % 2 ^ 32) % mode.longValues) rest

def continuation (input : Nat) : UInt8 := UInt8.ofNat ((input ||| 0x80) &&& 0xBF)

def ConvertUTF32ToUTF8 (input : Nat) : ByteString :=
  if input < 0x80 then [UInt8.ofNat input]
  else if input < 0x800 then [UInt8.ofNat (input >>> 6 ||| 0xC0), continuation input]
  else if input < 0x10000 then
    [UInt8.ofNat (input >>> 12 ||| 0xE0), continuation (input >>> 6), continuation input]
  else if input < 0x200000 then
    [UInt8.ofNat (input >>> 18 ||| 0xF0), continuation (input >>> 12),
      continuation (input >>> 6), continuation input]
  else []

/-- What a reference to a character stands for, and how long it is. -/
def GetCharacterRef (mode : TextMode) (s : ByteString) : Option (ByteString × Nat) :=
  if s.getD 2 0 = 0 then some ([], 1)
  else if s.getD 2 0 = 120 then
    if s.getD 3 0 = 0 then none
    else
      match strchr 59 (s.drop 3) with
      | none => none
      | some k =>
          (readDigits mode 16 hexDigit 120 1 0 ((s.drop 3).take k).reverse).map fun ucs =>
            (ConvertUTF32ToUTF8 ucs, k + 4)
  else
    match strchr 59 (s.drop 2) with
    | none => none
    | some k =>
        (readDigits mode 10 decimalDigit 35 1 0 ((s.drop 2).take k).reverse).map fun ucs =>
          (ConvertUTF32ToUTF8 ucs, k + 3)

def entities : List (ByteString × UInt8) :=
  [(bytes "quot", 34), (bytes "amp", 38), (bytes "apos", 39), (bytes "lt", 60), (bytes "gt", 62)]

/-- `strncmp`, and the semicolon behind. -/
def isEntity (s : ByteString) (entity : ByteString × UInt8) : Bool :=
  entity.1.isPrefixOf (s.drop 1) && s.getD (entity.1.length + 1) 0 == 59

/--
What is written for the bytes from the read pointer on, and how far that goes.  Nothing is
written for an ampersand without a reference, but the write pointer goes on.
-/
def look (mode : TextMode) (s : ByteString) : Option ByteString × Nat :=
  let c := s.getD 0 0
  let next := s.getD 1 0
  if mode.newlineNormalization ∧ c = CR then (some [LF], if next = LF then 2 else 1)
  else if mode.newlineNormalization ∧ c = LF then (some [LF], if next = CR then 2 else 1)
  else if mode.entityProcessing ∧ c = 38 then
    if next = 35 then
      match GetCharacterRef mode s with
      | none => (some [c], 1)
      | some (buf, adjusted) => (some buf, adjusted)
    else
      match entities.find? (isEntity s) with
      | some entity => (some [entity.2], entity.1.length + 2)
      | none => (none, 1)
  else (some [c], 1)

structure Pass where
  cells : ByteString
  p : Nat
  q : Nat

def copyTo (cells : ByteString) (i : Nat) (data : ByteString) : ByteString :=
  cells.take i ++ data ++ cells.drop (i + data.length)

/-- One round of the loop. -/
def advance (mode : TextMode) (s : Pass) : Pass :=
  match look mode (s.cells.drop s.p) with
  | (some buf, n) => ⟨copyTo s.cells s.q buf, s.p + n, s.q + buf.length⟩
  | (none, n) => ⟨s.cells, s.p + n, s.q + 1⟩

def passes (mode : TextMode) (last : Nat) : Nat -> Pass -> Option Pass
  | 0, s => if s.p < last then none else some s
  | fuel + 1, s => if s.p < last then passes mode last fuel (advance mode s) else some s

/-- The memory from the start of the text on, which ends at `last`. -/
def GetStr (mode : TextMode) (cells : ByteString) (last : Nat) : Option ByteString :=
  let cells := cells.set last 0
  if mode.newlineNormalization || mode.entityProcessing then
    (passes mode last last ⟨cells, 0, 0⟩).map fun s => s.cells.set s.q 0
  else some cells

/-! # Decoding into another buffer -/

/-- The same with a buffer of its own, which has the bytes of the text at first. -/
def decodeFrom (mode : TextMode) (original : ByteString) (last : Nat) :
    Nat -> Nat -> ByteString -> ByteString
  | 0, _, out => out
  | fuel + 1, p, out =>
      if p < last then
        match look mode (original.drop p) with
        | (some buf, n) => decodeFrom mode original last fuel (p + n) (out ++ buf)
        | (none, n) =>
            decodeFrom mode original last fuel (p + n) (out ++ [original.getD out.length 0])
      else out

def decoded (mode : TextMode) (original : ByteString) (last : Nat) : ByteString :=
  if mode.newlineNormalization || mode.entityProcessing then
    decodeFrom mode original last last 0 []
  else original.take last

/-! # How far a look goes -/

theorem strchr_some {c : UInt8} (hc : c ≠ 0) {s : ByteString} {k : Nat}
    (hfound : strchr c s = some k) {i : Nat} (hi : i ≤ k) : s.getD i 0 ≠ 0 := by
  induction s generalizing k i with
  | nil => cases hfound
  | cons b rest ih =>
      rw [strchr] at hfound
      split at hfound
      · rename_i hb
        cases hfound
        rw [Nat.le_zero.mp hi, hb]
        exact hc
      · split at hfound
        · cases hfound
        · rename_i hzero
          rcases Option.map_eq_some_iff.mp hfound with ⟨j, hj, hk⟩
          cases i with
          | zero => exact hzero
          | succ i => exact ih hj (by omega)

theorem length_ConvertUTF32ToUTF8 (input : Nat) : (ConvertUTF32ToUTF8 input).length ≤ 4 := by
  unfold ConvertUTF32ToUTF8
  split
  · exact Nat.le_of_ble_eq_true rfl
  · split
    · exact Nat.le_of_ble_eq_true rfl
    · split
      · exact Nat.le_of_ble_eq_true rfl
      · split
        · exact Nat.le_refl 4
        · exact Nat.zero_le 4

/-- The bytes behind the first one that is looked at are not the end of the text. -/
def Within (s : ByteString) (n : Nat) : Prop :=
  forall i, 0 < i -> i < n -> s.getD i 0 ≠ 0

theorem Within.le {s : ByteString} {n d : Nat} (hs : Within s n) (hd : 0 < d)
    (hend : s.getD d 0 = 0) : n ≤ d := by
  by_contra hlt
  exact hs d hd (Nat.lt_of_not_le hlt) hend

theorem getD_drop (s : ByteString) (i j : Nat) : (s.drop i).getD j 0 = s.getD (i + j) 0 := by
  rw [List.getD_eq_getElem?_getD, List.getElem?_drop, ← List.getD_eq_getElem?_getD]

theorem within_one (s : ByteString) : Within s 1 := by
  intro i hpos hlt
  omega

theorem within_two {s : ByteString} (hs : s.getD 1 0 ≠ 0) : Within s 2 := by
  intro i hpos hlt
  have hone : i = 1 := by omega
  rw [hone]
  exact hs

theorem GetCharacterRef_within {mode : TextMode} {s buf : ByteString} {n : Nat}
    (hnext : s.getD 1 0 ≠ 0) (href : GetCharacterRef mode s = some (buf, n)) :
    0 < n ∧ buf.length ≤ n ∧ Within s n := by
  unfold GetCharacterRef at href
  split at href
  · cases href
    exact ⟨Nat.one_pos, Nat.zero_le 1, within_one s⟩
  · rename_i hthird
    split at href
    · split at href
      · cases href
      · split at href
        · cases href
        · rename_i k hfound
          rcases Option.map_eq_some_iff.mp href with ⟨ucs, _, hbuf⟩
          cases hbuf
          have hlength := length_ConvertUTF32ToUTF8 ucs
          refine ⟨by omega, by omega, ?_⟩
          intro i hpos hlt
          by_cases hbefore : i < 3
          · by_cases hone : i = 1
            · rw [hone]
              exact hnext
            · have htwo : i = 2 := by omega
              rw [htwo]
              exact hthird
          · have hclear := strchr_some (by decide) hfound (show i - 3 ≤ k by omega)
            rwa [getD_drop, Nat.add_sub_cancel' (Nat.le_of_not_lt hbefore)] at hclear
    · split at href
      · cases href
      · rename_i k hfound
        rcases Option.map_eq_some_iff.mp href with ⟨ucs, hucs, hbuf⟩
        cases hbuf
        have hlength : (ConvertUTF32ToUTF8 ucs).length ≤ k + 3 := by
          cases k with
          | zero =>
              cases hucs
              exact Nat.le_of_ble_eq_true rfl
          | succ k =>
              have hfour := length_ConvertUTF32ToUTF8 ucs
              omega
        refine ⟨by omega, hlength, ?_⟩
        intro i hpos hlt
        by_cases hone : i = 1
        · rw [hone]
          exact hnext
        · have hclear := strchr_some (by decide) hfound (show i - 2 ≤ k by omega)
          rwa [getD_drop, Nat.add_sub_cancel' (show 2 ≤ i by omega)] at hclear

theorem getD_of_isPrefixOf {pattern s : ByteString} (hmatch : pattern.isPrefixOf s = true)
    {i : Nat} (hi : i < pattern.length) : s.getD i 0 = pattern.getD i 0 := by
  rcases List.isPrefixOf_iff_prefix.mp hmatch with ⟨rest, hrest⟩
  rw [← hrest, List.getD_append _ _ _ _ hi]

theorem isEntity_within {s : ByteString} {entity : ByteString × UInt8}
    (hentity : entity ∈ entities) (hmatch : isEntity s entity = true) :
    Within s (entity.1.length + 2) := by
  rw [isEntity, Bool.and_eq_true] at hmatch
  have hpattern : forall e, e ∈ entities -> forall b, b ∈ e.1 -> b ≠ 0 := by
    decide +kernel
  intro i hpos hlt
  by_cases hlast : i = entity.1.length + 1
  · rw [hlast, beq_iff_eq.mp hmatch.2]
    decide
  · have hbyte : i - 1 < entity.1.length := by omega
    have hcell := getD_of_isPrefixOf hmatch.1 hbyte
    rw [getD_drop, Nat.add_sub_cancel' hpos, List.getD_eq_getElem _ _ hbyte] at hcell
    rw [hcell]
    exact hpattern entity hentity _ (List.getElem_mem hbyte)

/-- A look goes on, never writes more than it reads, and ends with the text at the latest. -/
theorem look_within (mode : TextMode) (s : ByteString) :
    0 < (look mode s).2 ∧ (forall buf, (look mode s).1 = some buf -> buf.length ≤ (look mode s).2) ∧
      Within s (look mode s).2 := by
  have hone {b : UInt8} {n : Nat} (hn : 0 < n) : forall buf, some [b] = some buf -> buf.length ≤ n := by
    intro buf hbuf
    cases hbuf
    exact hn
  have hline {b : UInt8} (hb : b ≠ 0) : 0 < (if s.getD 1 0 = b then 2 else 1) ∧
      Within s (if s.getD 1 0 = b then 2 else 1) := by
    split
    · rename_i hnext
      refine ⟨Nat.two_pos, within_two ?_⟩
      rw [hnext]
      exact hb
    · exact ⟨Nat.one_pos, within_one s⟩
  unfold look
  simp only
  split
  · have hlf := hline (show LF ≠ 0 by decide)
    exact ⟨hlf.1, hone hlf.1, hlf.2⟩
  · split
    · have hcr := hline (show CR ≠ 0 by decide)
      exact ⟨hcr.1, hone hcr.1, hcr.2⟩
    · split
      · split
        · rename_i hnext
          have hsharp : s.getD 1 0 ≠ 0 := by
            rw [hnext]
            decide
          cases href : GetCharacterRef mode s with
          | none => exact ⟨Nat.one_pos, hone Nat.one_pos, within_one s⟩
          | some result =>
              obtain ⟨hpos, hlength, hwithin⟩ :=
                @GetCharacterRef_within mode s result.1 result.2 hsharp href
              refine ⟨hpos, ?_, hwithin⟩
              intro buf hbuf
              cases hbuf
              exact hlength
        · cases hfind : entities.find? (isEntity s) with
          | none =>
              refine ⟨Nat.one_pos, ?_, within_one s⟩
              intro buf hbuf
              cases hbuf
          | some entity =>
              exact ⟨Nat.succ_pos _, hone (Nat.succ_pos _),
                isEntity_within (List.mem_of_find?_eq_some hfind) (List.find?_some hfind)⟩
      · exact ⟨Nat.one_pos, hone Nat.one_pos, within_one s⟩

/-! # Decoding in place -/

section InPlace

variable {mode : TextMode} {original : ByteString} {last : Nat}

theorem advance_write {s : Pass} {buf : ByteString} {n : Nat}
    (hlook : look mode (s.cells.drop s.p) = (some buf, n)) :
    advance mode s = ⟨copyTo s.cells s.q buf, s.p + n, s.q + buf.length⟩ := by
  rw [advance, hlook]

theorem advance_skip {s : Pass} {n : Nat}
    (hlook : look mode (s.cells.drop s.p) = (none, n)) :
    advance mode s = ⟨s.cells, s.p + n, s.q + 1⟩ := by
  rw [advance, hlook]

theorem copyTo_written {out buf : ByteString} (rest : ByteString) :
    copyTo (out ++ rest) out.length buf = out ++ buf ++ rest.drop buf.length := by
  rw [copyTo, List.take_left, List.drop_length_add_append]

theorem passes_done {p : Nat} {out : ByteString} (hout : out.length ≤ p) (hp : p ≤ last)
    (hnot : ¬ p < last) :
    out.length ≤ last ∧ some (Pass.mk (out ++ original.drop out.length) p out.length) =
      some ⟨out ++ original.drop out.length, last, out.length⟩ := by
  have hsame : p = last := Nat.le_antisymm hp (Nat.le_of_not_lt hnot)
  rw [hsame] at hout ⊢
  exact ⟨hout, rfl⟩

/--
What has not been read is as it was, so that a look finds the same here as in the text
itself.
-/
theorem passes_eq (hlast : last < original.length) (hend : original.getD last 0 = 0)
    {fuel p : Nat} {out : ByteString} (hfuel : last ≤ p + fuel) (hout : out.length ≤ p)
    (hp : p ≤ last) :
    (decodeFrom mode original last fuel p out).length ≤ last ∧
      passes mode last fuel ⟨out ++ original.drop out.length, p, out.length⟩ =
        some ⟨decodeFrom mode original last fuel p out ++
          original.drop (decodeFrom mode original last fuel p out).length, last,
          (decodeFrom mode original last fuel p out).length⟩ := by
  induction fuel generalizing p out with
  | zero =>
      have hnot : ¬ p < last := by omega
      rw [passes, if_neg hnot]
      exact passes_done hout hp hnot
  | succ fuel ih =>
      rw [passes, decodeFrom]
      by_cases hless : p < last
      · rw [if_pos hless, if_pos hless]
        have hunread : (out ++ original.drop out.length).drop p = original.drop p := by
          rw [List.drop_append, List.drop_of_length_le hout, List.nil_append, List.drop_drop,
            Nat.add_sub_cancel' hout]
        obtain ⟨hpos, hlength, hwithin⟩ := look_within mode (original.drop p)
        have hnext : p + (look mode (original.drop p)).2 ≤ last := by
          have hle := @Within.le _ _ (last - p) hwithin (by omega) (by
            rw [getD_drop, Nat.add_sub_cancel' hp]
            exact hend)
          omega
        rcases hlook : look mode (original.drop p) with ⟨written, n⟩
        rw [hlook] at hpos hlength hnext
        rw [← hunread] at hlook
        cases written with
        | some buf =>
            have hbuf : buf.length ≤ n := hlength buf rfl
            have hcells := @copyTo_written out buf (original.drop out.length)
            rw [List.drop_drop, ← List.length_append] at hcells
            have hafter := @ih (p + n) (out ++ buf) (by omega)
              (by rw [List.length_append]; omega) hnext
            rw [advance_write hlook]
            simp only [hcells, ← List.length_append]
            exact hafter
        | none =>
            have hcell : out.length < original.length := by omega
            have hcells : out ++ original.drop out.length =
                out ++ [original.getD out.length 0] ++
                  original.drop (out ++ [original.getD out.length 0]).length := by
              rw [List.length_append, List.length_singleton, List.append_assoc,
                List.singleton_append, List.getD_eq_getElem _ _ hcell, List.getElem_cons_drop]
            have hafter := @ih (p + n) (out ++ [original.getD out.length 0]) (by omega)
              (by rw [List.length_append, List.length_singleton]; omega) hnext
            rw [← hcells, List.length_append, List.length_singleton] at hafter
            rw [advance_skip hlook]
            exact hafter
      · rw [if_neg hless, if_neg hless]
        exact passes_done hout hp hless

end InPlace

/--
Decoding a text where it lies makes of it what decoding into another buffer does, and
changes nothing behind the text.
-/
theorem GetStr_eq (mode : TextMode) (text after : ByteString) (c : UInt8) :
    (decoded mode (text ++ 0 :: after) text.length).length ≤ text.length ∧
      GetStr mode (text ++ c :: after) text.length =
        some (decoded mode (text ++ 0 :: after) text.length ++ 0 ::
          (text ++ 0 :: after).drop
            ((decoded mode (text ++ 0 :: after) text.length).length + 1)) := by
  have hset : (text ++ c :: after).set text.length 0 = text ++ 0 :: after := by
    rw [List.set_append_right _ _ (Nat.le_refl _), Nat.sub_self]
    rfl
  have hlast : text.length < (text ++ 0 :: after).length := by
    rw [List.length_append, List.length_cons]
    omega
  have hend : (text ++ 0 :: after).getD text.length 0 = 0 := by
    rw [List.getD_append_right _ _ _ _ (Nat.le_refl _), Nat.sub_self]
    rfl
  rw [GetStr, hset]
  unfold decoded
  cases hflags : mode.newlineNormalization || mode.entityProcessing with
  | false =>
      have htext : (text ++ 0 :: after).take text.length = text := List.take_left
      have hafter : (text ++ 0 :: after).drop (text.length + 1) = after := by
        rw [List.drop_length_add_append]
        rfl
      simp only [Bool.false_eq_true, if_false, htext, hafter]
      exact ⟨Nat.le_refl _, trivial⟩
  | true =>
      obtain ⟨hshort, hpasses⟩ := @passes_eq mode (text ++ 0 :: after) text.length hlast hend
        text.length 0 [] (by omega) (Nat.le_refl 0) (Nat.zero_le _)
      change passes mode text.length text.length ⟨text ++ 0 :: after, 0, 0⟩ = _ at hpasses
      simp only [if_true]
      refine ⟨hshort, ?_⟩
      have hcell := Nat.lt_of_le_of_lt hshort hlast
      rw [hpasses, Option.map_some, List.set_append_right _ _ (Nat.le_refl _), Nat.sub_self,
        List.drop_eq_getElem_cons hcell]
      rfl

/-! # Texts that were escaped -/

/-- The flags of the texts between tags. -/
def elementText (wideLong : Bool) : TextMode := ⟨true, true, wideLong⟩

theorem look_entity (wideLong : Bool) {entity : ByteString × UInt8}
    (hentity : entity ∈ Utils.entities) (s : ByteString) :
    look (elementText wideLong) (entity.1 ++ s) = (some [entity.2], entity.1.length) := by
  unfold Utils.entities at hentity
  simp only [List.mem_cons, List.not_mem_nil, or_false] at hentity
  rcases hentity with heq | heq | heq | heq | heq | heq
  · rw [heq]
    rfl
  · rw [heq]
    rfl
  · rw [heq]
    rfl
  · rw [heq]
    rfl
  · rw [heq]
    rfl
  · rw [heq]
    cases wideLong <;> rfl

theorem look_byte (wideLong : Bool) {c : UInt8} (hreference : c ≠ 38) (hreturn : c ≠ 13)
    {s : ByteString} (hs : s.getD 0 0 ≠ 13) :
    look (elementText wideLong) (c :: s) = (some [c], 1) := by
  have hnext : (c :: s).getD 1 0 ≠ CR := hs
  unfold look
  simp only [List.getD_cons_zero, if_neg hnext]
  rw [if_neg (fun h => hreturn h.2)]
  split
  · rename_i hline
    rw [← hline.2]
  · rw [if_neg (fun h => hreference h.2)]

/-- Nothing that is escaped begins with a carriage return. -/
theorem XmlEscape_getD_zero (text after : ByteString) :
    (Utils.XmlEscape text ++ 0 :: after).getD 0 0 ≠ 13 := by
  cases text with
  | nil =>
      show (0 : UInt8) ≠ 13
      decide
  | cons c rest =>
      rw [Utils.XmlEscape, List.flatMap_cons, List.append_assoc]
      rcases Utils.XmlEscapeByte_cases c with ⟨entity, hentity, _, hescape⟩ | ⟨hescape, hbyte⟩
      · have hfirst : forall e, e ∈ Utils.entities -> forall s : ByteString,
            (e.1 ++ s).getD 0 0 = 38 := by
          intro e he s
          unfold Utils.entities at he
          simp only [List.mem_cons, List.not_mem_nil, or_false] at he
          rcases he with heq | heq | heq | heq | heq | heq
          all_goals
            rw [heq]
            rfl
        rw [hescape, hfirst entity hentity]
        decide
      · rw [hescape]
        exact hbyte.2.2.2

theorem look_XmlEscapeByte (wideLong : Bool) (c : UInt8) (text after : ByteString) :
    look (elementText wideLong)
        (Utils.XmlEscapeByte c ++ (Utils.XmlEscape text ++ 0 :: after)) =
      (some [c], (Utils.XmlEscapeByte c).length) := by
  rcases Utils.XmlEscapeByte_cases c with ⟨entity, hentity, hc, hescape⟩ | ⟨hescape, hbyte⟩
  · rw [hescape, look_entity wideLong hentity, hc]
  · rw [hescape]
    exact look_byte wideLong hbyte.2.1 hbyte.2.2.2 (XmlEscape_getD_zero text after)

theorem decodeFrom_XmlEscape (wideLong : Bool) {original after : ByteString} {last : Nat}
    (text : ByteString) {fuel p : Nat} (out : ByteString) (hfuel : last ≤ p + fuel)
    (hrest : original.drop p = Utils.XmlEscape text ++ 0 :: after)
    (hlast : p + (Utils.XmlEscape text).length = last) :
    decodeFrom (elementText wideLong) original last fuel p out = out ++ text := by
  induction text generalizing fuel p out with
  | nil =>
      have hnot : ¬ p < last := by
        rw [← hlast]
        exact Nat.lt_irrefl p
      rw [List.append_nil]
      cases fuel with
      | zero => rfl
      | succ fuel => rw [decodeFrom, if_neg hnot]
  | cons c text ih =>
      have hsplit : Utils.XmlEscape (c :: text) = Utils.XmlEscapeByte c ++ Utils.XmlEscape text :=
        List.flatMap_cons
      have hpos : 0 < (Utils.XmlEscapeByte c).length := by
        have hwithin := (look_within (elementText wideLong)
          (Utils.XmlEscapeByte c ++ (Utils.XmlEscape text ++ 0 :: after))).1
        rwa [look_XmlEscapeByte] at hwithin
      rw [hsplit, List.append_assoc] at hrest
      rw [hsplit, List.length_append] at hlast
      cases fuel with
      | zero => omega
      | succ fuel =>
          have hless : p < last := by omega
          rw [decodeFrom, if_pos hless, hrest, look_XmlEscapeByte]
          show decodeFrom (elementText wideLong) original last fuel
            (p + (Utils.XmlEscapeByte c).length) (out ++ [c]) = _
          rw [ih (out ++ [c]) (by omega) (by
            rw [← List.drop_drop, hrest, List.drop_left]) (by omega), List.append_assoc]
          rfl

theorem decoded_XmlEscape (wideLong : Bool) (text after : ByteString) :
    decoded (elementText wideLong) (Utils.XmlEscape text ++ 0 :: after)
      (Utils.XmlEscape text).length = text := by
  have hall := @decodeFrom_XmlEscape wideLong (Utils.XmlEscape text ++ 0 :: after) after
    (Utils.XmlEscape text).length text (Utils.XmlEscape text).length 0 [] (by omega) rfl
    (Nat.zero_add _)
  exact hall

end StrPair
end Transform
end OssSdk
