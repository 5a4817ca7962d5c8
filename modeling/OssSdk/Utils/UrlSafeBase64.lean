import OssSdk.Utils.Base64Utils
import OssSdk.Utils.HttpUtils
import Mathlib.Data.List.DropRight

/-!
# Base64 in a URL

The padding is left out, and the two characters that mean something in a URL are others.
-/

namespace OssSdk
namespace Utils

open Foundation

def urlSafeByte (c : UInt8) : UInt8 := if c = 43 then 45 else if c = 47 then 95 else c

def Base64EncodeUrlSafe (src : ByteString) : ByteString :=
  ((Base64Encode src).rdropWhile (· == 61)).map urlSafeByte

/-- The character of the other alphabet. -/
def standardByte (c : UInt8) : UInt8 := if c = 45 then 43 else if c = 95 then 47 else c

theorem tab_urlSafe {v : UInt8} (hv : v.toNat < 64) :
    standardByte (urlSafeByte (tab v)) = tab v ∧
      urlEncodeByte false (urlSafeByte (tab v)) = [urlSafeByte (tab v)] := by
  revert hv
  exact forall_byte (P := fun v => v.toNat < 64 ->
    standardByte (urlSafeByte (tab v)) = tab v ∧
      urlEncodeByte false (urlSafeByte (tab v)) = [urlSafeByte (tab v)])
    (by decide +kernel) v

/-!
# Characters and padding
-/

/-- A text in Base64, cut into what stands for values and the padding. -/
structure PaddedText (text : ByteString) (values padding : ByteString) : Prop where
  text : text = values.map tab ++ padding
  values : forall v, v ∈ values -> v.toNat < 64
  padding : forall c, c ∈ padding -> c = 61

theorem PaddedText.cons {text values padding : ByteString}
    (hpadded : PaddedText text values padding) {v : UInt8} (hv : v.toNat < 64) :
    PaddedText (tab v :: text) (v :: values) padding where
  text := congrArg (tab v :: ·) hpadded.text
  values w hw := by
    rcases List.mem_cons.mp hw with hself | hother
    · rw [hself]
      exact hv
    · exact hpadded.values w hother
  padding := hpadded.padding

theorem paddedText_padding {padding : ByteString} (hpadding : forall c, c ∈ padding -> c = 61) :
    PaddedText padding [] padding :=
  ⟨rfl, fun _ hv => absurd hv List.not_mem_nil, hpadding⟩

/-- Four characters for three bytes, and one more than there are bytes left. -/
theorem Base64Encode_paddedText (src : ByteString) :
    exists values padding : ByteString,
      PaddedText (Base64Encode src) values padding ∧ values.length = (4 * src.length + 2) / 3 := by
  have hsigns : forall n c, c ∈ List.replicate n (61 : UInt8) -> c = 61 := fun n c hc =>
    List.eq_of_mem_replicate hc
  induction src using Base64Encode.induct with
  | case1 => exact ⟨[], [], paddedText_padding (hsigns 0), rfl⟩
  | case2 a =>
      rcases sextets_lt a 0 0 with ⟨h0, h1, _⟩
      have hone : sextet1 a 0 = (a &&& 0x03) <<< 4 := UInt8.add_zero _
      rw [Base64Encode, ← hone]
      exact ⟨_, _, ((paddedText_padding (hsigns 2)).cons h1).cons h0, by simp⟩
  | case3 a b =>
      rcases sextets_lt a b 0 with ⟨h0, h1, h2, _⟩
      have htwo : sextet2 b 0 = (b &&& 0x0f) <<< 2 := UInt8.zero_add _
      rw [Base64Encode, ← htwo]
      exact ⟨_, _, (((paddedText_padding (hsigns 1)).cons h2).cons h1).cons h0, by simp⟩
  | case4 a b c rest ih =>
      rcases sextets_lt a b c with ⟨h0, h1, h2, h3⟩
      rcases ih with ⟨values, padding, hpadded, hlength⟩
      rw [Base64Encode]
      refine ⟨_, padding, (((hpadded.cons h3).cons h2).cons h1).cons h0, ?_⟩
      simp only [List.length_cons, hlength]
      omega

theorem rdropWhile_paddedText {text values padding : ByteString}
    (hpadded : PaddedText text values padding) : text.rdropWhile (· == 61) = values.map tab := by
  have hsign : forall c, c ∈ padding.reverse -> (c == 61) = true := by
    intro c hc
    rw [hpadded.padding c (List.mem_reverse.mp hc)]
    rfl
  have hvalue : forall c, c ∈ (values.map tab).reverse -> (c == 61) = false := by
    intro c hc
    rcases List.mem_map.mp (List.mem_reverse.mp hc) with ⟨v, hv, htab⟩
    rw [← htab]
    exact beq_eq_false_iff_ne.mpr (inverse_tab (hpadded.values v hv)).2
  have hkept : (values.map tab).reverse.dropWhile (· == 61) = (values.map tab).reverse := by
    cases hcases : (values.map tab).reverse with
    | nil => rfl
    | cons c rest =>
        have hc := hvalue c (by rw [hcases]; exact List.mem_cons_self)
        exact List.dropWhile_cons_of_neg (by rw [hc]; exact Bool.false_ne_true)
  rw [hpadded.text, List.rdropWhile, List.reverse_append, List.dropWhile_append_of_pos hsign,
    hkept, List.reverse_reverse]

/-- The padding is not needed. -/
theorem decodeLoop_padding {padding : ByteString} (hpadding : forall c, c ∈ padding -> c = 61)
    (c4 : List UInt8) (s : ByteString) : decodeLoop c4 (s ++ padding) = decodeLoop c4 s := by
  induction s generalizing c4 with
  | nil =>
      cases padding with
      | nil => rfl
      | cons c rest =>
          rw [List.nil_append, decodeLoop.eq_def]
          exact if_pos (hpadding c List.mem_cons_self)
  | cons c rest ih =>
      rw [List.cons_append, decodeLoop.eq_def, decodeLoop.eq_def c4 (c :: rest)]
      simp only [ih]

/--
The text stands in a URL as it is, is as long as it has to be, and has all bytes of the source:
in the other alphabet it is decoded without its padding.
-/
theorem Base64EncodeUrlSafe_text (src : ByteString) :
    UrlEncode (Base64EncodeUrlSafe src) = Base64EncodeUrlSafe src ∧
      (Base64EncodeUrlSafe src).length = (4 * src.length + 2) / 3 ∧
      Base64Decode ((Base64EncodeUrlSafe src).map standardByte) = src := by
  rcases Base64Encode_paddedText src with ⟨values, padding, hpadded, hlength⟩
  have htext : Base64EncodeUrlSafe src = (values.map tab).map urlSafeByte := by
    unfold Base64EncodeUrlSafe
    rw [rdropWhile_paddedText hpadded]
  rw [htext]
  refine ⟨?_, ?_, ?_⟩
  · have hbyte : forall c, c ∈ (values.map tab).map urlSafeByte ->
        urlEncodeByte false c = [c] := by
      intro c hc
      rw [List.map_map] at hc
      rcases List.mem_map.mp hc with ⟨v, hv, hsafe⟩
      rw [← hsafe]
      exact (tab_urlSafe (hpadded.values v hv)).2
    exact (List.flatMap_congr hbyte).trans (List.flatMap_singleton' _)
  · rw [List.length_map, List.length_map, hlength]
  · have hback : ((values.map tab).map urlSafeByte).map standardByte = values.map tab := by
      rw [List.map_map, List.map_map]
      exact List.map_congr_left fun v hv => (tab_urlSafe (hpadded.values v hv)).1
    have hdecoded := Base64Decode_encode src
    unfold Base64Decode at hdecoded ⊢
    rw [hpadded.text, decodeLoop_padding hpadded.padding] at hdecoded
    rw [hback]
    exact hdecoded

example : Base64EncodeUrlSafe [251, 255, 254, 1] = bytes "-__-AQ" := by decide

end Utils
end OssSdk
