import OssSdk.Utils.HttpUtils

/-!
# Percent encoding and back

Each byte is encoded on its own, as itself or as three bytes.
-/

namespace OssSdk
namespace Utils

open Foundation

/-!
# Bytes that are not there
-/

/-- What an encoded text is written with. -/
def isUrlByte (c : UInt8) : Bool :=
  isAlnum c || [45, 46, 95, 126, 47, 37].contains c

theorem hexDigit_byte {d : Nat} (hd : d < 16) :
    isUrlByte (hexDigit d) = true ∧ isxdigit (hexDigit d) = true ∧
      hexValue (hexDigit d) = d := by
  have hall : forall d : Fin 16, isUrlByte (hexDigit d) = true ∧
      isxdigit (hexDigit d) = true ∧ hexValue (hexDigit d) = d := by decide
  exact hall ⟨d, hd⟩

/-- A byte stays as it is, or it is written as a percent sign and two digits. -/
theorem urlEncodeByte_cases (ignoreSlash : Bool) (c : UInt8) :
    (isUrlByte c = true ∧ c ≠ 37 ∧ urlEncodeByte ignoreSlash c = [c]) ∨
      ((isAlnum c || c == 45) = false ∧ urlEncodeByte ignoreSlash c =
        [37, hexDigit (c.toNat / 16), hexDigit (c.toNat % 16)]) := by
  unfold urlEncodeByte
  split
  · rename_i hplain
    refine Or.inl ⟨?_, ?_, rfl⟩
    · simp only [Bool.or_eq_true, beq_iff_eq] at hplain
      unfold isUrlByte
      rcases hplain with (((hplain | hplain) | hplain) | hplain) | hplain
      · rw [hplain]
        rfl
      all_goals
        rw [hplain]
        decide
    · intro hpercent
      rw [hpercent] at hplain
      exact absurd hplain (by decide)
  · rename_i hother
    have hnot : (isAlnum c || c == 45) = false := by
      rw [Bool.not_eq_true] at hother
      simp only [Bool.or_eq_false_iff] at hother ⊢
      exact hother.1.1.1
    split
    · rename_i hspace
      rw [beq_iff_eq.mp hspace] at hnot ⊢
      exact Or.inr ⟨hnot, by decide⟩
    · split
      · rename_i hslash
        rw [Bool.and_eq_true, beq_iff_eq] at hslash
        rw [hslash.2]
        exact Or.inl ⟨by decide, by decide, rfl⟩
      · exact Or.inr ⟨hnot, rfl⟩

theorem urlEncodeByte_all (ignoreSlash : Bool) (c : UInt8) :
    (urlEncodeByte ignoreSlash c).all isUrlByte = true := by
  have hc := c.toNat_lt
  rcases urlEncodeByte_cases ignoreSlash c with ⟨hbyte, _, hplain⟩ | ⟨_, hescaped⟩
  · rw [hplain, List.all_cons, hbyte]
    rfl
  · rw [hescaped]
    simp only [List.all_cons, (hexDigit_byte (show c.toNat / 16 < 16 by omega)).1,
      (hexDigit_byte (show c.toNat % 16 < 16 by omega)).1]
    rfl

theorem not_mem_urlEncode {d : UInt8} (hd : isUrlByte d = false) (src : ByteString)
    (ignoreSlash : Bool) : d ∉ urlEncode src ignoreSlash := by
  intro hmem
  rcases List.mem_flatMap.mp hmem with ⟨c, _, hc⟩
  have hin := List.all_eq_true.mp (urlEncodeByte_all ignoreSlash c) d hc
  exact Bool.false_ne_true (hd.symm.trans hin)

theorem ampersand_not_mem_UrlEncode (src : ByteString) : 38 ∉ UrlEncode src :=
  not_mem_urlEncode (by decide) src false

theorem UrlEncode_ne_nil {src : ByteString} (hsrc : src ≠ []) : UrlEncode src ≠ [] := by
  cases src with
  | nil => exact absurd rfl hsrc
  | cons c rest =>
      intro hnil
      have hbyte : urlEncodeByte false c = [] := (List.append_eq_nil_iff.mp hnil).1
      rcases urlEncodeByte_cases false c with ⟨_, _, hplain⟩ | ⟨_, hescaped⟩
      · exact List.cons_ne_nil _ _ (hplain.symm.trans hbyte)
      · exact List.cons_ne_nil _ _ (hescaped.symm.trans hbyte)

theorem UrlEncodePath_append (s t : ByteString) :
    UrlEncodePath (s ++ t) = UrlEncodePath s ++ UrlEncodePath t :=
  List.flatMap_append

theorem mark_not_mem_UrlEncodePath (src : ByteString) :
    35 ∉ UrlEncodePath src ∧ 63 ∉ UrlEncodePath src :=
  ⟨not_mem_urlEncode (by decide) src true, not_mem_urlEncode (by decide) src true⟩

theorem length_UrlEncodePath_le {s : ByteString}
    (hlength : (UrlEncodePath s).length ≤ s.length) : UrlEncodePath s = s := by
  have hbyte : forall c : UInt8, 1 ≤ (urlEncodeByte true c).length ∧
      ((urlEncodeByte true c).length ≤ 1 -> urlEncodeByte true c = [c]) := by
    intro c
    rcases urlEncodeByte_cases true c with ⟨_, _, hplain⟩ | ⟨_, hescaped⟩
    · rw [hplain]
      exact ⟨Nat.le_refl 1, fun _ => rfl⟩
    · rw [hescaped]
      exact ⟨Nat.succ_le_succ (Nat.zero_le 2), fun h => absurd h (by simp)⟩
  have hlong : forall t : ByteString, t.length ≤ (UrlEncodePath t).length := by
    intro t
    induction t with
    | nil => exact Nat.le_refl _
    | cons c rest ih =>
        change rest.length + 1 ≤ (urlEncodeByte true c ++ UrlEncodePath rest).length
        rw [List.length_append]
        have hc := (hbyte c).1
        omega
  induction s with
  | nil => rfl
  | cons c rest ih =>
      change (urlEncodeByte true c ++ UrlEncodePath rest).length ≤ rest.length + 1
        at hlength
      rw [List.length_append] at hlength
      have hc := (hbyte c).1
      have hrest := hlong rest
      change urlEncodeByte true c ++ UrlEncodePath rest = _
      rw [(hbyte c).2 (by omega), ih (by omega)]
      rfl

/-!
# Decoding
-/

theorem UrlDecode_cons {c : UInt8} (hc : c ≠ 37) (rest : ByteString) :
    UrlDecode (c :: rest) = c :: UrlDecode rest := by
  rw [UrlDecode]
  · exact fun h _ => hc h
  · exact fun _ h _ => hc h
  · exact fun _ _ _ h _ => hc h

/-!
# Other encoders

Which bytes an encoder leaves as they are is its own choice, apart from percent signs on
the one side and letters, digits and dashes on the other.  The digits may be of either
case.
-/

/-- `text` is `name`, as an encoder may write it. -/
inductive PercentEncoded : ByteString -> ByteString -> Prop where
  | nil : PercentEncoded [] []
  | plain {c : UInt8} {name text : ByteString} :
      c ≠ 37 -> PercentEncoded name text -> PercentEncoded (c :: name) (c :: text)
  | escaped {c h l : UInt8} {name text : ByteString} :
      (isAlnum c || c == 45) = false -> isxdigit h = true -> isxdigit l = true ->
      UInt8.ofNat (16 * hexValue h + hexValue l) = c -> PercentEncoded name text ->
      PercentEncoded (c :: name) (37 :: h :: l :: text)

/-- Decoding finds the name, whatever the encoder. -/
theorem PercentEncoded.UrlDecode_eq {name text : ByteString}
    (hencoded : PercentEncoded name text) : UrlDecode text = name := by
  induction hencoded with
  | nil => rfl
  | plain hne _ ih => rw [UrlDecode_cons hne, ih]
  | escaped _ hhigh hlow hvalue _ ih =>
      rw [UrlDecode, hhigh, hlow, hvalue, ih]
      rfl

/-- A name of letters, digits and dashes is written as it is. -/
theorem PercentEncoded.eq_self {name text : ByteString}
    (hencoded : PercentEncoded name text)
    (hname : name.all (fun c => isAlnum c || c == 45) = true) : text = name := by
  induction hencoded with
  | nil => rfl
  | plain _ _ ih =>
      rw [List.all_cons, Bool.and_eq_true] at hname
      rw [ih hname.2]
  | escaped hbyte _ _ _ _ _ =>
      rw [List.all_cons, Bool.and_eq_true, hbyte] at hname
      exact absurd hname.1 Bool.false_ne_true

theorem urlEncode_percentEncoded (src : ByteString) (ignoreSlash : Bool) :
    PercentEncoded src (urlEncode src ignoreSlash) := by
  induction src with
  | nil => exact PercentEncoded.nil
  | cons c rest ih =>
      have hc := c.toNat_lt
      change PercentEncoded (c :: rest)
        (urlEncodeByte ignoreSlash c ++ urlEncode rest ignoreSlash)
      rcases urlEncodeByte_cases ignoreSlash c with ⟨_, hne, hplain⟩ | ⟨hother, hescaped⟩
      · rw [hplain]
        exact PercentEncoded.plain hne ih
      · rcases hexDigit_byte (show c.toNat / 16 < 16 by omega) with ⟨_, hhigh, hhighValue⟩
        rcases hexDigit_byte (show c.toNat % 16 < 16 by omega) with ⟨_, hlow, hlowValue⟩
        rw [hescaped]
        refine PercentEncoded.escaped hother hhigh hlow ?_ ih
        rw [hhighValue, hlowValue, Nat.div_add_mod, UInt8.ofNat_toNat]

/-- An encoded path means what was encoded. -/
theorem UrlDecode_UrlEncodePath (src : ByteString) :
    UrlDecode (UrlEncodePath src) = src :=
  (urlEncode_percentEncoded src true).UrlDecode_eq

theorem UrlDecode_UrlEncode (src : ByteString) : UrlDecode (UrlEncode src) = src :=
  (urlEncode_percentEncoded src false).UrlDecode_eq

theorem UrlEncodePath_injective {s t : ByteString}
    (hst : UrlEncodePath s = UrlEncodePath t) : s = t := by
  rw [← UrlDecode_UrlEncodePath s, hst, UrlDecode_UrlEncodePath]

end Utils
end OssSdk
