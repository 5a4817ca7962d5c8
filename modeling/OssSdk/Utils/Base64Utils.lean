import OssSdk.Foundation.Bytes

/-!
# Base64

Three bytes make four characters.  Decoding stops at the first character that is
padding, or no character of the alphabet.
-/

namespace OssSdk
namespace Utils

open Foundation

def alphabet : ByteString :=
  bytes "ABCDEFGHIJKLMNOPQRSTUVWXYZabcdefghijklmnopqrstuvwxyz0123456789+/"

def tab (v : UInt8) : UInt8 := alphabet.getD v.toNat 0

/-- The table of `get_inverse`; -1 is no value. -/
def inverse (c : UInt8) : Option UInt8 :=
  if c = 43 then some 62
  else if c = 47 then some 63
  else if 48 ≤ c ∧ c ≤ 57 then some (c + 4)
  else if 65 ≤ c ∧ c ≤ 90 then some (c - 65)
  else if 97 ≤ c ∧ c ≤ 122 then some (c - 71)
  else none

def Base64Encode : ByteString -> ByteString
  | [] => []
  | [a] => [tab ((a &&& 0xfc) >>> 2), tab ((a &&& 0x03) <<< 4), 61, 61]
  | [a, b] =>
      [tab ((a &&& 0xfc) >>> 2),
        tab (((a &&& 0x03) <<< 4) + ((b &&& 0xf0) >>> 4)),
        tab ((b &&& 0x0f) <<< 2), 61]
  | a :: b :: c :: rest =>
      tab ((a &&& 0xfc) >>> 2) ::
        tab (((a &&& 0x03) <<< 4) + ((b &&& 0xf0) >>> 4)) ::
        tab (((c &&& 0xc0) >>> 6) + ((b &&& 0x0f) <<< 2)) ::
        tab (c &&& 0x3f) :: Base64Encode rest

/-- The bytes `c3` of the values `c4`. -/
def group (c0 c1 c2 c3 : UInt8) : ByteString :=
  [(c0 <<< 2) + ((c1 &&& 0x30) >>> 4),
    ((c1 &&& 0xf) <<< 4) + ((c2 &&& 0x3c) >>> 2),
    ((c2 &&& 0x3) <<< 6) + c3]

/-- `c4` holds the values that do not make a group yet. -/
def decodeLoop (c4 : List UInt8) : ByteString -> ByteString
  | [] => decodeRest c4
  | c :: rest =>
      if c = 61 then decodeRest c4
      else
        match inverse c with
        | none => decodeRest c4
        | some v =>
            match c4 with
            | [c0, c1, c2] => group c0 c1 c2 v ++ decodeLoop [] rest
            | _ => decodeLoop (c4 ++ [v]) rest
where
  decodeRest : List UInt8 -> ByteString
    | [c0, c1] => (group c0 c1 0 0).take 1
    | [c0, c1, c2] => (group c0 c1 c2 0).take 2
    | _ => []

def Base64Decode (src : ByteString) : ByteString := decodeLoop [] src

/-!
# Decoding what has been encoded
-/

theorem inverse_tab {v : UInt8} (hv : v.toNat < 64) :
    inverse (tab v) = some v ∧ tab v ≠ 61 := by
  revert hv
  exact forall_byte (P := fun v => v.toNat < 64 -> inverse (tab v) = some v ∧ tab v ≠ 61)
    (by decide +kernel) v

/-- A value waits until its group is full. -/
theorem decodeLoop_wait {v : UInt8} (hv : v.toNat < 64) {c4 : List UInt8}
    (hwait : c4.length < 3) (rest : ByteString) :
    decodeLoop c4 (tab v :: rest) = decodeLoop (c4 ++ [v]) rest := by
  rcases inverse_tab hv with ⟨hinverse, hpadding⟩
  rw [decodeLoop.eq_def]
  simp only [if_neg hpadding, hinverse]
  split
  · contradiction
  · rfl

theorem decodeLoop_group {v : UInt8} (hv : v.toNat < 64) (c0 c1 c2 : UInt8)
    (rest : ByteString) :
    decodeLoop [c0, c1, c2] (tab v :: rest) = group c0 c1 c2 v ++ decodeLoop [] rest := by
  rcases inverse_tab hv with ⟨hinverse, hpadding⟩
  rw [decodeLoop.eq_def]
  simp only [if_neg hpadding, hinverse]

/-- What is cut out of a byte for the characters, as numbers. -/
theorem encode_masks (x : UInt8) :
    ((x &&& 0xfc) >>> 2).toNat = x.toNat / 4 ∧
      ((x &&& 0x03) <<< 4).toNat = x.toNat % 4 * 16 ∧
      ((x &&& 0xf0) >>> 4).toNat = x.toNat / 16 ∧
      ((x &&& 0x0f) <<< 2).toNat = x.toNat % 16 * 4 ∧
      ((x &&& 0xc0) >>> 6).toNat = x.toNat / 64 ∧
      (x &&& 0x3f).toNat = x.toNat % 64 := by
  revert x
  refine forall_byte ?_
  decide +kernel

/-- What is cut out of a value for the bytes, as numbers. -/
theorem decode_masks (x : UInt8) :
    (x <<< 2).toNat = x.toNat % 64 * 4 ∧
      ((x &&& 0x30) >>> 4).toNat = x.toNat / 16 % 4 ∧
      ((x &&& 0xf) <<< 4).toNat = x.toNat % 16 * 16 ∧
      ((x &&& 0x3c) >>> 2).toNat = x.toNat / 4 % 16 ∧
      ((x &&& 0x3) <<< 6).toNat = x.toNat % 4 * 64 := by
  revert x
  refine forall_byte ?_
  decide +kernel

theorem toNat_add_of_lt {x y : UInt8} (hsum : x.toNat + y.toNat < 256) :
    (x + y).toNat = x.toNat + y.toNat := by
  rw [UInt8.toNat_add]
  exact Nat.mod_eq_of_lt hsum

section Sextets

variable (a b c : UInt8)

def sextet0 : UInt8 := (a &&& 0xfc) >>> 2

def sextet1 : UInt8 := ((a &&& 0x03) <<< 4) + ((b &&& 0xf0) >>> 4)

def sextet2 : UInt8 := ((c &&& 0xc0) >>> 6) + ((b &&& 0x0f) <<< 2)

def sextet3 : UInt8 := c &&& 0x3f

theorem sextet0_toNat : (sextet0 a).toNat = a.toNat / 4 := (encode_masks a).1

theorem sextet1_toNat :
    (sextet1 a b).toNat = a.toNat % 4 * 16 + b.toNat / 16 := by
  have hb := b.toNat_lt
  rcases encode_masks a with ⟨_, hlow, _⟩
  rcases encode_masks b with ⟨_, _, hhigh, _⟩
  rw [sextet1, toNat_add_of_lt, hlow, hhigh]
  rw [hlow, hhigh]
  omega

theorem sextet2_toNat :
    (sextet2 b c).toNat = b.toNat % 16 * 4 + c.toNat / 64 := by
  have hc := c.toNat_lt
  rcases encode_masks b with ⟨_, _, _, hlow, _⟩
  rcases encode_masks c with ⟨_, _, _, _, hhigh, _⟩
  rw [sextet2, toNat_add_of_lt, hlow, hhigh, Nat.add_comm]
  rw [hlow, hhigh]
  omega

theorem sextet3_toNat : (sextet3 c).toNat = c.toNat % 64 := by
  rcases encode_masks c with ⟨_, _, _, _, _, hlow⟩
  exact hlow

/-- Four values of the bytes give them back. -/
theorem group_sextets :
    group (sextet0 a) (sextet1 a b) (sextet2 b c) (sextet3 c) = [a, b, c] := by
  have ha := a.toNat_lt
  have hb := b.toNat_lt
  have hc := c.toNat_lt
  have h0 := sextet0_toNat a
  have h1 := sextet1_toNat a b
  have h2 := sextet2_toNat b c
  have h3 := sextet3_toNat c
  rcases decode_masks (sextet0 a) with ⟨hfirst, _⟩
  rcases decode_masks (sextet1 a b) with ⟨_, hfirst', hsecond, _⟩
  rcases decode_masks (sextet2 b c) with ⟨_, _, _, hsecond', hthird⟩
  have hbyte0 : ((sextet0 a) <<< 2) + ((sextet1 a b &&& 0x30) >>> 4) = a := by
    rw [← UInt8.toNat_inj, toNat_add_of_lt] <;> rw [hfirst, hfirst'] <;> omega
  have hbyte1 : ((sextet1 a b &&& 0xf) <<< 4) + ((sextet2 b c &&& 0x3c) >>> 2) = b := by
    rw [← UInt8.toNat_inj, toNat_add_of_lt] <;> rw [hsecond, hsecond'] <;> omega
  have hbyte2 : ((sextet2 b c &&& 0x3) <<< 6) + sextet3 c = c := by
    rw [← UInt8.toNat_inj, toNat_add_of_lt] <;> rw [hthird, h3] <;> omega
  rw [group, hbyte0, hbyte1, hbyte2]

theorem sextets_lt :
    (sextet0 a).toNat < 64 ∧ (sextet1 a b).toNat < 64 ∧ (sextet2 b c).toNat < 64 ∧
      (sextet3 c).toNat < 64 := by
  have ha := a.toNat_lt
  have hb := b.toNat_lt
  have hc := c.toNat_lt
  rw [sextet0_toNat, sextet1_toNat, sextet2_toNat, sextet3_toNat]
  omega

end Sextets

/-- Missing bytes count as zero, and only whole bytes are decoded. -/
theorem Base64Decode_encode (src : ByteString) :
    Base64Decode (Base64Encode src) = src := by
  unfold Base64Decode
  induction src using Base64Encode.induct with
  | case1 => rfl
  | case2 a =>
      rcases sextets_lt a 0 0 with ⟨h0, h1, _⟩
      have hone : sextet1 a 0 = (a &&& 0x03) <<< 4 := UInt8.add_zero _
      have hgroup := group_sextets a 0 0
      rw [Base64Encode, ← hone]
      change decodeLoop [] (tab (sextet0 a) :: tab (sextet1 a 0) :: [61, 61]) = [a]
      rw [decodeLoop_wait h0 (by simp), decodeLoop_wait h1 (by simp)]
      exact congrArg (List.take 1) hgroup
  | case3 a b =>
      rcases sextets_lt a b 0 with ⟨h0, h1, h2, _⟩
      have htwo : sextet2 b 0 = (b &&& 0x0f) <<< 2 := UInt8.zero_add _
      have hgroup := group_sextets a b 0
      rw [Base64Encode, ← htwo]
      change decodeLoop []
        (tab (sextet0 a) :: tab (sextet1 a b) :: tab (sextet2 b 0) :: [61]) = [a, b]
      rw [decodeLoop_wait h0 (by simp), decodeLoop_wait h1 (by simp),
        decodeLoop_wait h2 (by simp)]
      exact congrArg (List.take 2) hgroup
  | case4 a b c rest ih =>
      rcases sextets_lt a b c with ⟨h0, h1, h2, h3⟩
      rw [Base64Encode]
      change decodeLoop [] (tab (sextet0 a) :: tab (sextet1 a b) :: tab (sextet2 b c) ::
        tab (sextet3 c) :: Base64Encode rest) = a :: b :: c :: rest
      rw [decodeLoop_wait h0 (by simp), decodeLoop_wait h1 (by simp),
        decodeLoop_wait h2 (by simp)]
      change decodeLoop [sextet0 a, sextet1 a b, sextet2 b c]
        (tab (sextet3 c) :: Base64Encode rest) = a :: b :: c :: rest
      rw [decodeLoop_group h3, group_sextets, ih]
      rfl

theorem Base64Encode_ne_nil {src : ByteString} (hsrc : src ≠ []) :
    Base64Encode src ≠ [] := by
  intro hnil
  apply hsrc
  rw [← Base64Decode_encode src, hnil]
  rfl

example : Base64Encode (bytes "oss") = bytes "b3Nz" := by decide

end Utils
end OssSdk
