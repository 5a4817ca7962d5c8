import OssSdk.Foundation.Bytes

/-!
# UTF-8

A text is valid if it is made of encoded characters.  A byte below 128 is a character of
its own, so texts can be cut at one.
-/

namespace OssSdk
namespace Foundation

def Utf8 (s : ByteString) : Prop :=
  exists cs : List Char, cs.flatMap String.utf8EncodeChar = s

theorem utf8_iff_isValidUTF8 (s : ByteString) : Utf8 s ↔ s.toByteArray.IsValidUTF8 := by
  constructor
  · intro hvalid
    rcases hvalid with ⟨cs, hcs⟩
    refine ⟨cs, ?_⟩
    rw [← hcs]
    rfl
  · intro hvalid
    rcases hvalid with ⟨cs, hcs⟩
    have hlist := congrArg (fun text : ByteArray => text.data.toList) hcs
    exact ⟨cs, by simpa [List.utf8Encode] using hlist.symm⟩

instance (s : ByteString) : Decidable (Utf8 s) :=
  decidable_of_iff _ (utf8_iff_isValidUTF8 s).symm

theorem Utf8.nil : Utf8 [] := ⟨[], rfl⟩

theorem Utf8.append {s t : ByteString} (hs : Utf8 s) (ht : Utf8 t) : Utf8 (s ++ t) := by
  rcases hs with ⟨cs, hcs⟩
  rcases ht with ⟨ds, hds⟩
  exact ⟨cs ++ ds, by rw [List.flatMap_append, hcs, hds]⟩

theorem utf8_ascii {b : UInt8} (hb : b.toNat < 128) : Utf8 [b] := by
  have hbyte : forall b : UInt8, b.toNat < 128 ->
      String.utf8EncodeChar (Char.ofNat b.toNat) = [b] := forall_byte (by decide +kernel)
  exact ⟨[Char.ofNat b.toNat], by rw [List.flatMap_singleton, hbyte b hb]⟩

theorem toNat_mark {n k : Nat} (hsmall : n + k < 256) (hk : 128 ≤ k) :
    ¬ (UInt8.ofNat (n + k)).toNat < 128 := by
  rw [UInt8.toNat_ofNat', Nat.mod_eq_of_lt hsmall]
  omega

/-- A byte below 128 is a whole character. -/
theorem utf8EncodeChar_ascii {d : Char} {b : UInt8} (hb : b.toNat < 128)
    (hmem : b ∈ String.utf8EncodeChar d) : String.utf8EncodeChar d = [b] := by
  by_cases hsmall : d.val.toNat ≤ 0x7f
  · unfold String.utf8EncodeChar at hmem ⊢
    simp only [if_pos hsmall] at hmem ⊢
    rw [List.mem_singleton.mp hmem]
  · have hmarks : exists n k, n + k < 256 ∧ 128 ≤ k ∧ b = UInt8.ofNat (n + k) := by
      unfold String.utf8EncodeChar at hmem
      simp only [if_neg hsmall] at hmem
      split at hmem
      · simp only [List.mem_cons, List.not_mem_nil, or_false] at hmem
        rcases hmem with heq | heq
        all_goals exact ⟨_, _, by omega, by decide, heq⟩
      · split at hmem
        · simp only [List.mem_cons, List.not_mem_nil, or_false] at hmem
          rcases hmem with heq | heq | heq
          all_goals exact ⟨_, _, by omega, by decide, heq⟩
        · simp only [List.mem_cons, List.not_mem_nil, or_false] at hmem
          rcases hmem with heq | heq | heq | heq
          all_goals exact ⟨_, _, by omega, by decide, heq⟩
    rcases hmarks with ⟨n, k, hbyte, hk, heq⟩
    rw [heq] at hb
    exact absurd hb (toNat_mark hbyte hk)

/-- Two texts around a byte below 128 are valid if they are valid together with it. -/
theorem utf8_around {s t : ByteString} {b : UInt8} (hb : b.toNat < 128) :
    Utf8 (s ++ b :: t) ↔ Utf8 s ∧ Utf8 t := by
  constructor
  · intro hvalid
    rcases hvalid with ⟨cs, hcs⟩
    induction cs generalizing s with
    | nil => exact absurd hcs.symm (List.append_ne_nil_of_right_ne_nil s (by simp))
    | cons d ds ih =>
        rw [List.flatMap_cons] at hcs
        rcases List.append_eq_append_iff.mp hcs with ⟨rest, hs, hds⟩ | ⟨rest, hd, hrest⟩
        · -- the character lies before the byte
          rcases ih hds with ⟨hfirst, hlast⟩
          rw [hs]
          exact ⟨Utf8.append ⟨[d], List.flatMap_singleton _ _⟩ hfirst, hlast⟩
        · cases rest with
          | nil =>
              -- the character ends where the byte is
              rw [List.append_nil] at hd
              rw [List.nil_append] at hrest
              rcases @ih [] hrest.symm with ⟨_, hlast⟩
              exact ⟨⟨[d], (List.flatMap_singleton _ _).trans hd⟩, hlast⟩
          | cons b' rest' =>
              rcases List.cons.inj hrest with ⟨hsame, htail⟩
              have hmem : b ∈ String.utf8EncodeChar d := by
                rw [hd, hsame]
                exact List.mem_append_right s List.mem_cons_self
              have halone := utf8EncodeChar_ascii hb hmem
              rw [hd] at halone
              have hnil : s = [] ∧ rest' = [] := by
                have hlength := congrArg List.length halone
                rw [List.length_append, List.length_cons, List.length_singleton] at hlength
                constructor
                · exact List.eq_nil_of_length_eq_zero (by omega)
                · exact List.eq_nil_of_length_eq_zero (by omega)
              rw [hnil.1]
              refine ⟨Utf8.nil, ds, ?_⟩
              rw [htail, hnil.2]
              rfl
  · intro hboth
    rw [← List.singleton_append]
    exact hboth.1.append ((utf8_ascii hb).append hboth.2)

theorem utf8_cons {b : UInt8} (hb : b.toNat < 128) (t : ByteString) :
    Utf8 (b :: t) ↔ Utf8 t := by
  have haround := @utf8_around [] t b hb
  rw [List.nil_append] at haround
  rw [haround]
  exact and_iff_right Utf8.nil

/-!
# Characters by their numbers
-/

def scalar (n : Nat) : ByteString := String.utf8EncodeChar (Char.ofNat n)

def hexDigitValue (c : UInt8) : Option Nat :=
  if 48 ≤ c.toNat ∧ c.toNat ≤ 57 then some (c.toNat - 48)
  else if 65 ≤ c.toNat ∧ c.toNat ≤ 70 then some (c.toNat - 55)
  else if 97 ≤ c.toNat ∧ c.toNat ≤ 102 then some (c.toNat - 87)
  else none

/-!
# Texts of some characters only
-/

/-- UTF-8 of characters whose numbers are all of one kind. -/
def Utf8Of (kind : Nat -> Bool) (s : ByteString) : Prop :=
  exists cs : List Char, cs.flatMap String.utf8EncodeChar = s ∧
    cs.all (fun c => kind c.toNat) = true

theorem Utf8Of.nil (kind : Nat -> Bool) : Utf8Of kind [] := ⟨[], rfl, rfl⟩

theorem Utf8Of.append {kind : Nat -> Bool} {s t : ByteString} (hs : Utf8Of kind s)
    (ht : Utf8Of kind t) : Utf8Of kind (s ++ t) := by
  rcases hs with ⟨cs, hcs, hkinds⟩
  rcases ht with ⟨ds, hds, hkindt⟩
  refine ⟨cs ++ ds, ?_, ?_⟩
  · rw [List.flatMap_append, hcs, hds]
  · rw [List.all_append, hkinds, hkindt]
    rfl

theorem utf8Of_ascii {kind : Nat -> Bool} {s : ByteString}
    (hs : forall b, b ∈ s -> b.toNat < 128 ∧ kind b.toNat = true) : Utf8Of kind s := by
  induction s with
  | nil => exact Utf8Of.nil kind
  | cons b rest ih =>
      have hbyte : forall b : UInt8, b.toNat < 128 ->
          String.utf8EncodeChar (Char.ofNat b.toNat) = [b] ∧
            (Char.ofNat b.toNat).toNat = b.toNat := forall_byte (by decide +kernel)
      rcases hs b List.mem_cons_self with ⟨hb, hkind⟩
      have hone : Utf8Of kind [b] := by
        refine ⟨[Char.ofNat b.toNat], ?_, ?_⟩
        · rw [List.flatMap_singleton, (hbyte b hb).1]
        · rw [List.all_cons, (hbyte b hb).2, hkind]
          rfl
      exact hone.append (ih fun c hc => hs c (List.mem_cons_of_mem b hc))

theorem utf8Of_iff (kind : Nat -> Bool) (s : ByteString) :
    Utf8Of kind s ↔ exists hvalid : s.toByteArray.IsValidUTF8,
      ((String.ofByteArray s.toByteArray hvalid).toList.all fun c => kind c.toNat) = true := by
  constructor
  · rintro ⟨cs, hcs, hkinds⟩
    have hvalid : s.toByteArray.IsValidUTF8 := (utf8_iff_isValidUTF8 s).mp ⟨cs, hcs⟩
    refine ⟨hvalid, ?_⟩
    have hencoded : cs.utf8Encode = s.toByteArray := congrArg List.toByteArray hcs
    have hsame : String.ofByteArray s.toByteArray hvalid = String.ofList cs := by
      apply String.toByteArray_inj.mp
      rw [String.toByteArray_ofList]
      exact hencoded.symm
    rw [hsame, String.toList_ofList]
    exact hkinds
  · rintro ⟨hvalid, hkinds⟩
    refine ⟨(String.ofByteArray s.toByteArray hvalid).toList, ?_, hkinds⟩
    have hbytes := congrArg (fun text : ByteArray => text.data.toList)
      (String.utf8Encode_toList (b := String.ofByteArray s.toByteArray hvalid))
    simpa [List.utf8Encode] using hbytes

instance (kind : Nat -> Bool) (s : ByteString) : Decidable (Utf8Of kind s) :=
  decidable_of_iff _ (utf8Of_iff kind s).symm

end Foundation
end OssSdk
