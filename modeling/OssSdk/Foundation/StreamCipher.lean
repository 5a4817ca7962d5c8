import OssSdk.Foundation.Bytes
import Mathlib.Logic.Function.Iterate

/-!
# Stream ciphers

A stream cipher masks every byte of a text with the byte of a keystream at the same
position.  In counter mode the keystream is made of blocks, one for each value of a
counter.
-/

namespace OssSdk
namespace Foundation
namespace StreamCipher

abbrev Keystream : Type := Nat -> UInt8

/-- A text that begins at position `p` of the keystream. -/
def mask (ks : Keystream) : Nat -> ByteString -> ByteString
  | _, [] => []
  | p, b :: rest => (b ^^^ ks p) :: mask ks (p + 1) rest

@[simp] theorem mask_nil (ks : Keystream) (p : Nat) : mask ks p [] = [] := rfl

theorem mask_cons (ks : Keystream) (p : Nat) (b : UInt8) (rest : ByteString) :
    mask ks p (b :: rest) = (b ^^^ ks p) :: mask ks (p + 1) rest := rfl

@[simp] theorem length_mask (ks : Keystream) (p : Nat) (text : ByteString) :
    (mask ks p text).length = text.length := by
  induction text generalizing p with
  | nil => rfl
  | cons b rest ih => rw [mask_cons, List.length_cons, ih, List.length_cons]

theorem mask_append (ks : Keystream) (p : Nat) (s t : ByteString) :
    mask ks p (s ++ t) = mask ks p s ++ mask ks (p + s.length) t := by
  induction s generalizing p with
  | nil => rfl
  | cons b rest ih =>
      rw [List.cons_append, mask_cons, ih, mask_cons, List.cons_append, List.length_cons,
        Nat.add_assoc, Nat.add_comm 1]

/-- Masking a text again takes the mask off. -/
theorem mask_mask (ks : Keystream) (p : Nat) (text : ByteString) :
    mask ks p (mask ks p text) = text := by
  induction text generalizing p with
  | nil => rfl
  | cons b rest ih =>
      rw [mask_cons, mask_cons, ih, UInt8.xor_assoc, UInt8.xor_self, UInt8.xor_zero]

theorem mask_drop (ks : Keystream) (p n : Nat) (text : ByteString) :
    (mask ks p text).drop n = mask ks (p + n) (text.drop n) := by
  induction n generalizing p text with
  | zero => rfl
  | succ n ih =>
      cases text with
      | nil => rfl
      | cons b rest =>
          rw [mask_cons, List.drop_succ_cons, ih, List.drop_succ_cons, Nat.add_assoc,
            Nat.add_comm 1]

theorem mask_take (ks : Keystream) (p n : Nat) (text : ByteString) :
    (mask ks p text).take n = mask ks p (text.take n) := by
  induction n generalizing p text with
  | zero => rfl
  | succ n ih =>
      cases text with
      | nil => rfl
      | cons b rest => rw [mask_cons, List.take_succ_cons, ih, List.take_succ_cons, mask_cons]

theorem mask_congr {ks ks' : Keystream} {p p' : Nat} {text : ByteString}
    (hsame : forall i, i < text.length -> ks (p + i) = ks' (p' + i)) :
    mask ks p text = mask ks' p' text := by
  induction text generalizing p p' with
  | nil => rfl
  | cons b rest ih =>
      have hhead : ks p = ks' p' := hsame 0 (Nat.zero_lt_succ _)
      have htail : mask ks (p + 1) rest = mask ks' (p' + 1) rest := by
        refine ih fun i hi => ?_
        have hnext := hsame (i + 1) (Nat.succ_lt_succ hi)
        rw [Nat.add_right_comm p, Nat.add_right_comm p']
        exact hnext
      rw [mask_cons, mask_cons, hhead, htail]

/-- The mask of a text is known from the masked text. -/
theorem mask_injective {ks ks' : Keystream} {p p' : Nat} {text : ByteString}
    (hsame : mask ks p text = mask ks' p' text)
    {i : Nat}
    (hi : i < text.length) : ks (p + i) = ks' (p' + i) := by
  induction text generalizing p p' i with
  | nil => cases hi
  | cons b rest ih =>
      rw [mask_cons, mask_cons] at hsame
      rcases List.cons.inj hsame with ⟨hhead, htail⟩
      cases i with
      | zero => exact (UInt8.xor_right_inj b).mp hhead
      | succ i =>
          have hnext := ih htail (Nat.lt_of_succ_lt_succ hi)
          rw [Nat.add_right_comm p, Nat.add_right_comm p'] at hnext
          exact hnext

theorem mask_eq_zipWith {ks : Keystream} {p : Nat} {text stream : ByteString}
    (hlength : text.length ≤ stream.length)
    (hstream : forall i, i < text.length -> ks (p + i) = stream.getD i 0) :
    mask ks p text = List.zipWith (· ^^^ ·) text stream := by
  induction text generalizing p stream with
  | nil => rfl
  | cons b rest ih =>
      cases stream with
      | nil => cases hlength
      | cons k stream =>
          have hhead : ks p = k := hstream 0 (Nat.zero_lt_succ _)
          have htail : mask ks (p + 1) rest =
              List.zipWith (· ^^^ ·) rest stream := by
            refine ih (Nat.le_of_succ_le_succ hlength) fun i hi => ?_
            have hnext := hstream (i + 1) (Nat.succ_lt_succ hi)
            rw [Nat.add_right_comm]
            exact hnext
          rw [mask_cons, hhead, htail, List.zipWith_cons_cons]

/-- A text that comes in chunks. -/
def maskChunks (ks : Keystream) : Nat -> List ByteString -> List ByteString
  | _, [] => []
  | p, chunk :: rest => mask ks p chunk :: maskChunks ks (p + chunk.length) rest

theorem flatten_maskChunks (ks : Keystream) (p : Nat) (chunks : List ByteString) :
    (maskChunks ks p chunks).flatten = mask ks p chunks.flatten := by
  induction chunks generalizing p with
  | nil => rfl
  | cons chunk rest ih =>
      rw [maskChunks, List.flatten_cons, ih, List.flatten_cons, mask_append]

/-!
# Counter mode
-/

variable {counter : Type} (size : Nat) (next : counter -> counter)
variable (block : counter -> ByteString)

def counterMode (c : counter) : Keystream := fun i =>
  (block (next^[i / size] c)).getD (i % size) 0

variable {size}

/-- Beginning with a later counter is beginning at a later position. -/
theorem counterMode_seek (hsize : 0 < size) (c : counter) (k i : Nat) :
    counterMode size next block (next^[k] c) i =
      counterMode size next block c (size * k + i) := by
  unfold counterMode
  rw [Nat.mul_add_div hsize, Nat.mul_add_mod, ← Function.iterate_add_apply,
    Nat.add_comm k]

variable {next block}

/-- The text that one block masks. -/
theorem mask_counterMode {c : counter} {p : Nat} {text : ByteString}
    (hwithin : p % size + text.length ≤ size)
    (hlength : (block (next^[p / size] c)).length = size) :
    mask (counterMode size next block c) p text =
      List.zipWith (· ^^^ ·) text
        ((block (next^[p / size] c)).drop (p % size)) := by
  refine mask_eq_zipWith ?_ ?_
  · rw [List.length_drop, hlength]
    exact Nat.le_sub_of_add_le' hwithin
  · intro i hi
    have hin : p % size + i < size :=
      Nat.lt_of_lt_of_le (Nat.add_lt_add_left hi _) hwithin
    have hposition : p + i = size * (p / size) + (p % size + i) := by
      rw [← Nat.add_assoc, Nat.div_add_mod]
    unfold counterMode
    rw [hposition, Nat.mul_add_div (Nat.zero_lt_of_lt hin), Nat.mul_add_mod,
      Nat.div_eq_of_lt hin, Nat.mod_eq_of_lt hin, Nat.add_zero]
    simp only [List.getD_eq_getElem?_getD, List.getElem?_drop]

end StreamCipher
end Foundation
end OssSdk
