import Mathlib.Data.List.Basic
import Mathlib.Order.Lattice
import Mathlib.Order.Defs.Unbundled

/-!
# Byte strings

Everything that goes over the wire or into a file is a list of bytes.  Literals
are written as strings and are read one byte a character, which is what the
source's narrow string literals are.
-/

namespace OssSdk
namespace Foundation

abbrev ByteString := List UInt8

def bytes (s : String) : ByteString :=
  s.toList.map fun c => UInt8.ofNat c.toNat

theorem forall_byte {P : UInt8 -> Prop} (hall : forall n : Fin 256, P (UInt8.ofNat n))
    (x : UInt8) : P x := by
  have hx := hall ⟨x.toNat, x.toNat_lt⟩
  rwa [UInt8.ofNat_toNat] at hx

/-!
# Lexicographic comparison

The comparison of two sequences by the rank of their first differing element; a
proper prefix is less than the whole.
-/

section Lexicographic

variable {element rank : Type} [LinearOrder rank]

def lexLess (f : element -> rank) : List element -> List element -> Bool
  | [], [] => false
  | [], _ :: _ => true
  | _ :: _, [] => false
  | a :: as, b :: bs =>
      if f a = f b then lexLess f as bs else decide (f a < f b)

theorem lexLess_cons (f : element -> rank) (a b : element) (as bs : List element) :
    lexLess f (a :: as) (b :: bs) =
      if f a = f b then lexLess f as bs else decide (f a < f b) := rfl

theorem lexLess_irrefl (f : element -> rank) (as : List element) :
    lexLess f as as = false := by
  induction as with
  | nil => rfl
  | cons a as ih => rw [lexLess_cons, if_pos rfl, ih]

theorem lexLess_trans (f : element -> rank)
    {as bs cs : List element}
    (hab : lexLess f as bs = true)
    (hbc : lexLess f bs cs = true) :
    lexLess f as cs = true := by
  induction as generalizing bs cs with
  | nil =>
      cases cs with
      | nil => cases bs <;> simp [lexLess] at hbc
      | cons c cs => rfl
  | cons a as ih =>
      cases bs with
      | nil => simp [lexLess] at hab
      | cons b bs =>
          cases cs with
          | nil => simp [lexLess] at hbc
          | cons c cs =>
              simp only [lexLess_cons] at hab hbc ⊢
              by_cases hfab : f a = f b
              · by_cases hfbc : f b = f c
                · simp only [hfab, hfbc, if_true] at hab hbc ⊢
                  exact ih hab hbc
                · simp only [hfbc, if_false] at hbc
                  simpa [hfab, hfbc] using hbc
              · simp only [hfab, if_false, decide_eq_true_eq] at hab
                by_cases hfbc : f b = f c
                · have hne : ¬ f a = f c := hfbc ▸ hfab
                  rw [if_neg hne]
                  exact decide_eq_true (hfbc ▸ hab)
                · simp only [hfbc, if_false, decide_eq_true_eq] at hbc
                  have hlt : f a < f c := lt_trans hab hbc
                  rw [if_neg (ne_of_lt hlt)]
                  exact decide_eq_true hlt

theorem lexLess_append (f : element -> rank) (as bs cs : List element) :
    lexLess f (as ++ bs) (as ++ cs) = lexLess f bs cs := by
  induction as with
  | nil => rfl
  | cons a as ih =>
      rw [List.cons_append, List.cons_append, lexLess_cons, if_pos rfl]
      exact ih

/-- Two sequences neither of which is less have the same ranks throughout. -/
theorem map_eq_iff_incomparable (f : element -> rank) (as bs : List element) :
    as.map f = bs.map f ↔ lexLess f as bs = false ∧ lexLess f bs as = false := by
  induction as generalizing bs with
  | nil => cases bs <;> simp [lexLess]
  | cons a as ih =>
      cases bs with
      | nil => simp [lexLess]
      | cons b bs =>
          by_cases hab : f a = f b
          · simpa [lexLess_cons, hab] using ih bs
          · rcases lt_or_gt_of_ne hab with hlt | hgt
            · simp [lexLess_cons, hab, hlt]
            · simp [lexLess_cons, hab, Ne.symm hab, hgt]

instance lexLess_strictWeakOrder (f : element -> rank) :
    IsStrictWeakOrder (List element) (fun as bs => lexLess f as bs = true) where
  irrefl as := by simp [lexLess_irrefl]
  trans _ _ _ := lexLess_trans f
  incomp_trans := by
    intro as bs cs hab hbc
    simp only [Bool.not_eq_true] at hab hbc ⊢
    rw [← map_eq_iff_incomparable] at hab hbc ⊢
    exact hab.trans hbc

end Lexicographic

end Foundation
end OssSdk
