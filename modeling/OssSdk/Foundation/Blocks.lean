import Mathlib.Data.List.Basic
import Mathlib.Algebra.Group.Nat.Defs

/-!
# Texts in blocks

A state takes a text in blocks of one length, and what is left over waits for more text.
How a text is cut into pieces on its way makes no difference.
-/

namespace OssSdk
namespace Foundation

section Blocks

variable {state element : Type}

/-- The state after the full blocks of a text. -/
def fullBlocks (n : Nat) (f : state -> List element -> state) (s : state)
    (text : List element) : state :=
  (List.range (text.length / n)).foldl (fun s i => f s ((text.drop (n * i)).take n)) s

/-- What of a text is in no full block. -/
def leftOver (n : Nat) (text : List element) : List element :=
  text.drop (n * (text.length / n))

variable {n : Nat} {f : state -> List element -> state}

theorem leftOver_length (text : List element) :
    (leftOver n text).length = text.length % n := by
  rw [leftOver, List.length_drop]
  have hsplit := Nat.div_add_mod text.length n
  omega

theorem leftOver_of_short {text : List element} (hshort : text.length < n) :
    leftOver n text = text := by
  rw [leftOver, Nat.div_eq_of_lt hshort]
  rfl

theorem fullBlocks_of_short {text : List element} (hshort : text.length < n) (s : state) :
    fullBlocks n f s text = s := by
  rw [fullBlocks, Nat.div_eq_of_lt hshort]
  rfl

theorem fullBlocks_nil (s : state) : fullBlocks n f s [] = s := by
  rw [fullBlocks, List.length_nil, Nat.zero_div]
  rfl

theorem blocks_append (hn : 0 < n) (text more : List element) :
    (text ++ more).length / n = text.length / n + (leftOver n text ++ more).length / n := by
  have hsplit := Nat.div_add_mod text.length n
  rw [List.length_append, List.length_append, leftOver_length]
  calc
    (text.length + more.length) / n =
        (text.length % n + more.length + n * (text.length / n)) / n := by
      congr 1
      omega
    _ = (text.length % n + more.length) / n + text.length / n :=
      Nat.add_mul_div_left _ _ hn
    _ = text.length / n + (text.length % n + more.length) / n := Nat.add_comm _ _

theorem drop_append_full (text more : List element) :
    (text ++ more).drop (n * (text.length / n)) = leftOver n text ++ more := by
  rw [List.drop_append_of_le_length (Nat.mul_div_le text.length n), leftOver]

/-- What is left over of the first piece is put before the second. -/
theorem fullBlocks_append (hn : 0 < n) (s : state) (text more : List element) :
    fullBlocks n f s (text ++ more) =
      fullBlocks n f (fullBlocks n f s text) (leftOver n text ++ more) := by
  have hfirst : forall (t : state) (i : Nat), i ∈ List.range (text.length / n) ->
      f t (((text ++ more).drop (n * i)).take n) = f t ((text.drop (n * i)).take n) := by
    intro t i hi
    have hin : n * i + n <= text.length := by
      have hnext : n * (i + 1) <= n * (text.length / n) :=
        Nat.mul_le_mul_left n (List.mem_range.mp hi)
      exact Nat.le_trans hnext (Nat.mul_div_le text.length n)
    rw [List.drop_append_of_le_length (by omega), List.take_append_of_le_length]
    rw [List.length_drop]
    omega
  have hsecond : forall (t : state) (i : Nat),
      f t (((text ++ more).drop (n * (text.length / n + i))).take n) =
        f t (((leftOver n text ++ more).drop (n * i)).take n) := by
    intro t i
    rw [Nat.mul_add, ← List.drop_drop, drop_append_full]
  rw [fullBlocks, blocks_append hn, List.range_add, List.foldl_append, List.foldl_map,
    List.foldl_ext _ _ s hfirst]
  exact List.foldl_ext _ _ _ fun t i _ => hsecond t i

theorem leftOver_append (hn : 0 < n) (text more : List element) :
    leftOver n (text ++ more) = leftOver n (leftOver n text ++ more) := by
  rw [leftOver, blocks_append hn, Nat.mul_add, ← List.drop_drop, drop_append_full]
  rfl

theorem fullBlocks_one (hn : 0 < n) (s : state) {block : List element}
    (hblock : block.length = n) : fullBlocks n f s block = f s block := by
  rw [fullBlocks, hblock, Nat.div_self hn]
  show f s ((block.drop (n * 0)).take n) = f s block
  rw [Nat.mul_zero, List.drop_zero, List.take_of_length_le (Nat.le_of_eq hblock)]

theorem leftOver_one (hn : 0 < n) {block : List element} (hblock : block.length = n) :
    leftOver n block = [] := by
  rw [leftOver, hblock, Nat.div_self hn, Nat.mul_one]
  exact List.drop_of_length_le (Nat.le_of_eq hblock)

/-- A full block before a text is the first one taken. -/
theorem fullBlocks_cons (hn : 0 < n) (s : state) {block : List element}
    (hblock : block.length = n) (text : List element) :
    fullBlocks n f s (block ++ text) = fullBlocks n f (f s block) text := by
  rw [fullBlocks_append hn, fullBlocks_one hn s hblock, leftOver_one hn hblock,
    List.nil_append]

theorem leftOver_cons (hn : 0 < n) {block : List element} (hblock : block.length = n)
    (text : List element) : leftOver n (block ++ text) = leftOver n text := by
  rw [leftOver_append hn, leftOver_one hn hblock, List.nil_append]

/-- A loop over a range, some steps at a time. -/
theorem foldl_range_mul (f : state -> Nat -> state) (m k : Nat) (s : state) :
    (List.range (m * k)).foldl f s =
      (List.range k).foldl
        (fun s q => (List.range m).foldl (fun s r => f s (m * q + r)) s) s := by
  induction k with
  | zero => rfl
  | succ k ih =>
      rw [Nat.mul_succ, List.range_add, List.foldl_append, List.foldl_map, ih,
        List.range_succ, List.foldl_append]
      rfl

end Blocks

end Foundation
end OssSdk
