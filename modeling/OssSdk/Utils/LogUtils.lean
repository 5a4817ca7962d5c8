import OssSdk.Utils.StringUtils
import Mathlib.Algebra.Group.Nat.Defs
import Mathlib.Data.Nat.Find
import Mathlib.Data.List.DropRight
import Mathlib.Logic.Function.Basic

/-!
# One line of the log

A message is formatted into an array on the stack.  Memory is what each index holds,
counted from the array's first byte, and every index that is used is written down.
-/

namespace OssSdk
namespace Utils

open Foundation

abbrev Memory := Nat -> UInt8

/-! # Texts in memory -/

/-- The length of the text that starts at the first byte. -/
def strlen (mem : Memory) (hend : exists i, mem i = 0) : Nat := Nat.find hend

def textOf (mem : Memory) (hend : exists i, mem i = 0) : ByteString :=
  (List.range (strlen mem hend)).map mem

/-- What is in memory once the first bytes of `text` and a NUL are put there. -/
def store (text : ByteString) (mem : Memory) : Memory :=
  fun i => if i < text.length then text.getD i 0 else if i = text.length then 0 else mem i

/-- A text stands in memory, with a NUL after it. -/
structure Holds (text : ByteString) (mem : Memory) : Prop where
  byte : forall (i : Nat) (hi : i < text.length), mem i = text[i]
  stop : mem text.length = 0

theorem holds_store (text : ByteString) (mem : Memory) : Holds text (store text mem) := by
  constructor
  · intro i hi
    simp [store, hi]
  · simp [store]

/-- What the text has after a NUL of its own is not read. -/
theorem textOf_eq_cStr {text : ByteString} {mem : Memory} (hend : exists i, mem i = 0)
    (hholds : Holds text mem) : textOf mem hend = cStr text := by
  induction text generalizing mem with
  | nil =>
      have hzero : strlen mem hend = 0 := (Nat.find_eq_zero hend).mpr hholds.stop
      rw [textOf, hzero]
      rfl
  | cons c rest ih =>
      have hfirst : mem 0 = c := hholds.byte 0 (Nat.zero_lt_succ _)
      by_cases hc : c = 0
      · have hzero : strlen mem hend = 0 :=
          (Nat.find_eq_zero hend).mpr (hfirst.trans hc)
        rw [textOf, hzero, hc]
        rfl
      · have hrest : Holds rest (fun i => mem (i + 1)) := by
          constructor
          · intro i hi
            exact hholds.byte (i + 1) (Nat.succ_lt_succ hi)
          · exact hholds.stop
        have hend' : exists i, mem (i + 1) = 0 := ⟨rest.length, hrest.stop⟩
        have hlen : strlen mem hend = strlen (fun i => mem (i + 1)) hend' + 1 :=
          Nat.find_comp_succ hend hend' (fun hzero => hc (hfirst.symm.trans hzero))
        have hcut : cStr (c :: rest) = c :: cStr rest :=
          List.takeWhile_cons_of_pos (by simpa using hc)
        rw [textOf, hlen, List.range_succ_eq_map, List.map_cons, List.map_map, hfirst, hcut,
          ← ih hend' hrest]
        rfl

/-! # The functions of the C library -/

def INT_MAX : Nat := 2 ^ 31 - 1

/-- What is printed of a text where there is room for `size` bytes. -/
def printed (size : Nat) (formatted : ByteString) : ByteString := formatted.take (size - 1)

/-- The number returned, which is negative where `int` cannot say the length. -/
def vsnprintf (formatted : ByteString) : Int :=
  if formatted.length ≤ INT_MAX then formatted.length else -1

/-- With `_TRUNCATE`, the number returned is negative where the text did not fit. -/
def vsnprintf_s (size : Nat) (formatted : ByteString) : Int :=
  if formatted.length < size then formatted.length else -1

/-! # The line -/

/-- The bytes of `buffer`. -/
def bufferSize : Nat := 2050

def newline : UInt8 := 10

/-- The loop, from a value of `i` on: what is in memory then, and what it used. -/
def stripNewlines : Nat -> Memory -> Memory × List Nat
  | 0, mem => (mem, [])
  | i + 1, mem =>
      if mem i = newline then
        let rest := stripNewlines i (Function.update mem i 0)
        (rest.1, i :: i :: rest.2)
      else
        (mem, [i])

theorem stripNewlines_keeps_nul {mem : Memory} {p : Nat} (hnul : mem p = 0) (i : Nat) :
    (stripNewlines i mem).1 p = 0 := by
  induction i generalizing mem with
  | zero =>
      exact hnul
  | succ i ih =>
      rw [stripNewlines]
      split
      · apply ih
        by_cases hsame : p = i
        · rw [hsame, Function.update_self]
        · rw [Function.update_of_ne hsame]
          exact hnul
      · exact hnul

/-- What a call passes on, what it leaves in memory and the indices it used. -/
structure FormattedLine where
  text : ByteString
  memory : Memory
  used : List Nat

/-- What the loop starts from; `WIN32` tells which of the two functions formats. -/
def returned (WIN32 : Bool) (formatted : ByteString) : Int :=
  if WIN32 then vsnprintf_s (bufferSize - 1) formatted else vsnprintf formatted

def FormattedLog (WIN32 : Bool) (logPrefix formatted : ByteString) (stack : Memory) :
    FormattedLine :=
  let written := printed (bufferSize - 1) formatted
  let i := (returned WIN32 formatted).toNat
  let stripped := stripNewlines i (store written stack)
  let hend := ⟨written.length, stripNewlines_keeps_nul (holds_store written stack).stop i⟩
  { text := logPrefix ++ textOf stripped.1 hend ++ [newline]
    memory := stripped.1
    used := List.range (written.length + 1) ++ stripped.2 ++
      List.range (strlen stripped.1 hend + 1) }

/-! # The indices -/

theorem stripNewlines_used_lt (i : Nat) (mem : Memory) :
    forall k, k ∈ (stripNewlines i mem).2 -> k < i := by
  induction i generalizing mem with
  | zero =>
      exact nofun
  | succ i ih =>
      intro k hk
      rw [stripNewlines] at hk
      split at hk
      · rcases List.mem_cons.mp hk with hsame | hk
        · omega
        · rcases List.mem_cons.mp hk with hsame | hk
          · omega
          · have hlt := ih _ k hk
            omega
      · rw [List.mem_singleton] at hk
        omega

/-- The loop starts with a look at the byte before its index. -/
theorem mem_stripNewlines_used (i : Nat) (mem : Memory) :
    i ∈ (stripNewlines (i + 1) mem).2 := by
  rw [stripNewlines]
  split
  · exact List.mem_cons_self
  · exact List.mem_cons_self

theorem length_printed_le (formatted : ByteString) :
    (printed (bufferSize - 1) formatted).length ≤ 2048 := by
  rw [printed, List.length_take]
  exact Nat.min_le_left _ _

theorem strlen_le {mem : Memory} {p : Nat} (hend : exists i, mem i = 0) (hp : mem p = 0) :
    strlen mem hend ≤ p :=
  Nat.find_min' hend hp

theorem used_lt_iff (WIN32 : Bool) (logPrefix formatted : ByteString) (stack : Memory) :
    (forall k, k ∈ (FormattedLog WIN32 logPrefix formatted stack).used -> k < bufferSize) ↔
      returned WIN32 formatted ≤ bufferSize := by
  have hshort := length_printed_le formatted
  constructor
  · intro hused
    by_contra hlong
    obtain ⟨i, hi⟩ : exists i, (returned WIN32 formatted).toNat = i + 1 :=
      Nat.exists_eq_add_one.mpr (by omega)
    have hmem : i ∈ (FormattedLog WIN32 logPrefix formatted stack).used := by
      apply List.mem_append_left
      apply List.mem_append_right
      show i ∈ (stripNewlines (returned WIN32 formatted).toNat _).2
      rw [hi]
      exact mem_stripNewlines_used i _
    have hlt := hused i hmem
    omega
  · intro hstart k hk
    rcases List.mem_append.mp hk with hk | hk
    · rcases List.mem_append.mp hk with hk | hk
      · have hlt := List.mem_range.mp hk
        show k < 2050
        omega
      · have hlt := stripNewlines_used_lt _ _ k hk
        omega
    · have hlt := List.mem_range.mp hk
      have hnul := stripNewlines_keeps_nul
        (holds_store (printed (bufferSize - 1) formatted) stack).stop (returned WIN32 formatted).toNat
      have hle := strlen_le ⟨_, hnul⟩ hnul
      show k < 2050
      omega

theorem vsnprintf_s_le (size : Nat) (formatted : ByteString) :
    vsnprintf_s size formatted ≤ size := by
  unfold vsnprintf_s
  split
  · omega
  · omega

theorem vsnprintf_le_iff (size : Nat) (formatted : ByteString) :
    vsnprintf formatted ≤ size ↔ formatted.length ≤ size ∨ 2 ^ 31 ≤ formatted.length := by
  unfold vsnprintf INT_MAX
  split
  · omega
  · omega

theorem returned_le_iff (WIN32 : Bool) (formatted : ByteString) :
    returned WIN32 formatted ≤ bufferSize ↔
      WIN32 = true ∨ formatted.length ≤ 2050 ∨ 2 ^ 31 ≤ formatted.length := by
  cases WIN32 with
  | true =>
      have hle := vsnprintf_s_le (bufferSize - 1) formatted
      have hsize : ((bufferSize - 1 : Nat) : Int) ≤ bufferSize := by decide
      exact ⟨fun _ => Or.inl rfl, fun _ => le_trans hle hsize⟩
  | false =>
      rw [or_iff_right Bool.false_ne_true]
      exact vsnprintf_le_iff bufferSize formatted

/-- Which calls stay in the array. -/
theorem formattedLog_in_buffer_iff (WIN32 : Bool) (logPrefix formatted : ByteString)
    (stack : Memory) :
    (forall k, k ∈ (FormattedLog WIN32 logPrefix formatted stack).used -> k < bufferSize) ↔
      WIN32 = true ∨ formatted.length ≤ 2050 ∨ 2 ^ 31 ≤ formatted.length := by
  rw [used_lt_iff]
  exact returned_le_iff WIN32 formatted

theorem not_formattedLog_in_buffer :
    ¬ forall (WIN32 : Bool) (logPrefix formatted : ByteString) (stack : Memory) (k : Nat),
      k ∈ (FormattedLog WIN32 logPrefix formatted stack).used -> k < bufferSize := by
  intro hused
  have hstart := (used_lt_iff false [] (List.replicate 3000 97) (fun _ => 0)).mp
    (hused false [] (List.replicate 3000 97) (fun _ => 0))
  rw [returned_le_iff, List.length_replicate] at hstart
  exact absurd hstart (by decide)

/-! # The text -/

theorem stripNewlines_beyond (i : Nat) (mem : Memory) {k : Nat} (hk : i ≤ k) :
    (stripNewlines i mem).1 k = mem k := by
  induction i generalizing mem with
  | zero =>
      rfl
  | succ i ih =>
      rw [stripNewlines]
      split
      · rw [ih _ (Nat.le_of_succ_le hk)]
        exact Function.update_of_ne (Nat.ne_of_gt hk) _ _
      · rfl

/-- A loop that starts after a NUL does not get past it. -/
theorem stripNewlines_before {mem : Memory} {p : Nat} (hnul : mem p = 0) {i : Nat}
    (hp : p < i) {k : Nat} (hk : k ≤ p) : (stripNewlines i mem).1 k = mem k := by
  induction i generalizing mem with
  | zero =>
      exact absurd hp (Nat.not_lt_zero p)
  | succ i ih =>
      rw [stripNewlines]
      split
      · next hnewline =>
          have hne : p ≠ i := by
            rintro rfl
            rw [hnul] at hnewline
            exact absurd hnewline (by decide)
          have hlt : p < i := Nat.lt_of_le_of_ne (Nat.le_of_lt_succ hp) hne
          have hki : k ≠ i := Nat.ne_of_lt (Nat.lt_of_le_of_lt hk hlt)
          rw [ih _ hlt]
          · exact Function.update_of_ne hki _ _
          · rw [Function.update_of_ne hne]
            exact hnul
      · rfl

/-- A loop that starts at the end of a text takes its last newlines away. -/
theorem holds_stripNewlines {text : ByteString} {mem : Memory} (hholds : Holds text mem) :
    Holds (text.rdropWhile (· == newline)) (stripNewlines text.length mem).1 := by
  induction text using List.reverseRecOn generalizing mem with
  | nil =>
      exact hholds
  | append_singleton text c ih =>
      have hlast : mem text.length = c := by
        rw [hholds.byte text.length (by simp)]
        simp
      rw [List.length_append, List.length_singleton, stripNewlines, hlast]
      by_cases hc : c = newline
      · rw [if_pos hc, List.rdropWhile_concat_pos _ _ _ (by simpa using hc)]
        apply ih
        constructor
        · intro i hi
          rw [Function.update_of_ne (Nat.ne_of_lt hi), hholds.byte i (by simp; omega)]
          exact List.getElem_append_left hi
        · exact Function.update_self _ _ _
      · rw [if_neg hc, List.rdropWhile_concat_neg _ _ _ (by simpa using hc)]
        exact hholds

/-- A message that does not fit keeps the newlines it is cut at. -/
def message (formatted : ByteString) : ByteString :=
  if formatted.length < bufferSize - 1 then formatted.rdropWhile (· == newline)
  else printed (bufferSize - 1) formatted

theorem returned_of_fits (WIN32 : Bool) {formatted : ByteString}
    (hfits : formatted.length < bufferSize - 1) :
    returned WIN32 formatted = formatted.length := by
  cases WIN32 with
  | true =>
      exact if_pos hfits
  | false =>
      have hsmall : formatted.length ≤ INT_MAX :=
        Nat.le_trans (Nat.le_of_lt hfits) (by decide)
      exact if_pos hsmall

/-- Where the message does not fit, the loop starts after the NUL or does not run. -/
theorem returned_of_cut (WIN32 : Bool) {formatted : ByteString}
    (hcut : bufferSize - 1 ≤ formatted.length) :
    (returned WIN32 formatted).toNat = 0 ∨ 2048 < (returned WIN32 formatted).toNat := by
  cases WIN32 with
  | true =>
      left
      show (vsnprintf_s _ _).toNat = 0
      rw [vsnprintf_s, if_neg (Nat.not_lt.mpr hcut)]
      rfl
  | false =>
      show (vsnprintf _).toNat = 0 ∨ 2048 < (vsnprintf _).toNat
      have hlong : 2049 ≤ formatted.length := hcut
      unfold vsnprintf
      split
      · right
        omega
      · left
        rfl

theorem holds_message (WIN32 : Bool) (formatted : ByteString) (stack : Memory) :
    Holds (message formatted)
      (stripNewlines (returned WIN32 formatted).toNat
        (store (printed (bufferSize - 1) formatted) stack)).1 := by
  have hholds := holds_store (printed (bufferSize - 1) formatted) stack
  unfold message
  split
  · next hfits =>
      have hwhole : printed (bufferSize - 1) formatted = formatted :=
        List.take_of_length_le (Nat.le_sub_one_of_lt hfits)
      rw [hwhole] at hholds ⊢
      rw [returned_of_fits WIN32 hfits]
      exact holds_stripNewlines hholds
  · next hcut =>
      have hlength : (printed (bufferSize - 1) formatted).length = 2048 := by
        rw [printed, List.length_take]
        exact Nat.min_eq_left (Nat.le_trans (by decide) (Nat.not_lt.mp hcut))
      rcases returned_of_cut WIN32 (Nat.not_lt.mp hcut) with hstart | hstart
      · rw [hstart]
        exact hholds
      · have hsame : forall k, k ≤ 2048 ->
            (stripNewlines (returned WIN32 formatted).toNat
              (store (printed (bufferSize - 1) formatted) stack)).1 k =
              store (printed (bufferSize - 1) formatted) stack k :=
          fun k hk => stripNewlines_before (hlength ▸ hholds.stop) hstart hk
        constructor
        · intro i hi
          rw [hsame i (by omega)]
          exact hholds.byte i hi
        · rw [hsame _ hlength.le]
          exact hholds.stop

end Utils
end OssSdk
