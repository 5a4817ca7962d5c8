import OssSdk.Types

/-!
# String helpers

The helpers are handed C strings: what follows a NUL byte is not seen.
-/

namespace OssSdk
namespace Utils

open Foundation

def cStr (s : ByteString) : ByteString := s.takeWhile (· != 0)

/-- `isspace` of the C locale. -/
def isspace (c : UInt8) : Bool := c == 32 || decide (9 ≤ c.toNat ∧ c.toNat ≤ 13)

def LeftTrim (source : ByteString) : ByteString := (cStr source).dropWhile isspace

def RightTrim (source : ByteString) : ByteString :=
  ((cStr source).reverse.dropWhile isspace).reverse

def Trim (source : ByteString) : ByteString := LeftTrim (RightTrim source)

example : Trim (bytes " a b\t\n") = bytes "a b" := by decide +kernel

/-- `tolower` of the C locale on an `unsigned char`. -/
def toLowerByte (c : UInt8) : UInt8 :=
  if 65 ≤ c.toNat ∧ c.toNat ≤ 90 then c + 32 else c

def ToLower (source : ByteString) : ByteString := (cStr source).map toLowerByte

/-!
# C strings
-/

theorem cStr_eq_self {s : ByteString} (hs : 0 ∉ s) : cStr s = s := by
  induction s with
  | nil => rfl
  | cons c rest ih =>
      have hne : c ≠ 0 := fun hzero => hs (hzero ▸ List.mem_cons_self)
      have hrest : 0 ∉ rest := fun hmem => hs (List.mem_cons_of_mem c hmem)
      unfold cStr at ih ⊢
      rw [List.takeWhile_cons_of_pos (by simpa using hne), ih hrest]

theorem nul_not_mem_cStr (s : ByteString) : 0 ∉ cStr s := by
  intro hmem
  have hne := List.all_takeWhile (p := fun c : UInt8 => c != 0) (l := s)
  rw [List.all_eq_true] at hne
  exact absurd (hne 0 hmem) (by decide)

@[simp] theorem cStr_cStr (s : ByteString) : cStr (cStr s) = cStr s :=
  cStr_eq_self (nul_not_mem_cStr s)

theorem cStr_append {u : ByteString} (hu : 0 ∉ u) (s : ByteString) :
    cStr (u ++ s) = u ++ cStr s := by
  unfold cStr
  refine List.takeWhile_append_of_pos fun c hc => ?_
  have hne : c ≠ 0 := fun hzero => hu (hzero ▸ hc)
  simpa using hne

/-!
# Trimming
-/

theorem nul_not_mem_RightTrim (s : ByteString) : 0 ∉ RightTrim s := by
  intro hmem
  have hsuffix := (List.dropWhile_suffix isspace (l := (cStr s).reverse)).subset
    (List.mem_reverse.mp hmem)
  exact nul_not_mem_cStr s (List.mem_reverse.mp hsuffix)

theorem Trim_eq (s : ByteString) : Trim s = (RightTrim s).dropWhile isspace := by
  unfold Trim LeftTrim
  rw [cStr_eq_self (nul_not_mem_RightTrim s)]

theorem nul_not_mem_Trim (s : ByteString) : 0 ∉ Trim s := by
  rw [Trim_eq]
  intro hmem
  exact nul_not_mem_RightTrim s ((List.dropWhile_suffix isspace).subset hmem)

/-- What follows a text is trimmed as it would be alone, unless it is blank. -/
theorem RightTrim_append {u : ByteString} (hu : 0 ∉ u) {s : ByteString}
    (hs : RightTrim s ≠ []) : RightTrim (u ++ s) = u ++ RightTrim s := by
  have hdrop : (cStr s).reverse.dropWhile isspace ≠ [] := by
    intro hnil
    apply hs
    unfold RightTrim
    rw [hnil]
    rfl
  unfold RightTrim
  rw [cStr_append hu, List.reverse_append, List.dropWhile_append]
  rw [if_neg (by simpa using hdrop), List.reverse_append, List.reverse_reverse]

theorem length_dropWhile_append_le (p : UInt8 -> Bool) (u s : ByteString) :
    (s.dropWhile p).length ≤ ((u ++ s).dropWhile p).length := by
  rw [List.dropWhile_append]
  split
  · exact Nat.le_refl _
  · rw [List.length_append]
    exact Nat.le_trans (List.dropWhile_suffix p).length_le (Nat.le_add_left _ _)

/-- Trimming does not take more off a longer text. -/
theorem length_Trim_le_append {u : ByteString} (hu : 0 ∉ u) (s : ByteString) :
    (Trim s).length ≤ (Trim (u ++ s)).length := by
  rw [Trim_eq, Trim_eq]
  by_cases hs : RightTrim s = []
  · rw [hs]
    exact Nat.zero_le _
  · rw [RightTrim_append hu hs]
    exact length_dropWhile_append_le isspace u _

/-- A text with a byte that is not blank. -/
theorem Trim_ne_nil {u : ByteString} (hu : 0 ∉ u) {c : UInt8} (hc : c ≠ 0)
    (hspace : isspace c = false) (rest : ByteString) : Trim (u ++ c :: rest) ≠ [] := by
  have hcut : cStr (c :: rest) = c :: cStr rest := by
    unfold cStr
    rw [List.takeWhile_cons_of_pos (by simpa using hc)]
  have hright : exists tail, RightTrim (c :: rest) = c :: tail := by
    unfold RightTrim
    rw [hcut, List.reverse_cons, List.dropWhile_append]
    split
    · rw [List.dropWhile_cons_of_neg (by simp [hspace])]
      exact ⟨[], rfl⟩
    · rw [List.reverse_append]
      exact ⟨_, rfl⟩
  have hfirst : 0 < (Trim (c :: rest)).length := by
    rcases hright with ⟨tail, htail⟩
    rw [Trim_eq, htail, List.dropWhile_cons_of_neg (by simp [hspace])]
    exact Nat.succ_pos _
  have hle := length_Trim_le_append hu (c :: rest)
  exact List.length_pos_iff.mp (Nat.lt_of_lt_of_le hfirst hle)

/-- `Trim`, of a text that is read to its end. -/
def strip (s : ByteString) : ByteString :=
  (s.reverse.dropWhile isspace).reverse.dropWhile isspace

theorem Trim_eq_strip (s : ByteString) : Trim s = strip (cStr s) := by
  rw [Trim_eq]
  rfl

theorem strip_cons {c : UInt8} (hspace : isspace c = true) (s : ByteString) :
    strip (c :: s) = strip s := by
  unfold strip
  rw [List.reverse_cons, List.dropWhile_append]
  split
  · rename_i hblank
    rw [List.isEmpty_iff.mp hblank, List.dropWhile_cons_of_pos hspace]
    rfl
  · rw [List.reverse_append, List.reverse_singleton, List.singleton_append,
      List.dropWhile_cons_of_pos hspace]

/-!
# Lower case
-/

/-- The order of header names sees the same bytes as equal as `ToLower`. -/
theorem toLowerByte_eq_iff (c d : UInt8) :
    toLowerByte c = toLowerByte d ↔ tolower c = tolower d := by
  have hsigned : forall b : UInt8, tolower b =
      if (toLowerByte b).toNat < 128 then ((toLowerByte b).toNat : Int)
      else (toLowerByte b).toNat - 256 :=
    forall_byte (by decide +kernel)
  constructor
  · intro hsame
    rw [hsigned, hsigned, hsame]
  · intro hsame
    rw [hsigned, hsigned] at hsame
    have hc := (toLowerByte c).toNat_lt
    have hd := (toLowerByte d).toNat_lt
    apply UInt8.toNat_inj.mp
    split at hsame <;> split at hsame <;> omega

/-- Only a capital letter is written otherwise in lower case. -/
theorem eq_of_toLowerByte {c d : UInt8} (hd : ¬ (97 ≤ d.toNat ∧ d.toNat ≤ 122))
    (hlower : toLowerByte c = d) : c = d := by
  unfold toLowerByte at hlower
  split at hlower
  · rename_i hcapital
    have hvalue : d.toNat = c.toNat + 32 := by
      rw [← hlower, UInt8.toNat_add, show (32 : UInt8).toNat = 32 from rfl]
      exact Nat.mod_eq_of_lt (by omega)
    omega
  · exact hlower

theorem toLowerByte_eq_zero {c : UInt8} : toLowerByte c = 0 ↔ c = 0 := by
  constructor
  · exact eq_of_toLowerByte (by decide)
  · intro hzero
    rw [hzero]
    rfl

theorem ToLower_eq_cStr (s : ByteString) : ToLower s = cStr (s.map toLowerByte) := by
  unfold ToLower cStr
  rw [List.takeWhile_map]
  congr 2
  funext c
  rw [Bool.eq_iff_iff]
  simp [toLowerByte_eq_zero]

theorem nul_not_mem_ToLower (s : ByteString) : 0 ∉ ToLower s := by
  rw [ToLower_eq_cStr]
  exact nul_not_mem_cStr _

theorem equivalent_iff_map (a b : ByteString) :
    SortedMap.equivalent caseInsensitiveLess a b = true ↔
      a.map toLowerByte = b.map toLowerByte := by
  rw [SortedMap.equivalent_iff]
  refine (map_eq_iff_incomparable tolower a b).symm.trans ?_
  induction a generalizing b with
  | nil => cases b <;> simp
  | cons c rest ih =>
      cases b with
      | nil => simp
      | cons d rest' => simp [toLowerByte_eq_iff, ih]

/-- Names that are the same header are the same in lower case. -/
theorem ToLower_congr {a b : ByteString}
    (hsame : SortedMap.equivalent caseInsensitiveLess a b = true) :
    ToLower a = ToLower b := by
  rw [ToLower_eq_cStr, ToLower_eq_cStr, (equivalent_iff_map a b).mp hsame]

@[simp] theorem ToLower_ToLower (s : ByteString) : ToLower (ToLower s) = ToLower s := by
  have hbyte : forall c, toLowerByte (toLowerByte c) = toLowerByte c :=
    forall_byte (by decide +kernel)
  have hmap : ((cStr s).map toLowerByte).map toLowerByte = (cStr s).map toLowerByte := by
    rw [List.map_map]
    exact List.map_congr_left fun c _ => hbyte c
  rw [ToLower_eq_cStr (ToLower s), ToLower, hmap, ← ToLower_eq_cStr, ToLower, cStr_cStr]

/-- The order of parameter names sees every byte. -/
theorem equivalent_caseSensitive (a b : ByteString) :
    SortedMap.equivalent caseSensitiveLess a b = true ↔ a = b := by
  rw [SortedMap.equivalent_iff]
  unfold caseSensitiveLess
  rw [← map_eq_iff_incomparable]
  exact (List.map_injective_iff.mpr fun _ _ hcd => UInt8.toNat_inj.mp hcd).eq_iff

/-- Of names in lower case only the same ones are the same header. -/
theorem equivalent_ToLower (a b : ByteString) :
    SortedMap.equivalent caseInsensitiveLess (ToLower a) (ToLower b) =
      decide (ToLower a = ToLower b) := by
  rw [Bool.eq_iff_iff, decide_eq_true_eq]
  constructor
  · intro hsame
    have hlower := ToLower_congr hsame
    rwa [ToLower_ToLower, ToLower_ToLower] at hlower
  · intro hsame
    rw [hsame]
    exact SortedMap.equivalent_refl _

end Utils
end OssSdk
