import OssSdk.Foundation.Json
import OssSdk.Foundation.SortedMap
import OssSdk.Utils.StringUtils

/-!
# The description of a master key

It is written as JSON, and is stored with an object in one of its headers.
-/

namespace OssSdk
namespace Crypto

open Foundation
open Utils

abbrev Description := SortedMap ByteString ByteString caseSensitiveLess

def jsonEscapeByte (c : UInt8) : ByteString :=
  if c = 34 then [92, 34] else if c = 92 then [92, 92] else [c]

def jsonEscape (s : ByteString) : ByteString := s.flatMap jsonEscapeByte

/-- The loop over the entries. -/
def writeEntries (first : Bool) : List (ByteString × ByteString) -> ByteString
  | [] => []
  | kv :: rest =>
      (if first then [] else bytes ",") ++ bytes "\"" ++ jsonEscape kv.1 ++
        bytes "\":\"" ++ jsonEscape kv.2 ++ bytes "\"" ++ writeEntries false rest

def serializeMatDesc (desc : Description) : ByteString :=
  if desc.isEmpty then bytes "\x7b\x7d"
  else bytes "\x7b" ++ writeEntries true desc.entries ++ bytes "\x7d"

example : serializeMatDesc (SortedMap.ofList [(bytes "b", bytes "2"), (bytes "a", bytes "\"")]) =
    bytes "\x7b\"a\":\"\\\"\",\"b\":\"2\"\x7d" := by decide +kernel

/-- The text is JSON, and its members are the entries of the map. -/
def Denotes (text : ByteString) (desc : Description) : Prop :=
  exists members, Json.readObject text = some members ∧
    (members.map Prod.fst).Nodup ∧ forall k v, (k, v) ∈ members ↔ desc.find? k = some v

/-- The description can be read back from a header. -/
def RoundTrips (desc : Description) : Prop :=
  Denotes (serializeMatDesc desc) desc ∧
    10 ∉ serializeMatDesc desc ∧ 13 ∉ serializeMatDesc desc

/-- UTF-8 without control characters. -/
structure Printable (s : ByteString) : Prop where
  utf8 : Utf8 s
  noControl : forall c, c ∈ s -> 32 ≤ c.toNat


/-!
# What a reader finds
-/

def noControl (s : ByteString) : Bool := s.all fun c => decide (32 ≤ c.toNat)

section reading

variable (members : List (ByteString × ByteString)) (name : Option ByteString)

theorem read_jsonEscapeByte (text : ByteString) (c : UInt8) :
    (jsonEscapeByte c).foldlM Json.Reader.step (Json.inString members name text) =
      if c.toNat < 32 then none else some (Json.inString members name (text ++ [c])) := by
  unfold jsonEscapeByte
  by_cases hquote : c = 34
  · rw [if_pos hquote, hquote]
    exact Json.steps_escape members name text rfl
  · rw [if_neg hquote]
    by_cases hslash : c = 92
    · rw [if_pos hslash, hslash]
      exact Json.steps_escape members name text rfl
    · rw [if_neg hslash, List.foldlM_cons, Json.step_byte members name text hquote hslash]
      split
      · rfl
      · rfl

/-- A string is read as what was escaped, up to its first control character. -/
theorem read_jsonEscape (text s : ByteString) :
    (jsonEscape s).foldlM Json.Reader.step (Json.inString members name text) =
      if noControl s then some (Json.inString members name (text ++ s)) else none := by
  induction s generalizing text with
  | nil =>
      change some _ = some _
      rw [List.append_nil]
  | cons c rest ih =>
      unfold jsonEscape at ih ⊢
      unfold noControl at ih ⊢
      rw [List.flatMap_cons, List.foldlM_append, read_jsonEscapeByte, List.all_cons]
      by_cases hcontrol : c.toNat < 32
      · rw [if_pos hcontrol, decide_eq_false (Nat.not_le.mpr hcontrol), Bool.false_and]
        rfl
      · rw [if_neg hcontrol, decide_eq_true (Nat.le_of_not_lt hcontrol), Bool.true_and]
        have hrest := ih (text ++ [c])
        rw [List.append_assoc, List.singleton_append] at hrest
        exact hrest

theorem read_entry (k v rest : ByteString) :
    (jsonEscape k ++ (bytes "\":\"" ++ (jsonEscape v ++ (bytes "\"" ++ rest)))).foldlM
        Json.Reader.step (Json.inString members none []) =
      if noControl k && noControl v then
        rest.foldlM Json.Reader.step ⟨members ++ [(k, v)], .commaOrEnd⟩
      else none := by
  rw [List.foldlM_append, read_jsonEscape]
  cases hk : noControl k with
  | false => rfl
  | true =>
      change (jsonEscape v ++ (bytes "\"" ++ rest)).foldlM Json.Reader.step
        (Json.inString members (some k) []) = _
      rw [List.foldlM_append, read_jsonEscape]
      cases hv : noControl v with
      | false => rfl
      | true => rfl

end reading

def entriesClean (entries : List (ByteString × ByteString)) : Bool :=
  entries.all fun kv => noControl kv.1 && noControl kv.2

theorem writeEntries_cons (first : Bool) (kv : ByteString × ByteString)
    (rest : List (ByteString × ByteString)) :
    writeEntries first (kv :: rest) =
      (if first then [] else bytes ",") ++ bytes "\"" ++ jsonEscape kv.1 ++
        bytes "\":\"" ++ jsonEscape kv.2 ++ bytes "\"" ++ writeEntries false rest := rfl

theorem read_writeEntries_false (members entries : List (ByteString × ByteString))
    (rest : ByteString) :
    (writeEntries false entries ++ rest).foldlM Json.Reader.step ⟨members, .commaOrEnd⟩ =
      if entriesClean entries then
        rest.foldlM Json.Reader.step ⟨members ++ entries, .commaOrEnd⟩
      else none := by
  induction entries generalizing members with
  | nil =>
      rw [List.append_nil]
      rfl
  | cons kv more ih =>
      have hentry := read_entry members kv.1 kv.2 (writeEntries false more ++ rest)
      have hwritten : writeEntries false (kv :: more) ++ rest =
          44 :: 34 :: (jsonEscape kv.1 ++ (bytes "\":\"" ++ (jsonEscape kv.2 ++
            (bytes "\"" ++ (writeEntries false more ++ rest))))) := by
        rw [writeEntries_cons]
        simp only [List.append_assoc]
        rfl
      rw [hwritten]
      change List.foldlM _ (Json.inString members none []) _ = _
      rw [hentry, ih, List.append_assoc]
      unfold entriesClean
      rw [List.all_cons]
      cases noControl kv.1 && noControl kv.2 with
      | false => rfl
      | true => rfl

theorem read_writeEntries_true (kv : ByteString × ByteString)
    (more : List (ByteString × ByteString)) (rest : ByteString) :
    (writeEntries true (kv :: more) ++ rest).foldlM Json.Reader.step ⟨[], .nameOrEnd⟩ =
      if entriesClean (kv :: more) then
        rest.foldlM Json.Reader.step ⟨kv :: more, .commaOrEnd⟩
      else none := by
  have hentry := read_entry [] kv.1 kv.2 (writeEntries false more ++ rest)
  have hwritten : writeEntries true (kv :: more) ++ rest =
      34 :: (jsonEscape kv.1 ++ (bytes "\":\"" ++ (jsonEscape kv.2 ++
        (bytes "\"" ++ (writeEntries false more ++ rest))))) := by
    rw [writeEntries_cons]
    simp only [List.append_assoc]
    rfl
  rw [hwritten]
  change List.foldlM _ (Json.inString [] none []) _ = _
  rw [hentry, read_writeEntries_false]
  unfold entriesClean
  rw [List.all_cons]
  cases noControl kv.1 && noControl kv.2 with
  | false => rfl
  | true => rfl

theorem steps_serializeMatDesc (desc : Description) :
    (serializeMatDesc desc).foldlM Json.Reader.step ⟨[], .object⟩ =
      if entriesClean desc.entries then some ⟨desc.entries, .nothing⟩ else none := by
  unfold serializeMatDesc SortedMap.isEmpty
  cases desc.entries with
  | nil => rfl
  | cons kv more =>
      change (bytes "\x7b" ++ writeEntries true (kv :: more) ++ bytes "\x7d").foldlM
        Json.Reader.step ⟨[], .object⟩ = _
      rw [List.append_assoc]
      change (writeEntries true (kv :: more) ++ bytes "\x7d").foldlM
        Json.Reader.step ⟨[], .nameOrEnd⟩ = _
      rw [read_writeEntries_true]
      cases entriesClean (kv :: more) with
      | false => rfl
      | true => rfl

theorem read_serializeMatDesc (desc : Description) :
    Json.readObject (serializeMatDesc desc) =
      if Utf8 (serializeMatDesc desc) ∧ entriesClean desc.entries = true then
        some desc.entries
      else none := by
  unfold Json.readObject
  rw [steps_serializeMatDesc]
  by_cases hutf8 : Utf8 (serializeMatDesc desc)
  · rw [if_pos hutf8, if_congr (and_iff_right hutf8) rfl rfl]
    cases entriesClean desc.entries with
    | false => rfl
    | true => rfl
  · rw [if_neg hutf8, if_neg (fun h => hutf8 h.1)]

/-!
# What is valid
-/

/-- A character that is escaped is a character of its own. -/
theorem utf8_append_jsonEscape (u s : ByteString) :
    Utf8 (u ++ jsonEscape s) ↔ Utf8 (u ++ s) := by
  induction s generalizing u with
  | nil => exact Iff.rfl
  | cons c rest ih =>
      have hnext : Utf8 (jsonEscape rest) ↔ Utf8 rest := ih []
      unfold jsonEscape at ih hnext ⊢
      rw [List.flatMap_cons]
      unfold jsonEscapeByte at ih hnext ⊢
      by_cases hquote : c = 34
      · rw [if_pos hquote, hquote, List.cons_append, List.singleton_append,
          utf8_around (by decide), utf8_around (by decide), utf8_cons (by decide), hnext]
      · rw [if_neg hquote]
        by_cases hslash : c = 92
        · rw [if_pos hslash, hslash, List.cons_append, List.singleton_append,
            utf8_around (by decide), utf8_around (by decide), utf8_cons (by decide), hnext]
        · rw [if_neg hslash, ← List.append_assoc, ih]
          simp only [List.append_assoc, List.singleton_append]

theorem utf8_jsonEscape (s : ByteString) : Utf8 (jsonEscape s) ↔ Utf8 s :=
  utf8_append_jsonEscape [] s

theorem utf8_entry (first : Bool) (kv : ByteString × ByteString) (rest : ByteString) :
    Utf8 ((if first then [] else bytes ",") ++ bytes "\"" ++ jsonEscape kv.1 ++
        bytes "\":\"" ++ jsonEscape kv.2 ++ bytes "\"" ++ rest) ↔
      (Utf8 kv.1 ∧ Utf8 kv.2) ∧ Utf8 rest := by
  have hquote : Utf8 (34 :: (jsonEscape kv.1 ++ 34 :: 58 :: 34 ::
      (jsonEscape kv.2 ++ 34 :: rest))) ↔ (Utf8 kv.1 ∧ Utf8 kv.2) ∧ Utf8 rest := by
    rw [utf8_cons (by decide), utf8_around (by decide), utf8_cons (by decide),
      utf8_cons (by decide), utf8_around (by decide), utf8_jsonEscape, utf8_jsonEscape,
      and_assoc]
  have hpieces : forall c : ByteString, c ++ bytes "\"" ++ jsonEscape kv.1 ++
      bytes "\":\"" ++ jsonEscape kv.2 ++ bytes "\"" ++ rest =
        c ++ 34 :: (jsonEscape kv.1 ++ 34 :: 58 :: 34 :: (jsonEscape kv.2 ++ 34 :: rest)) := by
    intro c
    simp only [List.append_assoc]
    rfl
  rw [hpieces]
  cases first with
  | true => exact hquote
  | false => exact (utf8_cons (b := 44) (by decide) _).trans hquote

theorem utf8_writeEntries (first : Bool) (entries : List (ByteString × ByteString))
    (rest : ByteString) :
    Utf8 (writeEntries first entries ++ rest) ↔
      (forall kv, kv ∈ entries -> Utf8 kv.1 ∧ Utf8 kv.2) ∧ Utf8 rest := by
  induction entries generalizing first with
  | nil =>
      constructor
      · intro hrest
        exact ⟨fun kv hkv => (nomatch hkv), hrest⟩
      · intro hboth
        exact hboth.2
  | cons kv more ih =>
      rw [writeEntries_cons, List.append_assoc, utf8_entry, ih, List.forall_mem_cons, and_assoc,
        and_assoc, and_assoc]

theorem utf8_serializeMatDesc (desc : Description) :
    Utf8 (serializeMatDesc desc) ↔
      forall kv, kv ∈ desc.entries -> Utf8 kv.1 ∧ Utf8 kv.2 := by
  unfold serializeMatDesc SortedMap.isEmpty
  cases desc.entries with
  | nil => exact iff_of_true (by decide +kernel) (fun kv hkv => (nomatch hkv))
  | cons kv more =>
      change Utf8 (bytes "\x7b" ++ writeEntries true (kv :: more) ++ bytes "\x7d") ↔ _
      rw [List.append_assoc]
      change Utf8 (123 :: (writeEntries true (kv :: more) ++ bytes "\x7d")) ↔ _
      rw [utf8_cons (by decide), utf8_writeEntries]
      exact and_iff_left (by decide +kernel)

theorem entriesClean_iff (entries : List (ByteString × ByteString)) :
    entriesClean entries = true ↔
      forall kv, kv ∈ entries ->
        (forall c, c ∈ kv.1 -> 32 ≤ c.toNat) ∧ forall c, c ∈ kv.2 -> 32 ≤ c.toNat := by
  unfold entriesClean noControl
  simp only [List.all_eq_true, Bool.and_eq_true, decide_eq_true_eq]

theorem noControl_jsonEscape {s : ByteString} (hs : forall c, c ∈ s -> 32 ≤ c.toNat) :
    forall c, c ∈ jsonEscape s -> 32 ≤ c.toNat := by
  intro c hc
  rcases List.mem_flatMap.mp hc with ⟨b, hb, hcb⟩
  unfold jsonEscapeByte at hcb
  have hmark : c = 34 ∨ c = 92 ∨ c = b := by
    split at hcb
    · simp only [List.mem_cons, List.not_mem_nil, or_false] at hcb
      rcases hcb with heq | heq
      · exact Or.inr (Or.inl heq)
      · exact Or.inl heq
    · split at hcb
      · simp only [List.mem_cons, List.not_mem_nil, or_false, or_self] at hcb
        exact Or.inr (Or.inl hcb)
      · exact Or.inr (Or.inr (List.mem_singleton.mp hcb))
  rcases hmark with heq | heq | heq
  · rw [heq]
    decide
  · rw [heq]
    decide
  · rw [heq]
    exact hs b hb

theorem noControl_writeEntries (first : Bool) {entries : List (ByteString × ByteString)}
    (hclean : forall kv, kv ∈ entries ->
      (forall c, c ∈ kv.1 -> 32 ≤ c.toNat) ∧ forall c, c ∈ kv.2 -> 32 ≤ c.toNat) :
    forall c, c ∈ writeEntries first entries -> 32 ≤ c.toNat := by
  induction entries generalizing first with
  | nil => exact fun c hc => (nomatch hc)
  | cons kv more ih =>
      have hmark : forall c, c ∈ bytes ",\":" -> 32 ≤ c.toNat := by decide +kernel
      have hkv := hclean kv List.mem_cons_self
      intro c hc
      rw [writeEntries_cons] at hc
      simp only [List.mem_append] at hc
      rcases hc with (((((hcomma | hopen) | hkey) | hbetween) | hvalue) | hclose) | hmore
      · cases first with
        | true => cases hcomma
        | false => exact hmark c (List.mem_append_left _ hcomma)
      · exact hmark c (by rw [List.mem_singleton.mp hopen]; decide)
      · exact noControl_jsonEscape hkv.1 c hkey
      · apply hmark c
        revert c
        decide +kernel
      · exact noControl_jsonEscape hkv.2 c hvalue
      · exact hmark c (by rw [List.mem_singleton.mp hclose]; decide)
      · exact ih false (fun kv' hkv' => hclean kv' (List.mem_cons_of_mem _ hkv')) c hmore

theorem noControl_serializeMatDesc {desc : Description}
    (hclean : entriesClean desc.entries = true) :
    forall c, c ∈ serializeMatDesc desc -> 32 ≤ c.toNat := by
  have hbrace : forall c, c ∈ bytes "\x7b\x7d" -> 32 ≤ c.toNat := by decide +kernel
  have hentries := noControl_writeEntries true ((entriesClean_iff _).mp hclean)
  intro c hc
  unfold serializeMatDesc at hc
  split at hc
  · exact hbrace c hc
  · rcases List.mem_append.mp hc with hfirst | hlast
    · rcases List.mem_append.mp hfirst with hopen | hmem
      · exact hbrace c (by rw [List.mem_singleton.mp hopen]; decide)
      · exact hentries c hmem
    · exact hbrace c (by rw [List.mem_singleton.mp hlast]; decide)

theorem nodup_keys (desc : Description) : (desc.entries.map Prod.fst).Nodup := by
  unfold List.Nodup
  rw [List.pairwise_map]
  refine desc.sorted.imp ?_
  intro a b hless heq
  have hirrefl : caseSensitiveLess b.1 b.1 = false := SortedMap.less_irrefl b.1
  rw [heq, hirrefl] at hless
  cases hless

theorem mem_entries_iff_find? (desc : Description) (k v : ByteString) :
    (k, v) ∈ desc.entries ↔ desc.find? k = some v := by
  rw [SortedMap.mem_entries_iff, SortedMap.find?_eq]
  constructor
  · intro hfound
    rw [hfound]
    rfl
  · intro hfound
    rcases Option.map_eq_some_iff.mp hfound with ⟨e, hentry, hvalue⟩
    have hsame := List.find?_some hentry
    rw [equivalent_caseSensitive] at hsame
    rw [hentry, ← hsame, ← hvalue]

/--
A description can be read back when and only when all its keys and values are UTF-8
without control characters: they are not escaped.
-/
theorem roundTrips_iff (desc : Description) :
    RoundTrips desc ↔
      forall kv, kv ∈ desc.entries -> Printable kv.1 ∧ Printable kv.2 := by
  have hboth : (Utf8 (serializeMatDesc desc) ∧ entriesClean desc.entries = true) ↔
      forall kv, kv ∈ desc.entries -> Printable kv.1 ∧ Printable kv.2 := by
    rw [utf8_serializeMatDesc, entriesClean_iff]
    constructor
    · rintro ⟨hutf8, hclean⟩ kv hkv
      exact ⟨⟨(hutf8 kv hkv).1, (hclean kv hkv).1⟩, (hutf8 kv hkv).2, (hclean kv hkv).2⟩
    · intro hall
      exact ⟨fun kv hkv => ⟨(hall kv hkv).1.utf8, (hall kv hkv).2.utf8⟩,
        fun kv hkv => ⟨(hall kv hkv).1.noControl, (hall kv hkv).2.noControl⟩⟩
  rw [← hboth]
  constructor
  · rintro ⟨⟨members, hread, _⟩, _⟩
    rw [read_serializeMatDesc] at hread
    by_contra hnot
    rw [if_neg hnot] at hread
    cases hread
  · intro hvalid
    have hcontrol := noControl_serializeMatDesc hvalid.2
    refine ⟨⟨desc.entries, ?_, nodup_keys desc, ?_⟩, ?_, ?_⟩
    · rw [read_serializeMatDesc, if_pos hvalid]
    · exact mem_entries_iff_find? desc
    · intro hfeed
      exact absurd (hcontrol 10 hfeed) (by decide)
    · intro hreturn
      exact absurd (hcontrol 13 hreturn) (by decide)

/-- A line feed is written as it is. -/
theorem not_roundTrips_line :
    ¬ RoundTrips (SortedMap.ofList [(bytes "note", bytes "a\nb")]) := by
  rintro ⟨_, hfeed, _⟩
  exact hfeed (by decide +kernel)

end Crypto
end OssSdk
