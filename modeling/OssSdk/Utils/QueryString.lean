import OssSdk.Utils.HttpUtils
import OssSdk.Utils.StringUtils
import Mathlib.Data.List.TakeWhile

/-!
# Queries that are written and read again

The parameters of a query that is written from a map are those of the map, and each of
them is there once.
-/

namespace OssSdk
namespace Utils

open Foundation

/-- A parameter that is encoded already, as a piece of a query. -/
def queryItem (parameter : ByteString × ByteString) : ByteString :=
  if parameter.2.isEmpty then parameter.1
  else parameter.1 ++ bytes "=" ++ parameter.2

/-- A parameter that can be told from the others in a query. -/
structure Encoded (parameter : ByteString × ByteString) : Prop where
  name : 38 ∉ parameter.1
  equals : 61 ∉ parameter.1
  value : 38 ∉ parameter.2

def AllEncoded (parameters : ParameterCollection) : Prop :=
  forall parameter, parameter ∈ parameters.entries -> Encoded parameter

def queryOf (url : ByteString) : ByteString := (url.dropWhile (· != 63)).drop 1

/-- The parameters in the order of the query, those that come twice included. -/
def queryEntries (url : ByteString) : List (ByteString × ByteString) :=
  if (queryOf url).isEmpty then [] else (queryItems [] (queryOf url)).map queryEntry

/-- How often a parameter is in the query of a URL. -/
def copies (name url : ByteString) : Nat :=
  (queryEntries url).countP fun parameter => parameter.1 == name

/-!
# One parameter
-/

theorem queryEntry_queryItem {parameter : ByteString × ByteString}
    (hencoded : Encoded parameter) : queryEntry (queryItem parameter) = parameter := by
  have hname : forall c, c ∈ parameter.1 -> (c != 61) = true := by
    intro c hc
    have hne : c ≠ 61 := fun heq => hencoded.equals (heq ▸ hc)
    simpa using hne
  unfold queryItem queryEntry
  split
  · rename_i hempty
    rw [List.takeWhile_eq_self_iff.mpr hname, List.dropWhile_eq_nil_iff.mpr hname]
    exact Prod.ext rfl (List.isEmpty_iff.mp hempty).symm
  · change (List.takeWhile _ (parameter.1 ++ [61] ++ parameter.2),
      (List.dropWhile _ (parameter.1 ++ [61] ++ parameter.2)).drop 1) = _
    rw [List.append_assoc, List.takeWhile_append_of_pos hname,
      List.dropWhile_append_of_pos hname, List.singleton_append,
      List.takeWhile_cons_of_neg (by simp), List.dropWhile_cons_of_neg (by simp),
      List.append_nil]
    rfl

theorem ampersand_not_mem_queryItem {parameter : ByteString × ByteString}
    (hencoded : Encoded parameter) : 38 ∉ queryItem parameter := by
  unfold queryItem
  split
  · exact hencoded.name
  · rw [List.mem_append, List.mem_append, not_or, not_or]
    exact ⟨⟨hencoded.name, by decide⟩, hencoded.value⟩

theorem queryItem_eq_nil {parameter : ByteString × ByteString}
    (hnil : queryItem parameter = []) : parameter.1 = [] := by
  unfold queryItem at hnil
  split at hnil
  · exact hnil
  · rw [List.append_eq_nil_iff, List.append_eq_nil_iff] at hnil
    exact hnil.1.1

/-!
# The pieces of a query
-/

theorem queryItems_append {u : ByteString} (hu : 38 ∉ u) (piece rest : ByteString) :
    queryItems piece (u ++ rest) = queryItems (piece ++ u) rest := by
  induction u generalizing piece with
  | nil => rw [List.append_nil, List.nil_append]
  | cons c u' ih =>
      have hc : (c == 38) = false := by
        rw [beq_eq_false_iff_ne]
        exact fun heq => hu (heq ▸ List.mem_cons_self)
      rw [List.cons_append, queryItems, hc, if_neg Bool.false_ne_true,
        ih fun hmem => hu (List.mem_cons_of_mem c hmem), List.append_assoc,
        List.singleton_append]

theorem StringJoin_cons (delimiter element next : ByteString) (rest : List ByteString) :
    StringJoin delimiter (element :: next :: rest) =
      element ++ delimiter ++ StringJoin delimiter (next :: rest) := rfl

theorem StringJoin_concat (delimiter : ByteString) {elements : List ByteString}
    (hne : elements ≠ []) (last : ByteString) :
    StringJoin delimiter (elements ++ [last]) =
      StringJoin delimiter elements ++ delimiter ++ last := by
  induction elements with
  | nil => exact absurd rfl hne
  | cons element rest ih =>
      cases rest with
      | nil => rfl
      | cons next rest' =>
          rw [List.cons_append, List.cons_append, StringJoin_cons, StringJoin_cons,
            ← List.cons_append, ih (List.cons_ne_nil _ _)]
          simp only [List.append_assoc]

theorem mem_StringJoin {delimiter : ByteString} {elements : List ByteString} {c : UInt8}
    (hc : c ∈ StringJoin delimiter elements) :
    c ∈ delimiter ∨ exists element, element ∈ elements ∧ c ∈ element := by
  induction elements with
  | nil => cases hc
  | cons element rest ih =>
      cases rest with
      | nil => exact Or.inr ⟨element, List.mem_singleton_self _, hc⟩
      | cons next rest' =>
          rw [StringJoin_cons, List.mem_append, List.mem_append] at hc
          rcases hc with (helement | hdelimiter) | hmore
          · exact Or.inr ⟨element, List.mem_cons_self, helement⟩
          · exact Or.inl hdelimiter
          · rcases ih hmore with hin | hexists
            · exact Or.inl hin
            · rcases hexists with ⟨other, hother, hin⟩
              exact Or.inr ⟨other, List.mem_cons_of_mem element hother, hin⟩

theorem StringJoin_ne_nil (delimiter : ByteString) {elements : List ByteString}
    {last : ByteString} (hlast : elements.getLast? = some last) (hne : last ≠ []) :
    StringJoin delimiter elements ≠ [] := by
  rcases List.getLast?_eq_some_iff.mp hlast with ⟨first, hfirst⟩
  rw [hfirst]
  cases first with
  | nil => exact hne
  | cons element rest =>
      rw [StringJoin_concat delimiter (List.cons_ne_nil _ _)]
      exact List.append_ne_nil_of_right_ne_nil _ hne

/-- Pieces without ampersands come out again, unless the last of them is empty. -/
theorem queryItems_StringJoin {items : List ByteString} {last : ByteString}
    (hitems : forall item, item ∈ items -> 38 ∉ item)
    (hlast : items.getLast? = some last) (hne : last ≠ []) :
    queryItems [] (StringJoin (bytes "&") items) = items := by
  induction items with
  | nil => cases hlast
  | cons item rest ih =>
      have hitem := hitems item List.mem_cons_self
      cases rest with
      | nil =>
          change queryItems [] item = [item]
          have happend := queryItems_append hitem [] []
          rw [List.append_nil] at happend
          rw [happend]
          rfl
      | cons next rest' =>
          rw [List.getLast?_cons_cons] at hlast
          have hrest := ih (fun other hother =>
            hitems other (List.mem_cons_of_mem item hother)) hlast
          have hmore : (StringJoin (bytes "&") (next :: rest')).isEmpty = false :=
            List.isEmpty_eq_false_iff.mpr (StringJoin_ne_nil _ hlast hne)
          rw [StringJoin_cons, List.append_assoc, queryItems_append hitem]
          change queryItems item (38 :: StringJoin (bytes "&") (next :: rest')) = _
          rw [queryItems, if_pos (by decide), hmore, if_neg Bool.false_ne_true, hrest]

theorem queryOf_append {base : ByteString} (hbase : 63 ∉ base) (query : ByteString) :
    queryOf (base ++ bytes "?" ++ query) = query := by
  have hall : forall c, c ∈ base -> (c != 63) = true := by
    intro c hc
    have hne : c ≠ 63 := fun heq => hbase (heq ▸ hc)
    simpa using hne
  change (List.dropWhile _ (base ++ [63] ++ query)).drop 1 = query
  rw [List.append_assoc, List.dropWhile_append_of_pos hall, List.singleton_append,
    List.dropWhile_cons_of_neg (by simp)]
  rfl

theorem takeWhile_append_query {base : ByteString} (hbase : 63 ∉ base)
    (query : ByteString) :
    (base ++ bytes "?" ++ query).takeWhile (· != 63) = base := by
  have hall : forall c, c ∈ base -> (c != 63) = true := by
    intro c hc
    have hne : c ≠ 63 := fun heq => hbase (heq ▸ hc)
    simpa using hne
  change List.takeWhile _ (base ++ [63] ++ query) = base
  rw [List.append_assoc, List.takeWhile_append_of_pos hall, List.singleton_append,
    List.takeWhile_cons_of_neg (by simp), List.append_nil]

theorem query_not_mem_takeWhile (url : ByteString) : 63 ∉ url.takeWhile (· != 63) := by
  intro hmem
  have hall := List.all_takeWhile (p := fun c : UInt8 => c != 63) (l := url)
  rw [List.all_eq_true] at hall
  exact absurd (hall 63 hmem) (by decide)

/-- The parameters of a URL that is made of parameters, of which the last is not empty. -/
theorem queryEntries_pieces {base : ByteString} (hbase : 63 ∉ base)
    {parameters : List (ByteString × ByteString)} {last : ByteString × ByteString}
    (hencoded : forall parameter, parameter ∈ parameters -> Encoded parameter)
    (hlast : parameters.getLast? = some last) (hne : queryItem last ≠ []) :
    queryEntries (base ++ bytes "?" ++
      StringJoin (bytes "&") (parameters.map queryItem)) = parameters := by
  have hlastItem : (parameters.map queryItem).getLast? = some (queryItem last) := by
    rw [List.getLast?_map, hlast]
    rfl
  have hquery : (StringJoin (bytes "&") (parameters.map queryItem)).isEmpty = false :=
    List.isEmpty_eq_false_iff.mpr (StringJoin_ne_nil _ hlastItem hne)
  unfold queryEntries
  rw [queryOf_append hbase, hquery, if_neg Bool.false_ne_true,
    queryItems_StringJoin ?_ hlastItem hne, List.map_map]
  · refine (List.map_congr_left fun parameter hmem => ?_).trans (List.map_id _)
    exact queryEntry_queryItem (hencoded parameter hmem)
  · intro item hitem
    rcases List.mem_map.mp hitem with ⟨parameter, hmem, heq⟩
    rw [← heq]
    exact ampersand_not_mem_queryItem (hencoded parameter hmem)

theorem queryEntries_join {base : ByteString} (hbase : 63 ∉ base)
    {parameters : List (ByteString × ByteString)} {last : ByteString × ByteString}
    (hencoded : forall parameter, parameter ∈ parameters -> Encoded parameter)
    (hlast : parameters.getLast? = some last) (hname : last.1 ≠ []) :
    queryEntries (base ++ bytes "?" ++
      StringJoin (bytes "&") (parameters.map queryItem)) = parameters :=
  queryEntries_pieces hbase hencoded hlast fun hnil => hname (queryItem_eq_nil hnil)

theorem ToEncodedParameters_eq (url : ByteString) :
    ToEncodedParameters url = SortedMap.ofList (queryEntries url) := by
  unfold ToEncodedParameters queryEntries queryOf
  simp only
  split
  · rfl
  · rfl

/-!
# Maps that are written and read again
-/

theorem takeWhile_subset {p : UInt8 -> Bool} {s : ByteString} {c : UInt8}
    (hc : c ∈ s.takeWhile p) : c ∈ s :=
  (List.takeWhile_prefix p).subset hc

theorem ampersand_not_mem_queryItems {piece s item : ByteString} (hpiece : 38 ∉ piece)
    (hitem : item ∈ queryItems piece s) : 38 ∉ item := by
  induction s generalizing piece with
  | nil =>
      rw [List.mem_singleton.mp hitem]
      exact hpiece
  | cons c rest ih =>
      rw [queryItems] at hitem
      split at hitem
      · rcases List.mem_cons.mp hitem with heq | hmore
        · rw [heq]
          exact hpiece
        · split at hmore
          · cases hmore
          · exact ih List.not_mem_nil hmore
      · rename_i hc
        refine ih ?_ hitem
        rw [List.mem_append, List.mem_singleton, not_or]
        exact ⟨hpiece, fun heq => hc (by simp [heq])⟩

theorem encoded_queryEntries {url : ByteString} {parameter : ByteString × ByteString}
    (hmem : parameter ∈ queryEntries url) : Encoded parameter := by
  unfold queryEntries at hmem
  split at hmem
  · cases hmem
  · rcases List.mem_map.mp hmem with ⟨item, hitem, heq⟩
    have hampersand := ampersand_not_mem_queryItems List.not_mem_nil hitem
    rw [← heq]
    refine ⟨fun hc => hampersand (takeWhile_subset hc), ?_, ?_⟩
    · intro hc
      have hall := List.all_takeWhile (p := fun c : UInt8 => c != 61) (l := item)
      rw [List.all_eq_true] at hall
      exact absurd (hall 61 hc) (by decide)
    · intro hc
      exact hampersand ((List.dropWhile_suffix _).subset (List.drop_subset 1 _ hc))

theorem allEncoded_ToEncodedParameters (url : ByteString) :
    AllEncoded (ToEncodedParameters url) := by
  intro parameter hmem
  rw [ToEncodedParameters_eq] at hmem
  exact encoded_queryEntries (SortedMap.mem_ofList hmem)

theorem AllEncoded.erase {parameters : ParameterCollection}
    (hparameters : AllEncoded parameters) (name : ByteString) :
    AllEncoded (parameters.erase name) := fun parameter hmem =>
  hparameters parameter (List.mem_filter.mp hmem).1

theorem mem_insertOrAssign {parameters : ParameterCollection} {name value : ByteString}
    {parameter : ByteString × ByteString}
    (hmem : parameter ∈ (parameters.insertOrAssign name value).entries) :
    parameter = (name, value) ∨ parameter ∈ parameters.entries := by
  rw [SortedMap.mem_entries_iff, SortedMap.findEntry_insertOrAssign] at hmem
  split at hmem
  · rename_i hsame
    have hname := (equivalent_caseSensitive _ _).mp hsame
    have hvalue := congrArg Prod.snd (Option.some.inj hmem)
    exact Or.inl (Prod.ext hname.symm hvalue.symm)
  · exact Or.inr ((SortedMap.mem_entries_iff _ _).mpr hmem)

theorem AllEncoded.insertOrAssign {parameters : ParameterCollection}
    (hparameters : AllEncoded parameters) {name value : ByteString}
    (hencoded : Encoded (name, value)) :
    AllEncoded (parameters.insertOrAssign name value) := by
  intro parameter hmem
  rcases mem_insertOrAssign hmem with heq | hold
  · rw [heq]
    exact hencoded
  · exact hparameters parameter hold

/-- Of names only the empty one can come before the others and be empty. -/
theorem getLast_named {parameters : ParameterCollection} {name : ByteString}
    (hname : name ≠ []) (hfound : (parameters.find? name).isSome = true) :
    exists last, parameters.entries.getLast? = some last ∧ last.1 ≠ [] := by
  rw [SortedMap.find?_eq, Option.isSome_map, Option.isSome_iff_exists] at hfound
  rcases hfound with ⟨parameter, hentry⟩
  have hmem : parameter ∈ parameters.entries := List.mem_of_find?_eq_some hentry
  have hsame : parameter.1 = name := by
    have hpred := List.find?_some hentry
    exact (equivalent_caseSensitive _ _).mp hpred
  cases hlast : parameters.entries.getLast? with
  | none =>
      rw [List.getLast?_eq_none_iff.mp hlast] at hmem
      cases hmem
  | some last =>
      refine ⟨last, rfl, fun hnil => ?_⟩
      rcases List.getLast?_eq_some_iff.mp hlast with ⟨first, hfirst⟩
      have hsorted := parameters.sorted
      rw [hfirst] at hmem hsorted
      rcases List.mem_append.mp hmem with hbefore | hend
      · have hless := (List.pairwise_append.mp hsorted).2.2 parameter hbefore last
          (List.mem_singleton_self _)
        rw [hnil, hsame] at hless
        cases name with
        | nil => exact hname rfl
        | cons c rest => cases hless
      · rw [List.mem_singleton.mp hend, hnil] at hsame
        exact hname hsame.symm

/-- A map of encoded parameters, written as a query. -/
theorem queryEntries_map {base : ByteString} (hbase : 63 ∉ base)
    {parameters : ParameterCollection} (hparameters : AllEncoded parameters)
    {name : ByteString} (hname : name ≠ [])
    (hfound : (parameters.find? name).isSome = true) :
    queryEntries (base ++ bytes "?" ++
      StringJoin (bytes "&") (parameters.entries.map queryItem)) =
        parameters.entries := by
  rcases getLast_named hname hfound with ⟨last, hlast, hnamed⟩
  exact queryEntries_join hbase hparameters hlast hnamed

/-- A name is in a map once or not at all. -/
theorem countP_entries (parameters : ParameterCollection) (name : ByteString) :
    (parameters.entries.countP fun parameter => parameter.1 == name) =
      if (parameters.find? name).isSome then 1 else 0 := by
  have hnodup : (parameters.entries.map Prod.fst).Nodup := by
    rw [List.Nodup, List.pairwise_map]
    refine parameters.sorted.imp fun {a b} hless heq => ?_
    rw [heq] at hless
    have hself : caseSensitiveLess b.1 b.1 = false := SortedMap.less_irrefl b.1
    rw [hself] at hless
    cases hless
  have hcount : (parameters.entries.countP fun parameter => parameter.1 == name) =
      (parameters.entries.map Prod.fst).count name := by
    rw [List.count_eq_countP, List.countP_map]
    rfl
  have hmem : name ∈ parameters.entries.map Prod.fst ↔
      (parameters.find? name).isSome = true := by
    rw [SortedMap.find?_eq, Option.isSome_map]
    unfold SortedMap.findEntry
    rw [List.find?_isSome, List.mem_map]
    constructor
    · intro hexists
      rcases hexists with ⟨parameter, hin, heq⟩
      exact ⟨parameter, hin, (equivalent_caseSensitive _ _).mpr heq⟩
    · intro hexists
      rcases hexists with ⟨parameter, hin, hsame⟩
      exact ⟨parameter, hin, (equivalent_caseSensitive _ _).mp hsame⟩
  rw [hcount, hnodup.count]
  simp only [hmem]

/-!
# Parameters that are assigned
-/

def assignAll (parameters : ParameterCollection)
    (added : List (ByteString × ByteString)) : ParameterCollection :=
  added.foldl (fun m parameter => m.insertOrAssign parameter.1 parameter.2) parameters

theorem AllEncoded.assignAll {added : List (ByteString × ByteString)}
    {parameters : ParameterCollection} (hparameters : AllEncoded parameters)
    (hadded : forall parameter, parameter ∈ added -> Encoded parameter) :
    AllEncoded (assignAll parameters added) := by
  induction added generalizing parameters with
  | nil => exact hparameters
  | cons parameter rest ih =>
      exact ih
        (hparameters.insertOrAssign (hadded parameter List.mem_cons_self))
        fun other hother => hadded other (List.mem_cons_of_mem parameter hother)

theorem find?_assignAll {added : List (ByteString × ByteString)}
    (hnodup : (added.map Prod.fst).Nodup) (parameters : ParameterCollection)
    (name : ByteString) :
    (assignAll parameters added).find? name =
      (added.lookup name).or (parameters.find? name) := by
  induction added generalizing parameters with
  | nil => rfl
  | cons parameter rest ih =>
      rw [List.map_cons, List.nodup_cons] at hnodup
      rw [assignAll, List.foldl_cons]
      refine (ih hnodup.2 _).trans ?_
      rw [SortedMap.find?_insertOrAssign, List.lookup_cons]
      by_cases hsame : name = parameter.1
      · have hnone : rest.lookup name = none := by
          rw [List.lookup_eq_none_iff]
          intro other hother
          rw [bne_iff_ne]
          intro heq
          refine hnodup.1 ?_
          rw [← hsame, heq]
          exact List.mem_map_of_mem hother
        rw [hnone, if_pos ((equivalent_caseSensitive _ _).mpr hsame.symm),
          beq_iff_eq.mpr hsame]
        rfl
      · rw [if_neg (mt (equivalent_caseSensitive _ _).mp (Ne.symm hsame)),
          beq_eq_false_iff_ne.mpr hsame]

theorem ext_find? {parameters other : ParameterCollection}
    (hsame : forall name, parameters.find? name = other.find? name) :
    parameters = other := by
  have hentry : forall (m : ParameterCollection) (name : ByteString),
      m.findEntry name = (m.find? name).map fun value => (name, value) := by
    intro m name
    rw [SortedMap.find?_eq]
    cases hfound : m.findEntry name with
    | none => rfl
    | some parameter =>
        have hname : parameter.1 = name := by
          have hpred := List.find?_some hfound
          exact (equivalent_caseSensitive _ _).mp hpred
        rw [Option.map_some, Option.map_some, ← hname]
  apply SortedMap.ext_findEntry
  intro name
  rw [hentry, hentry, hsame]

theorem find?_erase (parameters : ParameterCollection) (name other : ByteString) :
    (parameters.erase name).find? other =
      if name = other then none else parameters.find? other := by
  rw [SortedMap.find?_eq, SortedMap.findEntry_erase, SortedMap.find?_eq]
  by_cases hsame : name = other
  · rw [if_pos hsame, if_pos ((equivalent_caseSensitive _ _).mpr hsame)]
    rfl
  · rw [if_neg hsame, if_neg (mt (equivalent_caseSensitive _ _).mp hsame)]

theorem findEntry_eq_none {parameters : ParameterCollection} {name : ByteString}
    (hnone : parameters.find? name = none) : parameters.findEntry name = none := by
  rw [SortedMap.find?_eq, Option.map_eq_none_iff] at hnone
  exact hnone

theorem find?_ofList_isSome {parameters : List (ByteString × ByteString)}
    {parameter : ByteString × ByteString} (hmem : parameter ∈ parameters) :
    ((SortedMap.ofList parameters : ParameterCollection).find?
      parameter.1).isSome = true := by
  induction parameters using List.reverseRecOn with
  | nil => cases hmem
  | append_singleton parameters last ih =>
      unfold SortedMap.ofList at ih ⊢
      rw [List.foldl_append, List.foldl_cons, List.foldl_nil, SortedMap.find?_emplace]
      split
      · rfl
      · rename_i hother
        rcases List.mem_append.mp hmem with hfirst | hlast
        · exact ih hfirst
        · rw [List.mem_singleton.mp hlast] at hother
          exact absurd (SortedMap.equivalent_refl _) hother

end Utils
end OssSdk
