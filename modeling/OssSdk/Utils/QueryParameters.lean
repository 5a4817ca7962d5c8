import OssSdk.Utils.PercentEncoding
import OssSdk.Utils.QueryString

/-!
# What a query says

Who receives a request takes its query apart and decodes the names and the values.  The
parameters that are found are those that the query was made of.
-/

namespace OssSdk
namespace Utils

open Foundation

def encodedParameter (parameter : ByteString × ByteString) : ByteString × ByteString :=
  (UrlEncode parameter.1, UrlEncode parameter.2)

def decodedParameter (parameter : ByteString × ByteString) : ByteString × ByteString :=
  (UrlDecode parameter.1, UrlDecode parameter.2)

/-- The value that a URL has for a parameter; nothing is said without a name. -/
def parameterOf (url name : ByteString) : Option ByteString :=
  if name = [] then none
  else (((queryEntries url).map decodedParameter).find? (·.1 == name)).map Prod.snd

/-- A URL with a query, when there is something to say. -/
def withQuery (base : ByteString) (parameters : ParameterCollection) : ByteString :=
  base ++ if (ToQueryString parameters).isEmpty then []
    else bytes "?" ++ ToQueryString parameters

theorem decodedParameter_encodedParameter (parameter : ByteString × ByteString) :
    decodedParameter (encodedParameter parameter) = parameter := by
  unfold decodedParameter encodedParameter
  rw [UrlDecode_UrlEncode, UrlDecode_UrlEncode]

theorem encoded_encodedParameter (parameter : ByteString × ByteString) :
    Encoded (encodedParameter parameter) :=
  ⟨ampersand_not_mem_UrlEncode _, not_mem_urlEncode (by decide) _ false,
    ampersand_not_mem_UrlEncode _⟩

theorem UrlEncode_isEmpty (src : ByteString) : (UrlEncode src).isEmpty = src.isEmpty := by
  cases src with
  | nil => rfl
  | cons c rest =>
      rw [List.isEmpty_eq_false_iff.mpr (UrlEncode_ne_nil (List.cons_ne_nil c rest))]
      rfl

theorem ToQueryString_eq (parameters : ParameterCollection) :
    ToQueryString parameters = StringJoin (bytes "&")
      ((parameters.entries.map encodedParameter).map queryItem) := by
  unfold ToQueryString
  rw [List.map_map]
  congr 1
  apply List.map_congr_left
  intro parameter _
  rcases parameter with ⟨name, value⟩
  simp only [Function.comp, encodedParameter, queryItem, UrlEncode_isEmpty]

theorem queryEntries_base {base : ByteString} (hbase : 63 ∉ base) :
    queryEntries base = [] := by
  have hall : forall c, c ∈ base -> (c != 63) = true := by
    intro c hc
    have hne : c ≠ 63 := fun heq => hbase (heq ▸ hc)
    simpa using hne
  unfold queryEntries queryOf
  rw [List.dropWhile_eq_nil_iff.mpr hall]
  rfl

/-- The empty name comes first, and so it is the last name only if it is alone. -/
theorem entries_of_last_unnamed {parameters : ParameterCollection}
    {last : ByteString × ByteString} (hlast : parameters.entries.getLast? = some last)
    (hnil : last.1 = []) : parameters.entries = [last] := by
  rcases List.getLast?_eq_some_iff.mp hlast with ⟨first, hfirst⟩
  have hsorted := parameters.sorted
  rw [hfirst] at hsorted ⊢
  cases first with
  | nil => rfl
  | cons parameter rest =>
      have hless := (List.pairwise_append.mp hsorted).2.2 parameter List.mem_cons_self
        last (List.mem_singleton_self _)
      have hnever : caseSensitiveLess parameter.1 [] = false := by
        cases parameter.1 with
        | nil => rfl
        | cons c rest => rfl
      rw [hnil, hnever] at hless
      cases hless

theorem find?_entries (parameters : ParameterCollection) (name : ByteString) :
    (parameters.entries.find? (·.1 == name)).map Prod.snd = parameters.find? name := by
  unfold SortedMap.find?
  congr 2
  funext parameter
  rw [Bool.eq_iff_iff, beq_iff_eq, equivalent_caseSensitive]

/-- The parameters of a query are those that it was made of. -/
theorem parameterOf_withQuery {base : ByteString} (hbase : 63 ∉ base)
    (parameters : ParameterCollection) {name : ByteString} (hname : name ≠ []) :
    parameterOf (withQuery base parameters) name = parameters.find? name := by
  have hmade := ToQueryString_eq parameters
  unfold parameterOf withQuery
  rw [if_neg hname, ← find?_entries parameters name]
  cases hlast : parameters.entries.getLast? with
  | none =>
      have hnil := List.getLast?_eq_none_iff.mp hlast
      rw [hnil] at hmade ⊢
      rw [hmade]
      change (((queryEntries (base ++ [])).map decodedParameter).find? _).map _ = _
      rw [List.append_nil, queryEntries_base hbase]
      rfl
  | some last =>
      by_cases hempty : queryItem (encodedParameter last) = []
      · have hunnamed : last.1 = [] := by
          have henc := queryItem_eq_nil hempty
          by_contra hne
          exact UrlEncode_ne_nil hne henc
        have halone := entries_of_last_unnamed hlast hunnamed
        rw [halone] at hmade ⊢
        have hquery : ToQueryString parameters = [] := hmade.trans hempty
        have hother : (last.1 == name) = false := by
          rw [beq_eq_false_iff_ne, hunnamed]
          exact hname.symm
        rw [hquery]
        change (((queryEntries (base ++ [])).map decodedParameter).find? _).map _ = _
        rw [List.append_nil, queryEntries_base hbase, List.find?_cons, hother]
        rfl
      · have hlastEncoded : (parameters.entries.map encodedParameter).getLast? =
            some (encodedParameter last) := by
          rw [List.getLast?_map, hlast]
          rfl
        have hall : forall parameter,
            parameter ∈ parameters.entries.map encodedParameter -> Encoded parameter := by
          intro parameter hmem
          rcases List.mem_map.mp hmem with ⟨plain, _, heq⟩
          rw [← heq]
          exact encoded_encodedParameter plain
        have hlastItem : ((parameters.entries.map encodedParameter).map queryItem).getLast? =
            some (queryItem (encodedParameter last)) := by
          rw [List.getLast?_map, hlastEncoded]
          rfl
        have hquery : (ToQueryString parameters).isEmpty = false := by
          rw [hmade]
          exact List.isEmpty_eq_false_iff.mpr (StringJoin_ne_nil _ hlastItem hempty)
        rw [hquery, if_neg Bool.false_ne_true, ← List.append_assoc, hmade,
          queryEntries_pieces hbase hall hlastEncoded hempty, List.map_map]
        congr 2
        refine (List.map_congr_left fun parameter _ => ?_).trans (List.map_id _)
        exact decodedParameter_encodedParameter parameter

/-!
# Queries that are read as maps

The order of the encoded names need not be the order of the names.
-/

/-- The parameters of a URL, with their names and values decoded. -/
def decodedParameters (url : ByteString) : List (ByteString × ByteString) :=
  (ToEncodedParameters url).entries.map decodedParameter

theorem UrlEncode_injective {s t : ByteString} (hst : UrlEncode s = UrlEncode t) :
    s = t := by
  rw [← UrlDecode_UrlEncode s, hst, UrlDecode_UrlEncode]

theorem name_inj {parameters : ParameterCollection} :
    parameters.entries.Pairwise fun a b => a.1 ≠ b.1 := by
  apply parameters.sorted.imp
  intro a b hless heq
  rw [heq] at hless
  have hself : caseSensitiveLess b.1 b.1 = false := SortedMap.less_irrefl b.1
  rw [hself] at hless
  cases hless

theorem distinct_of_names {parameters : List (ByteString × ByteString)}
    (hnames : parameters.Pairwise fun a b => a.1 ≠ b.1) :
    parameters.Pairwise fun a b =>
      SortedMap.equivalent caseSensitiveLess a.1 b.1 = false := by
  apply hnames.imp
  intro a b hne
  rw [Bool.eq_false_iff]
  exact mt (equivalent_caseSensitive _ _).mp hne

theorem queryEntries_ToQueryString {base : ByteString} (hbase : 63 ∉ base)
    {parameters : ParameterCollection}
    (hnamed : forall parameter, parameter ∈ parameters.entries -> parameter.1 ≠ []) :
    queryEntries (base ++ bytes "?" ++ ToQueryString parameters) =
      parameters.entries.map encodedParameter := by
  rw [ToQueryString_eq]
  cases hlast : parameters.entries.getLast? with
  | none =>
      rw [List.getLast?_eq_none_iff.mp hlast]
      unfold queryEntries
      rw [queryOf_append hbase]
      rfl
  | some last =>
      have hlastEncoded : (parameters.entries.map encodedParameter).getLast? =
          some (encodedParameter last) := by
        rw [List.getLast?_map, hlast]
        rfl
      have hname : (encodedParameter last).1 ≠ [] :=
        UrlEncode_ne_nil (hnamed last (List.mem_of_getLast? hlast))
      apply queryEntries_join hbase _ hlastEncoded hname
      intro parameter hmem
      rcases List.mem_map.mp hmem with ⟨plain, _, heq⟩
      rw [← heq]
      exact encoded_encodedParameter plain

theorem decodedParameters_perm {base : ByteString} (hbase : 63 ∉ base)
    {parameters : ParameterCollection}
    (hnamed : forall parameter, parameter ∈ parameters.entries -> parameter.1 ≠ []) :
    (decodedParameters (base ++ bytes "?" ++ ToQueryString parameters)).Perm
      parameters.entries := by
  have hdistinct : (parameters.entries.map encodedParameter).Pairwise fun a b =>
      SortedMap.equivalent caseSensitiveLess a.1 b.1 = false := by
    apply distinct_of_names
    rw [List.pairwise_map]
    exact name_inj.imp fun hne heq => hne (UrlEncode_injective heq)
  have hperm := (SortedMap.entries_ofList_perm hdistinct).map decodedParameter
  have hdecoded : (parameters.entries.map encodedParameter).map decodedParameter =
      parameters.entries := by
    rw [List.map_map]
    apply (List.map_congr_left fun parameter _ => _).trans (List.map_id _)
    intro parameter _
    exact decodedParameter_encodedParameter parameter
  unfold decodedParameters
  rw [ToEncodedParameters_eq, queryEntries_ToQueryString hbase hnamed]
  rw [hdecoded] at hperm
  exact hperm

/-- A map with names comes back from its query, and so does every text from its code. -/
theorem query_round_trip {base : ByteString} (hbase : 63 ∉ base)
    (parameters : ParameterCollection)
    (hnamed : forall parameter, parameter ∈ parameters.entries -> parameter.1 ≠ [])
    (s : ByteString) :
    ((decodedParameters (base ++ bytes "?" ++ ToQueryString parameters)).Perm
        parameters.entries ∧
      SortedMap.ofList (decodedParameters
        (base ++ bytes "?" ++ ToQueryString parameters)) = parameters) ∧
    UrlDecode (UrlEncode s) = s ∧ UrlDecode (UrlEncodePath s) = s := by
  have hperm := decodedParameters_perm hbase hnamed
  refine ⟨⟨hperm, ?_⟩, UrlDecode_UrlEncode s, UrlDecode_UrlEncodePath s⟩
  have hdistinct := distinct_of_names (@name_inj parameters)
  rw [← SortedMap.ofList_eq_of_perm hdistinct hperm.symm]
  exact SortedMap.ofList_entries parameters

theorem query_round_trip_reserved :
    let parameters : ParameterCollection :=
      SortedMap.ofList [(bytes "a&b=?", bytes "x y/%"), (bytes "acl", [])]
    ((decodedParameters (bytes "/bucket/key" ++ bytes "?" ++
          ToQueryString parameters)).Perm parameters.entries ∧
      SortedMap.ofList (decodedParameters (bytes "/bucket/key" ++ bytes "?" ++
        ToQueryString parameters)) = parameters) ∧
    UrlDecode (UrlEncode (bytes "%2F+")) = bytes "%2F+" ∧
    UrlDecode (UrlEncodePath (bytes "%2F+")) = bytes "%2F+" :=
  query_round_trip (by decide) _ (by decide) _

end Utils
end OssSdk
