import Mathlib.Data.List.Basic
import Mathlib.Data.List.Induction
import Mathlib.Data.List.Pairwise
import Mathlib.Order.Defs.Unbundled

/-!
# Sorted maps

An ordered associative container: entries in strictly increasing order of their
keys.  Two keys neither of which is less than the other are the same key, so at
most one entry has it.
-/

namespace OssSdk
namespace Foundation

structure SortedMap (key value : Type) (less : key -> key -> Bool) where
  entries : List (key × value)
  sorted : entries.Pairwise fun a b => less a.1 b.1 = true
deriving DecidableEq

namespace SortedMap

variable {key value : Type} {less : key -> key -> Bool}

def empty : SortedMap key value less := ⟨[], List.Pairwise.nil⟩

instance : Inhabited (SortedMap key value less) := ⟨empty⟩

def isEmpty (m : SortedMap key value less) : Bool := m.entries.isEmpty

def equivalent (less : key -> key -> Bool) (a b : key) : Bool :=
  !less a b && !less b a

def find? (m : SortedMap key value less) (k : key) : Option value :=
  (m.entries.find? fun e => equivalent less e.1 k).map Prod.snd

/--
Put an entry in its place; `merge` says what becomes of the value that an equal
key already has.
-/
def place (less : key -> key -> Bool) (merge : value -> value -> value)
    (k : key) (v : value) : List (key × value) -> List (key × value)
  | [] => [(k, v)]
  | (k', v') :: rest =>
      if less k k' then (k, v) :: (k', v') :: rest
      else if less k' k then (k', v') :: place less merge k v rest
      else (k', merge v' v) :: rest

theorem mem_place
    {merge : value -> value -> value} {k : key} {v : value}
    {entries : List (key × value)} {e : key × value}
    (he : e ∈ place less merge k v entries) :
    e.1 = k ∨ exists e', e' ∈ entries ∧ e.1 = e'.1 := by
  induction entries with
  | nil =>
      left
      simp only [place, List.mem_singleton] at he
      rw [he]
  | cons head rest ih =>
      rcases head with ⟨k', v'⟩
      simp only [place] at he
      split at he
      · rcases List.mem_cons.mp he with hnew | hold
        · left
          rw [hnew]
        · right
          exact ⟨e, hold, rfl⟩
      · split at he
        · rcases List.mem_cons.mp he with hhead | htail
          · right
            exact ⟨(k', v'), List.mem_cons_self, by rw [hhead]⟩
          · rcases ih htail with hk | ⟨e', he', hkey⟩
            · left
              exact hk
            · right
              exact ⟨e', List.mem_cons_of_mem _ he', hkey⟩
        · right
          rcases List.mem_cons.mp he with hhead | htail
          · exact ⟨(k', v'), List.mem_cons_self, by rw [hhead]⟩
          · exact ⟨e, List.mem_cons_of_mem _ htail, rfl⟩

section Update

variable [IsStrictWeakOrder key fun a b => less a b = true]

theorem place_sorted
    (merge : value -> value -> value) (k : key) (v : value)
    {entries : List (key × value)}
    (hsorted : entries.Pairwise fun a b => less a.1 b.1 = true) :
    (place less merge k v entries).Pairwise
      fun a b => less a.1 b.1 = true := by
  induction entries with
  | nil => simp [place]
  | cons head rest ih =>
      rcases head with ⟨k', v'⟩
      rcases List.pairwise_cons.mp hsorted with ⟨hhead, hrest⟩
      simp only [place]
      split
      · rename_i hless
        apply List.pairwise_cons.mpr
        refine ⟨?_, hsorted⟩
        intro e he
        rcases List.mem_cons.mp he with hk' | htail
        · rw [hk']
          exact hless
        · exact IsTrans.trans (r := fun a b => less a b = true)
            _ _ _ hless (hhead e htail)
      · split
        · rename_i hless
          apply List.pairwise_cons.mpr
          refine ⟨?_, ih hrest⟩
          intro e he
          rcases mem_place he with hk | ⟨e', he', hkey⟩
          · rw [hk]
            exact hless
          · rw [hkey]
            exact hhead e' he'
        · exact List.pairwise_cons.mpr ⟨hhead, hrest⟩

/-- `emplace`: an entry that is there already keeps its value. -/
def emplace (m : SortedMap key value less) (k : key) (v : value) :
    SortedMap key value less :=
  ⟨place less (fun old _ => old) k v m.entries, place_sorted _ k v m.sorted⟩

/-- `insert_or_assign`. -/
def insertOrAssign (m : SortedMap key value less) (k : key) (v : value) :
    SortedMap key value less :=
  ⟨place less (fun _ new => new) k v m.entries, place_sorted _ k v m.sorted⟩

def erase (m : SortedMap key value less) (k : key) : SortedMap key value less :=
  ⟨m.entries.filter fun e => !equivalent less e.1 k, m.sorted.filter _⟩

def ofList (entries : List (key × value)) : SortedMap key value less :=
  entries.foldl (fun m e => m.emplace e.1 e.2) empty

end Update

/-!
# Equivalent keys
-/

theorem equivalent_iff {a b : key} :
    equivalent less a b = true ↔ less a b = false ∧ less b a = false := by
  simp [equivalent]

theorem equivalent_comm (a b : key) : equivalent less a b = equivalent less b a := by
  simp only [equivalent, Bool.and_comm]

theorem not_equivalent_of_less {a b : key} (hless : less a b = true) :
    equivalent less a b = false := by
  simp [equivalent, hless]

/-- The entry that a key leads to. -/
def findEntry (m : SortedMap key value less) (k : key) : Option (key × value) :=
  m.entries.find? fun e => equivalent less e.1 k

theorem find?_eq (m : SortedMap key value less) (k : key) :
    m.find? k = (m.findEntry k).map Prod.snd := rfl

@[simp] theorem find?_empty (k : key) :
    (empty : SortedMap key value less).find? k = none := rfl

/-- A key is not equivalent to those that are all greater. -/
theorem find?_eq_none_of_less {k : key} {entries : List (key × value)}
    (hless : forall e, e ∈ entries -> less k e.1 = true) :
    entries.find? (fun e => equivalent less e.1 k) = none := by
  rw [List.find?_eq_none]
  intro e he
  rw [equivalent_comm, not_equivalent_of_less (hless e he)]
  exact Bool.false_ne_true

section Lookup

variable [IsStrictWeakOrder key fun a b => less a b = true]

theorem less_irrefl (a : key) : less a a = false := by
  have hirrefl := irrefl_of (fun a b : key => less a b = true) a
  simpa using hirrefl

@[simp] theorem equivalent_refl (a : key) : equivalent less a a = true :=
  equivalent_iff.mpr ⟨less_irrefl a, less_irrefl a⟩

theorem equivalent_trans {a b c : key}
    (hab : equivalent less a b = true)
    (hbc : equivalent less b c = true) : equivalent less a c = true := by
  rw [equivalent_iff] at hab hbc ⊢
  have htrans := @IsStrictWeakOrder.incomp_trans _
    (fun a b : key => less a b = true) _ a b c
  simpa [hab, hbc] using htrans

/-- Equivalent keys are equivalent to the same keys. -/
theorem equivalent_congr {a b : key}
    (hab : equivalent less a b = true)
    (c : key) : equivalent less a c = equivalent less b c := by
  rw [Bool.eq_iff_iff]
  constructor
  · intro hac
    rw [equivalent_comm] at hab
    exact equivalent_trans hab hac
  · exact equivalent_trans hab

theorem find?_place (merge : value -> value -> value) (k k' : key) (v : value)
    {entries : List (key × value)}
    (hsorted : entries.Pairwise fun a b => less a.1 b.1 = true) :
    (place less merge k v entries).find? (fun e => equivalent less e.1 k') =
      if equivalent less k k' = true then
        some ((entries.find? fun e => equivalent less e.1 k).elim (k, v)
          fun old => (old.1, merge old.2 v))
      else entries.find? fun e => equivalent less e.1 k' := by
  induction entries with
  | nil =>
      rw [place, List.find?_singleton]
      rfl
  | cons head rest ih =>
      rcases head with ⟨k1, v1⟩
      rcases List.pairwise_cons.mp hsorted with ⟨hhead, hrest⟩
      rw [place]
      by_cases hbefore : less k k1 = true
      · have hnone : ((k1, v1) :: rest).find? (fun e => equivalent less e.1 k) =
            none := by
          refine find?_eq_none_of_less fun e he => ?_
          rcases List.mem_cons.mp he with hfirst | htail
          · rw [hfirst]
            exact hbefore
          · exact IsTrans.trans (r := fun a b => less a b = true)
              _ _ _ hbefore (hhead e htail)
        rw [if_pos hbefore, hnone, List.find?_cons]
        cases hsame : equivalent less k k' with
        | true => rfl
        | false => rfl
      · rw [if_neg hbefore]
        by_cases hafter : less k1 k = true
        · have hother := not_equivalent_of_less hafter
          rw [if_pos hafter, List.find?_cons, ih hrest, List.find?_cons, hother,
            List.find?_cons]
          cases hsame : equivalent less k k' with
          | true =>
              have hnot : equivalent less k1 k' = false := by
                rw [equivalent_comm] at hsame
                rw [equivalent_comm, equivalent_congr hsame, equivalent_comm]
                exact hother
              rw [hnot]
          | false => rfl
        · have hhere : equivalent less k1 k = true :=
            equivalent_iff.mpr ⟨by simpa using hafter, by simpa using hbefore⟩
          rw [if_neg hafter, List.find?_cons, List.find?_cons, hhere,
            equivalent_congr hhere, List.find?_cons, equivalent_congr hhere]
          cases hsame : equivalent less k k' with
          | true => rfl
          | false => rfl

theorem findEntry_insertOrAssign (m : SortedMap key value less) (k k' : key)
    (v : value) :
    (m.insertOrAssign k v).findEntry k' =
      if equivalent less k k' = true then
        some ((m.findEntry k).elim k Prod.fst, v)
      else m.findEntry k' := by
  refine Eq.trans (find?_place _ k k' v m.sorted) ?_
  unfold findEntry
  cases m.entries.find? fun e => equivalent less e.1 k <;> rfl

theorem findEntry_emplace (m : SortedMap key value less) (k k' : key) (v : value) :
    (m.emplace k v).findEntry k' =
      if equivalent less k k' = true then some ((m.findEntry k).getD (k, v))
      else m.findEntry k' := by
  refine Eq.trans (find?_place _ k k' v m.sorted) ?_
  unfold findEntry
  cases m.entries.find? fun e => equivalent less e.1 k <;> rfl

@[simp] theorem find?_insertOrAssign (m : SortedMap key value less) (k k' : key)
    (v : value) :
    (m.insertOrAssign k v).find? k' =
      if equivalent less k k' = true then some v else m.find? k' := by
  rw [find?_eq, findEntry_insertOrAssign]
  split <;> rfl

@[simp] theorem find?_emplace (m : SortedMap key value less) (k k' : key)
    (v : value) :
    (m.emplace k v).find? k' =
      if equivalent less k k' = true then some ((m.find? k).getD v)
      else m.find? k' := by
  rw [find?_eq, findEntry_emplace]
  split
  · rw [find?_eq]
    cases m.findEntry k <;> rfl
  · rfl

theorem findEntry_congr (m : SortedMap key value less) {k k' : key}
    (hsame : equivalent less k k' = true) : m.findEntry k = m.findEntry k' := by
  unfold findEntry
  congr 1
  funext e
  rw [equivalent_comm, equivalent_congr hsame, equivalent_comm]

theorem find?_congr (m : SortedMap key value less) {k k' : key}
    (hsame : equivalent less k k' = true) : m.find? k = m.find? k' := by
  rw [find?_eq, findEntry_congr m hsame, find?_eq]

/-- Entries of different keys, assigned one after another. -/
theorem find?_foldl_insertOrAssign {entries : List (key × value)}
    (hdistinct : entries.Pairwise fun a b => equivalent less a.1 b.1 = false)
    (m : SortedMap key value less) (k : key) :
    (entries.foldl (fun m e => m.insertOrAssign e.1 e.2) m).find? k =
      ((entries.find? fun e => equivalent less e.1 k).map Prod.snd).or
        (m.find? k) := by
  induction entries generalizing m with
  | nil => rfl
  | cons e rest ih =>
      rcases List.pairwise_cons.mp hdistinct with ⟨hhead, hrest⟩
      rw [List.foldl_cons, ih hrest, List.find?_cons, find?_insertOrAssign]
      cases hsame : equivalent less e.1 k with
      | false => rfl
      | true =>
          have hnone : rest.find? (fun e => equivalent less e.1 k) = none := by
            rw [List.find?_eq_none]
            intro e' he'
            rw [equivalent_comm, ← equivalent_congr hsame, hhead e' he']
            exact Bool.false_ne_true
          rw [hnone]
          rfl

/-- An entry is the one that its own key leads to. -/
theorem mem_entries_iff (m : SortedMap key value less) (e : key × value) :
    e ∈ m.entries ↔ m.findEntry e.1 = some e := by
  rcases m with ⟨entries, hsorted⟩
  unfold findEntry
  induction entries with
  | nil => simp
  | cons head rest ih =>
      rcases List.pairwise_cons.mp hsorted with ⟨hhead, hrest⟩
      rw [List.find?_cons, List.mem_cons]
      cases hsame : equivalent less head.1 e.1 with
      | true =>
          constructor
          · intro hmem
            rcases hmem with hfirst | htail
            · rw [hfirst]
            · rw [not_equivalent_of_less (hhead e htail)] at hsame
              cases hsame
          · intro hfirst
            exact Or.inl (Option.some.inj hfirst).symm
      | false =>
          have hne : e ≠ head := by
            intro heq
            rw [heq, equivalent_refl] at hsame
            cases hsame
          simp only [hne, false_or]
          exact ih hrest

theorem ne_of_less {a b : key × value} (hless : less a.1 b.1 = true) : a ≠ b := by
  intro hab
  have hsame : equivalent less a.1 b.1 = true := by
    rw [hab]
    exact equivalent_refl b.1
  rw [not_equivalent_of_less hless] at hsame
  cases hsame

/-- Maps that lead to the same entries are the same. -/
theorem ext_findEntry {m m' : SortedMap key value less}
    (hsame : forall k, m.findEntry k = m'.findEntry k) : m = m' := by
  have hperm : m.entries.Perm m'.entries := by
    refine (List.perm_ext_iff_of_nodup ?_ ?_).mpr fun e => ?_
    · exact m.sorted.imp fun hless => ne_of_less hless
    · exact m'.sorted.imp fun hless => ne_of_less hless
    · rw [mem_entries_iff, mem_entries_iff, hsame]
  have hentries : m.entries = m'.entries := by
    refine List.Perm.eq_of_pairwise ?_ m.sorted m'.sorted hperm
    intro a b _ _ hab hba
    exact absurd rfl (ne_of_less (IsTrans.trans (r := fun a b : key => less a b = true)
      _ _ _ hab hba))
  cases m
  cases m'
  cases hentries
  rfl

/-!
# Successive updates
-/

theorem equivalent_of_both {a b k : key} (ha : equivalent less a k = true)
    (hb : equivalent less b k = true) : equivalent less a b = true := by
  rw [equivalent_comm] at hb
  exact equivalent_trans ha hb

/-- The last of two assignments to a key stands. -/
theorem insertOrAssign_insertOrAssign (m : SortedMap key value less) (k : key)
    (v v' : value) :
    (m.insertOrAssign k v).insertOrAssign k v' = m.insertOrAssign k v' := by
  apply ext_findEntry
  intro k'
  rw [findEntry_insertOrAssign, findEntry_insertOrAssign, findEntry_insertOrAssign,
    findEntry_insertOrAssign, if_pos (equivalent_refl k)]
  split
  · cases m.findEntry k <;> rfl
  · rfl

theorem insertOrAssign_comm {a b : key} (hab : equivalent less a b = false)
    (m : SortedMap key value less) (v v' : value) :
    (m.insertOrAssign a v).insertOrAssign b v' =
      (m.insertOrAssign b v').insertOrAssign a v := by
  have hba : equivalent less b a = false := by
    rw [equivalent_comm]
    exact hab
  apply ext_findEntry
  intro k
  simp only [findEntry_insertOrAssign, hab, hba, Bool.false_eq_true, if_false]
  by_cases hb : equivalent less b k = true
  · have ha : ¬ equivalent less a k = true := by
      intro ha
      rw [equivalent_of_both ha hb] at hab
      cases hab
    rw [if_pos hb, if_neg ha, if_pos hb]
  · rw [if_neg hb, if_neg hb]

theorem emplace_emplace (m : SortedMap key value less) (k : key) (v v' : value) :
    (m.emplace k v).emplace k v' = m.emplace k v := by
  apply ext_findEntry
  intro k'
  rw [findEntry_emplace, findEntry_emplace, if_pos (equivalent_refl k), findEntry_emplace]
  split
  · rfl
  · rfl

theorem emplace_insertOrAssign_comm {a b : key}
    (hab : equivalent less a b = false)
    (m : SortedMap key value less) (v v' : value) :
    (m.emplace a v).insertOrAssign b v' = (m.insertOrAssign b v').emplace a v := by
  have hba : equivalent less b a = false := by
    rw [equivalent_comm]
    exact hab
  apply ext_findEntry
  intro k
  simp only [findEntry_insertOrAssign, findEntry_emplace, hab, hba, Bool.false_eq_true,
    if_false]
  by_cases hb : equivalent less b k = true
  · have ha : ¬ equivalent less a k = true := by
      intro ha
      rw [equivalent_of_both ha hb] at hab
      cases hab
    rw [if_pos hb, if_neg ha, if_pos hb]
  · rw [if_neg hb, if_neg hb]

theorem emplace_comm {a b : key} (hab : equivalent less a b = false)
    (m : SortedMap key value less) (v v' : value) :
    (m.emplace a v).emplace b v' = (m.emplace b v').emplace a v := by
  have hba : equivalent less b a = false := by
    rw [equivalent_comm]
    exact hab
  apply ext_findEntry
  intro k
  simp only [findEntry_emplace, hab, hba, Bool.false_eq_true, if_false]
  by_cases hb : equivalent less b k = true
  · have ha : ¬ equivalent less a k = true := by
      intro ha
      rw [equivalent_of_both ha hb] at hab
      cases hab
    rw [if_pos hb, if_neg ha, if_pos hb]
  · rw [if_neg hb, if_neg hb]

theorem foldl_insertOrAssign {β : Type} (step : β -> key × value -> β)
    {k : key}
    (hpasses : forall b (e : key × value), equivalent less e.1 k = true -> step b e = b)
    (m : SortedMap key value less) (v : value) (init : β) :
    (m.insertOrAssign k v).entries.foldl step init = m.entries.foldl step init := by
  rcases m with ⟨entries, hsorted⟩
  change (place less (fun _ new => new) k v entries).foldl step init =
    entries.foldl step init
  clear hsorted
  induction entries generalizing init with
  | nil => exact hpasses init (k, v) (equivalent_refl k)
  | cons head rest ih =>
      rcases head with ⟨k', v'⟩
      rw [place]
      split
      · rw [List.foldl_cons, hpasses init (k, v) (equivalent_refl k)]
      · rename_i hbefore
        split
        · rw [List.foldl_cons, List.foldl_cons, ih]
        · rename_i hafter
          have hsame : equivalent less k' k = true :=
            equivalent_iff.mpr ⟨by simpa using hafter, by simpa using hbefore⟩
          rw [List.foldl_cons, List.foldl_cons, hpasses init (k', v) hsame,
            hpasses init (k', v') hsame]

/-- A new key takes its place among the entries. -/
theorem entries_emplace_new {m : SortedMap key value less} {k : key} (v : value)
    (hnew : m.find? k = none) :
    exists before after, m.entries = before ++ after ∧
      (m.emplace k v).entries = before ++ (k, v) :: after := by
  rcases m with ⟨entries, hsorted⟩
  have hnone : entries.find? (fun e => equivalent less e.1 k) = none := by
    rw [find?_eq, Option.map_eq_none_iff] at hnew
    exact hnew
  change exists before after, entries = before ++ after ∧
    place less (fun old _ => old) k v entries = before ++ (k, v) :: after
  clear hnew hsorted
  induction entries with
  | nil => exact ⟨[], [], rfl, rfl⟩
  | cons head rest ih =>
      rcases head with ⟨k', v'⟩
      rw [List.find?_cons] at hnone
      rw [place]
      split
      · exact ⟨[], (k', v') :: rest, rfl, rfl⟩
      · rename_i hbefore
        split
        · cases hsame : equivalent less k' k with
          | true =>
              rw [hsame] at hnone
              cases hnone
          | false =>
              rw [hsame] at hnone
              rcases ih hnone with ⟨before, after, hentries, hplaced⟩
              exact ⟨(k', v') :: before, after, by rw [hentries]; rfl,
                by rw [hplaced]; rfl⟩
        · rename_i hafter
          have hsame : equivalent less k' k = true :=
            equivalent_iff.mpr ⟨by simpa using hafter, by simpa using hbefore⟩
          rw [hsame] at hnone
          cases hnone

/-- An assignment changes one value in its place. -/
theorem entries_insertOrAssign_found {m : SortedMap key value less} {k : key}
    {e : key × value} (hfound : m.findEntry k = some e) :
    exists before after, m.entries = before ++ e :: after ∧
      forall v, (m.insertOrAssign k v).entries = before ++ (e.1, v) :: after := by
  rcases m with ⟨entries, hsorted⟩
  change entries.find? (fun e => equivalent less e.1 k) = some e at hfound
  change exists before after, entries = before ++ e :: after ∧
    forall v, place less (fun _ new => new) k v entries = before ++ (e.1, v) :: after
  induction entries with
  | nil => cases hfound
  | cons head rest ih =>
      rcases head with ⟨k', v'⟩
      rcases List.pairwise_cons.mp hsorted with ⟨hhead, hrest⟩
      rw [List.find?_cons] at hfound
      cases hsame : equivalent less k' k with
      | true =>
          rw [hsame] at hfound
          have he : (k', v') = e := Option.some.inj hfound
          rcases equivalent_iff.mp hsame with ⟨hafter, hbefore⟩
          refine ⟨[], rest, by rw [he]; rfl, fun v => ?_⟩
          rw [place, hbefore, hafter, ← he]
          rfl
      | false =>
          rw [hsame] at hfound
          rcases ih hrest hfound with ⟨before, after, hentries, hplaced⟩
          have he : e ∈ rest := by
            rw [hentries]
            exact List.mem_append_right _ List.mem_cons_self
          have hekey : equivalent less e.1 k = true := by
            have hpred := List.find?_some hfound
            exact hpred
          have hnot : less k k' = false := by
            rw [Bool.eq_false_iff]
            intro hk
            have hke : less k e.1 = true :=
              IsTrans.trans (r := fun a b => less a b = true) _ _ _ hk (hhead e he)
            rw [equivalent_comm, not_equivalent_of_less hke] at hekey
            cases hekey
          have hless : less k' k = true := by
            by_contra hafter
            rw [equivalent_iff.mpr ⟨by simpa using hafter, hnot⟩] at hsame
            cases hsame
          refine ⟨(k', v') :: before, after, by rw [hentries]; rfl, fun v => ?_⟩
          rw [place, if_neg (by simp [hnot]), if_pos hless, hplaced]
          rfl

/-- Assigning the value that a key has changes nothing. -/
theorem insertOrAssign_eq_self {m : SortedMap key value less} {k : key} {v : value}
    (hfound : m.find? k = some v) : m.insertOrAssign k v = m := by
  apply ext_findEntry
  intro k'
  rw [findEntry_insertOrAssign]
  split
  · rename_i hsame
    rw [find?_eq, Option.map_eq_some_iff] at hfound
    rcases hfound with ⟨e, he, hv⟩
    rw [← findEntry_congr m hsame, he, ← hv]
    rfl
  · rfl

/-- What passes over a key does not see its value. -/
theorem filterMap_insertOrAssign {β : Type} (f : key × value -> Option β)
    {k : key}
    (hpasses : forall e : key × value, equivalent less e.1 k = true -> f e = none)
    (m : SortedMap key value less) (v : value) :
    (m.insertOrAssign k v).entries.filterMap f = m.entries.filterMap f := by
  rcases m with ⟨entries, hsorted⟩
  change (place less (fun _ new => new) k v entries).filterMap f = entries.filterMap f
  have hnew : f (k, v) = none := hpasses (k, v) (equivalent_refl k)
  clear hsorted
  induction entries with
  | nil => simp [place, hnew]
  | cons head rest ih =>
      rcases head with ⟨k', v'⟩
      rw [place]
      split
      · rw [List.filterMap_cons_none hnew]
      · rename_i hbefore
        split
        · rw [List.filterMap_cons, List.filterMap_cons, ih]
        · rename_i hafter
          have hsame : equivalent less k' k = true :=
            equivalent_iff.mpr ⟨by simpa using hafter, by simpa using hbefore⟩
          rw [List.filterMap_cons_none (hpasses (k', v) hsame),
            List.filterMap_cons_none (hpasses (k', v') hsame)]

/-!
# A list that is sorted already
-/

theorem place_last (merge : value -> value -> value) {k : key} {v : value}
    {entries : List (key × value)}
    (hlast : forall e, e ∈ entries -> less e.1 k = true) :
    place less merge k v entries = entries ++ [(k, v)] := by
  induction entries with
  | nil => rfl
  | cons head rest ih =>
      rcases head with ⟨k', v'⟩
      have hless : less k' k = true := hlast (k', v') List.mem_cons_self
      have hnot : less k k' = false := by
        have hself : less k' k' = false := less_irrefl k'
        rw [Bool.eq_false_iff]
        intro hmore
        rw [IsTrans.trans (r := fun a b => less a b = true) _ _ _ hless hmore] at hself
        cases hself
      rw [place, hnot, if_neg Bool.false_ne_true, if_pos hless,
        ih fun e he => hlast e (List.mem_cons_of_mem _ he)]
      rfl

theorem entries_ofList {entries : List (key × value)}
    (hsorted : entries.Pairwise fun a b => less a.1 b.1 = true) :
    (ofList entries : SortedMap key value less).entries = entries := by
  induction entries using List.reverseRecOn with
  | nil => rfl
  | append_singleton entries e ih =>
      rcases List.pairwise_append.mp hsorted with ⟨hfirst, _, hbefore⟩
      unfold ofList at ih ⊢
      rw [List.foldl_append]
      change place less _ e.1 e.2 (entries.foldl _ empty).entries = _
      rw [ih hfirst]
      exact place_last _ fun e' he' => hbefore e' he' e (List.mem_singleton_self e)

/-- A map is what its entries make. -/
theorem ofList_entries (m : SortedMap key value less) : ofList m.entries = m := by
  have hentries := entries_ofList m.sorted
  rcases hlist : (ofList m.entries : SortedMap key value less) with ⟨entries, hsorted⟩
  rw [hlist] at hentries
  subst hentries
  rfl

/-- Entries of different keys are all kept, whatever their order. -/
theorem entries_ofList_perm {entries : List (key × value)}
    (hdistinct : entries.Pairwise fun a b => equivalent less a.1 b.1 = false) :
    (ofList entries : SortedMap key value less).entries.Perm entries := by
  induction entries using List.reverseRecOn with
  | nil => exact List.Perm.refl _
  | append_singleton entries e ih =>
      rcases List.pairwise_append.mp hdistinct with ⟨hfirst, _, hlast⟩
      have hfront := ih hfirst
      have hnew : (ofList entries : SortedMap key value less).find? e.1 = none := by
        rw [find?_eq, Option.map_eq_none_iff]
        apply List.find?_eq_none.mpr
        intro e' he'
        rw [hlast e' (hfront.subset he') e (List.mem_singleton_self e)]
        exact Bool.false_ne_true
      rcases entries_emplace_new e.2 hnew with ⟨before, after, hentries, hplaced⟩
      have hmade : (ofList (entries ++ [e]) : SortedMap key value less).entries =
          before ++ e :: after := by
        unfold ofList at hplaced ⊢
        rw [List.foldl_append]
        exact hplaced
      rw [hentries] at hfront
      rw [hmade]
      exact List.perm_middle.trans
        ((hfront.cons e).trans (List.perm_append_singleton e entries).symm)

/-- The order of entries of different keys makes no difference to the map. -/
theorem ofList_eq_of_perm {entries entries' : List (key × value)}
    (hdistinct : entries.Pairwise fun a b => equivalent less a.1 b.1 = false)
    (hperm : entries.Perm entries') :
    (ofList entries : SortedMap key value less) = ofList entries' := by
  apply hperm.foldl_eq'
  intro e he e' he' m
  by_cases hsame : e = e'
  · rw [hsame]
  · have hsymm : Std.Symm fun a b : key × value =>
        equivalent less a.1 b.1 = false := by
      constructor
      intro a b hab
      rw [equivalent_comm]
      exact hab
    exact emplace_comm (hdistinct.forall he he' hsame) m e.2 e'.2

theorem entries_ofList_filter (m : SortedMap key value less) (p : key × value -> Bool) :
    (ofList (m.entries.filter p) : SortedMap key value less).entries =
      m.entries.filter p :=
  entries_ofList (m.sorted.filter p)

/-!
# Where entries come from
-/

theorem mem_emplace {m : SortedMap key value less} {k : key} {v : value}
    {e : key × value} (he : e ∈ (m.emplace k v).entries) :
    e = (k, v) ∨ e ∈ m.entries := by
  change e ∈ place less (fun old _ => old) k v m.entries at he
  generalize m.entries = entries at he ⊢
  induction entries with
  | nil => exact Or.inl (List.mem_singleton.mp he)
  | cons head rest ih =>
      rcases head with ⟨k', v'⟩
      rw [place] at he
      split at he
      · exact List.mem_cons.mp he
      · split at he
        · rcases List.mem_cons.mp he with hhead | htail
          · exact Or.inr (hhead ▸ List.mem_cons_self)
          · exact (ih htail).imp_right (List.mem_cons_of_mem _)
        · exact Or.inr he

theorem mem_ofList {entries : List (key × value)} {e : key × value}
    (he : e ∈ (ofList entries : SortedMap key value less).entries) : e ∈ entries := by
  induction entries using List.reverseRecOn with
  | nil => cases he
  | append_singleton entries e' ih =>
      unfold ofList at he ih
      rw [List.foldl_append] at he
      rcases mem_emplace he with hnew | hold
      · rw [hnew]
        exact List.mem_append_right _ (List.mem_singleton_self _)
      · exact List.mem_append_left _ (ih hold)

/-- The first entry with a key is the one that is kept. -/
theorem findEntry_ofList (entries : List (key × value)) (k : key) :
    (ofList entries : SortedMap key value less).findEntry k =
      entries.find? fun e => equivalent less e.1 k := by
  induction entries using List.reverseRecOn with
  | nil => rfl
  | append_singleton entries e ih =>
      unfold ofList at ih ⊢
      rw [List.foldl_append, List.find?_append, ← ih]
      change (emplace _ e.1 e.2).findEntry k = _
      rw [findEntry_emplace, List.find?_cons]
      cases hsame : equivalent less e.1 k with
      | true =>
          rw [if_pos rfl, findEntry_congr _ hsame]
          generalize findEntry _ k = found
          cases found with
          | none => rfl
          | some first => rfl
      | false =>
          rw [if_neg Bool.false_ne_true, List.find?_nil, Option.or_none]

theorem mem_ofList_iff {entries : List (key × value)} {e : key × value} :
    e ∈ (ofList entries : SortedMap key value less).entries ↔
      entries.find? (fun e' => equivalent less e'.1 e.1) = some e := by
  rw [mem_entries_iff, findEntry_ofList]

theorem findEntry_erase (m : SortedMap key value less) (k k' : key) :
    (m.erase k).findEntry k' =
      if equivalent less k k' = true then none else m.findEntry k' := by
  unfold findEntry erase
  rw [List.find?_filter]
  split
  · rename_i hsame
    refine List.find?_eq_none.mpr fun e _ => ?_
    have hboth : equivalent less e.1 k = equivalent less e.1 k' := by
      rw [equivalent_comm, equivalent_congr hsame, equivalent_comm]
    rw [hboth]
    cases equivalent less e.1 k' with
    | true => simp
    | false => simp
  · rename_i hother
    congr 1
    funext e
    cases hkey : equivalent less e.1 k' with
    | false => simp
    | true =>
        have hnot : equivalent less e.1 k = false := by
          rw [Bool.eq_false_iff]
          intro hsame
          rw [equivalent_congr hsame] at hkey
          exact hother hkey
        simp [hnot]

/-- Erasing what was assigned leaves what was there before. -/
theorem erase_insertOrAssign (m : SortedMap key value less) (k : key) (v : value) :
    (m.insertOrAssign k v).erase k = m.erase k := by
  apply ext_findEntry
  intro k'
  rw [findEntry_erase, findEntry_erase, findEntry_insertOrAssign]
  split
  · rfl
  · rfl

theorem erase_eq_self {m : SortedMap key value less} {k : key}
    (hnone : m.findEntry k = none) : m.erase k = m := by
  apply ext_findEntry
  intro k'
  rw [findEntry_erase]
  split
  · rename_i hsame
    rw [← findEntry_congr m hsame, hnone]
  · rfl

/-!
# The last entry with a property
-/

def last? (m : SortedMap key value less) (p : key × value -> Bool) :
    Option (key × value) :=
  m.entries.reverse.find? p

theorem last?_eq_some_iff {m : SortedMap key value less} {p : key × value -> Bool}
    {e : key × value} :
    m.last? p = some e ↔
      e ∈ m.entries ∧ p e = true ∧
        forall e', e' ∈ m.entries -> less e.1 e'.1 = true -> p e' = false := by
  have hsorted := m.sorted
  unfold last?
  rw [List.find?_eq_some_iff_append]
  constructor
  · intro hlast
    rcases hlast with ⟨hp, after, before, hentries, hafter⟩
    have hsplit : m.entries = before.reverse ++ e :: after.reverse := by
      rw [← List.reverse_reverse m.entries, hentries]
      simp
    refine ⟨?_, hp, ?_⟩
    · rw [hsplit]
      exact List.mem_append_right _ List.mem_cons_self
    · intro e' he' hless
      rw [hsplit] at he' hsorted
      rcases List.pairwise_append.mp hsorted with ⟨_, _, hbefore⟩
      rcases List.mem_append.mp he' with hfirst | hrest
      · have hother := hbefore e' hfirst e List.mem_cons_self
        have hself : less e.1 e.1 = true :=
          IsTrans.trans (r := fun a b => less a b = true) _ _ _ hless hother
        have hnot : less e.1 e.1 = false := less_irrefl e.1
        rw [hnot] at hself
        cases hself
      · rcases List.mem_cons.mp hrest with heq | hmem
        · have hnot : less e.1 e.1 = false := less_irrefl e.1
          rw [heq, hnot] at hless
          cases hless
        · simpa using hafter e' (List.mem_reverse.mp hmem)
  · intro hlast
    rcases hlast with ⟨hmem, hp, hlater⟩
    rcases List.append_of_mem hmem with ⟨before, after, hsplit⟩
    refine ⟨hp, after.reverse, before.reverse, ?_, ?_⟩
    · rw [hsplit]
      simp
    · intro e' he'
      have hafter := List.mem_reverse.mp he'
      rw [hsplit] at hsorted
      have hless :=
        (List.pairwise_cons.mp (List.pairwise_append.mp hsorted).2.1).1 e' hafter
      have hin : e' ∈ m.entries := by
        rw [hsplit]
        exact List.mem_append_right _ (List.mem_cons_of_mem e hafter)
      rw [hlater e' hin hless]
      rfl

end Lookup

/-- The value that the last element with a property has. -/
theorem foldl_last {α β : Type} (p : α -> Bool) (f : α -> β) (init : β) (l : List α) :
    l.foldl (fun b a => if p a = true then f a else b) init =
      ((l.reverse.find? p).map f).getD init := by
  induction l using List.reverseRecOn with
  | nil => rfl
  | append_singleton l a ih =>
      rw [List.foldl_append, List.reverse_append, List.reverse_singleton,
        List.singleton_append, List.find?_cons]
      cases hp : p a with
      | true => simp [hp]
      | false =>
          simp only [List.foldl_cons, List.foldl_nil, hp, Bool.false_eq_true, if_false]
          exact ih

end SortedMap
end Foundation
end OssSdk
