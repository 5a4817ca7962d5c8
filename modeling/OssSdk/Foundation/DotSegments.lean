import OssSdk.Foundation.Bytes

/-!
# Dot segments of a path

A path that begins with a slash is a list of segments.  The segments `.` and `..` are
removed as RFC 3986 section 5.2.4 removes them: the first stands for nothing, the second
takes away the segment before it, and a slash stays where one of them ends the path.
-/

namespace OssSdk
namespace Foundation

/-- The segments of a path, without the slash that it begins with. -/
def segments : ByteString -> List ByteString
  | [] => [[]]
  | c :: rest =>
      if c = 47 then [] :: segments rest
      else
        match segments rest with
        | [] => [[c]]
        | segment :: more => (c :: segment) :: more

def joinSegments (path : List ByteString) : ByteString :=
  path.flatMap fun segment => 47 :: segment

def isDotSegment (segment : ByteString) : Bool :=
  segment == bytes "." || segment == bytes ".."

/-- The output after one more segment. -/
def keepSegment (output : List ByteString) (segment : ByteString) : List ByteString :=
  if segment = bytes "." then output
  else if segment = bytes ".." then output.dropLast
  else output ++ [segment]

def removeDots (output : List ByteString) : List ByteString -> List ByteString
  | [] => output
  | segment :: rest =>
      if rest.isEmpty && isDotSegment segment then keepSegment output segment ++ [[]]
      else removeDots (keepSegment output segment) rest

def removeDotSegments (path : ByteString) : ByteString :=
  joinSegments (removeDots [] (segments (path.drop 1)))

example : removeDotSegments (bytes "/a/b/c/./../../g") = bytes "/a/g" := by decide +kernel

/-!
# Segments
-/

theorem segments_cons (c : UInt8) (rest : ByteString) :
    segments (c :: rest) =
      if c = 47 then [] :: segments rest
      else
        match segments rest with
        | [] => [[c]]
        | segment :: more => (c :: segment) :: more := rfl

theorem segments_ne_nil (s : ByteString) : segments s ≠ [] := by
  cases s with
  | nil => exact List.cons_ne_nil _ _
  | cons c rest =>
      rw [segments_cons]
      split
      · exact List.cons_ne_nil _ _
      · split
        · exact List.cons_ne_nil _ _
        · exact List.cons_ne_nil _ _

theorem joinSegments_cons (segment : ByteString) (rest : List ByteString) :
    joinSegments (segment :: rest) = 47 :: segment ++ joinSegments rest := rfl

theorem joinSegments_append (path other : List ByteString) :
    joinSegments (path ++ other) = joinSegments path ++ joinSegments other :=
  List.flatMap_append

theorem joinSegments_segments (s : ByteString) : joinSegments (segments s) = 47 :: s := by
  induction s with
  | nil => rfl
  | cons c rest ih =>
      rw [segments_cons]
      split
      · rename_i hslash
        rw [joinSegments_cons, ih, hslash]
        rfl
      · split
        · rename_i hnil
          exact absurd hnil (segments_ne_nil rest)
        · rename_i segment more hsegments
          rw [hsegments, joinSegments_cons] at ih
          rw [List.cons_append] at ih
          rw [joinSegments_cons, List.cons_append, List.cons_append,
            (List.cons_inj_right 47).mp ih]

theorem segments_append {u : ByteString} (hu : 47 ∉ u) {s segment : ByteString}
    {more : List ByteString} (hsegments : segments s = segment :: more) :
    segments (u ++ s) = (u ++ segment) :: more := by
  induction u with
  | nil => exact hsegments
  | cons c rest ih =>
      have hc : c ≠ 47 := fun heq => hu (heq ▸ List.mem_cons_self)
      rw [List.cons_append, segments_cons, if_neg hc,
        ih fun hmem => hu (List.mem_cons_of_mem c hmem)]
      rfl

/-- A name without slashes, and the path under it. -/
theorem segments_name {u : ByteString} (hu : 47 ∉ u) (s : ByteString) :
    segments (u ++ 47 :: s) = u :: segments s := by
  have hslash : segments (47 :: s) = [] :: segments s := by
    rw [segments_cons, if_pos rfl]
  rw [segments_append hu hslash, List.append_nil]

/-- Bytes that are encoded one by one, slashes as they are. -/
theorem segments_flatMap {encode : UInt8 -> ByteString} (hslash : encode 47 = [47])
    (hother : forall c, c ≠ 47 -> 47 ∉ encode c) (s : ByteString) :
    segments (s.flatMap encode) = (segments s).map fun segment =>
      segment.flatMap encode := by
  induction s with
  | nil => rfl
  | cons c rest ih =>
      rw [List.flatMap_cons, segments_cons]
      split
      · rename_i hc
        rw [hc, hslash, List.map_cons, ← ih]
        exact segments_name (u := []) List.not_mem_nil _
      · rename_i hc
        split
        · rename_i hnil
          exact absurd hnil (segments_ne_nil rest)
        · rename_i segment more hsegments
          rw [hsegments, List.map_cons] at ih
          rw [segments_append (hother c hc) ih]
          rfl

/-!
# Removing the dots
-/

theorem keepSegment_eq {segment : ByteString} (hsegment : isDotSegment segment = false)
    (output : List ByteString) : keepSegment output segment = output ++ [segment] := by
  unfold isDotSegment at hsegment
  rw [Bool.or_eq_false_iff, beq_eq_false_iff_ne, beq_eq_false_iff_ne] at hsegment
  unfold keepSegment
  rw [if_neg hsegment.1, if_neg hsegment.2]

/-- Without dot segments a path stays as it is. -/
theorem removeDots_eq_append {path : List ByteString}
    (hpath : forall segment, segment ∈ path -> isDotSegment segment = false)
    (output : List ByteString) : removeDots output path = output ++ path := by
  induction path generalizing output with
  | nil => exact (List.append_nil output).symm
  | cons segment rest ih =>
      have hsegment := hpath segment List.mem_cons_self
      rw [removeDots, hsegment, Bool.and_false, if_neg Bool.false_ne_true,
        keepSegment_eq hsegment,
        ih fun other hother => hpath other (List.mem_cons_of_mem segment hother),
        List.append_assoc]
      rfl

theorem length_dropLast_le (output : List ByteString) :
    (joinSegments output.dropLast).length ≤ (joinSegments output).length := by
  cases output with
  | nil => exact Nat.le_refl _
  | cons segment rest =>
      have hsplit := List.dropLast_append_getLast (List.cons_ne_nil segment rest)
      have hlength := congrArg (fun path => (joinSegments path).length) hsplit
      simp only [joinSegments_append, List.length_append] at hlength
      omega

/-- A dot segment leaves less than its slash and itself. -/
theorem length_keepSegment {segment : ByteString} (output : List ByteString) :
    (joinSegments (keepSegment output segment)).length + (if isDotSegment segment
        then 2 else 0) ≤ (joinSegments output).length + (segment.length + 1) := by
  unfold keepSegment isDotSegment
  split
  · rename_i hdot
    rw [hdot]
    exact Nat.le_refl _
  · split
    · rename_i hdots
      rw [hdots]
      have hdrop := length_dropLast_le output
      change (joinSegments output.dropLast).length + 2 ≤ (joinSegments output).length + 3
      omega
    · rename_i hdot hdots
      have hone : (joinSegments [segment]).length = segment.length + 1 := by
        rw [joinSegments_cons, List.length_append]
        rfl
      rw [beq_eq_false_iff_ne.mpr hdot, beq_eq_false_iff_ne.mpr hdots,
        joinSegments_append, List.length_append, hone]
      exact Nat.le_refl _

theorem length_removeDots_le (output path : List ByteString) :
    (joinSegments (removeDots output path)).length ≤
      (joinSegments output).length + (joinSegments path).length := by
  induction path generalizing output with
  | nil => exact Nat.le_refl _
  | cons segment rest ih =>
      have hkeep := @length_keepSegment segment output
      have hcons : (joinSegments (segment :: rest)).length =
          segment.length + 1 + (joinSegments rest).length := by
        rw [joinSegments_cons, List.length_append, List.length_cons]
      rw [removeDots]
      split
      · rename_i hend
        rw [Bool.and_eq_true] at hend
        rw [hend.2, if_pos rfl] at hkeep
        rw [joinSegments_append, List.length_append]
        change _ + 1 ≤ _
        omega
      · have hrest := ih (keepSegment output segment)
        split at hkeep
        · omega
        · omega

/-- With a dot segment a path gets shorter. -/
theorem length_removeDots_lt {path : List ByteString}
    (hpath : exists segment, segment ∈ path ∧ isDotSegment segment = true)
    (output : List ByteString) :
    (joinSegments (removeDots output path)).length <
      (joinSegments output).length + (joinSegments path).length := by
  induction path generalizing output with
  | nil =>
      rcases hpath with ⟨segment, hmem, _⟩
      cases hmem
  | cons segment rest ih =>
      have hkeep := @length_keepSegment segment output
      have hcons : (joinSegments (segment :: rest)).length =
          segment.length + 1 + (joinSegments rest).length := by
        rw [joinSegments_cons, List.length_append, List.length_cons]
      rw [removeDots]
      split
      · rename_i hend
        rw [Bool.and_eq_true] at hend
        rw [hend.2, if_pos rfl] at hkeep
        rw [joinSegments_append, List.length_append]
        change _ + 1 < _
        omega
      · cases hdot : isDotSegment segment with
        | true =>
            rw [hdot, if_pos rfl] at hkeep
            have hrest := length_removeDots_le (keepSegment output segment) rest
            omega
        | false =>
            have hmore : exists other, other ∈ rest ∧ isDotSegment other = true := by
              rcases hpath with ⟨other, hmem, hother⟩
              rcases List.mem_cons.mp hmem with heq | hin
              · rw [heq, hdot] at hother
                cases hother
              · exact ⟨other, hin, hother⟩
            have hrest := ih hmore (keepSegment output segment)
            rw [hdot, if_neg Bool.false_ne_true] at hkeep
            omega

/-- A path stays as it is exactly when none of its segments is a dot segment. -/
theorem joinSegments_removeDots_iff (path : List ByteString) :
    joinSegments (removeDots [] path) = joinSegments path ↔
      forall segment, segment ∈ path -> isDotSegment segment = false := by
  constructor
  · intro hsame segment hmem
    by_contra hdot
    rw [Bool.not_eq_false] at hdot
    have hlt := length_removeDots_lt ⟨segment, hmem, hdot⟩ []
    rw [hsame] at hlt
    change _ < 0 + _ at hlt
    omega
  · intro hpath
    rw [removeDots_eq_append hpath, List.nil_append]

/-- An encoding that dot segments do not see. -/
theorem removeDots_map {encode : ByteString -> ByteString}
    (hdot : forall s, encode s = bytes "." ↔ s = bytes ".")
    (hdots : forall s, encode s = bytes ".." ↔ s = bytes "..")
    (hnil : encode [] = []) (output path : List ByteString) :
    removeDots (output.map encode) (path.map encode) =
      (removeDots output path).map encode := by
  have hkeep : forall (output : List ByteString) (segment : ByteString),
      keepSegment (output.map encode) (encode segment) =
        (keepSegment output segment).map encode := by
    intro output segment
    unfold keepSegment
    simp only [hdot, hdots]
    split
    · rfl
    · split
      · exact List.map_dropLast.symm
      · rw [List.map_append]
        rfl
  have hsame : forall segment, isDotSegment (encode segment) = isDotSegment segment := by
    intro segment
    unfold isDotSegment
    rw [Bool.eq_iff_iff]
    simp only [Bool.or_eq_true, beq_iff_eq, hdot, hdots]
  induction path generalizing output with
  | nil => rfl
  | cons segment rest ih =>
      rw [List.map_cons, removeDots, removeDots, List.isEmpty_map, hsame, hkeep, ih]
      split
      · rw [List.map_append, List.map_singleton, hnil]
      · rfl

end Foundation
end OssSdk
