import OssSdk.Foundation.Bytes

/-!
# Lines of a text

A line ends at a CR that an LF follows.  Every text has a first line, and lines after
it as often as it has a line break.
-/

namespace OssSdk
namespace Foundation

/-- The first line, and those after it. -/
def breakLines : ByteString -> ByteString × List ByteString
  | [] => ([], [])
  | 13 :: 10 :: rest =>
      let (line, lines) := breakLines rest
      ([], line :: lines)
  | c :: rest =>
      let (line, lines) := breakLines rest
      (c :: line, lines)

def firstLine (s : ByteString) : ByteString := (breakLines s).1

def laterLines (s : ByteString) : List ByteString := (breakLines s).2

def lines (s : ByteString) : List ByteString := firstLine s :: laterLines s

/-- A line break between two texts is where the lines of the first end. -/
theorem lines_append_break (s rest : ByteString) :
    lines (s ++ 13 :: 10 :: rest) = lines s ++ lines rest := by
  have hboth : breakLines (s ++ 13 :: 10 :: rest) =
      (firstLine s, laterLines s ++ lines rest) := by
    induction s using breakLines.induct with
    | case1 => rfl
    | case2 tail line later hbreak ih =>
        rw [List.cons_append, List.cons_append, breakLines, ih]
        simp only [firstLine, laterLines, breakLines]
        rfl
    | case3 c tail hno line later hbreak ih =>
        have hstill : forall more, c = 13 -> tail ++ 13 :: 10 :: rest = 10 :: more ->
            False := by
          intro more hc hmore
          cases tail with
          | nil => cases hmore
          | cons d tail' =>
              rw [List.cons_append] at hmore
              injection hmore with hd _
              exact hno tail' hc (by rw [hd])
        rw [List.cons_append, breakLines, ih]
        · simp only [firstLine, laterLines]
          rw [breakLines.eq_3 c tail hno]
        · exact hstill
  unfold lines firstLine laterLines
  rw [hboth]
  rfl

example : lines (bytes "a\r\n\nb\r\n") = [bytes "a", bytes "\nb", []] := by decide +kernel

theorem breakLines_of_laterLines {s : ByteString} (hs : laterLines s = []) :
    breakLines s = (s, []) := by
  induction s using breakLines.induct with
  | case1 => rfl
  | case2 tail line later hbreak ih =>
      unfold laterLines at hs
      rw [breakLines] at hs
      cases hs
  | case3 c tail hno line later hbreak ih =>
      unfold laterLines at hs
      rw [breakLines.eq_3 c tail hno] at hs
      rw [breakLines.eq_3 c tail hno, ih hs]

/-- What follows a byte that is not part of a line break is broken as it would be alone. -/
theorem breakLines_append_cons {s : ByteString} (hs : laterLines s = []) {c : UInt8}
    (hcr : c ≠ 13) (hlf : c ≠ 10) (rest : ByteString) :
    breakLines (s ++ c :: rest) = (s ++ c :: firstLine rest, laterLines rest) := by
  have hrest : breakLines (c :: rest) = (c :: firstLine rest, laterLines rest) := by
    rw [breakLines.eq_3 c rest fun _ hc => absurd hc hcr]
    rfl
  induction s using breakLines.induct with
  | case1 => exact hrest
  | case2 tail line later hbreak ih =>
      unfold laterLines at hs
      rw [breakLines] at hs
      cases hs
  | case3 d tail hno line later hbreak ih =>
      unfold laterLines at hs
      rw [breakLines.eq_3 d tail hno] at hs
      have hstill : forall more, d = 13 -> tail ++ c :: rest = 10 :: more -> False := by
        intro more hd hmore
        cases tail with
        | nil =>
            injection hmore with hc _
            exact hlf hc
        | cons e tail' =>
            rw [List.cons_append] at hmore
            injection hmore with he _
            exact hno tail' hd (by rw [he])
      rw [List.cons_append, breakLines.eq_3 d _ hstill, ih hs]
      rfl

theorem breakLines_eq_self {s : ByteString} (hs : 13 ∉ s) : breakLines s = (s, []) := by
  induction s with
  | nil => rfl
  | cons c rest ih =>
      have hc : c ≠ 13 := fun heq => hs (heq ▸ List.mem_cons_self)
      rw [breakLines.eq_3 c rest fun _ heq => absurd heq hc,
        ih fun hmem => hs (List.mem_cons_of_mem c hmem)]

/-- A text has one line unless there is a line break in it. -/
theorem laterLines_eq_nil_iff (s : ByteString) :
    laterLines s = [] ↔ forall a b : ByteString, s ≠ a ++ 13 :: 10 :: b := by
  constructor
  · intro hs a b heq
    have hlines := congrArg List.length (lines_append_break a b)
    rw [← heq] at hlines
    unfold lines at hlines
    rw [hs] at hlines
    simp only [List.length_append, List.length_cons, List.length_nil] at hlines
    omega
  · intro hnone
    induction s using breakLines.induct with
    | case1 => rfl
    | case2 tail line later hbreak ih => exact absurd rfl (hnone [] tail)
    | case3 c tail hno line later hbreak ih =>
        unfold laterLines
        rw [breakLines.eq_3 c tail hno]
        apply ih
        intro a b heq
        exact hnone (c :: a) b (by rw [heq]; rfl)

/-- Parts of a text of one line have one line. -/
theorem laterLines_middle {a s b : ByteString} (hs : laterLines (a ++ s ++ b) = []) :
    laterLines s = [] := by
  rw [laterLines_eq_nil_iff] at hs ⊢
  intro first rest heq
  apply hs (a ++ first) (rest ++ b)
  rw [heq]
  simp only [List.append_assoc, List.cons_append]

theorem head_of_firstLine {s b : ByteString} {c : UInt8} (hs : firstLine s = c :: b) :
    exists rest, s = c :: rest := by
  unfold firstLine at hs
  cases s using breakLines.fun_cases with
  | case1 => cases hs
  | case2 tail line later hbreak => cases hs
  | case3 d tail hno line later hbreak =>
      rw [breakLines.eq_3 d tail hno] at hs
      exact ⟨tail, by rw [(List.cons.inj hs).1]⟩

theorem laterLines_of_mem_lines {line s : ByteString} (hline : line ∈ lines s) :
    laterLines line = [] := by
  induction s using breakLines.induct generalizing line with
  | case1 =>
      rw [List.mem_singleton.mp hline]
      rfl
  | case2 tail first later hbreak ih =>
      have hlines : lines (13 :: 10 :: tail) = [] :: lines tail := rfl
      rw [hlines] at hline
      rcases List.mem_cons.mp hline with hempty | hrest
      · rw [hempty]
        rfl
      · exact ih hrest
  | case3 c tail hno first later hbreak ih =>
      unfold lines firstLine laterLines at hline
      rw [breakLines.eq_3 c tail hno] at hline
      rcases List.mem_cons.mp hline with hfirst | hrest
      · have htail : laterLines (firstLine tail) = [] := ih List.mem_cons_self
        rw [laterLines_eq_nil_iff] at htail ⊢
        intro a b heq
        rw [hfirst] at heq
        cases a with
        | nil =>
            -- the line break would be one in the whole text
            injection heq with hc hfollows
            rcases head_of_firstLine hfollows with ⟨tail', htail'⟩
            exact hno tail' hc htail'
        | cons d a' =>
            injection heq with _ hfollows
            exact htail a' b hfollows
      · exact ih (List.mem_cons_of_mem _ hrest)

/-- The lines of texts that are all followed by a line break. -/
theorem lines_flatMap (texts : List ByteString) :
    lines (texts.flatMap fun text => text ++ bytes "\r\n") =
      texts.flatMap lines ++ [[]] := by
  induction texts with
  | nil => rfl
  | cons text rest ih =>
      have hbreak : bytes "\r\n" = [13, 10] := by decide
      rw [hbreak] at ih ⊢
      rw [List.flatMap_cons, List.flatMap_cons, List.append_assoc, List.append_assoc,
        ← ih]
      exact lines_append_break text _

end Foundation
end OssSdk
