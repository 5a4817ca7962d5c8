import OssSdk.Transport.Curl.ReceivedHeaders
import OssSdk.Utils.StringUtils
import Mathlib.Data.List.DropRight
import Mathlib.Data.List.Find

/-!
# The headers of a response through WinHTTP

WinHTTP gives all header lines in one text.  The same lines, given to the callback of
libcurl one after another, are to make the same headers.
-/

namespace OssSdk
namespace Transport
namespace WinHttp

open Foundation

variable {σ : Type}

/-- Names are compared byte for byte here. -/
abbrev HeaderMap := SortedMap ByteString ByteString caseSensitiveLess

/-- `std::getline` until the end of a stream; `line` is what has been read of a line. -/
def getlines (line : ByteString) : ByteString -> List ByteString
  | [] => if line.isEmpty then [] else [line]
  | c :: rest =>
      if c == 10 then line :: getlines [] rest else getlines (line ++ [c]) rest

/-- A CR at the end of a line is not part of it. -/
def dropReturn (line : ByteString) : ByteString :=
  if line.getLast? = some 13 then line.dropLast else line

def parseHeaderLine (line : ByteString) : Option (ByteString × ByteString) :=
  if (dropReturn line).contains 58 then
    some (before 58 (dropReturn line), Utils.trim (after 58 (dropReturn line)))
  else none

def parseResponseHeaders (rawHeaders : ByteString) : HeaderMap :=
  SortedMap.ofList ((getlines [] rawHeaders).filterMap parseHeaderLine)

/-- The lines of a text with their ends, as libcurl passes them on. -/
def headerLines (line : ByteString) : ByteString -> List ByteString
  | [] => if line.isEmpty then [] else [line]
  | c :: rest =>
      if c == 10 then (line ++ [c]) :: headerLines [] rest
      else headerLines (line ++ [c]) rest

/-- The headers that the callbacks of libcurl make of a text. -/
def curlHeaders (rawHeaders : ByteString) : HeaderCollection :=
  (Curl.recvLines 0 (headerLines [] rawHeaders)
    (Curl.TransferIO.init 0 SortedMap.empty none (-1) ())).headers

example : (parseResponseHeaders
    (bytes "HTTP/1.1 200 OK\x0d\nETag: \x22a\x22 \x0d\n\x0d\n")).entries =
      [(bytes "ETag", bytes "\x22a\x22")] := by decide +kernel

/-- Both make the same headers, and no value has a blank at either end. -/
structure SameHeaders (rawHeaders : ByteString) : Prop where
  same : forall header, header ∈ (curlHeaders rawHeaders).entries ↔
    header ∈ (parseResponseHeaders rawHeaders).entries
  trimmed : forall header, header ∈ (curlHeaders rawHeaders).entries ->
    Utils.trim header.2 = header.2

/-!
# What a line says
-/

/-- The text after the colon and the blanks that follow it. -/
def valueText (line : ByteString) : ByteString :=
  (after 58 (dropReturn line)).dropWhile Utils.isBlank

/-- A text that does not end in a blank or a CR. -/
def EndsClean (text : ByteString) : Prop :=
  forall c, text.getLast? = some c -> Utils.isBlank c = false ∧ c ≠ 13

/-- A line with the end that it had. -/
structure Ended (line raw : ByteString) : Prop where
  inner : 10 ∉ line
  ended : raw = line ++ [10] ∨ raw = line

theorem ended_lines {line : ByteString} (hline : 10 ∉ line) (s : ByteString) :
    List.Forall₂ Ended (getlines line s) (headerLines line s) := by
  induction s generalizing line with
  | nil =>
      unfold getlines headerLines
      split
      · exact List.Forall₂.nil
      · exact List.Forall₂.cons ⟨hline, Or.inr rfl⟩ List.Forall₂.nil
  | cons c rest ih =>
      rw [getlines, headerLines]
      by_cases hc : (c == 10) = true
      · rw [if_pos hc, if_pos hc]
        have hend : line ++ [c] = line ++ [10] := by rw [beq_iff_eq.mp hc]
        exact List.Forall₂.cons ⟨hline, Or.inl hend⟩ (ih List.not_mem_nil)
      · rw [if_neg hc, if_neg hc]
        apply ih
        rw [List.mem_append, List.mem_singleton, not_or]
        exact ⟨hline, fun heq => hc (by rw [← heq]; rfl)⟩

theorem dropReturn_cases (line : ByteString) :
    line = dropReturn line ++ [13] ∨ line = dropReturn line := by
  unfold dropReturn
  split
  · rename_i hlast
    rcases List.getLast?_eq_some_iff.mp hlast with ⟨first, hfirst⟩
    rw [hfirst, List.dropLast_concat]
    exact Or.inl rfl
  · exact Or.inr rfl

/-- What is left of a line is followed by its end only. -/
theorem Ended.tail {line raw : ByteString} (hended : Ended line raw) :
    exists tail : ByteString, tail.all Curl.isLineEnd = true ∧
      raw = dropReturn line ++ tail := by
  rcases hended.ended with hraw | hraw
  · rcases dropReturn_cases line with hline | hline
    · refine ⟨[13, 10], rfl, ?_⟩
      rw [hraw]
      exact (congrArg (· ++ [10]) hline).trans (List.append_assoc _ _ _)
    · exact ⟨[10], rfl, by rw [hraw, ← hline]⟩
  · rcases dropReturn_cases line with hline | hline
    · exact ⟨[13], rfl, hraw.trans hline⟩
    · exact ⟨[], rfl, by rw [List.append_nil, hraw, ← hline]⟩

theorem rdropWhile_append_ends {p : UInt8 -> Bool} {tail : ByteString}
    (htail : tail.all p = true) (s : ByteString) :
    List.rdropWhile p (s ++ tail) = List.rdropWhile p s := by
  induction tail using List.reverseRecOn with
  | nil => rw [List.append_nil]
  | append_singleton tail c ih =>
      rw [List.all_append, Bool.and_eq_true] at htail
      have hc : p c = true := by simpa using htail.2
      rw [← List.append_assoc, List.rdropWhile_concat_pos p _ c hc, ih htail.1]

theorem rdropWhile_concat_ne {p : UInt8 -> Bool} {c : UInt8} (hc : p c = true)
    (s : ByteString) : List.rdropWhile p (s ++ [c]) ≠ s ++ [c] := by
  intro hsame
  have hle := (List.rdropWhile_prefix p s).length_le
  rw [← List.rdropWhile_concat_pos p s c hc, hsame, List.length_append] at hle
  exact absurd hle (Nat.not_succ_le_self _)

theorem colon_not_mem {tail : ByteString} (htail : tail.all Curl.isLineEnd = true) :
    58 ∉ tail := by
  intro hmem
  have hend := List.all_eq_true.mp htail 58 hmem
  cases hend

theorem dropWhile_append_ends {tail : ByteString} (htail : tail.all Curl.isLineEnd = true)
    (s : ByteString) :
    (s ++ tail).dropWhile Utils.isBlank = s.dropWhile Utils.isBlank ++ tail := by
  have hbyte : forall c : UInt8, Curl.isLineEnd c = true -> Utils.isBlank c = false :=
    forall_byte (by decide +kernel)
  induction s with
  | nil =>
      cases tail with
      | nil => rfl
      | cons c rest =>
          have hc := hbyte c (List.all_eq_true.mp htail c List.mem_cons_self)
          rw [List.nil_append, List.dropWhile_cons, hc]
          rfl
  | cons c rest ih =>
      rw [List.cons_append, List.dropWhile_cons, List.dropWhile_cons]
      cases Utils.isBlank c with
      | true => exact ih
      | false => rfl

theorem Ended.headerInLine_eq {line raw : ByteString} (hended : Ended line raw) :
    Curl.headerInLine raw =
      if 58 ∈ dropReturn line then
        some (before 58 (dropReturn line), List.rdropWhile Curl.isLineEnd (valueText line))
      else none := by
  rcases hended.tail with ⟨tail, htail, hraw⟩
  have hnot := colon_not_mem htail
  unfold Curl.headerInLine
  simp only [List.contains_iff_mem]
  by_cases hcolon : 58 ∈ dropReturn line
  · rcases before_after_append hcolon tail with ⟨hbefore, hafter⟩
    rw [hraw, if_pos (List.mem_append_left _ hcolon), if_pos hcolon, hbefore, hafter,
      dropWhile_append_ends htail]
    exact congrArg (fun value => some (before 58 (dropReturn line), value))
      (rdropWhile_append_ends htail _)
  · have hraw' : 58 ∉ raw := by
      rw [hraw, List.mem_append, not_or]
      exact ⟨hcolon, hnot⟩
    rw [if_neg hraw', if_neg hcolon]

theorem line_feed_not_mem {line raw : ByteString} (hended : Ended line raw) :
    10 ∉ valueText line := by
  intro hmem
  have hafter : 10 ∈ after 58 (dropReturn line) :=
    (List.dropWhile_suffix _).subset hmem
  have hdrop : 10 ∈ dropReturn line := mem_of_mem_after hafter
  apply hended.inner
  rcases dropReturn_cases line with hline | hline
  · rw [hline]
    exact List.mem_append_left _ hdrop
  · rw [hline]
    exact hdrop

/-- Both cut the same off exactly if there is nothing to cut off but the line end. -/
theorem rdropWhile_eq_iff {text : ByteString} (htext : 10 ∉ text) :
    List.rdropWhile Curl.isLineEnd text = List.rdropWhile Utils.isBlank text ↔
      EndsClean text := by
  cases text using List.reverseRecOn with
  | nil => exact ⟨fun _ c hc => (nomatch hc), fun _ => rfl⟩
  | append_singleton text c =>
      have hlast : (text ++ [c]).getLast? = some c := List.getLast?_concat
      have hone : forall {p : UInt8 -> Bool}, p c = false ->
          List.rdropWhile p (text ++ [c]) = text ++ [c] := by
        intro p hp
        apply List.rdropWhile_concat_neg
        rw [hp]
        exact Bool.false_ne_true
      have hfeed : c ≠ 10 := fun heq =>
        htext (heq ▸ List.mem_append_right _ (List.mem_singleton_self c))
      have hbyte : forall c : UInt8, c ≠ 10 -> Curl.isLineEnd c = true ->
          c = 13 ∧ Utils.isBlank c = false := forall_byte (by decide +kernel)
      constructor
      · intro hsame c' hc'
        rw [hlast] at hc'
        rw [← Option.some.inj hc']
        cases hend : Curl.isLineEnd c with
        | true =>
            rw [hone (hbyte c hfeed hend).2] at hsame
            exact absurd hsame (rdropWhile_concat_ne hend text)
        | false =>
            rw [hone hend] at hsame
            constructor
            · cases hblank : Utils.isBlank c with
              | false => rfl
              | true => exact absurd hsame.symm (rdropWhile_concat_ne hblank text)
            · intro hreturn
              rw [hreturn] at hend
              cases hend
      · intro hclean
        rcases hclean c hlast with ⟨hblank, hreturn⟩
        have hend : Curl.isLineEnd c = false := by
          cases hend : Curl.isLineEnd c with
          | false => rfl
          | true => exact absurd (hbyte c hfeed hend).1 hreturn
        rw [hone hblank, hone hend]

/-!
# The lines of a text
-/

def isField (line : ByteString) : Bool := (dropReturn line).contains 58

def nameOf (line : ByteString) : ByteString := before 58 (dropReturn line)

/-- What a line says, with its end cut off in one way or the other. -/
def lineHeader (p : UInt8 -> Bool) (line : ByteString) :
    Option (ByteString × ByteString) :=
  if isField line then some (nameOf line, List.rdropWhile p (valueText line)) else none

/-- The first line whose name has a property. -/
def fieldWith (q : ByteString -> Bool) (lines : List ByteString) : Option ByteString :=
  lines.find? fun line => isField line && q (nameOf line)

def sameName (name other : ByteString) : Bool :=
  SortedMap.equivalent caseInsensitiveLess other name

/-- Names that differ in case only do not both occur. -/
def SpelledAlike (rawHeaders : ByteString) : Prop :=
  forall line line', line ∈ getlines [] rawHeaders -> line' ∈ getlines [] rawHeaders ->
    isField line = true -> isField line' = true ->
    sameName (nameOf line) (nameOf line') = true -> nameOf line' = nameOf line

/-- Nor does the first value of a name end in a blank or in a CR. -/
structure Agreeable (rawHeaders : ByteString) : Prop where
  spelled : SpelledAlike rawHeaders
  clean : forall name line,
    fieldWith (fun other => other == name) (getlines [] rawHeaders) = some line ->
    EndsClean (valueText line)

theorem find?_lineHeader (p : UInt8 -> Bool) (q : ByteString -> Bool)
    (lines : List ByteString) :
    (lines.filterMap (lineHeader p)).find? (fun header => q header.1) =
      (fieldWith q lines).map fun line => (nameOf line, List.rdropWhile p (valueText line)) := by
  unfold fieldWith
  induction lines with
  | nil => rfl
  | cons line rest ih =>
      rw [List.filterMap_cons, List.find?_cons]
      unfold lineHeader at ih ⊢
      cases hfield : isField line with
      | false => exact ih
      | true =>
          simp only [if_true, Bool.true_and]
          rw [List.find?_cons]
          cases hq : q (nameOf line) with
          | false => exact ih
          | true => rfl

theorem parseHeaderLine_eq : parseHeaderLine = lineHeader Utils.isBlank := rfl

theorem curlHeaders_eq (rawHeaders : ByteString) :
    curlHeaders rawHeaders =
      SortedMap.ofList ((getlines [] rawHeaders).filterMap (lineHeader Curl.isLineEnd)) := by
  have hlines : forall {lines raws : List ByteString}, List.Forall₂ Ended lines raws ->
      raws.filterMap Curl.headerInLine = lines.filterMap (lineHeader Curl.isLineEnd) := by
    intro lines raws hended
    induction hended with
    | nil => rfl
    | cons hline _ ih =>
        rw [List.filterMap_cons, List.filterMap_cons, hline.headerInLine_eq, ih]
        unfold lineHeader isField nameOf
        simp only [List.contains_iff_mem]
  unfold curlHeaders
  rw [Curl.recvLines_headers, hlines (ended_lines List.not_mem_nil rawHeaders)]
  rfl

theorem mem_curlHeaders {rawHeaders : ByteString} {header : ByteString × ByteString} :
    header ∈ (curlHeaders rawHeaders).entries ↔
      exists line, fieldWith (sameName header.1) (getlines [] rawHeaders) = some line ∧
        header = (nameOf line, List.rdropWhile Curl.isLineEnd (valueText line)) := by
  rw [curlHeaders_eq, SortedMap.mem_ofList_iff]
  have hfind := find?_lineHeader Curl.isLineEnd (sameName header.1) (getlines [] rawHeaders)
  unfold sameName at hfind
  rw [hfind, Option.map_eq_some_iff]
  constructor
  · exact fun h => h.elim fun line hline => ⟨line, hline.1, hline.2.symm⟩
  · exact fun h => h.elim fun line hline => ⟨line, hline.1, hline.2.symm⟩

theorem mem_parseResponseHeaders {rawHeaders : ByteString}
    {header : ByteString × ByteString} :
    header ∈ (parseResponseHeaders rawHeaders).entries ↔
      exists line,
        fieldWith (fun other => other == header.1) (getlines [] rawHeaders) = some line ∧
        header = (nameOf line, List.rdropWhile Utils.isBlank (valueText line)) := by
  have hequal : (fun other : ByteString × ByteString =>
      SortedMap.equivalent caseSensitiveLess other.1 header.1) =
        fun other => other.1 == header.1 := by
    funext other
    rw [Bool.eq_iff_iff, beq_iff_eq, Utils.equivalent_caseSensitive]
  have hfind := find?_lineHeader Utils.isBlank (fun other => other == header.1)
    (getlines [] rawHeaders)
  unfold parseResponseHeaders
  rw [SortedMap.mem_ofList_iff, parseHeaderLine_eq, hequal, hfind,
    Option.map_eq_some_iff]
  constructor
  · exact fun h => h.elim fun line hline => ⟨line, hline.1, hline.2.symm⟩
  · exact fun h => h.elim fun line hline => ⟨line, hline.1, hline.2.symm⟩

/-!
# The same headers
-/

theorem fieldWith_mem {q : ByteString -> Bool} {lines : List ByteString} {line : ByteString}
    (hfound : fieldWith q lines = some line) :
    line ∈ lines ∧ isField line = true ∧ q (nameOf line) = true := by
  have hpred := List.find?_some hfound
  rw [Bool.and_eq_true] at hpred
  exact ⟨List.mem_of_find?_eq_some hfound, hpred⟩

theorem sameName_refl (name : ByteString) : sameName name name = true :=
  SortedMap.equivalent_refl name

/-- A name that a line has is found the same way with and without regard to case. -/
theorem SpelledAlike.fieldWith_eq {rawHeaders : ByteString}
    (hspelled : SpelledAlike rawHeaders)
    {line : ByteString}
    (hline : line ∈ getlines [] rawHeaders)
    (hfield : isField line = true) :
    fieldWith (sameName (nameOf line)) (getlines [] rawHeaders) =
      fieldWith (fun other => other == nameOf line) (getlines [] rawHeaders) := by
  unfold fieldWith
  apply List.find?_congr
  intro other hother
  cases hotherField : isField other with
  | false => rfl
  | true =>
      rw [Bool.true_and, Bool.true_and, Bool.eq_iff_iff, beq_iff_eq]
      constructor
      · exact hspelled line other hline hother hfield hotherField
      · intro heq
        rw [heq]
        exact sameName_refl _

theorem getlines_inner {line rawHeaders : ByteString}
    (hline : line ∈ getlines [] rawHeaders) : 10 ∉ valueText line := by
  have hended := ended_lines List.not_mem_nil rawHeaders
  rcases List.getElem_of_mem hline with ⟨i, hi, heq⟩
  have hget : Ended (getlines [] rawHeaders)[i] _ :=
    List.Forall₂.get hended hi (hended.length_eq ▸ hi)
  rw [heq] at hget
  exact line_feed_not_mem hget

theorem trim_trim (s : ByteString) : Utils.trim (Utils.trim s) = Utils.trim s := by
  have hdrop : (Utils.trim s).dropWhile Utils.isBlank = Utils.trim s := by
    rcases List.rdropWhile_prefix Utils.isBlank (s.dropWhile Utils.isBlank) with
      ⟨tail, htail⟩
    change Utils.trim s ++ tail = _ at htail
    cases htrim : Utils.trim s with
    | nil => rfl
    | cons c rest =>
        have hwhole := List.dropWhile_idempotent (p := Utils.isBlank) (l := s)
        rw [← htail, htrim, List.cons_append, List.dropWhile_cons] at hwhole
        rw [List.dropWhile_cons]
        cases hc : Utils.isBlank c with
        | false => rfl
        | true =>
            rw [hc, if_pos rfl] at hwhole
            have hlength := (List.dropWhile_suffix (l := rest ++ tail)
              Utils.isBlank).length_le
            rw [hwhole] at hlength
            exact absurd hlength (Nat.not_succ_le_self _)
  change List.rdropWhile Utils.isBlank ((Utils.trim s).dropWhile Utils.isBlank) = _
  rw [hdrop]
  exact List.rdropWhile_idempotent Utils.isBlank _

theorem SameHeaders.agreeable {rawHeaders : ByteString} (hsame : SameHeaders rawHeaders) :
    Agreeable rawHeaders := by
  -- what WinHTTP has of a line is there for libcurl too
  have hkept : forall name line,
      fieldWith (fun other => other == name) (getlines [] rawHeaders) = some line ->
      (nameOf line, List.rdropWhile Utils.isBlank (valueText line)) ∈
        (curlHeaders rawHeaders).entries := by
    intro name line hfound
    have hname : nameOf line = name := beq_iff_eq.mp (fieldWith_mem hfound).2.2
    rw [hsame.same, mem_parseResponseHeaders]
    refine ⟨line, ?_, rfl⟩
    rwa [hname]
  have hspelled : SpelledAlike rawHeaders := by
    have hfirst : forall line, line ∈ getlines [] rawHeaders -> isField line = true ->
        exists value, (nameOf line, value) ∈ (curlHeaders rawHeaders).entries := by
      intro line hline hfield
      cases hfound : fieldWith (fun other => other == nameOf line)
          (getlines [] rawHeaders) with
      | none =>
          have hnot := List.find?_eq_none.mp hfound line hline
          rw [hfield] at hnot
          simp at hnot
      | some first =>
          have hname : nameOf first = nameOf line :=
            beq_iff_eq.mp (fieldWith_mem hfound).2.2
          exact ⟨_, hname ▸ hkept _ first hfound⟩
    intro line line' hline hline' hfield hfield' hequal
    rcases hfirst line hline hfield with ⟨value, hvalue⟩
    rcases hfirst line' hline' hfield' with ⟨value', hvalue'⟩
    rw [SortedMap.mem_entries_iff] at hvalue hvalue'
    rw [SortedMap.findEntry_congr _ hequal, hvalue] at hvalue'
    exact (congrArg Prod.fst (Option.some.inj hvalue')).symm
  refine ⟨hspelled, fun name line hfound => ?_⟩
  rcases fieldWith_mem hfound with ⟨hline, hfield, hname⟩
  rcases mem_curlHeaders.mp (hkept name line hfound) with ⟨other, hother, hheader⟩
  rcases fieldWith_mem hother with ⟨hotherLine, hotherField, hotherName⟩
  have hnames : nameOf line = nameOf other := congrArg Prod.fst hheader
  have hsameLine : other = line := by
    rw [hspelled.fieldWith_eq hline hfield, beq_iff_eq.mp hname, hfound] at hother
    exact (Option.some.inj hother).symm
  rw [← rdropWhile_eq_iff (getlines_inner hline)]
  rw [hsameLine] at hheader
  exact (congrArg Prod.snd hheader).symm

theorem Agreeable.same {rawHeaders : ByteString} (hagree : Agreeable rawHeaders)
    (header : ByteString × ByteString) :
    header ∈ (curlHeaders rawHeaders).entries ↔
      header ∈ (parseResponseHeaders rawHeaders).entries := by
  rw [mem_curlHeaders, mem_parseResponseHeaders]
  constructor
  · intro hexists
    rcases hexists with ⟨line, hfound, hheader⟩
    rcases fieldWith_mem hfound with ⟨hline, hfield, _⟩
    have hname : header.1 = nameOf line := congrArg Prod.fst hheader
    rw [hname, hagree.spelled.fieldWith_eq hline hfield] at hfound
    refine ⟨line, by rw [hname]; exact hfound, ?_⟩
    rw [← (rdropWhile_eq_iff (getlines_inner hline)).mpr (hagree.clean _ line hfound)]
    exact hheader
  · intro hexists
    rcases hexists with ⟨line, hfound, hheader⟩
    rcases fieldWith_mem hfound with ⟨hline, hfield, _⟩
    have hname : header.1 = nameOf line := congrArg Prod.fst hheader
    rw [hname] at hfound
    refine ⟨line, ?_, ?_⟩
    · rw [hname, hagree.spelled.fieldWith_eq hline hfield]
      exact hfound
    · rw [(rdropWhile_eq_iff (getlines_inner hline)).mpr (hagree.clean _ line hfound)]
      exact hheader

theorem trim_of_mem_parseResponseHeaders {rawHeaders : ByteString}
    {header : ByteString × ByteString}
    (hmem : header ∈ (parseResponseHeaders rawHeaders).entries) :
    Utils.trim header.2 = header.2 := by
  rcases mem_parseResponseHeaders.mp hmem with ⟨line, _, hheader⟩
  have hvalue : header.2 = Utils.trim (after 58 (dropReturn line)) :=
    congrArg Prod.snd hheader
  rw [hvalue]
  exact trim_trim _

/-- Both transports make the same headers exactly of the texts that leave no choice. -/
theorem sameHeaders_iff (rawHeaders : ByteString) :
    SameHeaders rawHeaders ↔ Agreeable rawHeaders := by
  constructor
  · exact fun hsame => hsame.agreeable
  · intro hagree
    refine ⟨hagree.same, fun header hmem => ?_⟩
    exact trim_of_mem_parseResponseHeaders ((hagree.same header).mp hmem)

/-- A blank at the end of a value stays with libcurl. -/
theorem not_sameHeaders_blank :
    ¬ SameHeaders (bytes "HTTP/1.1 200 OK\x0d\nETag: a \x0d\n\x0d\n") := by
  intro hsame
  have htrimmed := hsame.trimmed (bytes "ETag", bytes "a ") (by decide +kernel)
  revert htrimmed
  decide

end WinHttp
end Transport
end OssSdk
