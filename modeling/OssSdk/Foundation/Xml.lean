import OssSdk.Foundation.Utf8
import Mathlib.Data.List.Basic

/-!
# Reading XML

A reader of elements that have no attributes.  It knows the five predefined entities and
references by number, and it refuses what else a document can be made of: what it reads
is what any other reader finds.
-/

namespace OssSdk
namespace Foundation
namespace Xml

inductive Node where
  | text (data : ByteString)
  | element (name : ByteString) (children : List Node)

/-- `#x9 | #xA | #xD | [#x20-#xD7FF] | [#xE000-#xFFFD] | [#x10000-#x10FFFF]` -/
def isChar (n : Nat) : Bool :=
  n == 9 || n == 10 || n == 13 || (32 ≤ n && n ≤ 0xD7FF) || (0xE000 ≤ n && n ≤ 0xFFFD) ||
    (0x10000 ≤ n && n ≤ 0x10FFFF)

/-- A text that an XML document can have. -/
abbrev Chars (s : ByteString) : Prop := Utf8Of isChar s

def isBlank (c : UInt8) : Bool := c == 32 || c == 9 || c == 10 || c == 13

def isNameStart (c : UInt8) : Bool :=
  (65 ≤ c.toNat && c.toNat ≤ 90) || (97 ≤ c.toNat && c.toNat ≤ 122) || c == 95 || c == 58

def isNameByte (c : UInt8) : Bool :=
  isNameStart c || (48 ≤ c.toNat && c.toNat ≤ 57) || c == 45 || c == 46

def isName : ByteString -> Bool
  | [] => false
  | c :: rest => isNameStart c && rest.all isNameByte

/-- Every line ends with a line feed. -/
def normalizeLines : ByteString -> ByteString
  | [] => []
  | 13 :: 10 :: rest => 10 :: normalizeLines rest
  | 13 :: rest => 10 :: normalizeLines rest
  | c :: rest => c :: normalizeLines rest

/-!
# References
-/

def numeral (base : Nat) (digits : ByteString) : Option Nat :=
  if digits.isEmpty then none
  else digits.foldlM (fun n c => (hexDigitValue c).bind fun d =>
    if d < base then some (base * n + d) else none) 0

def charReference (n : Option Nat) : Option ByteString :=
  n.bind fun n => if isChar n then some (scalar n) else none

/-- What stands between `&` and `;`. -/
def resolve (body : ByteString) : Option ByteString :=
  if body = bytes "lt" then some [60]
  else if body = bytes "gt" then some [62]
  else if body = bytes "amp" then some [38]
  else if body = bytes "apos" then some [39]
  else if body = bytes "quot" then some [34]
  else
    match body with
    | 35 :: 120 :: digits => charReference (numeral 16 digits)
    | 35 :: digits => charReference (numeral 10 digits)
    | _ => none

/-!
# The reader
-/

/-- `brackets` counts the ones before a byte, for `]]>` is no text. -/
inductive Mode where
  | text (data : ByteString) (brackets : Nat)
  | reference (data body : ByteString)
  | startTag (name : ByteString)
  | endTag (name : ByteString)

/-- The elements that are open, the innermost first, with what is in them. -/
structure Reader where
  stack : List (ByteString × List Node)
  root : Option Node
  mode : Mode

/-- Texts are never empty. -/
def textNodes (data : ByteString) : List Node :=
  if data = [] then [] else [.text data]

namespace Reader

def start : Reader := ⟨[], none, .text [] 0⟩

def add (nodes : List Node) : List (ByteString × List Node) -> List (ByteString × List Node)
  | [] => []
  | (name, content) :: rest => (name, content ++ nodes) :: rest

/-- Outside of the root there are blanks only. -/
def textStep (r : Reader) (data : ByteString) (brackets : Nat) (c : UInt8) : Option Reader :=
  if c = 60 then some ⟨add (textNodes data) r.stack, r.root, .startTag []⟩
  else if r.stack.isEmpty then if isBlank c then some r else none
  else if c = 38 then some { r with mode := .reference data [] }
  else if c = 62 ∧ 2 ≤ brackets then none
  else some { r with mode := .text (data ++ [c]) (if c = 93 then brackets + 1 else 0) }

/-- There is one root. -/
def openElement (r : Reader) (name : ByteString) : Option Reader :=
  if isName name = false ∨ (r.stack.isEmpty ∧ r.root.isSome) then none
  else some ⟨(name, []) :: r.stack, r.root, .text [] 0⟩

def closeElement (r : Reader) (name : ByteString) : Option Reader :=
  match r.stack with
  | [] => none
  | (name', content) :: rest =>
      if name ≠ name' then none
      else if rest.isEmpty then some ⟨[], some (.element name content), .text [] 0⟩
      else some ⟨add [.element name content] rest, r.root, .text [] 0⟩

def step (r : Reader) (c : UInt8) : Option Reader :=
  match r.mode with
  | .text data brackets => r.textStep data brackets c
  | .reference data body =>
      if c = 59 then (resolve body).map fun s => { r with mode := .text (data ++ s) 0 }
      else some { r with mode := .reference data (body ++ [c]) }
  | .startTag name =>
      if c = 47 ∧ name = [] then some { r with mode := .endTag [] }
      else if c = 62 then r.openElement name
      else some { r with mode := .startTag (name ++ [c]) }
  | .endTag name =>
      if c = 62 then r.closeElement name
      else some { r with mode := .endTag (name ++ [c]) }

end Reader

/-- The root element of a document. -/
def read (text : ByteString) : Option Node :=
  if Chars text then
    match (normalizeLines text).foldlM Reader.step Reader.start with
    | some ⟨[], some root, .text [] _⟩ => some root
    | _ => none
  else none

/-!
# Texts
-/

/-- Read inside of an element, `s` is the text `data`. -/
def ReadsText (s data : ByteString) : Prop :=
  forall stack root before brackets, stack ≠ [] ->
    exists brackets', s.foldlM Reader.step ⟨stack, root, .text before brackets⟩ =
      some ⟨stack, root, .text (before ++ data) brackets'⟩

theorem ReadsText.nil : ReadsText [] [] := by
  intro stack root before brackets _
  rw [List.append_nil]
  exact ⟨brackets, rfl⟩

theorem ReadsText.append {s t data more : ByteString} (hs : ReadsText s data)
    (ht : ReadsText t more) : ReadsText (s ++ t) (data ++ more) := by
  intro stack root before brackets hstack
  rcases hs stack root before brackets hstack with ⟨middle, hfirst⟩
  rcases ht stack root (before ++ data) middle hstack with ⟨last, hsecond⟩
  refine ⟨last, ?_⟩
  rw [List.foldlM_append, hfirst, ← List.append_assoc]
  exact hsecond

theorem ReadsText.byte {c : UInt8} (hopen : c ≠ 60) (hreference : c ≠ 38)
    (hclose : c ≠ 62) : ReadsText [c] [c] := by
  intro stack root before brackets hstack
  refine ⟨if c = 93 then brackets + 1 else 0, ?_⟩
  have hsome : stack.isEmpty = false := List.isEmpty_eq_false_iff.mpr hstack
  change Reader.textStep ⟨stack, root, .text before brackets⟩ before brackets c >>= _ = _
  unfold Reader.textStep
  rw [if_neg hopen, hsome, if_neg Bool.false_ne_true, if_neg hreference,
    if_neg (fun h => hclose h.1)]
  rfl

theorem steps_reference (stack : List (ByteString × List Node)) (root : Option Node)
    (before read : ByteString) {body : ByteString} (hbody : 59 ∉ body) :
    body.foldlM Reader.step ⟨stack, root, .reference before read⟩ =
      some ⟨stack, root, .reference before (read ++ body)⟩ := by
  induction body generalizing read with
  | nil =>
      rw [List.append_nil]
      rfl
  | cons c rest ih =>
      rcases List.ne_and_not_mem_of_not_mem_cons hbody with ⟨hc, hrest⟩
      rw [List.foldlM_cons]
      unfold Reader.step
      simp only [if_neg (Ne.symm hc)]
      have hmore := ih (read ++ [c]) hrest
      rw [List.append_assoc] at hmore
      exact hmore

/-- A reference is read as what it stands for. -/
theorem ReadsText.reference {body s : ByteString} (hbody : 59 ∉ body)
    (hresolve : resolve body = some s) : ReadsText (38 :: body ++ [59]) s := by
  intro stack root before brackets hstack
  refine ⟨0, ?_⟩
  have hsome : stack.isEmpty = false := List.isEmpty_eq_false_iff.mpr hstack
  have hopen : Reader.step ⟨stack, root, .text before brackets⟩ 38 =
      some ⟨stack, root, .reference before []⟩ := by
    change Reader.textStep _ before brackets 38 = _
    unfold Reader.textStep
    rw [if_neg (by decide), hsome, if_neg Bool.false_ne_true, if_pos rfl]
  rw [List.cons_append, List.foldlM_cons, hopen]
  change (body ++ [59]).foldlM Reader.step ⟨stack, root, .reference before []⟩ = _
  rw [List.foldlM_append, steps_reference stack root before [] hbody]
  change Reader.step ⟨stack, root, .reference before body⟩ 59 >>= _ = _
  unfold Reader.step
  simp only [if_true, hresolve]
  rfl

/-!
# Tags
-/

def enclose (tag s : ByteString) : ByteString :=
  bytes "<" ++ tag ++ bytes ">" ++ s ++ bytes "</" ++ tag ++ bytes ">"

theorem isNameByte_of_mem {tag : ByteString} (htag : isName tag = true) :
    forall c, c ∈ tag -> isNameByte c = true := by
  cases tag with
  | nil => cases htag
  | cons first rest =>
      unfold isName at htag
      rw [Bool.and_eq_true, List.all_eq_true] at htag
      intro c hc
      rcases List.mem_cons.mp hc with heq | hmem
      · rw [heq]
        unfold isNameByte
        rw [htag.1]
        rfl
      · exact htag.2 c hmem

theorem mark_not_mem {tag : ByteString} (htag : isName tag = true) :
    62 ∉ tag ∧ 47 ∉ tag := by
  constructor
  · intro hmem
    cases isNameByte_of_mem htag 62 hmem
  · intro hmem
    cases isNameByte_of_mem htag 47 hmem

theorem steps_startName (stack : List (ByteString × List Node)) (root : Option Node)
    (read : ByteString) {tag : ByteString} (htag : 62 ∉ tag ∧ 47 ∉ tag) :
    tag.foldlM Reader.step ⟨stack, root, .startTag read⟩ =
      some ⟨stack, root, .startTag (read ++ tag)⟩ := by
  induction tag generalizing read with
  | nil =>
      rw [List.append_nil]
      rfl
  | cons c rest ih =>
      rcases List.ne_and_not_mem_of_not_mem_cons htag.1 with ⟨hclose, hclose'⟩
      rcases List.ne_and_not_mem_of_not_mem_cons htag.2 with ⟨hslash, hslash'⟩
      have hname : ¬ (c = 47 ∧ read = []) := fun h => hslash h.1.symm
      rw [List.foldlM_cons]
      unfold Reader.step
      simp only [if_neg hname, if_neg (Ne.symm hclose)]
      have hmore := ih (read ++ [c]) ⟨hclose', hslash'⟩
      rw [List.append_assoc] at hmore
      exact hmore

theorem steps_endName (stack : List (ByteString × List Node)) (root : Option Node)
    (read : ByteString) {tag : ByteString} (htag : 62 ∉ tag) :
    tag.foldlM Reader.step ⟨stack, root, .endTag read⟩ =
      some ⟨stack, root, .endTag (read ++ tag)⟩ := by
  induction tag generalizing read with
  | nil =>
      rw [List.append_nil]
      rfl
  | cons c rest ih =>
      rcases List.ne_and_not_mem_of_not_mem_cons htag with ⟨hclose, hclose'⟩
      rw [List.foldlM_cons]
      unfold Reader.step
      simp only [if_neg (Ne.symm hclose)]
      have hmore := ih (read ++ [c]) hclose'
      rw [List.append_assoc] at hmore
      exact hmore

theorem steps_startTag {stack : List (ByteString × List Node)} {root : Option Node}
    {tag : ByteString} (htag : isName tag = true) (hroot : stack ≠ [] ∨ root = none)
    (brackets : Nat) :
    (bytes "<" ++ tag ++ bytes ">").foldlM Reader.step ⟨stack, root, .text [] brackets⟩ =
      some ⟨(tag, []) :: stack, root, .text [] 0⟩ := by
  have hadd : Reader.add (textNodes []) stack = stack := by
    cases stack with
    | nil => rfl
    | cons top rest =>
        unfold Reader.add textNodes
        simp only [if_true, List.append_nil]
  have hallowed : ¬ (isName tag = false ∨ (stack.isEmpty = true ∧ root.isSome = true)) := by
    rw [htag, not_or]
    refine ⟨Bool.noConfusion, ?_⟩
    rintro ⟨hempty, hsome⟩
    rcases hroot with hstack | hnone
    · exact hstack (List.isEmpty_iff.mp hempty)
    · rw [hnone] at hsome
      cases hsome
  rw [List.append_assoc]
  change (tag ++ bytes ">").foldlM Reader.step
    ⟨Reader.add (textNodes []) stack, root, .startTag []⟩ = _
  rw [hadd, List.foldlM_append, steps_startName stack root [] (mark_not_mem htag)]
  change Reader.step ⟨stack, root, .startTag tag⟩ 62 >>= _ = _
  unfold Reader.step
  have hslash : ¬ ((62 : UInt8) = 47 ∧ tag = []) := fun h => absurd h.1 (by decide)
  simp only [if_neg hslash, if_true]
  unfold Reader.openElement
  rw [if_neg hallowed]
  rfl

theorem steps_endTag (content : List Node) (rest : List (ByteString × List Node))
    (root : Option Node) (data : ByteString) (brackets : Nat) {tag : ByteString}
    (htag : isName tag = true) :
    (bytes "</" ++ tag ++ bytes ">").foldlM Reader.step
        ⟨(tag, content) :: rest, root, .text data brackets⟩ =
      if rest.isEmpty then
        some ⟨[], some (.element tag (content ++ textNodes data)), .text [] 0⟩
      else
        some ⟨Reader.add [.element tag (content ++ textNodes data)] rest, root,
          .text [] 0⟩ := by
  rw [List.append_assoc]
  change (tag ++ bytes ">").foldlM Reader.step
    ⟨(tag, content ++ textNodes data) :: rest, root, .endTag []⟩ = _
  rw [List.foldlM_append, steps_endName _ root [] (mark_not_mem htag).1]
  change Reader.closeElement ⟨(tag, content ++ textNodes data) :: rest, root, .endTag tag⟩
    tag >>= _ = _
  unfold Reader.closeElement
  simp only [ne_eq, not_true_eq_false, if_false]
  split
  · rfl
  · rfl

/-!
# Elements
-/

/-- Read inside of an element, `s` is the nodes `nodes`. -/
def Reads (s : ByteString) (nodes : List Node) : Prop :=
  forall name content rest root,
    s.foldlM Reader.step ⟨(name, content) :: rest, root, .text [] 0⟩ =
      some ⟨(name, content ++ nodes) :: rest, root, .text [] 0⟩

theorem Reads.nil : Reads [] [] := by
  intro name content rest root
  rw [List.append_nil]
  rfl

theorem Reads.append {s t : ByteString} {nodes more : List Node} (hs : Reads s nodes)
    (ht : Reads t more) : Reads (s ++ t) (nodes ++ more) := by
  intro name content rest root
  rw [List.foldlM_append, hs name content rest root, ← List.append_assoc]
  exact ht name (content ++ nodes) rest root

theorem enclose_eq (tag s : ByteString) :
    enclose tag s = (bytes "<" ++ tag ++ bytes ">") ++ (s ++ (bytes "</" ++ tag ++ bytes ">")) := by
  unfold enclose
  simp only [List.append_assoc]

theorem Reads.element {tag s : ByteString} {nodes : List Node} (htag : isName tag = true)
    (hs : Reads s nodes) : Reads (enclose tag s) [.element tag nodes] := by
  intro name content rest root
  rw [enclose_eq, List.foldlM_append, steps_startTag htag (Or.inl (List.cons_ne_nil _ _))]
  change (s ++ _).foldlM Reader.step ⟨(tag, []) :: (name, content) :: rest, root, .text [] 0⟩ = _
  rw [List.foldlM_append, hs]
  change List.foldlM Reader.step ⟨(tag, nodes) :: (name, content) :: rest, root, .text [] 0⟩ _ = _
  rw [steps_endTag nodes _ root [] 0 htag]
  change some _ = some _
  rw [textNodes, if_pos rfl, List.append_nil]
  rfl

/-- An element with a text in it. -/
theorem Reads.textElement {tag s data : ByteString} (htag : isName tag = true)
    (hs : ReadsText s data) : Reads (enclose tag s) [.element tag (textNodes data)] := by
  intro name content rest root
  have hstack : (tag, []) :: (name, content) :: rest ≠ [] := List.cons_ne_nil _ _
  rcases hs _ root [] 0 hstack with ⟨brackets, htext⟩
  rw [enclose_eq, List.foldlM_append, steps_startTag htag (Or.inl (List.cons_ne_nil _ _))]
  change (s ++ _).foldlM Reader.step ⟨(tag, []) :: (name, content) :: rest, root, .text [] 0⟩ = _
  rw [List.foldlM_append, htext]
  change List.foldlM Reader.step ⟨(tag, []) :: (name, content) :: rest, root,
    .text data brackets⟩ _ = _
  rw [steps_endTag [] _ root data brackets htag]
  rfl

/-!
# Documents
-/

theorem normalizeLines_eq_self {s : ByteString} (hs : 13 ∉ s) : normalizeLines s = s := by
  induction s with
  | nil => rfl
  | cons c rest ih =>
      rcases List.ne_and_not_mem_of_not_mem_cons hs with ⟨hc, hrest⟩
      rw [normalizeLines.eq_4 c rest (fun _ heq => absurd heq.symm hc)
        (fun heq => absurd heq.symm hc), ih hrest]

theorem isNameByte_ascii : forall c : UInt8, isNameByte c = true ->
    (c.toNat < 128 ∧ isChar c.toNat = true) ∧ c ≠ 13 :=
  forall_byte (by decide +kernel)

theorem chars_enclose {tag s : ByteString} (htag : isName tag = true) (hs : Chars s) :
    Chars (enclose tag s) := by
  have hname : Chars tag :=
    utf8Of_ascii fun c hc => (isNameByte_ascii c (isNameByte_of_mem htag c hc)).1
  have hmarks : Chars (bytes "<") ∧ Chars (bytes ">") ∧ Chars (bytes "</") :=
    ⟨utf8Of_ascii (by decide +kernel), utf8Of_ascii (by decide +kernel),
      utf8Of_ascii (by decide +kernel)⟩
  unfold enclose
  exact ((((hmarks.1.append hname).append hmarks.2.1).append hs).append
    hmarks.2.2).append hname |>.append hmarks.2.1

theorem return_not_mem_enclose {tag s : ByteString} (htag : isName tag = true)
    (hs : 13 ∉ s) : 13 ∉ enclose tag s := by
  have hname : 13 ∉ tag := fun hmem =>
    (isNameByte_ascii 13 (isNameByte_of_mem htag 13 hmem)).2 rfl
  unfold enclose
  simp only [List.mem_append, not_or]
  exact ⟨⟨⟨⟨⟨⟨by decide, hname⟩, by decide⟩, hs⟩, by decide⟩, hname⟩, by decide⟩

/-- A part of a document, with the nodes that it is read as. -/
structure Piece (s : ByteString) (nodes : List Node) : Prop where
  reads : Reads s nodes
  chars : Chars s
  noReturn : 13 ∉ s

theorem Piece.nil : Piece [] [] := ⟨Reads.nil, Utf8Of.nil isChar, List.not_mem_nil⟩

theorem Piece.append {s t : ByteString} {nodes more : List Node} (hs : Piece s nodes)
    (ht : Piece t more) : Piece (s ++ t) (nodes ++ more) := by
  refine ⟨hs.reads.append ht.reads, hs.chars.append ht.chars, ?_⟩
  rw [List.mem_append, not_or]
  exact ⟨hs.noReturn, ht.noReturn⟩

theorem Piece.flatMap {α : Type} {items : List α} {write : α -> ByteString}
    {nodes : α -> List Node} (heach : forall a, a ∈ items -> Piece (write a) (nodes a)) :
    Piece (items.flatMap write) (items.flatMap nodes) := by
  induction items with
  | nil => exact Piece.nil
  | cons a rest ih =>
      rw [List.flatMap_cons, List.flatMap_cons]
      exact (heach a List.mem_cons_self).append
        (ih fun a' ha' => heach a' (List.mem_cons_of_mem a ha'))

theorem Piece.element {tag s : ByteString} {nodes : List Node} (htag : isName tag = true)
    (hs : Piece s nodes) : Piece (enclose tag s) [.element tag nodes] :=
  ⟨hs.reads.element htag, chars_enclose htag hs.chars, return_not_mem_enclose htag hs.noReturn⟩

theorem Piece.textElement {tag s data : ByteString} (htag : isName tag = true)
    (hs : ReadsText s data) (hchars : Chars s) (hreturn : 13 ∉ s) :
    Piece (enclose tag s) [.element tag (textNodes data)] :=
  ⟨Reads.textElement htag hs, chars_enclose htag hchars, return_not_mem_enclose htag hreturn⟩

/-- What encloses a piece is a document. -/
theorem Piece.read_enclose {tag s : ByteString} {nodes : List Node}
    (htag : isName tag = true) (hs : Piece s nodes) :
    read (enclose tag s) = some (.element tag nodes) := by
  have hsteps : (enclose tag s).foldlM Reader.step Reader.start =
      some ⟨[], some (.element tag nodes), .text [] 0⟩ := by
    unfold Reader.start
    rw [enclose_eq, List.foldlM_append, steps_startTag htag (Or.inr rfl)]
    change (s ++ _).foldlM Reader.step ⟨[(tag, [])], none, .text [] 0⟩ = _
    rw [List.foldlM_append, hs.reads]
    change List.foldlM Reader.step ⟨[(tag, nodes)], none, .text [] 0⟩ _ = _
    rw [steps_endTag nodes [] none [] 0 htag]
    change some _ = some _
    rw [textNodes, if_pos rfl, List.append_nil]
  unfold read
  rw [if_pos (chars_enclose htag hs.chars),
    normalizeLines_eq_self (return_not_mem_enclose htag hs.noReturn), hsteps]

example : read (bytes "<a>x&amp;&#13;<b>\r\n</b></a>\n") =
    some (.element (bytes "a") [.text (bytes "x&\r"), .element (bytes "b") [.text [10]]]) := by
  rfl

end Xml
end Foundation
end OssSdk
