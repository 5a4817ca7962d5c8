import OssSdk.Foundation.Xml

/-!
# Texts in XML

The bytes that would be markup are written as references, and so is the carriage return,
which would be read as the end of a line.
-/

namespace OssSdk
namespace Utils

open Foundation

def entities : List (ByteString × UInt8) :=
  [(bytes "&quot;", 34), (bytes "&amp;", 38), (bytes "&apos;", 39), (bytes "&lt;", 60),
    (bytes "&gt;", 62), (bytes "&#13;", 13)]

def XmlEscapeByte (c : UInt8) : ByteString :=
  match entities.find? fun entity => c == entity.2 with
  | some entity => entity.1
  | none => [c]

def XmlEscape (value : ByteString) : ByteString := value.flatMap XmlEscapeByte

example : XmlEscape (bytes "]]><a>\r\n") = bytes "]]&gt;&lt;a&gt;&#13;\n" := by
  decide +kernel

/-!
# Reading what was escaped
-/

theorem readsText_entity {entity : ByteString × UInt8} (hentity : entity ∈ entities) :
    Xml.ReadsText entity.1 [entity.2] := by
  unfold entities at hentity
  simp only [List.mem_cons, List.not_mem_nil, or_false] at hentity
  rcases hentity with heq | heq | heq | heq | heq | heq
  · rw [heq]
    exact Xml.ReadsText.reference (show 59 ∉ bytes "quot" by decide) rfl
  · rw [heq]
    exact Xml.ReadsText.reference (show 59 ∉ bytes "amp" by decide) rfl
  · rw [heq]
    exact Xml.ReadsText.reference (show 59 ∉ bytes "apos" by decide) rfl
  · rw [heq]
    exact Xml.ReadsText.reference (show 59 ∉ bytes "lt" by decide) rfl
  · rw [heq]
    exact Xml.ReadsText.reference (show 59 ∉ bytes "gt" by decide) rfl
  · rw [heq]
    exact Xml.ReadsText.reference (show 59 ∉ bytes "#13" by decide) rfl

/-- A byte is one of an entity, or it is no markup. -/
theorem XmlEscapeByte_cases (c : UInt8) :
    (exists entity, entity ∈ entities ∧ entity.2 = c ∧ XmlEscapeByte c = entity.1) ∨
      (XmlEscapeByte c = [c] ∧ c ≠ 60 ∧ c ≠ 38 ∧ c ≠ 62 ∧ c ≠ 13) := by
  unfold XmlEscapeByte
  cases hfind : entities.find? fun entity => c == entity.2 with
  | some entity =>
      left
      have hsame := List.find?_some hfind
      exact ⟨entity, List.mem_of_find?_eq_some hfind, (beq_iff_eq.mp hsame).symm, rfl⟩
  | none =>
      right
      rw [List.find?_eq_none] at hfind
      have hother : forall entity, entity ∈ entities -> c ≠ entity.2 := by
        intro entity hentity heq
        exact hfind entity hentity (beq_iff_eq.mpr heq)
      exact ⟨rfl, hother (bytes "&lt;", 60) (by decide), hother (bytes "&amp;", 38) (by decide),
        hother (bytes "&gt;", 62) (by decide), hother (bytes "&#13;", 13) (by decide)⟩

theorem readsText_XmlEscape (value : ByteString) :
    Xml.ReadsText (XmlEscape value) value := by
  induction value with
  | nil => exact Xml.ReadsText.nil
  | cons c rest ih =>
      unfold XmlEscape at ih ⊢
      rw [List.flatMap_cons, ← List.singleton_append (x := c)]
      refine Xml.ReadsText.append ?_ ih
      rcases XmlEscapeByte_cases c with ⟨entity, hentity, hc, hescape⟩ | ⟨hescape, hbyte⟩
      · rw [hescape, ← hc]
        exact readsText_entity hentity
      · rw [hescape]
        exact Xml.ReadsText.byte hbyte.1 hbyte.2.1 hbyte.2.2.1

theorem return_not_mem_XmlEscape (value : ByteString) : 13 ∉ XmlEscape value := by
  intro hmem
  rcases List.mem_flatMap.mp hmem with ⟨c, _, hc⟩
  rcases XmlEscapeByte_cases c with ⟨entity, hentity, _, hescape⟩ | ⟨hescape, hbyte⟩
  · rw [hescape] at hc
    have hclean : forall entity, entity ∈ entities -> 13 ∉ entity.1 := by decide +kernel
    exact hclean entity hentity hc
  · rw [hescape, List.mem_singleton] at hc
    exact hbyte.2.2.2 hc.symm

theorem chars_entity {entity : ByteString × UInt8} (hentity : entity ∈ entities) :
    Xml.Chars entity.1 := by
  have hascii : forall entity, entity ∈ entities ->
      forall b, b ∈ entity.1 -> b.toNat < 128 ∧ Xml.isChar b.toNat = true := by
    decide +kernel
  exact utf8Of_ascii (hascii entity hentity)

/-- Only whole characters are escaped. -/
theorem chars_XmlEscape_character (d : Char) (hd : Xml.isChar d.toNat = true) :
    Xml.Chars (XmlEscape (String.utf8EncodeChar d)) := by
  have hself : Xml.Chars (String.utf8EncodeChar d) := by
    refine ⟨[d], List.flatMap_singleton _ _, ?_⟩
    rw [List.all_cons, hd]
    rfl
  by_cases hascii : exists b, b ∈ String.utf8EncodeChar d ∧ b.toNat < 128
  · rcases hascii with ⟨b, hmem, hb⟩
    have halone := utf8EncodeChar_ascii hb hmem
    rw [halone] at hself ⊢
    have hone : XmlEscape [b] = XmlEscapeByte b := List.flatMap_singleton _ _
    rw [hone]
    rcases XmlEscapeByte_cases b with ⟨entity, hentity, _, hescape⟩ | ⟨hescape, _⟩
    · rw [hescape]
      exact chars_entity hentity
    · rw [hescape]
      exact hself
  · have hkept : XmlEscape (String.utf8EncodeChar d) = String.utf8EncodeChar d := by
      have hbyte : forall b, b ∈ String.utf8EncodeChar d -> XmlEscapeByte b = [b] := by
        intro b hb
        have hmarks : forall entity, entity ∈ entities -> entity.2.toNat < 128 := by
          decide +kernel
        rcases XmlEscapeByte_cases b with ⟨entity, hentity, hc, _⟩ | ⟨hescape, _⟩
        · exact absurd ⟨b, hb, hc ▸ hmarks entity hentity⟩ hascii
        · exact hescape
      unfold XmlEscape
      rw [List.flatMap_congr hbyte, List.flatMap_singleton']
    rw [hkept]
    exact hself

theorem chars_XmlEscape {value : ByteString} (hvalue : Xml.Chars value) :
    Xml.Chars (XmlEscape value) := by
  rcases hvalue with ⟨cs, hcs, hall⟩
  induction cs generalizing value with
  | nil =>
      rw [← hcs]
      exact Utf8Of.nil _
  | cons d rest ih =>
      rw [List.all_cons, Bool.and_eq_true] at hall
      rw [← hcs, List.flatMap_cons]
      unfold XmlEscape
      rw [List.flatMap_append]
      exact (chars_XmlEscape_character d hall.1).append (ih rfl hall.2)

/-- An element with an escaped text in it. -/
theorem piece_XmlEscape {tag value : ByteString} (htag : Xml.isName tag = true)
    (hvalue : Xml.Chars value) :
    Xml.Piece (Xml.enclose tag (XmlEscape value))
      [.element tag (Xml.textNodes value)] :=
  Xml.Piece.textElement htag (readsText_XmlEscape value) (chars_XmlEscape hvalue)
    (return_not_mem_XmlEscape value)

end Utils
end OssSdk
