/-
# The grammar of package literals

A package literal is made of words: a scope, a name and a version, with a path behind them.  Whatever has
this form is read, as the reference with just these parts.  What is read has this form, too, but for one
thing: a line feed right behind a scope, a name or a version does not count as a character when the word is
checked, and still it becomes part of what is read.  So the grammar is exact for every literal but those in
which a line feed stands in such a place.
-/
import SourceBundle.Proofs.Import.Package

namespace SourceBundle.Import

open SourceBundle.Text

namespace PackageReference

variable {literal : String} {r : PackageReference} {cls : Char → Bool} {cs : List Char}

/-- The text of a reference up to its path. -/
def front (r : PackageReference) : List Char :=
  scopePart r.scope? ++ (r.name.toList ++ versionPart r.versionChars?)

/-- The literal can be taken apart so that a line feed stands right behind the scope, the name or the
version. -/
def LineFed (literal : String) : Prop := ∃ r, HasForm IsFedWordOf literal r ∧ '\n' ∈ r.front

/-- What is a word but for a line feed behind it is a word if there is none. -/
lemma isWordOf_of_not_mem (h : IsFedWordOf cls cs) (hfeed : '\n' ∉ cs) : IsWordOf cls cs := by
  rcases h with h | ⟨word, -, rfl⟩
  · exact h
  · simp at hfeed

/-- A literal without a line feed in front of its path is made of words. -/
lemma HasForm.words_iff (h : HasForm IsFedWordOf literal r) :
    HasForm IsWordOf literal r ↔ '\n' ∉ r.front := by
  constructor
  · intro hwords
    have hname : '\n' ∉ r.name.toList := hwords.name.not_mem (by decide)
    have hscope : '\n' ∉ scopePart r.scope? := by
      cases hs : r.scope? with
      | none => simp [scopePart]
      | some scope =>
        obtain ⟨word, hword, htext⟩ := hwords.scope scope hs
        have hnot : '\n' ∉ word := hword.not_mem (by decide)
        simp [scopePart, htext, hnot]
    have hversion : '\n' ∉ versionPart r.versionChars? := by
      cases hv : r.version? with
      | none => simp [versionChars?, hv, versionPart]
      | some version =>
        have hnot : '\n' ∉ version.toList := (hwords.version version hv).not_mem (by decide)
        simp [versionChars?, hv, versionPart, hnot]
    simp [front, hscope, hname, hversion]
  · intro hfeed
    simp only [front, List.mem_append, not_or] at hfeed
    obtain ⟨hscope, hname, hversion⟩ := hfeed
    refine ⟨h.trimmed, h.parts, ?_, isWordOf_of_not_mem h.name hname, ?_, h.rooted, h.doubled⟩
    · intro scope hs
      obtain ⟨word, hword, htext⟩ := h.scope scope hs
      refine ⟨word, isWordOf_of_not_mem hword fun hmem => hscope ?_, htext⟩
      obtain hs : r.scope? = some scope := hs
      simp [hs, scopePart, htext, hmem]
    · intro version hv
      refine isWordOf_of_not_mem (h.version version hv) fun hmem => hversion ?_
      obtain hv : r.version? = some version := hv
      simp [versionChars?, hv, versionPart, hmem]

/-- **The grammar of package literals.**  A literal is read exactly if it is a scope, a name, a version and a
path in order, where a line feed may stand behind each of the words; what is read are these parts.  The
grammar without the line feeds is exact for a literal, so that no other character gets into a scope, a name
or a version, exactly if the literal cannot be taken apart with a line feed behind one of its words. -/
theorem literal_grammar (literal : String) :
    (∀ r, parse literal = .ok r ↔ HasForm IsFedWordOf literal r) ∧
      ((∀ r, parse literal = .ok r ↔ HasForm IsWordOf literal r) ↔ ¬ LineFed literal) := by
  refine ⟨fun r => parse_eq_ok_iff, ?_⟩
  constructor
  · rintro hexact ⟨r, hform, hfeed⟩
    have hwords := (hexact r).mp hform.parse_eq
    exact hform.words_iff.mp hwords hfeed
  · intro hnot r
    rw [parse_eq_ok_iff]
    constructor
    · intro hform
      exact hform.words_iff.mpr fun hfeed => hnot ⟨r, hform, hfeed⟩
    · intro hwords
      exact hwords.imp fun _ _ => Or.inl

/-- A name with a line feed behind it is read, and has the line feed; by the grammar the literal is none. -/
theorem not_literal_grammar_fed :
    parse "a\n/c" = .ok ⟨none, "a\n", none, "c"⟩ ∧ ¬ ∃ r, HasForm IsWordOf "a\n/c" r := by
  have hread : parse "a\n/c" = .ok ⟨none, "a\n", none, "c"⟩ := by decide +kernel
  refine ⟨hread, ?_⟩
  rintro ⟨r, hwords⟩
  have hform : HasForm IsFedWordOf "a\n/c" r := hwords.imp fun _ _ => Or.inl
  obtain rfl := Except.ok.inj (hform.parse_eq.symm.trans hread)
  exact hform.words_iff.mp hwords (by decide +kernel)

end PackageReference

end SourceBundle.Import
