/-
# The word import in a masked file

Characters that are no word characters part a text, and a text has the word when one of its parts
has it.  Comments and literals are masked by blanks, so of the segments of a file only the
statements have the word, and those at their beginning only.
-/
import SourceBundle.Proofs.Import.Grammar

namespace SourceBundle.Import

open SourceBundle.Text

/-! ## The word -/

section Word

variable {w cs rest : List Char} {c sep : Char} {inWord : Bool}

lemma isWord_of_mem_keyword : ∀ c ∈ keyword, isWord c = true :=
  List.all_eq_true.mp (show keyword.all isWord = true by decide)

lemma standsFirst_append (hw : ∀ a ∈ w, isWord a = true) (hsep : isWord sep = false)
    (cs : List Char) : standsFirst w (cs ++ sep :: rest) = standsFirst w cs := by
  induction w generalizing cs with
  | nil => cases cs <;> simp [standsFirst, hsep]
  | cons a w ih =>
    cases cs with
    | nil =>
      have ha : a ≠ sep := by
        rintro rfl
        rw [hw a List.mem_cons_self] at hsep
        exact absurd hsep (by decide)
      rw [List.nil_append, standsFirst, standsFirst, beq_eq_false_iff_ne.mpr ha, Bool.false_and]
    | cons c cs =>
      have hcs := ih (fun b hb => hw b (List.mem_cons_of_mem a hb)) cs
      rw [List.cons_append, standsFirst, standsFirst, hcs]

/-- Among word characters a word stands first only as the whole. -/
lemma eq_of_standsFirst (hcs : ∀ c ∈ cs, isWord c = true) (h : standsFirst w cs = true) :
    cs = w := by
  induction w generalizing cs with
  | nil =>
    cases cs with
    | nil => rfl
    | cons c cs => simp [standsFirst, hcs c List.mem_cons_self] at h
  | cons a w ih =>
    cases cs with
    | nil => exact absurd h (by simp [standsFirst])
    | cons c cs =>
      rw [standsFirst, Bool.and_eq_true, beq_iff_eq] at h
      rw [h.1, ih (fun b hb => hcs b (List.mem_cons_of_mem c hb)) h.2]

/-- A character that is no word character parts a text. -/
lemma hasKeyword_append (hsep : isWord sep = false) (cs : List Char) :
    hasKeyword inWord (cs ++ sep :: rest) = (hasKeyword inWord cs || hasKeyword false rest) := by
  induction cs generalizing inWord with
  | nil =>
    have hfirst : standsFirst keyword (sep :: rest) = false :=
      standsFirst_append isWord_of_mem_keyword hsep []
    simp [hasKeyword, hfirst, hsep]
  | cons c cs ih =>
    have hfirst : standsFirst keyword (c :: (cs ++ sep :: rest)) = standsFirst keyword (c :: cs) :=
      standsFirst_append isWord_of_mem_keyword hsep (c :: cs)
    rw [List.cons_append, hasKeyword, hasKeyword, hfirst, ih, Bool.or_assoc]

lemma hasKeyword_cons (hsep : isWord sep = false) :
    hasKeyword inWord (sep :: rest) = hasKeyword false rest :=
  hasKeyword_append hsep []

lemma hasKeyword_spaceIf_sep {o : Bool} (hsep : isWord sep = false) :
    hasKeyword inWord (cs ++ (spaceIf o ++ sep :: rest)) =
      (hasKeyword inWord cs || hasKeyword false rest) := by
  cases o with
  | false => exact hasKeyword_append hsep cs
  | true =>
    rw [spaceIf, List.singleton_append, hasKeyword_append (by decide), hasKeyword_cons hsep]

lemma hasKeyword_spaceIf_append {o : Bool} :
    hasKeyword false (spaceIf o ++ cs) = hasKeyword false cs := by
  cases o with
  | false => rfl
  | true => exact hasKeyword_cons (by decide)

lemma hasKeyword_spaceIf {o : Bool} : hasKeyword inWord (spaceIf o) = false := by
  cases o with
  | false => rfl
  | true => exact hasKeyword_cons (by decide)

@[simp] lemma hasKeyword_nil : hasKeyword inWord [] = false := rfl

lemma hasKeyword_of_isBlank (h : ∀ c ∈ cs, isBlank c = true) : hasKeyword inWord cs = false := by
  induction cs generalizing inWord with
  | nil => rfl
  | cons c cs ih =>
    rw [hasKeyword_cons (not_isWord_of_isBlank (h c List.mem_cons_self)),
      ih fun b hb => h b (List.mem_cons_of_mem c hb)]

lemma hasKeyword_of_inWord (hcs : ∀ c ∈ cs, isWord c = true) : hasKeyword true cs = false := by
  induction cs with
  | nil => rfl
  | cons c cs ih =>
    rw [hasKeyword, hcs c List.mem_cons_self, ih fun b hb => hcs b (List.mem_cons_of_mem c hb)]
    rfl

lemma isWord_of_isSymbolChar (h : isSymbolChar c = true) : isWord c = true := by
  rw [isSymbolChar, Bool.or_eq_true, beq_iff_eq] at h
  rcases h with halnum | rfl
  · exact isWord_of_isAlphanum halnum
  · decide

lemma Name.isWord_of_mem (n : Name) : ∀ c ∈ n.chars, isWord c = true := fun c hc =>
  isWord_of_isSymbolChar (List.all_eq_true.mp n.letters c hc)

@[simp] lemma Name.hasKeyword_chars (n : Name) : hasKeyword false n.chars = false := by
  have hfirst : standsFirst keyword n.chars = false :=
    Bool.eq_false_iff.mpr fun h => n.other (eq_of_standsFirst n.isWord_of_mem h)
  have hword := n.isWord_of_mem
  obtain ⟨c, cs, hcs⟩ := List.exists_cons_of_ne_nil n.nonempty
  rw [hcs] at hfirst hword ⊢
  rw [hasKeyword, hfirst, hword c List.mem_cons_self, hasKeyword_of_inWord]
  · rfl
  · exact fun b hb => hword b (List.mem_cons_of_mem c hb)

@[simp] lemma Listing.hasKeyword_chars (l : Listing) : hasKeyword false l.chars = false := l.other

lemma not_isWord_of_isQuote (h : isQuote c = true) : isWord c = false := by
  rcases isQuote_iff.mp h with rfl | rfl
  · decide
  · decide

end Word

section Segments

/-- The word `import` without its first letter, and the words of a statement. -/
lemma hasKeyword_words : hasKeyword true "mport".toList = false ∧
    hasKeyword false "from".toList = false ∧ hasKeyword false "as".toList = false := by
  decide +kernel

lemma Clause.hasKeyword_before (g : Spacing) (clause : Clause) :
    hasKeyword true ("mport".toList ++ (clause.before g).flatten) = false := by
  obtain ⟨hmport, hfrom, has⟩ := hasKeyword_words
  cases clause <;>
    simp (disch := decide) only [before, List.flatten_cons, List.flatten_nil, List.append_nil,
      List.nil_append, List.cons_append, List.append_assoc, hasKeyword_nil, hasKeyword_cons,
      hasKeyword_append, hasKeyword_spaceIf_sep, hasKeyword_spaceIf_append, hasKeyword_spaceIf,
      Name.hasKeyword_chars, Listing.hasKeyword_chars, hmport, hfrom, has, Bool.or_false]

lemma Clause.hasKeyword_behind (g : Spacing) (clause : Clause) :
    hasKeyword false (clause.behind g).flatten = false := by
  obtain ⟨-, -, has⟩ := hasKeyword_words
  cases clause <;>
    simp (disch := decide) only [behind, List.flatten_cons, List.flatten_nil, List.append_nil,
      List.nil_append, List.cons_append, hasKeyword_nil, hasKeyword_cons,
      hasKeyword_append, hasKeyword_spaceIf_sep, hasKeyword_spaceIf,
      Name.hasKeyword_chars, has, Bool.or_false]

/-- Behind its first letter a statement does not have the word. -/
lemma Statement.hasKeyword_tail (s : Statement) :
    ∃ tail, s.masked = 'i' :: tail ∧ hasKeyword true tail = false := by
  have hq := not_isWord_of_isQuote s.literal.quoted
  have hblank : ∀ c ∈ List.replicate s.literal.chars.length ' ', isBlank c = true := by
    intro c hc
    rw [List.eq_of_mem_replicate hc]
    decide
  refine ⟨"mport".toList ++ (s.clause.before s.spacing).flatten ++
    s.literal.quote :: (List.replicate s.literal.chars.length ' ' ++
      s.literal.quote :: (s.clause.behind s.spacing).flatten), ?_, ?_⟩
  · have hkeyword : keyword = 'i' :: "mport".toList := by decide +kernel
    simp [masked, front, back, hkeyword]
  · rw [hasKeyword_append hq, hasKeyword_append hq, hasKeyword_of_isBlank hblank,
      s.clause.hasKeyword_before, s.clause.hasKeyword_behind]
    rfl

lemma isBlank_blank (c : Char) : isBlank (blank c) = true := by
  rw [blank]
  split <;> decide

lemma isBlank_space : isBlank ' ' = true := by decide

lemma Item.isBlank_of_mem_masked (item : Item) : ∀ c ∈ item.masked, isBlank c = true := by
  cases item with
  | plain c => simp [masked, isBlank_space]
  | escaped c => simp [masked, isBlank_space, isBlank_blank]

lemma standsFirst_pieces {w : List Char} (hw : ∀ a ∈ w, isWord a = true) (pieces : List Piece) :
    standsFirst w (pieces.flatMap Piece.masked) = standsFirst w (pieces.flatMap Piece.outline) := by
  induction w generalizing pieces with
  | nil =>
    cases pieces with
    | nil => rfl
    | cons piece pieces => cases piece <;> rfl
  | cons a w ih =>
    cases pieces with
    | nil => rfl
    | cons piece pieces =>
      cases piece with
      | code c hc =>
        have hpieces := ih (fun b hb => hw b (List.mem_cons_of_mem a hb)) pieces
        exact congrArg (a == c && ·) hpieces
      | quoted s =>
        have ha : (a == s.quote) = false := by
          rw [beq_eq_false_iff_ne]
          rintro rfl
          have hq := not_isWord_of_isQuote s.quoted
          rw [hw _ List.mem_cons_self] at hq
          exact absurd hq (by decide)
        rw [List.flatMap_cons, List.flatMap_cons, Piece.masked, Piece.outline, Quoted.masked,
          List.cons_append, List.cons_append, standsFirst, standsFirst, ha]
        rfl

/-- The word stands outside of the literals, or not at all. -/
lemma hasKeyword_pieces {inWord : Bool} (pieces : List Piece) :
    hasKeyword inWord (pieces.flatMap Piece.masked) =
      hasKeyword inWord (pieces.flatMap Piece.outline) := by
  induction pieces generalizing inWord with
  | nil => rfl
  | cons piece pieces ih =>
    cases piece with
    | code c hc =>
      have hfirst := standsFirst_pieces isWord_of_mem_keyword (.code c hc :: pieces)
      exact congrArg₂ (fun a b => (!inWord && a) || b) hfirst ih
    | quoted s =>
      -- a masked literal is two quotes with blanks between them, its outline the two quotes
      have hq := not_isWord_of_isQuote s.quoted
      have hblank : ∀ c ∈ s.items.flatMap Item.masked, isBlank c = true := by
        intro c hc
        obtain ⟨item, -, hitem⟩ := List.mem_flatMap.mp hc
        exact item.isBlank_of_mem_masked c hitem
      rw [List.flatMap_cons, List.flatMap_cons, Piece.masked, Piece.outline, Quoted.masked]
      rw [List.cons_append, List.append_assoc, List.singleton_append, hasKeyword_cons hq,
        hasKeyword_append hq, hasKeyword_of_isBlank hblank, Bool.false_or, ih]
      exact ((hasKeyword_cons hq).trans (hasKeyword_cons hq)).symm

/-- Only the statements of a masked file have the word. -/
lemma Segment.hasKeyword_masked {segment : Segment} (h : segment.statement? = none) :
    hasKeyword false segment.masked = false := by
  cases segment with
  | statement s => cases h
  | lineComment c =>
    refine hasKeyword_of_isBlank ?_
    simp [masked, isBlank_space]
  | blockComment c =>
    refine hasKeyword_of_isBlank ?_
    simp only [masked, List.mem_cons, List.mem_append, List.mem_map, List.not_mem_nil, or_false]
    rintro c (rfl | rfl | ⟨d, -, rfl⟩ | rfl | rfl)
    · exact isBlank_space
    · exact isBlank_space
    · exact isBlank_blank d
    · exact isBlank_space
    · exact isBlank_space
  | filler f => rw [masked, hasKeyword_pieces, f.other]

end Segments

end SourceBundle.Import
