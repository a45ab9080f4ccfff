/-
# Well-formed source files

A source file is a sequence of segments, each of which ends with a line feed: an import statement
in one of its six forms, a comment, or other text whose string literals are complete.  Other text
has neither a slash nor the word `import` outside of its literals.

The scanner is in the code again behind each segment, so a file is masked segment by segment:
comments and the contents of literals become blanks.
-/
import SourceBundle.Import.Statement
import SourceBundle.Proofs.Text.Class
import Mathlib.Data.List.Infix
import Mathlib.Data.List.TakeWhile

namespace SourceBundle.Import

open SourceBundle.Text

/-- The word that begins an import statement. -/
def keyword : List Char := "import".toList

/-- Whether a word stands at the beginning of a text: its letters, and then no word character. -/
def standsFirst : List Char → List Char → Bool
  | [], cs => !cs.head?.any isWord
  | _ :: _, [] => false
  | a :: w, c :: cs => a == c && standsFirst w cs

/-- Whether a text has the word `import`.  A word character may stand before the text, which
`inWord` tells. -/
def hasKeyword (inWord : Bool) : List Char → Bool
  | [] => false
  | c :: cs => (!inWord && standsFirst keyword (c :: cs)) || hasKeyword (isWord c) cs

/-! ## Import statements -/

/-- A character of which the names in a statement are made. -/
def isSymbolChar (c : Char) : Bool := c.isAlphanum || c == '_'

/-- A name in a statement. -/
structure Name where
  /-- Its characters. -/
  chars : List Char
  nonempty : chars ≠ []
  letters : chars.all isSymbolChar = true
  other : chars ≠ keyword

/-- A character of which a list of symbols is made. -/
def isListingChar (c : Char) : Bool := isSymbolChar c || c == ',' || c == ' '

/-- A list of symbols as it stands between braces: names, commas and spaces. -/
structure Listing where
  /-- What stands between the braces. -/
  chars : List Char
  letters : chars.all isListingChar = true
  other : hasKeyword false chars = false

/-- Whether a character stands for itself between two quotes. -/
def isInside (quote c : Char) : Bool := c != '\n' && c != '\\' && c != quote

/-- The path of a statement. -/
structure Literal where
  /-- The quote around it. -/
  quote : Char
  /-- Its characters, among which may be the other quote. -/
  chars : List Char
  quoted : isQuote quote = true
  nonempty : chars ≠ []
  plain : chars.all (isInside quote) = true

/-- Where a space stands in a statement though none is needed. -/
structure Spacing where
  /-- Before the braces, if they are first. -/
  beforeBraces : Bool := false
  /-- Before the comma between a name and the braces. -/
  beforeComma : Bool := false
  /-- Behind this comma. -/
  behindComma : Bool := false
  /-- Behind the braces. -/
  behindBraces : Bool := false
  /-- Before the semicolon. -/
  beforeSemicolon : Bool := false

/-- A space or nothing. -/
def spaceIf : Bool → List Char
  | true => [' ']
  | false => []

/-- What a statement imports. -/
inductive Clause
  /-- The file. -/
  | bare
  /-- The file under another name. -/
  | aliased (name : Name)
  /-- Some symbols of the file. -/
  | symbols (listing : Listing)
  /-- All symbols of the file under a name. -/
  | wildcard (name : Name)
  /-- A name for the file. -/
  | named (name : Name)
  /-- A name for the file and some of its symbols. -/
  | namedSymbols (name : Name) (listing : Listing)

namespace Clause

/-- The form of a statement. -/
def form : Clause → Form
  | bare => .bare
  | aliased _ => .aliased
  | symbols _ => .symbols
  | wildcard _ => .wildcard
  | named _ => .named
  | namedSymbols _ _ => .namedSymbols

/-- The parts of a statement between the word `import` and the path. -/
def before (g : Spacing) : Clause → List (List Char)
  | bare | aliased _ => [[' ']]
  | symbols listing =>
    [spaceIf g.beforeBraces, '{' :: (listing.chars ++ ['}']), spaceIf g.behindBraces,
      "from".toList, [' ']]
  | wildcard name =>
    [[' '], ['*'], [' '], "as".toList, [' '], name.chars, [' '], "from".toList, [' ']]
  | named name => [[' '], name.chars, [' '], "from".toList, [' ']]
  | namedSymbols name listing =>
    [[' '], name.chars, spaceIf g.beforeComma, [','], spaceIf g.behindComma,
      '{' :: (listing.chars ++ ['}']), spaceIf g.behindBraces, "from".toList, [' ']]

/-- The parts of a statement behind the path. -/
def behind (g : Spacing) : Clause → List (List Char)
  | aliased name =>
    [[' '], "as".toList, [' '], name.chars, spaceIf g.beforeSemicolon, [';']]
  | _ => [spaceIf g.beforeSemicolon, [';']]

end Clause

/-- An import statement. -/
structure Statement where
  /-- What it imports. -/
  clause : Clause
  /-- Its path. -/
  literal : Literal
  /-- Its spaces. -/
  spacing : Spacing

namespace Statement

/-- The text of a statement before the characters of its path. -/
def front (s : Statement) : List Char :=
  keyword ++ ((s.clause.before s.spacing).flatten ++ [s.literal.quote])

/-- The text of a statement behind the characters of its path. -/
def back (s : Statement) : List Char := s.literal.quote :: (s.clause.behind s.spacing).flatten

/-- The text of a statement. -/
def text (s : Statement) : List Char := s.front ++ (s.literal.chars ++ s.back)

/-- The masked text of a statement. -/
def masked (s : Statement) : List Char :=
  s.front ++ (List.replicate s.literal.chars.length ' ' ++ s.back)

/-- Where the path of a statement stands that begins at an offset. -/
def span (s : Statement) (pos : Nat) : Span :=
  ⟨pos + s.front.length, pos + s.front.length + s.literal.chars.length⟩

end Statement

/-! ## Comments and other text -/

/-- A comment that ends with its line. -/
structure LineComment where
  /-- What stands behind the slashes. -/
  body : List Char
  oneLine : '\n' ∉ body

/-- A comment that ends with a star and a slash. -/
structure BlockComment where
  /-- What stands between the marks. -/
  body : List Char
  unclosed : ¬ ['*', '/'] <:+: body

/-- A part of a string literal. -/
inductive Item
  /-- A character. -/
  | plain (c : Char)
  /-- A character behind a backslash. -/
  | escaped (c : Char)

/-- Whether a part may stand between two quotes. -/
def Item.isInside (quote : Char) : Item → Bool
  | .plain c => Import.isInside quote c
  | .escaped _ => true

/-- A complete string literal. -/
structure Quoted where
  /-- The quote around it. -/
  quote : Char
  /-- What stands between the quotes. -/
  items : List Item
  quoted : isQuote quote = true
  plain : items.all (Item.isInside quote) = true

/-- Whether masking leaves a character of the code as it is, and what follows in the code. -/
def isPlain (c : Char) : Bool := c != '/' && !isQuote c

/-- A path as a string literal, without backslashes. -/
def Literal.toQuoted (l : Literal) : Quoted where
  quote := l.quote
  items := l.chars.map .plain
  quoted := l.quoted
  plain := by
    rw [List.all_map]
    exact l.plain

/-- A part of other text. -/
inductive Piece
  /-- A character of the code. -/
  | code (c : Char) (plain : isPlain c = true)
  /-- A string literal. -/
  | quoted (s : Quoted)

/-- The text of a part of a literal. -/
def Item.text : Item → List Char
  | .plain c => [c]
  | .escaped c => ['\\', c]

/-- The masked text of a part of a literal. -/
def Item.masked : Item → List Char
  | .plain _ => [' ']
  | .escaped c => [' ', blank c]

/-- The text of a string literal. -/
def Quoted.text (s : Quoted) : List Char := s.quote :: (s.items.flatMap Item.text ++ [s.quote])

/-- The masked text of a string literal. -/
def Quoted.masked (s : Quoted) : List Char := s.quote :: (s.items.flatMap Item.masked ++ [s.quote])

namespace Piece

/-- The text of a part. -/
def text : Piece → List Char
  | code c _ => [c]
  | quoted s => s.text

/-- The masked text of a part. -/
def masked : Piece → List Char
  | code c _ => [c]
  | quoted s => s.masked

/-- What a part leaves of the code: of a literal its quotes. -/
def outline : Piece → List Char
  | code c _ => [c]
  | quoted s => [s.quote, s.quote]

end Piece

/-- Other text, with the word `import` in its string literals only. -/
structure Filler where
  /-- Its parts. -/
  pieces : List Piece
  other : hasKeyword false (pieces.flatMap Piece.outline) = false

/-! ## Files -/

/-- A segment of a file. -/
inductive Segment
  /-- An import statement. -/
  | statement (s : Statement)
  /-- A comment that ends with its line. -/
  | lineComment (c : LineComment)
  /-- A comment that ends with a star and a slash. -/
  | blockComment (c : BlockComment)
  /-- Other text. -/
  | filler (f : Filler)

namespace Segment

/-- The text of a segment, without the line feed that ends it. -/
def text : Segment → List Char
  | statement s => s.text
  | lineComment c => '/' :: '/' :: c.body
  | blockComment c => '/' :: '*' :: (c.body ++ ['*', '/'])
  | filler f => f.pieces.flatMap Piece.text

/-- The masked text of a segment, without the line feed that ends it. -/
def masked : Segment → List Char
  | statement s => s.masked
  | lineComment c => ' ' :: ' ' :: List.replicate c.body.length ' '
  | blockComment c => ' ' :: ' ' :: (c.body.map blank ++ [' ', ' '])
  | filler f => f.pieces.flatMap Piece.masked

end Segment

/-- The text of a file. -/
def fileText (segments : List Segment) : List Char := segments.flatMap fun s => s.text ++ ['\n']

/-- The masked text of a file. -/
def fileMasked (segments : List Segment) : List Char := segments.flatMap fun s => s.masked ++ ['\n']

/-- The statement of a segment. -/
def Segment.statement? : Segment → Option Statement
  | .statement s => some s
  | _ => none

@[simp] lemma Segment.statement?_eq_some {segment : Segment} {s : Statement} :
    segment.statement? = some s ↔ segment = .statement s := by
  cases segment <;> simp [statement?]

/-- The import statements of a file with the offsets at which they begin, in their order. -/
def statementsFrom (pos : Nat) : List Segment → List (Nat × Statement)
  | [] => []
  | segment :: segments =>
    let later := statementsFrom (pos + (segment.text.length + 1)) segments
    match segment.statement? with
    | some s => (pos, s) :: later
    | none => later

/-! ## Masking -/

section Mask

attribute [local simp] maskFrom

variable {c q : Char} {cs rest : List Char}

/-- Masking keeps every offset. -/
@[simp] lemma length_maskFrom (mode : Mode) (cs : List Char) :
    (maskFrom mode cs).length = cs.length := by
  fun_induction maskFrom mode cs <;> simp_all

lemma isQuote_iff : isQuote c = true ↔ c = '\'' ∨ c = '"' := by
  rw [isQuote, Bool.or_eq_true, beq_iff_eq, beq_iff_eq]

lemma maskFrom_code_plain (h : isPlain c = true) :
    maskFrom .code (c :: rest) = c :: maskFrom .code rest := by
  rw [isPlain, Bool.and_eq_true, bne_iff_ne, Bool.not_eq_true'] at h
  obtain ⟨hslash, hquote⟩ := h
  have hneither : ¬ (c = '\'' ∨ c = '"') := by
    rw [← isQuote_iff, hquote]
    exact Bool.false_ne_true
  rw [maskFrom]
  · rw [if_neg hneither]
  · rintro rest rfl
    exact absurd rfl hslash
  · rintro rest rfl
    exact absurd rfl hslash

/-- Code without slashes and quotes is not masked. -/
lemma maskFrom_code_append (h : cs.all isPlain = true) :
    maskFrom .code (cs ++ rest) = cs ++ maskFrom .code rest := by
  induction cs with
  | nil => rfl
  | cons c cs ih =>
    rw [List.all_cons, Bool.and_eq_true] at h
    rw [List.cons_append, maskFrom_code_plain h.1, ih h.2, List.cons_append]

lemma maskFrom_code_quote (hq : isQuote q = true) :
    maskFrom .code (q :: rest) = q :: maskFrom (.literal q) rest := by
  have hslash : q ≠ '/' := by
    rintro rfl
    exact absurd hq (by decide)
  rw [maskFrom]
  · rw [if_pos (isQuote_iff.mp hq)]
  · rintro rest rfl
    exact absurd rfl hslash
  · rintro rest rfl
    exact absurd rfl hslash

lemma maskFrom_literal_quote (hq : isQuote q = true) :
    maskFrom (.literal q) (q :: rest) = q :: maskFrom .code rest := by
  rw [maskFrom]
  · rw [if_pos (Or.inl rfl)]
  · rintro c rest rfl
    exact absurd hq (by decide)

lemma maskFrom_literal_plain (h : isInside q c = true) :
    maskFrom (.literal q) (c :: rest) = ' ' :: maskFrom (.literal q) rest := by
  rw [isInside, Bool.and_eq_true, Bool.and_eq_true, bne_iff_ne, bne_iff_ne, bne_iff_ne] at h
  obtain ⟨⟨hline, hbackslash⟩, hquote⟩ := h
  rw [maskFrom]
  · rw [if_neg (not_or.mpr ⟨hquote, hline⟩), blank, if_neg hline]
  · rintro c rest rfl
    exact absurd rfl hbackslash

lemma maskFrom_literal_append (h : cs.all (isInside q) = true) :
    maskFrom (.literal q) (cs ++ rest) =
      List.replicate cs.length ' ' ++ maskFrom (.literal q) rest := by
  induction cs with
  | nil => rfl
  | cons c cs ih =>
    rw [List.all_cons, Bool.and_eq_true] at h
    rw [List.cons_append, maskFrom_literal_plain h.1, ih h.2]
    rfl

lemma maskFrom_literal_items {items : List Item}
    (h : items.all (Item.isInside q) = true) :
    maskFrom (.literal q) (items.flatMap Item.text ++ rest) =
      items.flatMap Item.masked ++ maskFrom (.literal q) rest := by
  induction items with
  | nil => rfl
  | cons item items ih =>
    rw [List.all_cons, Bool.and_eq_true] at h
    rw [List.flatMap_cons, List.flatMap_cons, List.append_assoc, List.append_assoc, ← ih h.2]
    cases item with
    | plain c => exact maskFrom_literal_plain h.1
    | escaped c => rfl

lemma maskFrom_lineComment (h : '\n' ∉ cs) :
    maskFrom .lineComment (cs ++ '\n' :: rest) =
      List.replicate cs.length ' ' ++ '\n' :: maskFrom .code rest := by
  induction cs with
  | nil => simp
  | cons c cs ih =>
    rw [List.mem_cons, not_or] at h
    simp [Ne.symm h.1, ih h.2, List.replicate_succ]

/-- A comment ends with the first star before a slash: what comes before has none. -/
lemma maskFrom_blockComment (h : ¬ ['*', '/'] <:+: cs) :
    maskFrom .blockComment (cs ++ '*' :: '/' :: rest) =
      cs.map blank ++ ' ' :: ' ' :: maskFrom .code rest := by
  induction cs with
  | nil => rfl
  | cons c cs ih =>
    have htail := ih fun hpart => h (hpart.trans (List.suffix_cons c cs).isInfix)
    rw [List.cons_append, maskFrom, htail]
    · rfl
    · -- the comment would end here: its body would have the two marks side by side
      intro rest' hc hrest
      subst hc
      cases cs with
      | nil => exact absurd (List.head_eq_of_cons_eq hrest) (by decide)
      | cons d cs =>
        obtain rfl := List.head_eq_of_cons_eq hrest
        exact h (List.prefix_append ['*', '/'] cs).isInfix

end Mask

lemma isListingChar_iff {c : Char} :
    isListingChar c = true ↔ isSymbolChar c = true ∨ c = ',' ∨ c = ' ' := by
  rw [isListingChar, Bool.or_eq_true, Bool.or_eq_true, beq_iff_eq, beq_iff_eq, or_assoc]

lemma isPlain_of_isSymbolChar {c : Char} (h : isSymbolChar c = true) : isPlain c = true := by
  have hslash : c ≠ '/' := by
    rintro rfl
    exact absurd h (by decide)
  have hsingle : c ≠ '\'' := by
    rintro rfl
    exact absurd h (by decide)
  have hdouble : c ≠ '"' := by
    rintro rfl
    exact absurd h (by decide)
  simp [isPlain, isQuote, hslash, hsingle, hdouble]

@[simp] lemma Name.all_isPlain (n : Name) : n.chars.all isPlain = true :=
  List.all_eq_true.mpr fun c hc => isPlain_of_isSymbolChar (List.all_eq_true.mp n.letters c hc)

@[simp] lemma Listing.all_isPlain (l : Listing) : l.chars.all isPlain = true := by
  refine List.all_eq_true.mpr fun c hc => ?_
  rcases isListingChar_iff.mp (List.all_eq_true.mp l.letters c hc) with hname | rfl | rfl
  · exact isPlain_of_isSymbolChar hname
  · decide
  · decide

@[simp] lemma all_isPlain_spaceIf (o : Bool) : (spaceIf o).all isPlain = true := by
  cases o <;> decide

namespace Clause

variable (g : Spacing) (clause : Clause)

lemma all_isPlain_before : (clause.before g).flatten.all isPlain = true := by
  cases clause <;> simp [before, isPlain, isQuote]

lemma all_isPlain_behind : (clause.behind g).flatten.all isPlain = true := by
  cases clause <;> simp [behind, isPlain, isQuote]

end Clause

namespace Statement

variable (s : Statement) (rest : List Char)

lemma maskFrom_text : maskFrom .code (s.text ++ rest) = s.masked ++ maskFrom .code rest := by
  have hfront : (keyword ++ (s.clause.before s.spacing).flatten).all isPlain = true := by
    rw [List.all_append, s.clause.all_isPlain_before, Bool.and_true]
    decide
  have hq := s.literal.quoted
  rw [text, masked, front, back]
  simp only [List.append_assoc, List.cons_append, List.nil_append]
  rw [← List.append_assoc keyword, maskFrom_code_append hfront, maskFrom_code_quote hq,
    maskFrom_literal_append s.literal.plain, maskFrom_literal_quote hq,
    maskFrom_code_append (s.clause.all_isPlain_behind _)]
  simp only [List.append_assoc]

end Statement

lemma Quoted.maskFrom_text (s : Quoted) (rest : List Char) :
    maskFrom .code (s.text ++ rest) = s.masked ++ maskFrom .code rest := by
  rw [text, masked, List.cons_append, List.append_assoc, maskFrom_code_quote s.quoted,
    maskFrom_literal_items s.plain, List.singleton_append, maskFrom_literal_quote s.quoted]
  simp only [List.cons_append, List.append_assoc, List.nil_append]

lemma maskFrom_pieces (pieces : List Piece) (rest : List Char) :
    maskFrom .code (pieces.flatMap Piece.text ++ rest) =
      pieces.flatMap Piece.masked ++ maskFrom .code rest := by
  induction pieces with
  | nil => rfl
  | cons piece pieces ih =>
    rw [List.flatMap_cons, List.flatMap_cons, List.append_assoc, List.append_assoc, ← ih]
    cases piece with
    | code c hplain => exact maskFrom_code_plain hplain
    | quoted s => exact s.maskFrom_text _

namespace Segment

/-- Behind a segment the scanner is in the code again. -/
lemma maskFrom_text (s : Segment) (rest : List Char) :
    maskFrom .code (s.text ++ '\n' :: rest) = s.masked ++ '\n' :: maskFrom .code rest := by
  have hline : maskFrom .code ('\n' :: rest) = '\n' :: maskFrom .code rest :=
    maskFrom_code_plain (by decide)
  cases s with
  | statement s => rw [text, s.maskFrom_text, hline, masked]
  | lineComment c =>
    rw [text, List.cons_append, List.cons_append, maskFrom, maskFrom_lineComment c.oneLine]
    rfl
  | blockComment c =>
    rw [text, List.cons_append, List.cons_append, List.append_assoc, maskFrom]
    rw [List.cons_append, List.cons_append, List.nil_append, maskFrom_blockComment c.unclosed, hline]
    simp [masked]
  | filler f => rw [text, maskFrom_pieces, hline, masked]

@[simp] lemma length_masked (s : Segment) : s.masked.length = s.text.length := by
  have hlength := congrArg List.length (s.maskFrom_text [])
  rw [length_maskFrom, List.length_append, List.length_append] at hlength
  exact (Nat.add_right_cancel hlength).symm

end Segment

lemma maskFrom_fileText (segments : List Segment) :
    maskFrom .code (fileText segments) = fileMasked segments := by
  induction segments with
  | nil => rfl
  | cons s segments ih =>
    rw [fileText, fileMasked, List.flatMap_cons, List.flatMap_cons, List.append_assoc,
      List.append_assoc]
    exact (s.maskFrom_text _).trans (congrArg (s.masked ++ '\n' :: ·) ih)

end SourceBundle.Import
