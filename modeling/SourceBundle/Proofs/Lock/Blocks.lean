/-
# Written lockfiles of blocks

A lockfile of blocks is written in one of two layouts: each descriptor stands for itself, bare or in
quotes, or the descriptors of a block stand in one pair of quotes and their ranges name the protocol.
Blank lines and comments may stand anywhere, and behind the version of a block any lines with a blank in
front, even such as look like a version.  What is read of a written lockfile are the entries that were
written, for each name in the order of the file, and no others.

The reader goes from line to line.  Between two blocks no descriptor waits for a version, and then no line
with a blank in front changes anything.
-/
import SourceBundle.Lock.Yarn
import SourceBundle.Proofs.Lock.Descriptor
import SourceBundle.Proofs.Table

namespace SourceBundle.Lock

open SourceBundle.Text

/-! ## What is written -/

/-- The layouts of a lockfile of blocks. -/
inductive Layout
  /-- Each descriptor stands for itself, bare or in quotes. -/
  | plain
  /-- The descriptors of a block stand in one pair of quotes, and their ranges name the protocol. -/
  | grouped
deriving DecidableEq

variable {layout : Layout}

/-- A descriptor in the first line of a block. -/
structure Mention (layout : Layout) where
  /-- The name of the package. -/
  name : String
  /-- The range that was declared. -/
  range : String
  /-- Whether it has quotes of its own, in the plain layout. -/
  quoted : Bool := false
  name_ok : RegistryName name
  other : name ≠ metadataName
  range_ok : DeclaredRange range
  undivided : ',' ∉ range.toList
  unbroken : IsLine range.toList
  direct : ¬ "npm:".toList <+: range.toList
  single : layout = .grouped → '@' ∉ range.toList

namespace Mention

/-- The range as the layout writes it. -/
def written : {layout : Layout} → Mention layout → String
  | .plain, d => d.range
  | .grouped, d => "npm:" ++ d.range

/-- The quotes of its own. -/
def quotes : {layout : Layout} → Mention layout → List Char
  | .plain, d => if d.quoted then ['"'] else []
  | .grouped, _ => []

/-- The text of a descriptor. -/
def chars (d : Mention layout) : List Char :=
  d.quotes ++ (descriptorChars d.name d.written ++ d.quotes)

end Mention

/-- The quotes around all descriptors of a block. -/
def Layout.quotes : Layout → List Char
  | .plain => []
  | .grouped => ['"']

/-- A line that is passed over: it is blank, or a comment. -/
inductive IsPassed : List Char → Prop
  | blank {l : List Char} (h : ∀ c ∈ l, isBlank c = true) : IsPassed l
  | comment {l : List Char} (h : ∀ c ∈ l, isBlank c = true) (rest : List Char) :
      IsPassed (l ++ '#' :: rest)

/-- A line with a blank in front. -/
def IsIndented (l : List Char) : Prop := ∃ c ∈ l.head?, isBlank c = true

/-- A block: descriptors and the version that they are pinned to. -/
structure Block (layout : Layout) where
  /-- The first descriptor. -/
  first : Mention layout
  /-- The other descriptors. -/
  more : List (Mention layout)
  /-- The lines before the version. -/
  between : List (List Char)
  /-- The version. -/
  version : String
  /-- The lines behind the version. -/
  behind : List (List Char)
  between_ok : ∀ l ∈ between, IsLine l ∧ IsPassed l
  version_ne : version ≠ ""
  version_ok : ∀ c ∈ version.toList, c ≠ '"' ∧ isBlank c = false
  behind_ok : ∀ l ∈ behind, IsLine l ∧ (IsPassed l ∨ IsIndented l)

namespace Block

/-- The descriptors. -/
def mentions (b : Block layout) : List (Mention layout) := b.first :: b.more

/-- The first line. -/
def header (b : Block layout) : List Char :=
  layout.quotes ++ (b.first.chars ++
    (b.more.flatMap (fun d => ',' :: ' ' :: d.chars) ++ layout.quotes)) ++ [':']

/-- The line of the version. -/
def pinLine : {layout : Layout} → Block layout → List Char
  | .plain, b => "  version \"".toList ++ (b.version.toList ++ ['"'])
  | .grouped, b => "  version: ".toList ++ b.version.toList

/-- All lines. -/
def lines (b : Block layout) : List (List Char) := b.header :: (b.between ++ b.pinLine :: b.behind)

/-- The entries that are written, each with the name of its package. -/
def entries (b : Block layout) : List (String × LockEntry) :=
  b.mentions.map fun d => (d.name, ⟨some d.range, b.version⟩)

end Block

/-- The lines in front of all blocks.  In the grouped layout a block about the file itself stands there. -/
inductive IsPreface : Layout → List (List Char) → Prop
  | plain {ls : List (List Char)} (h : ∀ l ∈ ls, IsLine l ∧ IsPassed l) : IsPreface .plain ls
  | grouped {before behind : List (List Char)} (hbefore : ∀ l ∈ before, IsLine l ∧ IsPassed l)
      (hbehind : ∀ l ∈ behind, IsLine l ∧ (IsPassed l ∨ IsIndented l)) :
      IsPreface .grouped (before ++ (metadataName.toList ++ [':']) :: behind)

/-- A written lockfile. -/
structure Written (layout : Layout) where
  /-- The lines in front of all blocks. -/
  preface : List (List Char)
  /-- The blocks. -/
  blocks : List (Block layout)
  preface_ok : IsPreface layout preface

namespace Written

/-- The lines. -/
def lines (w : Written layout) : List (List Char) := w.preface ++ w.blocks.flatMap Block.lines

/-- The text. -/
def text (w : Written layout) : String := String.ofList (w.lines.flatMap (· ++ ['\n']))

/-- The entries of a name, in the order in which they are written. -/
def entriesOf (w : Written layout) (name : String) : List LockEntry :=
  ((w.blocks.flatMap Block.entries).filter fun e => e.1 = name).map Prod.snd

end Written

/-! ## Reading the first line of a block -/

variable {l q q' cs : List Char} {c : Char} {r : Reading} {ls : List (List Char)}

lemma RegistryName.isLine {name : String} (h : RegistryName name) : IsLine name.toList :=
  fun c hc => not_isLineEnd_of_not_isBlank (h.solid c hc)

namespace Mention

variable (d : Mention layout)

lemma quotes_eq : ∀ c ∈ d.quotes, c = '"' := by
  cases layout with
  | plain =>
    by_cases hq : d.quoted = true <;> simp [quotes, hq]
  | grouped => simp [quotes]

/-- The protocol in front of a range changes nothing about what characters it has. -/
lemma forall_mem_written {P : Char → Prop} (hprotocol : ∀ c ∈ "npm:".toList, P c)
    (hrange : ∀ c ∈ d.range.toList, P c) : ∀ c ∈ d.written.toList, P c := by
  cases layout with
  | plain => exact hrange
  | grouped =>
    rw [written, String.toList_append]
    exact List.forall_mem_append.mpr ⟨hprotocol, hrange⟩

lemma declaredRange_written : DeclaredRange d.written where
  trimmed := by
    cases layout with
    | plain => exact d.range_ok.trimmed
    | grouped =>
      rw [written, String.toList_append]
      constructor
      · intro c hc
        obtain rfl := Option.some.inj hc
        decide
      · intro c hc
        rw [List.getLast?_append] at hc
        cases hlast : d.range.toList.getLast? with
        | none =>
          rw [hlast] at hc
          obtain rfl := Option.some.inj hc
          decide
        | some e =>
          rw [hlast] at hc
          exact d.range_ok.trimmed.last c (hlast.trans hc)
  unquoted := d.forall_mem_written (by simp) d.range_ok.unquoted

/-- Behind its protocol, or without one, stands the range that was declared. -/
lemma dropProtocol_written : dropProtocol d.written.toList = d.range.toList := by
  cases layout with
  | plain =>
    rw [written, dropProtocol]
    cases hprotocol : dropPrefix? "npm:".toList d.range.toList with
    | none => rfl
    | some target => exact absurd ⟨target, (dropPrefix?_eq_some hprotocol).symm⟩ d.direct
  | grouped =>
    have hnone : splitAt? d.range.toList = none :=
      splitAt?_eq_none.mpr fun h => d.single rfl (List.mem_of_mem_tail h)
    rw [written, String.toList_append, dropProtocol, dropPrefix?_append]
    dsimp only
    rw [hnone]

/-- What holds of an at sign, of double quotes and of the protocol, and of name and range, holds of the
whole text. -/
lemma forall_mem_chars {P : Char → Prop} (hmarks : ∀ c ∈ "\"@npm:".toList, P c)
    (hname : ∀ c ∈ d.name.toList, P c) (hrange : ∀ c ∈ d.range.toList, P c) : ∀ c ∈ d.chars, P c := by
  have hquotes : ∀ c ∈ d.quotes, P c := by
    intro c hc
    rw [d.quotes_eq c hc]
    exact hmarks '"' (by decide)
  have hwritten : ∀ c ∈ d.written.toList, P c :=
    d.forall_mem_written (fun c hc => hmarks c (List.mem_cons_of_mem _ (List.mem_cons_of_mem _ hc))) hrange
  have hat : P '@' := hmarks '@' (by decide)
  rw [chars, descriptorChars, List.forall_mem_append, List.forall_mem_append, List.forall_mem_append,
    List.forall_mem_cons]
  exact ⟨hquotes, ⟨hname, hat, hwritten⟩, hquotes⟩

lemma undivided_chars : ',' ∉ d.chars := by
  have hne : ∀ c ∈ d.chars, c ≠ ',' :=
    d.forall_mem_chars (by simp) (fun c hc h => d.name_ok.undivided (h ▸ hc))
      (fun c hc h => d.undivided (h ▸ hc))
  exact fun h => hne ',' h rfl

lemma isLine_chars : IsLine d.chars :=
  d.forall_mem_chars (by simp [isLineEnd]) d.name_ok.isLine d.unbroken

/-- A descriptor is read behind blanks, with the quotes that stand around it. -/
lemma splitDescriptor?_chars (hl : ∀ c ∈ l, isBlank c = true) (hq : ∀ c ∈ q, c = '"')
    (hq' : ∀ c ∈ q', c = '"') :
    splitDescriptor? (String.ofList (l ++ (q ++ (d.chars ++ q')))) = some (d.name, d.range) := by
  have hread := splitDescriptor?_around d.name_ok d.declaredRange_written hl
    (List.forall_mem_append.mpr ⟨hq, d.quotes_eq⟩) (List.forall_mem_append.mpr ⟨d.quotes_eq, hq'⟩)
  rw [dropProtocol_written, String.ofList_toList] at hread
  rw [← hread, chars]
  simp only [List.append_assoc]

/-- The descriptors of a line are read one by one, between the commas. -/
lemma filterMap_pieces (more : List (Mention layout)) (hl : ∀ c ∈ l, isBlank c = true)
    (hq : ∀ c ∈ q, c = '"') (hq' : ∀ c ∈ q', c = '"') :
    (pieces ',' (l ++ (q ++ (d.chars ++ (more.flatMap (fun d => ',' :: ' ' :: d.chars) ++ q'))))).filterMap
        (fun cs => (splitDescriptor? (String.ofList cs)).filter fun p => p.1 != metadataName) =
      (d :: more).map fun d => (d.name, d.range) := by
  have hfree : ∀ q : List Char, (∀ c ∈ q, c = '"') → ',' ∉ q := fun q hq h => absurd (hq _ h) (by decide)
  have hblank : ',' ∉ l := fun h => absurd (hl _ h) (by decide)
  -- on the descriptors that follow; each of them stands behind a blank, without quotes of the block
  induction more generalizing d l q with
  | nil =>
    have hundivided : ',' ∉ l ++ (q ++ (d.chars ++ q')) := by
      simp [hblank, hfree q hq, hfree q' hq', d.undivided_chars]
    have hread := d.splitDescriptor?_chars hl hq hq'
    rw [List.flatMap_nil, List.nil_append, pieces_of_not_mem hundivided, List.filterMap_cons, hread]
    simp [Option.filter, d.other]
  | cons e more ih =>
    have hundivided : ',' ∉ l ++ (q ++ d.chars) := by
      simp [hblank, hfree q hq, d.undivided_chars]
    have hnone : ∀ c ∈ ([] : List Char), c = '"' := by simp
    have hread := d.splitDescriptor?_chars hl hq hnone
    have hspace : isBlank ' ' = true := by decide
    have hrest := ih e (l := [' ']) (q := []) (by simp [hspace]) (by simp) (by decide)
    have hsplit := pieces_append hundivided
      (' ' :: (e.chars ++ (more.flatMap (fun d => ',' :: ' ' :: d.chars) ++ q')))
    rw [List.append_nil] at hread
    simp only [List.append_assoc, List.cons_append, List.nil_append, List.flatMap_cons] at hsplit hrest ⊢
    rw [hsplit, List.filterMap_cons, hread, hrest]
    simp [Option.filter, d.other]

end Mention

lemma Layout.quotes_eq : ∀ c ∈ layout.quotes, c = '"' := by
  cases layout <;> simp [quotes]

namespace Block

variable (b : Block layout)

lemma descriptorsOf_header : descriptorsOf b.header = b.mentions.map fun d => (d.name, d.range) := by
  have hcolon : dropRight isBlank b.header = b.header := by
    have hsolid : isBlank ':' = false := by decide
    simp [dropRight, header, hsolid]
  have hread := b.first.filterMap_pieces b.more (l := []) (by simp) layout.quotes_eq layout.quotes_eq
  rw [List.nil_append] at hread
  have hlast : b.header.getLast? = some ':' := List.getLast?_concat
  rw [descriptorsOf, hcolon, if_pos hlast, header, List.dropLast_concat, hread, mentions]

/-- A block begins with a quote or with the name of a package. -/
lemma exists_header : ∃ c cs, b.header = c :: cs ∧ isBlank c = false ∧ c ≠ '#' := by
  have hquote : isBlank '"' = false ∧ '"' ≠ '#' := by decide
  cases layout with
  | grouped => exact ⟨'"', _, rfl, hquote⟩
  | plain =>
    by_cases hquoted : b.first.quoted = true
    · have hq : b.first.quotes = ['"'] := if_pos hquoted
      rw [header, Mention.chars, hq]
      exact ⟨'"', _, rfl, hquote⟩
    · -- a bare descriptor begins with its name
      have hq : b.first.quotes = [] := if_neg hquoted
      have hne : b.first.name.toList ≠ [] := by simpa using b.first.name_ok.ne_empty
      obtain ⟨c, cs, hname⟩ := List.exists_cons_of_ne_nil hne
      have hc : c ∈ b.first.name.toList := by simp [hname]
      have hhash : c ≠ '#' := by
        rintro rfl
        exact b.first.name_ok.uncommented (by simp [hname])
      rw [header, Mention.chars, hq, descriptorChars, hname]
      exact ⟨c, _, rfl, b.first.name_ok.solid c hc, hhash⟩

lemma isLine_header : IsLine b.header := by
  have hquotes : IsLine layout.quotes := by
    intro c hc
    rw [layout.quotes_eq c hc]
    decide
  have hmore : IsLine (b.more.flatMap fun d => ',' :: ' ' :: d.chars) := by
    intro c hc
    obtain ⟨d, -, hd⟩ := List.mem_flatMap.mp hc
    rw [List.mem_cons, List.mem_cons] at hd
    rcases hd with rfl | rfl | hd
    · decide
    · decide
    · exact d.isLine_chars c hd
  have hcolon : IsLine [':'] := by decide
  exact isLine_append (isLine_append hquotes (isLine_append b.first.isLine_chars
    (isLine_append hmore hquotes))) hcolon

lemma isLine_pinLine : IsLine b.pinLine := by
  have hversion : IsLine b.version.toList := fun c hc =>
    not_isLineEnd_of_not_isBlank (b.version_ok c hc).2
  cases layout with
  | plain =>
    have hfront : IsLine "  version \"".toList := by decide
    have hquote : IsLine ['"'] := by decide
    exact isLine_append hfront (isLine_append hversion hquote)
  | grouped =>
    have hfront : IsLine "  version: ".toList := by decide
    exact isLine_append hfront hversion

lemma isLine_of_mem_lines (hl : l ∈ b.lines) : IsLine l := by
  rw [lines, List.mem_cons, List.mem_append, List.mem_cons] at hl
  rcases hl with rfl | hl | rfl | hl
  · exact b.isLine_header
  · exact (b.between_ok l hl).1
  · exact b.isLine_pinLine
  · exact (b.behind_ok l hl).1

end Block

/-! ## Reading the version of a block -/

lemma behind_blanks (hne : l ≠ []) (hl : ∀ c ∈ l, isBlank c = true)
    (hcs : ∀ c ∈ cs.head?, isBlank c = false) :
    ((l ++ cs).takeWhile isBlank).isEmpty = false ∧ (l ++ cs).dropWhile isBlank = cs := by
  rw [List.takeWhile_append_of_pos hl, List.dropWhile_append_of_pos hl, dropWhile_of_head? hcs]
  simp [hne]

/-- A line is read from left to right: blanks, the word, perhaps a colon, a blank again, and the version,
perhaps with a quote on either side. -/
lemma versionOf?_eq_some {behind quoted v close : List Char}
    (hcolon : (dropPrefix? [':'] behind).getD behind = [' '] ++ quoted)
    (hsolid : ∀ c ∈ quoted.head?, isBlank c = false)
    (hopen : (dropPrefix? ['"'] quoted).getD quoted = v ++ close)
    (hne : v ≠ []) (hv : ∀ c ∈ v, c ≠ '"' ∧ isBlank c = false) (hclose : close = [] ∨ close = ['"']) :
    versionOf? ([' ', ' '] ++ ("version".toList ++ behind)) = some (String.ofList v) := by
  have hword : ∀ c ∈ ("version".toList ++ behind).head?, isBlank c = false := by
    intro c hc
    obtain rfl := Option.some.inj hc
    decide
  have hspace : isBlank ' ' = true := by decide
  obtain ⟨hfront, hfront'⟩ := behind_blanks (l := [' ', ' ']) (by simp) (by simp [hspace]) hword
  obtain ⟨hmid, hmid'⟩ := behind_blanks (l := [' ']) (by simp) (by simp [hspace]) hsolid
  -- the version goes to the first quote or blank, and behind it stands at most a quote
  have hinside : ∀ c ∈ v, (c != '"' && !isBlank c) = true := by
    intro c hc
    simp [(hv c hc).1, (hv c hc).2]
  have htake : (v ++ close).takeWhile (fun c => c != '"' && !isBlank c) = v := by
    rw [List.takeWhile_append_of_pos hinside]
    rcases hclose with rfl | rfl <;> simp
  have hdrop : (v ++ close).dropWhile (fun c => c != '"' && !isBlank c) = close := by
    rw [List.dropWhile_append_of_pos hinside]
    rcases hclose with rfl | rfl <;> simp
  have hend : ((dropPrefix? ['"'] close).getD close).all isBlank = true := by
    rcases hclose with rfl | rfl <;> rfl
  have hsome : v.isEmpty = false := by simpa using hne
  simp only [versionOf?, hfront, hfront', Bool.false_eq_true, if_false, dropPrefix?_append,
    Option.bind_eq_bind, Option.bind_some, hcolon, hmid, hmid', hopen, htake, hdrop, hend, hsome, if_true]
  rfl

namespace Block

variable (b : Block layout)

lemma versionOf?_pinLine : versionOf? b.pinLine = some b.version := by
  have hne : b.version.toList ≠ [] := by simpa using b.version_ne
  have hread : versionOf? b.pinLine = some (String.ofList b.version.toList) := by
    cases layout with
    | plain =>
      have hcolon : (dropPrefix? [':'] (' ' :: '"' :: (b.version.toList ++ ['"']))).getD
          (' ' :: '"' :: (b.version.toList ++ ['"'])) = [' '] ++ '"' :: (b.version.toList ++ ['"']) := rfl
      refine versionOf?_eq_some hcolon ?_ rfl hne b.version_ok (Or.inr rfl)
      intro c hc
      obtain rfl := Option.some.inj hc
      decide
    | grouped =>
      have hcolon : (dropPrefix? [':'] (':' :: ' ' :: b.version.toList)).getD
          (':' :: ' ' :: b.version.toList) = [' '] ++ b.version.toList := rfl
      obtain ⟨c, cs, hversion⟩ := List.exists_cons_of_ne_nil hne
      have hfirst := b.version_ok c (by simp [hversion])
      have hquote : ¬ '"' = c := fun h => hfirst.1 h.symm
      refine versionOf?_eq_some hcolon ?_ ?_ hne b.version_ok (Or.inl rfl)
      · simp [hversion, hfirst.2]
      · simp [hversion, dropPrefix?, hquote]
  rw [hread, String.ofList_toList]

lemma exists_pinLine : ∃ cs, b.pinLine = ' ' :: ' ' :: 'v' :: cs := by
  cases layout with
  | plain => exact ⟨_, rfl⟩
  | grouped => exact ⟨_, rfl⟩

end Block

/-! ## Reading on -/

namespace Reading

lemma line_passed (h : IsPassed l) : r.line l = r := by
  cases h with
  | blank h =>
    cases l with
    | nil => rfl
    | cons c cs =>
      have hnone : (c :: cs).dropWhile isBlank = [] := List.dropWhile_eq_nil_iff.mpr h
      simp [line, hnone]
  | comment h rest =>
    rename_i front
    have hbody : (front ++ '#' :: rest).dropWhile isBlank = '#' :: rest := by
      have hhash : isBlank '#' = false := by decide
      simp [List.dropWhile_append_of_pos h, hhash]
    cases htext : front ++ '#' :: rest with
    | nil => rfl
    | cons c cs => simp [line, ← htext, hbody]

/-- While no descriptor waits, a line with a blank in front changes nothing. -/
lemma line_indented (h : IsIndented l) (hr : r.pending = []) : r.line l = r := by
  obtain ⟨c, hc, hblank⟩ := h
  cases l with
  | nil => rfl
  | cons d cs =>
    obtain rfl := Option.some.inj hc
    simp [line, hblank, hr]

lemma line_header (hblank : isBlank c = false) (hc : c ≠ '#') :
    r.line (c :: cs) = { r with pending := descriptorsOf (c :: cs) } := by
  simp [line, hblank, hc]

/-- Read on by the line of a version: all descriptors that wait have it. -/
lemma line_pinLine (b : Block layout) : r.line b.pinLine =
    ⟨r.pending.foldl (fun lock d => lock.add d.1 ⟨some d.2, b.version⟩) r.entries, []⟩ := by
  obtain ⟨cs, hcs⟩ := b.exists_pinLine
  have hversion := b.versionOf?_pinLine
  have hspace : isBlank ' ' = true := by decide
  have hv : isBlank 'v' = false := by decide
  rw [hcs] at hversion ⊢
  obtain ⟨entries, pending⟩ := r
  cases pending with
  | nil => simp [line, hspace, hv]
  | cons d pending => simp [line, hspace, hv, hversion]

lemma foldl_idle (h : ∀ l ∈ ls, r.line l = r) : ls.foldl line r = r := by
  induction ls with
  | nil => rfl
  | cons l ls ih =>
    rw [List.foldl_cons, h l List.mem_cons_self]
    exact ih fun l' hl' => h l' (List.mem_cons_of_mem l hl')

lemma foldl_behind (h : ∀ l ∈ ls, IsLine l ∧ (IsPassed l ∨ IsIndented l)) (hr : r.pending = []) :
    ls.foldl line r = r := by
  refine foldl_idle fun l hl => ?_
  rcases (h l hl).2 with hpassed | hindented
  · exact line_passed hpassed
  · exact line_indented hindented hr

lemma foldl_passed (h : ∀ l ∈ ls, IsLine l ∧ IsPassed l) : ls.foldl line r = r :=
  foldl_idle fun l hl => line_passed (h l hl).2

/-- Read on by a block: its entries are added, and nothing waits behind it. -/
lemma foldl_block (b : Block layout) : b.lines.foldl line r =
    ⟨b.entries.foldl (fun lock e => lock.add e.1 e.2) r.entries, []⟩ := by
  obtain ⟨c, cs, hheader, hblank, hhash⟩ := b.exists_header
  -- the descriptors of the first line wait until the version is read
  have hpending : r.line b.header = { r with pending := b.mentions.map fun d => (d.name, d.range) } := by
    rw [hheader, line_header hblank hhash, ← hheader, b.descriptorsOf_header]
  rw [Block.lines, List.foldl_cons, hpending, List.foldl_append, foldl_passed b.between_ok, List.foldl_cons,
    line_pinLine, foldl_behind b.behind_ok rfl, Block.entries, List.foldl_map, List.foldl_map]

lemma foldl_blocks (bs : List (Block layout)) (hr : r.pending = []) :
    (bs.flatMap Block.lines).foldl line r =
      ⟨(bs.flatMap Block.entries).foldl (fun lock e => lock.add e.1 e.2) r.entries, []⟩ := by
  induction bs generalizing r with
  | nil => rw [List.flatMap_nil, List.flatMap_nil, List.foldl_nil, List.foldl_nil, ← hr]
  | cons b bs ih =>
    rw [List.flatMap_cons, List.flatMap_cons, List.foldl_append, List.foldl_append, foldl_block, ih rfl]

lemma foldl_preface (h : IsPreface layout ls) (hr : r.pending = []) : ls.foldl line r = r := by
  cases h with
  | plain h => exact foldl_passed h
  | grouped hbefore hbehind =>
    -- the block about the file itself names no package, so nothing waits behind its first line
    have hnone : descriptorsOf (metadataName.toList ++ [':']) = [] := by decide
    have hheader : r.line (metadataName.toList ++ [':']) = r := by
      have hline : r.line (metadataName.toList ++ [':']) = _ := line_header (by decide) (by decide)
      rw [hline]
      obtain ⟨entries, pending⟩ := r
      have hpending : pending = [] := hr
      rw [hpending]
      exact congrArg _ hnone
    rw [List.foldl_append, foldl_passed hbefore, List.foldl_cons, hheader, foldl_behind hbehind hr]

end Reading

/-! ## The whole file -/

/-- Entries are added behind those that a name has. -/
lemma get?_foldl_add {lock : Lockfile} {name : String} {es : List LockEntry}
    (h : lock.get? name = if es = [] then none else some es) (added : List (String × LockEntry)) :
    (added.foldl (fun lock e => lock.add e.1 e.2) lock).get? name =
      if es ++ (added.filter fun e => e.1 = name).map Prod.snd = [] then none
      else some (es ++ (added.filter fun e => e.1 = name).map Prod.snd) := by
  -- on the added entries; those that the name has already grow on the way
  induction added generalizing lock es with
  | nil => simpa using h
  | cons e added ih =>
    rw [List.foldl_cons]
    by_cases hname : e.1 = name
    · have hadd : (lock.add e.1 e.2).get? name = if es ++ [e.2] = [] then none else some (es ++ [e.2]) := by
        rw [Lockfile.add, hname, Table.get?_update_self, h]
        by_cases hes : es = [] <;> simp [hes]
      have hrest := ih hadd
      rw [List.append_assoc, List.singleton_append] at hrest
      rw [hrest, List.filter_cons_of_pos (by simpa using hname), List.map_cons]
    · have hadd : (lock.add e.1 e.2).get? name = if es = [] then none else some es := by
        rw [Lockfile.add, Table.get?_update_ne _ hname, h]
      rw [ih hadd, List.filter_cons_of_neg (by simpa using hname)]

lemma IsPreface.isLine (h : IsPreface layout ls) : ∀ l ∈ ls, IsLine l := by
  intro l hl
  cases h with
  | plain h => exact (h l hl).1
  | grouped hbefore hbehind =>
    rw [List.mem_append, List.mem_cons] at hl
    rcases hl with hl | rfl | hl
    · exact (hbefore l hl).1
    · decide
    · exact (hbehind l hl).1

lemma Written.isLine_of_mem_lines (w : Written layout) : ∀ l ∈ w.lines, IsLine l := by
  intro l hl
  rcases List.mem_append.mp hl with hl | hl
  · exact w.preface_ok.isLine l hl
  · obtain ⟨b, -, hb⟩ := List.mem_flatMap.mp hl
    exact b.isLine_of_mem_lines hb

/-- **Written lockfiles.**  What is read of a written lockfile are, for each name, the entries that are
written for it, in the order of the file; for a name without such nothing is read. -/
theorem ofBlocks_text (w : Written layout) (name : String) : (ofBlocks w.text).get? name =
    if w.entriesOf name = [] then none else some (w.entriesOf name) := by
  have hlines : linesOf none w.text.toList = w.lines := by
    rw [Written.text, String.toList_ofList, linesOf_flatMap w.isLine_of_mem_lines]
  have hread : ofBlocks w.text =
      (w.blocks.flatMap Block.entries).foldl (fun lock e => lock.add e.1 e.2) ∅ := by
    rw [ofBlocks, hlines, Written.lines, List.foldl_append, Reading.foldl_preface w.preface_ok rfl,
      Reading.foldl_blocks w.blocks rfl]
  have hempty : (∅ : Lockfile).get? name = if ([] : List LockEntry) = [] then none else some [] := rfl
  have hadded := get?_foldl_add hempty (w.blocks.flatMap Block.entries)
  rw [List.nil_append] at hadded
  rw [hread, hadded, Written.entriesOf]

/-- A descriptor of a package with a scope, in quotes of its own where the layout has such. -/
def scopedMention (layout : Layout) (range : String) (h : range = "^1.0.0" ∨ range = "1 || 2") :
    Mention layout where
  name := "@a/b"
  range := range
  quoted := true
  name_ok := by decide +kernel
  other := by decide +kernel
  range_ok := by rcases h with rfl | rfl <;> decide +kernel
  undivided := by rcases h with rfl | rfl <;> decide +kernel
  unbroken := by rcases h with rfl | rfl <;> decide +kernel
  direct := by rcases h with rfl | rfl <;> decide +kernel
  single _ := by rcases h with rfl | rfl <;> decide +kernel

lemma unquoted_version : ∀ c ∈ "1.2.3".toList, c ≠ '"' ∧ isBlank c = false := by
  simp [isBlank]

/-- A block of two descriptors, with a line behind its version that looks like another one. -/
def nestedBlock (layout : Layout) : Block layout where
  first := scopedMention layout "^1.0.0" (Or.inl rfl)
  more := [scopedMention layout "1 || 2" (Or.inr rfl)]
  between := []
  version := "1.2.3"
  behind := ["    version \"9.9.9\"".toList, []]
  between_ok := fun _ hl => absurd hl List.not_mem_nil
  version_ne := by decide
  version_ok := unquoted_version
  behind_ok := by
    rintro l hl
    rw [List.mem_cons, List.mem_singleton] at hl
    rcases hl with rfl | rfl
    · exact ⟨by decide +kernel, Or.inr ⟨' ', rfl, rfl⟩⟩
    · exact ⟨by decide, Or.inl (.blank (by simp))⟩

/-- A file of one block in each layout. -/
def sampleFile : (layout : Layout) → Written layout
  | .plain => ⟨[], [nestedBlock .plain], .plain (by simp)⟩
  | .grouped =>
    have hnone : ∀ l ∈ ([] : List (List Char)), IsLine l ∧ IsPassed l := by simp
    have hindented : ∀ l ∈ ["  version: 6".toList], IsLine l ∧ (IsPassed l ∨ IsIndented l) := by
      intro l hl
      obtain rfl := List.mem_singleton.mp hl
      exact ⟨by decide +kernel, Or.inr ⟨' ', rfl, rfl⟩⟩
    ⟨_, [nestedBlock .grouped], .grouped hnone hindented⟩

/-- In both layouts a scope, two descriptors in one line and a line that looks like a version are read as
they were written. -/
theorem ofBlocks_text_nested :
    (ofBlocks (sampleFile .plain).text).get? "@a/b" =
        some [⟨some "^1.0.0", "1.2.3"⟩, ⟨some "1 || 2", "1.2.3"⟩] ∧
      (ofBlocks (sampleFile .grouped).text).get? "@a/b" =
        some [⟨some "^1.0.0", "1.2.3"⟩, ⟨some "1 || 2", "1.2.3"⟩] := by
  rw [ofBlocks_text, ofBlocks_text]
  decide +kernel

end SourceBundle.Lock
