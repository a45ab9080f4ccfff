/-
# Extraction is complete

Of a well-formed file every import statement is found, once and in the order of the text, and
nothing else is.  Each form finds the statements of its own and passes over the rest, so the paths
that the forms find together are those of all statements, and their offsets put them in order.
-/
import SourceBundle.Proofs.Import.Form
import SourceBundle.Proofs.Sort

namespace SourceBundle.Import

open SourceBundle.Text

/-! ## Scanning for a form -/

namespace Form

variable {f : Form} {cs rest tail : List Char} {c : Char} {inWord : Bool} {pos : Nat}

lemma tokens_of_ne_symbols (hf : f ≠ .symbols) : ∃ later, f.tokens = .space :: later := by
  cases f with
  | symbols => exact absurd rfl hf
  | bare => exact ⟨_, rfl⟩
  | aliased => exact ⟨_, rfl⟩
  | wildcard => exact ⟨_, rfl⟩
  | named => exact ⟨_, rfl⟩
  | namedSymbols => exact ⟨_, rfl⟩

/-- Behind the letters of the word a form does not go on with a word character. -/
lemma match?_keyword_append (hc : isWord c = true) :
    f.match? ⟨pos, keyword ++ c :: tail⟩ = none := by
  have hblank := not_isBlank_of_isWord hc
  by_cases hf : f = .symbols
  · subst hf
    have hbrace : c ≠ '{' := by
      rintro rfl
      exact absurd hc (by decide)
    have hnone : Form.symbols.match? ⟨pos, keyword ++ (spaceIf false ++ c :: tail)⟩ = none :=
      match?_eq_none_of_opens hblank (beq_eq_false_iff_ne.mpr hbrace)
    exact hnone
  · obtain ⟨later, htokens⟩ := tokens_of_ne_symbols hf
    refine match?_eq_none ?_
    rw [matchTokens?, Token.reads_letters keyword pos, htokens]
    change matchTokens? none (.space :: later) ⟨pos + keyword.length, c :: tail⟩ = none
    rw [matchTokens?, Token.match?, Place.behindSome?_eq_none (ends_cons.mpr hblank)]
    rfl

lemma match?_eq_none_of_standsFirst (h : standsFirst keyword cs = false) :
    f.match? ⟨pos, cs⟩ = none := by
  cases hdrop : dropPrefix? keyword cs with
  | none =>
    have hbegins : beginsWith keyword cs = false := by rw [beginsWith, hdrop, Option.isSome]
    refine match?_eq_none ?_
    rw [matchTokens?, Token.match?, hbegins]
    rfl
  | some tail =>
    obtain rfl := dropPrefix?_eq_some hdrop
    have hhead : (!tail.head?.any isWord) = false := h
    cases tail with
    | nil => exact absurd hhead (by decide)
    | cons c tail => exact match?_keyword_append (by simpa using hhead)

lemma paths_of_match?_eq_none (h : f.match? ⟨pos, c :: rest⟩ = none) :
    f.paths 0 inWord pos (c :: rest) = f.paths 0 (isWord c) (pos + 1) rest := by
  cases inWord with
  | true => rfl
  | false => simp [paths, h]

lemma paths_of_match?_eq_some {path : Span} {stop : Place}
    (h : f.match? ⟨pos, c :: rest⟩ = some (path, stop)) :
    f.paths 0 false pos (c :: rest) =
      path :: f.paths (stop.pos - pos - 1) (isWord c) (pos + 1) rest := by
  simp [paths, h]

lemma paths_newline :
    f.paths 0 inWord pos ('\n' :: rest) = f.paths 0 false (pos + 1) rest :=
  paths_of_match?_eq_none (match?_eq_none_of_standsFirst rfl)

/-- A line without the word is passed over. -/
lemma paths_append (h : hasKeyword inWord cs = false) :
    f.paths 0 inWord pos (cs ++ '\n' :: rest) = f.paths 0 false (pos + (cs.length + 1)) rest := by
  induction cs generalizing inWord pos with
  | nil => exact paths_newline
  | cons c cs ih =>
    rw [hasKeyword, Bool.or_eq_false_iff] at h
    obtain ⟨hfirst, htail⟩ := h
    have hpos : pos + ((c :: cs).length + 1) = pos + 1 + (cs.length + 1) := by
      rw [List.length_cons]
      omega
    rw [hpos, ← ih htail]
    cases inWord with
    | true => rfl
    | false =>
      have hline : standsFirst keyword (c :: cs ++ '\n' :: rest) = standsFirst keyword (c :: cs) :=
        standsFirst_append isWord_of_mem_keyword (by decide) (c :: cs)
      exact paths_of_match?_eq_none (match?_eq_none_of_standsFirst (hline.trans hfirst))

/-- The rest of a statement is passed over. -/
lemma paths_skip : f.paths cs.length inWord pos (cs ++ '\n' :: rest) =
    f.paths 0 false (pos + (cs.length + 1)) rest := by
  induction cs generalizing inWord pos with
  | nil => exact paths_newline
  | cons c cs ih =>
    have hpos : pos + ((c :: cs).length + 1) = pos + 1 + (cs.length + 1) := by
      rw [List.length_cons]
      omega
    rw [hpos, ← ih]
    rfl

end Form

variable {f : Form} {rest : List Char} {pos : Nat}

/-- A form passes over a segment, and if it is a statement of the form its path is found. -/
lemma Statement.paths_masked (s : Statement) :
    f.paths 0 false pos (s.masked ++ '\n' :: rest) =
      (if s.clause.form = f then [s.span pos] else []) ++
        f.paths 0 false (pos + (s.masked.length + 1)) rest := by
  obtain ⟨tail, hmasked, htail⟩ := s.hasKeyword_tail
  have hpos : pos + (s.masked.length + 1) = pos + 1 + (tail.length + 1) := by
    rw [hmasked, List.length_cons]
    omega
  rw [hpos]
  by_cases hf : s.clause.form = f
  · subst hf
    -- the match ends with the statement, so that just the rest of the statement is skipped
    have hmatch := s.match?_form ('\n' :: rest) pos
    have hskip : pos + s.masked.length - pos - 1 = tail.length := by
      rw [hmasked, List.length_cons]
      omega
    rw [if_pos rfl, hmasked, List.cons_append]
    rw [hmasked, List.cons_append, ← hmasked] at hmatch
    rw [Form.paths_of_match?_eq_some hmatch, hskip, Form.paths_skip]
    rfl
  · rw [if_neg hf, List.nil_append]
    -- there is no match at the first letter, and no word to look at behind it
    have hmatch := s.match?_of_ne ('\n' :: rest) pos (Ne.symm hf)
    rw [hmasked, List.cons_append] at hmatch ⊢
    rw [Form.paths_of_match?_eq_none hmatch]
    exact Form.paths_append htail

lemma fileMasked_cons (segment : Segment) (segments : List Segment) :
    fileMasked (segment :: segments) = segment.masked ++ '\n' :: fileMasked segments := by
  simp [fileMasked]

/-- A form finds the paths of its statements. -/
lemma Form.paths_fileMasked (segments : List Segment) :
    f.paths 0 false pos (fileMasked segments) =
      ((statementsFrom pos segments).filter (·.2.clause.form = f)).map fun e => e.2.span e.1 := by
  induction segments generalizing pos with
  | nil => rfl
  | cons segment segments ih =>
    rw [fileMasked_cons, statementsFrom]
    cases hs : segment.statement? with
    | some s =>
      obtain rfl := Segment.statement?_eq_some.mp hs
      have hlength : s.masked.length = s.text.length := (Segment.statement s).length_masked
      rw [Segment.masked, s.paths_masked, hlength, ih, Segment.text]
      by_cases hf : s.clause.form = f
      · simp [hf]
      · simp [hf]
    | none =>
      rw [Form.paths_append (Segment.hasKeyword_masked hs), segment.length_masked, ih]

/-! ## All forms together -/

/-- Sorting a list by what a function gives for its elements loses none of them. -/
lemma flatMap_filter_perm {α κ : Type} [DecidableEq κ] (key : α → κ) (l : List α) {keys : List κ}
    (h : keys.Nodup) :
    (keys.flatMap fun k => l.filter (key · = k)).Perm (l.filter (key · ∈ keys)) := by
  induction keys with
  | nil => simp
  | cons k keys ih =>
    obtain ⟨hk, hkeys⟩ := List.nodup_cons.mp h
    have hfirst : (l.filter (key · ∈ k :: keys)).filter (key · = k) = l.filter (key · = k) := by
      rw [List.filter_filter]
      refine List.filter_congr fun a _ => ?_
      by_cases ha : key a = k
      · simp [ha]
      · simp [ha]
    have hothers : (l.filter (key · ∈ k :: keys)).filter (fun a => !(key a = k : Bool)) =
        l.filter (key · ∈ keys) := by
      rw [List.filter_filter]
      refine List.filter_congr fun a _ => ?_
      by_cases ha : key a = k
      · simp [ha, hk]
      · simp [ha]
    rw [List.flatMap_cons]
    refine ((ih hkeys).append_left _).trans ?_
    rw [← hfirst, ← hothers]
    exact List.filter_append_perm _ _

lemma foldl_addPath {paths acc : List Span}
    (h : (acc ++ paths).Pairwise fun a b => a.start ≠ b.start) :
    paths.foldl addPath acc = acc ++ paths := by
  induction paths generalizing acc with
  | nil => simp
  | cons s paths ih =>
    have hnew : acc.any (·.start == s.start) = false := by
      rw [List.any_eq_false]
      intro a ha
      rw [beq_iff_eq]
      exact (List.pairwise_append.mp h).2.2 a ha s List.mem_cons_self
    have hadd : addPath acc s = acc ++ [s] := by
      rw [addPath, hnew]
      rfl
    rw [List.foldl_cons, hadd, ih]
    · rw [List.append_assoc, List.singleton_append]
    · rwa [List.append_assoc, List.singleton_append]

/-- Spans in the order of their offsets are found again from any order. -/
lemma sortBy_foldl_addPath {paths spans : List Span} (hperm : paths.Perm spans)
    (hspans : spans.Pairwise fun a b => a.start < b.start) :
    sortBy (fun a b => a.start ≤ b.start) (paths.foldl addPath []) = spans := by
  have hdistinct : spans.Pairwise fun a b => a.start ≠ b.start := hspans.imp fun h => Nat.ne_of_lt h
  have hfold : paths.foldl addPath [] = paths :=
    foldl_addPath ((hperm.pairwise_iff fun h => Ne.symm h).mpr hdistinct)
  -- no path is dropped, and there is only one order in which the offsets ascend
  have htotal : Std.Total fun a b : Span => decide (a.start ≤ b.start) = true :=
    ⟨fun a b => by simpa using le_total a.start b.start⟩
  have htrans : IsTrans Span fun a b => decide (a.start ≤ b.start) = true :=
    ⟨fun a b c hab hbc => by simpa using le_trans (of_decide_eq_true hab) (of_decide_eq_true hbc)⟩
  have hsort :=
    List.pairwise_insertionSort (fun a b : Span => decide (a.start ≤ b.start) = true) paths
  rw [hfold, sortBy_eq_insertionSort]
  refine List.Perm.eq_of_pairwise ?_ hsort (hspans.imp fun h => by simpa using Nat.le_of_lt h)
    ((List.perm_insertionSort _ _).trans hperm)
  intro a b ha hb hab hba
  have ha' : a ∈ spans := ((List.perm_insertionSort _ _).trans hperm).mem_iff.mp ha
  exact List.inj_on_of_nodup_map (List.pairwise_map.mpr hdistinct) ha' hb
    (le_antisymm (of_decide_eq_true hab) (of_decide_eq_true hba))

lemma pos_le_of_mem_statementsFrom {segments : List Segment} {e : Nat × Statement}
    (he : e ∈ statementsFrom pos segments) : pos ≤ e.1 := by
  induction segments generalizing pos with
  | nil => cases he
  | cons segment segments ih =>
    have hlater (he : e ∈ statementsFrom (pos + (segment.text.length + 1)) segments) : pos ≤ e.1 :=
      le_trans (Nat.le_add_right _ _) (ih he)
    rw [statementsFrom] at he
    cases hs : segment.statement? with
    | some s =>
      rw [hs] at he
      rcases List.mem_cons.mp he with rfl | he
      · exact le_refl _
      · exact hlater he
    | none =>
      rw [hs] at he
      exact hlater he

lemma Statement.start_lt (s : Statement) (pos : Nat) :
    (s.span pos).start < pos + s.text.length := by
  simp only [span, text, back, List.length_append, List.length_cons]
  omega

lemma pairwise_statementsFrom (segments : List Segment) :
    (statementsFrom pos segments).Pairwise
      fun a b => (a.2.span a.1).start < (b.2.span b.1).start := by
  induction segments generalizing pos with
  | nil => exact List.Pairwise.nil
  | cons segment segments ih =>
    rw [statementsFrom]
    cases hs : segment.statement? with
    | some s =>
      obtain rfl := Segment.statement?_eq_some.mp hs
      refine List.pairwise_cons.mpr ⟨fun e he => ?_, ih⟩
      have hpos : pos + (s.text.length + 1) ≤ e.1 := pos_le_of_mem_statementsFrom he
      have hstart := s.start_lt pos
      have hfront : e.1 ≤ (e.2.span e.1).start := Nat.le_add_right _ _
      exact lt_of_lt_of_le hstart (le_trans (by omega) hfront)
    | none => exact ih

lemma pathsOf_fileMasked (segments : List Segment) :
    pathsOf (fileMasked segments) = (statementsFrom 0 segments).map fun e => e.2.span e.1 := by
  have hforms : (Form.all.flatMap fun f => f.paths 0 false 0 (fileMasked segments)) =
      (Form.all.flatMap fun f => (statementsFrom 0 segments).filter (·.2.clause.form = f)).map
        fun e => e.2.span e.1 := by
    rw [List.map_flatMap]
    exact congrArg (List.flatMap · Form.all) (funext fun f => Form.paths_fileMasked segments)
  have hall : (statementsFrom 0 segments).filter (·.2.clause.form ∈ Form.all) =
      statementsFrom 0 segments := by
    refine List.filter_eq_self.mpr fun e _ => ?_
    cases e.2.clause.form <;> decide
  have hperm := flatMap_filter_perm (·.2.clause.form) (statementsFrom 0 segments)
    (show Form.all.Nodup by decide)
  rw [hall] at hperm
  rw [pathsOf, hforms]
  exact sortBy_foldl_addPath (hperm.map _) (List.pairwise_map.mpr (pairwise_statementsFrom segments))

/-! ## The references of a file -/

/-- The path of a statement. -/
def Statement.path (s : Statement) : String := String.ofList s.literal.chars

lemma length_fileText_cons (segment : Segment) (segments : List Segment) :
    (fileText (segment :: segments)).length =
      segment.text.length + 1 + (fileText segments).length := by
  simp only [fileText, List.flatMap_cons, List.length_append, List.length_singleton]

lemma statementsFrom_append (front back : List Segment) :
    statementsFrom pos (front ++ back) =
      statementsFrom pos front ++ statementsFrom (pos + (fileText front).length) back := by
  induction front generalizing pos with
  | nil => rfl
  | cons segment front ih =>
    have hpos : pos + (fileText (segment :: front)).length =
        pos + (segment.text.length + 1) + (fileText front).length := by
      rw [length_fileText_cons]
      omega
    rw [List.cons_append, statementsFrom, statementsFrom, ih, hpos]
    cases segment.statement? with
    | some s => rfl
    | none => rfl

lemma map_snd_statementsFrom (segments : List Segment) :
    (statementsFrom pos segments).map Prod.snd = segments.filterMap Segment.statement? := by
  induction segments generalizing pos with
  | nil => rfl
  | cons segment segments ih =>
    rw [statementsFrom, List.filterMap_cons]
    cases segment.statement? with
    | some s => exact congrArg (s :: ·) ih
    | none => exact ih

/-- A statement is found at the offset of its segment. -/
lemma exists_of_mem_statementsFrom {segments : List Segment} {e : Nat × Statement}
    (he : e ∈ statementsFrom pos segments) :
    ∃ front back, segments = front ++ .statement e.2 :: back ∧
      e.1 = pos + (fileText front).length := by
  induction segments generalizing pos with
  | nil => cases he
  | cons segment segments ih =>
    have hlater (he : e ∈ statementsFrom (pos + (segment.text.length + 1)) segments) :
        ∃ front back, segment :: segments = front ++ .statement e.2 :: back ∧
          e.1 = pos + (fileText front).length := by
      obtain ⟨front, back, rfl, hpos⟩ := ih he
      refine ⟨segment :: front, back, rfl, ?_⟩
      rw [hpos, length_fileText_cons, Nat.add_assoc]
    rw [statementsFrom] at he
    cases hs : segment.statement? with
    | some s =>
      rw [hs] at he
      rcases List.mem_cons.mp he with rfl | he
      · exact ⟨[], segments, by rw [Segment.statement?_eq_some.mp hs]; rfl, rfl⟩
      · exact hlater he
    | none =>
      rw [hs] at he
      exact hlater he

/-- The characters of a path, at the offsets at which it stands in the file. -/
lemma fileText_split (front : List Segment) (s : Statement) (back : List Segment) :
    ∃ before behind,
      fileText (front ++ .statement s :: back) = before ++ (s.literal.chars ++ behind) ∧
      s.span (fileText front).length =
        ⟨before.length, before.length + s.literal.chars.length⟩ := by
  refine ⟨fileText front ++ s.front, s.back ++ '\n' :: fileText back, ?_, ?_⟩
  · simp [fileText, Segment.text, Statement.text]
  · rw [Statement.span, List.length_append]

lemma Span.cut_append (before chars behind : List Char) :
    (⟨before.length, before.length + chars.length⟩ : Span).cut (before ++ (chars ++ behind)) =
      chars := by
  rw [cut, List.drop_left, Nat.add_sub_cancel_left, List.take_left]

lemma extract_fileText (segments : List Segment) {file : String} (h : hasGrammar file = true) :
    extract (String.ofList (fileText segments)) file =
      (statementsFrom 0 segments).map fun e => ⟨file, e.2.path, e.2.span e.1⟩ := by
  have hcut : ∀ e ∈ statementsFrom 0 segments,
      (e.2.span e.1).cut (fileText segments) = e.2.literal.chars := by
    intro e he
    obtain ⟨front, back, hsegments, hpos⟩ := exists_of_mem_statementsFrom he
    obtain ⟨before, behind, htext, hspan⟩ := fileText_split front e.2 back
    rw [Nat.zero_add] at hpos
    rw [hpos, hspan, hsegments, htext, Span.cut_append]
  simp only [extract, if_pos h, String.toList_ofList]
  rw [maskFrom_fileText, pathsOf_fileMasked, List.map_map]
  refine List.map_congr_left fun e he => ?_
  rw [Function.comp_apply, hcut e he, Statement.path]

/-- **Extraction is complete.**  Of a file that is made of statements, comments and other text, each
statement gives one reference, in the order of the text: its path is the text between the quotes,
and its offsets are those at which this text stands in the file. -/
theorem extract_complete (segments : List Segment) {file : String} (h : hasGrammar file = true) :
    (extract (String.ofList (fileText segments)) file).map (·.path) =
      (segments.filterMap Segment.statement?).map Statement.path ∧
    ∀ front s back, segments = front ++ .statement s :: back →
      (extract (String.ofList (fileText segments)) file)[
          (front.filterMap Segment.statement?).length]? =
        some ⟨file, s.path, s.span (fileText front).length⟩ ∧
      ∃ before behind, fileText segments = before ++ (s.literal.chars ++ behind) ∧
        s.span (fileText front).length =
          ⟨before.length, before.length + s.literal.chars.length⟩ := by
  rw [extract_fileText segments h]
  refine ⟨?_, ?_⟩
  · rw [← map_snd_statementsFrom, List.map_map, List.map_map]
    rfl
  · rintro front s back rfl
    refine ⟨?_, fileText_split front s back⟩
    have hlength : (front.filterMap Segment.statement?).length =
        ((statementsFrom 0 front).map
          fun e => (⟨file, e.2.path, e.2.span e.1⟩ : Reference)).length := by
      rw [← map_snd_statementsFrom, List.length_map, List.length_map]
    rw [statementsFrom_append, List.map_append, hlength, List.getElem?_append_right (le_refl _),
      Nat.sub_self, Nat.zero_add]
    rfl

/-- An import as it may also stand in a comment or in a string. -/
def lookalike : List Char := "import \"b.sol\";".toList

/-- It in a string. -/
def quotedLookalike : Literal := ⟨'\'', lookalike, by decide, by decide, by decide⟩

/-- A file with two imports, and three places that look like imports and are none. -/
def lookalikes : List Segment :=
  [.lineComment ⟨lookalike, by decide⟩,
    .statement ⟨.aliased ⟨"A".toList, by decide, by decide, by decide⟩,
      ⟨'\'', "./a//\"A\".sol".toList, by decide, by decide, by decide⟩, {}⟩,
    .filler ⟨"string s = ".toList.pmap .code (List.all_eq_true.mp (by decide)) ++
      [.quoted quotedLookalike.toQuoted], by decide⟩,
    .blockComment ⟨lookalike, by decide⟩,
    .statement ⟨.wildcard ⟨"B".toList, by decide, by decide, by decide⟩,
      ⟨'"', "../B.sol".toList, by decide, by decide, by decide⟩, {}⟩]

/-- Only the imports are found. -/
theorem extract_complete_lookalikes :
    hasGrammar "C.sol" = true ∧
      (extract (String.ofList (fileText lookalikes)) "C.sol").map (·.path) =
        ["./a//\"A\".sol", "../B.sol"] := by
  have hgrammar : hasGrammar "C.sol" = true := by decide
  obtain ⟨hpaths, -⟩ := extract_complete lookalikes hgrammar
  exact ⟨hgrammar, hpaths.trans (by decide)⟩

end SourceBundle.Import
