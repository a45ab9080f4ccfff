/-
# Where imports stand

What a form matches in a masked file begins with the word `import`, comes to blanks behind a word, and then
to a quote, a run of characters that are no quotes, and the same quote again.  The scanner tells what these
are in the file itself: the letters of the word are code, the first quote opens a literal, and the path is
its content as long as no line feed breaks it.
-/
import SourceBundle.Proofs.Import.Complete
import SourceBundle.Proofs.Import.Scanner

namespace SourceBundle.Import

open SourceBundle.Text

/-! ## What a form matches -/

section Matched

variable {t : Token} {ts us : List Token} {f : Form} {cs : List Char} {pos : Nat} {found s : Option Span}
  {p : Place}

/-- What a token takes up where it stands, and the span that it finds. -/
def Token.Covers (pos : Nat) (text : List Char) (found : Option Span) : Token → Prop
  | .path => ∃ q inside, isQuote q = true ∧ inside ≠ [] ∧ (∀ c ∈ inside, isQuote c = false) ∧
      text = q :: (inside ++ [q]) ∧ found = some ⟨pos + 1, pos + 1 + inside.length⟩
  | .space => (∀ c ∈ text, isBlank c = true) ∧ found = none
  | .letters w => text = w ∧ found = none
  | _ => found = none

lemma Place.forward_length {text rest : List Char} (h : cs = text ++ rest) :
    (⟨pos, cs⟩ : Place).forward text.length = ⟨pos + text.length, rest⟩ := by
  rw [h, forward_append]

lemma Place.behind_mk (cls : Char → Bool) : (⟨pos, cs⟩ : Place).behind cls =
    ⟨pos + (cs.takeWhile cls).length, cs.dropWhile cls⟩ :=
  Place.forward_length List.takeWhile_append_dropWhile.symm

lemma Place.behindSome?_eq_some_iff {cls : Char → Bool} : (⟨pos, cs⟩ : Place).behindSome? cls = some p ↔
    cs.takeWhile cls ≠ [] ∧ p = ⟨pos + (cs.takeWhile cls).length, cs.dropWhile cls⟩ := by
  rw [behindSome?, behind_mk]
  cases h : cs.takeWhile cls with
  | nil => simp
  | cons c run => simp [eq_comm]

/-- A quoted path is a run of characters that are no quotes between the same quotes. -/
lemma Place.exists_of_quoted? {span : Span} (h : (⟨pos, cs⟩ : Place).quoted? = some (span, p)) :
    ∃ q inside rest, isQuote q = true ∧ inside ≠ [] ∧ (∀ c ∈ inside, isQuote c = false) ∧
      cs = q :: (inside ++ q :: rest) ∧ span = ⟨pos + 1, pos + 1 + inside.length⟩ ∧
      p = ⟨pos + 1 + inside.length + 1, rest⟩ := by
  cases cs with
  | nil => cases h
  | cons q tail =>
    simp only [quoted?] at h
    split at h
    · next hq =>
      obtain ⟨behind, hbehind, h⟩ := Option.bind_eq_some_iff.mp h
      obtain ⟨hne, rfl⟩ := behindSome?_eq_some_iff.mp hbehind
      split at h
      · next hhead =>
        obtain ⟨rest, hrest⟩ := List.head?_eq_some_iff.mp hhead
        replace hrest : tail.dropWhile (fun c => !isQuote c) = q :: rest := hrest
        refine ⟨q, tail.takeWhile fun c => !isQuote c, rest, hq, hne, fun c hc => ?_, ?_, ?_⟩
        · simpa using List.mem_takeWhile_imp hc
        · rw [← hrest, List.takeWhile_append_dropWhile]
        · obtain ⟨hspan, hp⟩ := Prod.mk.inj (Option.some.inj h)
          refine ⟨hspan.symm, hp.symm.trans ?_⟩
          simp [forward, hrest]
      · cases h
    · cases h

/-- A token takes up a part of the text, and what is left follows. -/
lemma Token.exists_covers (h : t.match? ⟨pos, cs⟩ = some (s, p)) :
    ∃ text rest, cs = text ++ rest ∧ p = ⟨pos + text.length, rest⟩ ∧ t.Covers pos text s := by
  cases t with
  | gap =>
    cases h
    exact ⟨_, _, List.takeWhile_append_dropWhile.symm, Place.behind_mk _, rfl⟩
  | space =>
    obtain ⟨p', hp, heq⟩ := Option.map_eq_some_iff.mp h
    cases heq
    refine ⟨_, _, List.takeWhile_append_dropWhile.symm, (Place.behindSome?_eq_some_iff.mp hp).2,
      fun c hc => List.mem_takeWhile_imp hc, rfl⟩
  | name =>
    obtain ⟨p', hp, heq⟩ := Option.map_eq_some_iff.mp h
    cases heq
    exact ⟨_, _, List.takeWhile_append_dropWhile.symm, (Place.behindSome?_eq_some_iff.mp hp).2, rfl⟩
  | letters w =>
    rw [match?] at h
    split at h
    · next hbegins =>
      cases h
      obtain ⟨rest, hrest⟩ := Option.isSome_iff_exists.mp hbegins
      have hcs := dropPrefix?_eq_some hrest
      exact ⟨w, rest, hcs, Place.forward_length hcs, rfl, rfl⟩
    · cases h
  | braces =>
    rw [match?] at h
    split at h
    · simp only [Place.behind_mk] at h
      cases hstop : cs.dropWhile (· != '}') with
      | nil => simp [hstop] at h
      | cons d rest =>
        simp only [hstop, List.isEmpty_cons, Bool.false_eq_true, if_false] at h
        cases h
        refine ⟨cs.takeWhile (· != '}') ++ [d], rest, ?_, ?_, rfl⟩
        · rw [List.append_assoc, List.singleton_append, ← hstop, List.takeWhile_append_dropWhile]
        · simp [Place.forward, Nat.add_assoc]
    · cases h
  | path =>
    obtain ⟨⟨span, p'⟩, hp, heq⟩ := Option.map_eq_some_iff.mp h
    cases heq
    obtain ⟨q, inside, rest, hq, hne, hinside, rfl, rfl, rfl⟩ := Place.exists_of_quoted? hp
    refine ⟨q :: (inside ++ [q]), rest, by simp, ?_, q, inside, hq, hne, hinside, rfl, rfl⟩
    simp [Nat.add_assoc, Nat.add_comm 1]

/-- Only a path finds a span. -/
lemma Token.Covers.eq_none {text : List Char} (h : t.Covers pos text s) (ht : t ≠ .path) : s = none := by
  cases t with
  | path => exact absurd rfl ht
  | space => exact h.2
  | letters w => exact h.2
  | _ => exact h

lemma exists_of_matchTokens?_append {x : Option Span × Place}
    (h : matchTokens? found (ts ++ us) p = some x) :
    ∃ s p', matchTokens? found ts p = some (s, p') ∧ matchTokens? s us p' = some x := by
  induction ts generalizing found p with
  | nil => exact ⟨found, p, rfl, h⟩
  | cons t ts ih =>
    obtain ⟨⟨s, p'⟩, ht, h⟩ := Option.bind_eq_some_iff.mp h
    obtain ⟨s', p'', hts, hus⟩ := ih h
    exact ⟨s', p'', Option.bind_eq_some_iff.mpr ⟨_, ht, hts⟩, hus⟩

/-- Tokens that are no paths take up a part of the text, and find nothing. -/
lemma exists_text_of_matchTokens? (hts : .path ∉ ts)
    (h : matchTokens? found ts ⟨pos, cs⟩ = some (s, p)) :
    s = found ∧ ∃ text rest, cs = text ++ rest ∧ p = ⟨pos + text.length, rest⟩ := by
  induction ts generalizing found pos cs with
  | nil =>
    cases h
    exact ⟨rfl, [], cs, rfl, rfl⟩
  | cons t ts ih =>
    obtain ⟨⟨s', p'⟩, ht, h⟩ := Option.bind_eq_some_iff.mp h
    obtain ⟨htoken, hts⟩ := not_or.mp (mt List.mem_cons.mpr hts)
    obtain ⟨text, rest, rfl, rfl, hcovers⟩ := Token.exists_covers ht
    obtain rfl := hcovers.eq_none (Ne.symm htoken)
    obtain ⟨rfl, text', rest', rfl, rfl⟩ := ih hts h
    refine ⟨rfl, text ++ text', rest', by simp, ?_⟩
    rw [List.length_append, Nat.add_assoc]

/-- What a form finds in a text at an offset: behind a word blanks, and a quoted path. -/
inductive Finds (pos : Nat) : List Char → Span → Prop
  | intro {front blanks inside rest : List Char} {c q : Char} : keyword <+: front ++ [c] →
    isWord c = true → (∀ b ∈ blanks, isBlank b = true) → isQuote q = true → inside ≠ [] →
    (∀ d ∈ inside, isQuote d = false) →
    Finds pos (front ++ c :: (blanks ++ q :: (inside ++ q :: rest)))
      ⟨pos + front.length + 1 + blanks.length + 1,
        pos + front.length + 1 + blanks.length + 1 + inside.length⟩

/-- Before its path a form has blanks, and before these the word `import` or another word. -/
lemma Form.front_eq (f : Form) : f.front = [.space] ∨
    ∃ init w c, f.front = init ++ [.letters (w ++ [c]), .space] ∧ .path ∉ init ∧ isWord c = true := by
  have hm : isWord 'm' = true := by decide
  cases f with
  | bare => exact Or.inl rfl
  | aliased => exact Or.inl rfl
  | symbols => exact Or.inr ⟨[.gap, .braces, .gap], ['f', 'r', 'o'], 'm', rfl, by simp, hm⟩
  | wildcard =>
    exact Or.inr ⟨[.space, .letters ['*'], .space, .letters "as".toList, .space, .name, .space],
      ['f', 'r', 'o'], 'm', rfl, by simp, hm⟩
  | named => exact Or.inr ⟨[.space, .name, .space], ['f', 'r', 'o'], 'm', rfl, by simp, hm⟩
  | namedSymbols =>
    exact Or.inr ⟨[.space, .name, .gap, .letters [','], .gap, .braces, .gap], ['f', 'r', 'o'], 'm', rfl,
      by simp, hm⟩

lemma Form.path_not_mem_back (f : Form) : .path ∉ f.back := by
  cases f <;> simp [back]

/-- Up to its path a form takes up the word `import`, and at the end blanks behind a word. -/
lemma Form.exists_of_front (h : matchTokens? none (.letters keyword :: f.front) ⟨pos, cs⟩ = some (s, p)) :
    s = none ∧ ∃ front c blanks rest, cs = front ++ c :: (blanks ++ rest) ∧ keyword <+: front ++ [c] ∧
      isWord c = true ∧ (∀ b ∈ blanks, isBlank b = true) ∧
      p = ⟨pos + front.length + 1 + blanks.length, rest⟩ := by
  obtain ⟨⟨s₁, p₁⟩, hkeyword, h⟩ := Option.bind_eq_some_iff.mp h
  obtain ⟨text, rest, rfl, rfl, rfl, rfl⟩ := Token.exists_covers hkeyword
  rcases f.front_eq with hf | ⟨init, w, c, hf, hinit, hc⟩
  · rw [hf] at h
    obtain ⟨⟨s₂, p₂⟩, hspace, h⟩ := Option.bind_eq_some_iff.mp h
    obtain ⟨blanks, rest, rfl, rfl, hblanks, rfl⟩ := Token.exists_covers hspace
    cases h
    exact ⟨rfl, ['i', 'm', 'p', 'o', 'r'], 't', blanks, rest, rfl, List.prefix_rfl, by decide, hblanks, rfl⟩
  · rw [hf] at h
    obtain ⟨s₂, p₂, hmatch, h⟩ := exists_of_matchTokens?_append h
    obtain ⟨rfl, text, rest, rfl, rfl⟩ := exists_text_of_matchTokens? hinit hmatch
    obtain ⟨⟨s₃, p₃⟩, hletters, h⟩ := Option.bind_eq_some_iff.mp h
    obtain ⟨text', rest, rfl, rfl, rfl, rfl⟩ := Token.exists_covers hletters
    obtain ⟨⟨s₄, p₄⟩, hspace, h⟩ := Option.bind_eq_some_iff.mp h
    obtain ⟨blanks, rest, rfl, rfl, hblanks, rfl⟩ := Token.exists_covers hspace
    cases h
    refine ⟨rfl, keyword ++ (text ++ w), c, blanks, rest, by simp, ?_, hc, hblanks, ?_⟩
    · simp [List.append_assoc]
    · simp only [List.length_append, List.length_singleton]
      congr 1
      omega

theorem Form.finds_of_match? {span : Span} (h : f.match? ⟨pos, cs⟩ = some (span, p)) :
    Finds pos cs span := by
  obtain ⟨⟨s, p'⟩, hmatch, h⟩ := Option.bind_eq_some_iff.mp h
  obtain ⟨path, hpath, h⟩ := Option.bind_eq_some_iff.mp h
  cases h
  rw [f.tokens_eq] at hmatch
  obtain ⟨s₁, p₁, hfront, hmatch⟩ :=
    exists_of_matchTokens?_append (show matchTokens? none
      ((.letters keyword :: f.front) ++ .path :: f.back) ⟨pos, cs⟩ = some (s, p) from hmatch)
  obtain ⟨rfl, front, c, blanks, rest, rfl, hkeyword, hc, hblanks, rfl⟩ := exists_of_front hfront
  obtain ⟨⟨s₂, p₂⟩, htoken, hback⟩ := Option.bind_eq_some_iff.mp hmatch
  obtain ⟨text, rest, rfl, rfl, q, inside, hq, hne, hinside, rfl, rfl⟩ := Token.exists_covers htoken
  obtain ⟨rfl, -⟩ := exists_text_of_matchTokens? f.path_not_mem_back hback
  cases hpath
  simp only [List.cons_append, List.append_assoc, List.nil_append]
  exact .intro hkeyword hc hblanks hq hne hinside

/-- A path that a form finds belongs to a match, and this is not preceded by a word character. -/
lemma Form.exists_of_mem_paths {skip : Nat} {inWord : Bool} {span : Span}
    (h : span ∈ f.paths skip inWord pos cs) : ∃ pre suf stop, cs = pre ++ suf ∧
      f.match? ⟨pos + pre.length, suf⟩ = some (span, stop) ∧ (pre = [] → inWord = false) ∧
      ∀ i c, i + 1 = pre.length → pre[i]? = some c → isWord c = false := by
  induction cs generalizing skip inWord pos with
  | nil => simp [paths] at h
  | cons c rest ih =>
    -- what is found further on
    have hlater : ∀ skip, span ∈ f.paths skip (isWord c) (pos + 1) rest →
        ∃ pre suf stop, c :: rest = pre ++ suf ∧
          f.match? ⟨pos + pre.length, suf⟩ = some (span, stop) ∧ (pre = [] → inWord = false) ∧
          ∀ i c, i + 1 = pre.length → pre[i]? = some c → isWord c = false := by
      intro skip hmem
      obtain ⟨pre, suf, stop, rfl, hmatch, hfirst, hlast⟩ := ih hmem
      refine ⟨c :: pre, suf, stop, rfl, ?_, fun h => absurd h (List.cons_ne_nil c pre), fun i d hi hd => ?_⟩
      · rw [List.length_cons, Nat.add_comm pre.length, ← Nat.add_assoc]
        exact hmatch
      · cases i with
        | zero =>
          have hnil : pre = [] := by simpa using hi
          obtain rfl : c = d := by simpa using hd
          exact hfirst hnil
        | succ i => exact hlast i d (by simpa using hi) (by simpa using hd)
    cases skip with
    | succ skip => exact hlater skip h
    | zero =>
      rw [paths] at h
      split at h
      · next path stop hmatch =>
        rcases List.mem_cons.mp h with rfl | h
        · cases inWord with
          | true => cases hmatch
          | false => exact ⟨[], c :: rest, stop, rfl, hmatch, fun _ => rfl, by simp⟩
        · exact hlater _ h
      · exact hlater _ h

end Matched

/-! ## The order of what is found -/

section Order

variable {paths acc : List Span} {s : Span}

lemma mem_foldl_addPath (h : s ∈ paths.foldl addPath acc) : s ∈ acc ∨ s ∈ paths := by
  induction paths generalizing acc with
  | nil => exact Or.inl h
  | cons t paths ih =>
    rcases ih h with h | h
    · unfold addPath at h
      split at h
      · exact Or.inl h
      · rcases List.mem_append.mp h with h | h
        · exact Or.inl h
        · exact Or.inr (List.mem_singleton.mp h ▸ List.mem_cons_self)
    · exact Or.inr (List.mem_cons_of_mem t h)

/-- Of paths that begin at one offset the first is kept. -/
lemma pairwise_foldl_addPath (h : acc.Pairwise fun a b => a.start ≠ b.start) :
    (paths.foldl addPath acc).Pairwise fun a b => a.start ≠ b.start := by
  induction paths generalizing acc with
  | nil => exact h
  | cons t paths ih =>
    refine ih ?_
    unfold addPath
    split
    · exact h
    · next hnew =>
      refine List.pairwise_append.mpr ⟨h, List.pairwise_singleton _ _, fun a ha b hb heq => hnew ?_⟩
      rw [List.mem_singleton.mp hb] at heq
      exact List.any_eq_true.mpr ⟨a, ha, beq_iff_eq.mpr heq⟩

/-- The paths of a masked text come in the order of their offsets. -/
theorem pairwise_pathsOf (masked : List Char) :
    (pathsOf masked).Pairwise fun a b => a.start < b.start := by
  let paths := (Form.all.flatMap fun f => f.paths 0 false 0 masked).foldl addPath []
  have hdistinct : paths.Pairwise fun a b => a.start ≠ b.start := pairwise_foldl_addPath .nil
  have htotal : Std.Total fun a b : Span => decide (a.start ≤ b.start) = true :=
    ⟨fun a b => by simpa using le_total a.start b.start⟩
  have htrans : IsTrans Span fun a b => decide (a.start ≤ b.start) = true :=
    ⟨fun a b c hab hbc => by simpa using le_trans (of_decide_eq_true hab) (of_decide_eq_true hbc)⟩
  have hsort := List.pairwise_insertionSort (fun a b : Span => decide (a.start ≤ b.start) = true) paths
  rw [← sortBy_eq_insertionSort] at hsort
  have hperm := perm_sortBy (fun a b : Span => decide (a.start ≤ b.start)) paths
  have hsorted := (hperm.pairwise_iff fun h => Ne.symm h).mpr hdistinct
  refine (hsort.and hsorted).imp fun ⟨hle, hne⟩ => ?_
  exact lt_of_le_of_ne (of_decide_eq_true hle) hne

lemma exists_of_mem_pathsOf {masked : List Char} (h : s ∈ pathsOf masked) :
    ∃ f : Form, s ∈ f.paths 0 false 0 masked := by
  have hmem := mem_foldl_addPath ((perm_sortBy _ _).mem_iff.mp h)
  obtain ⟨f, -, hf⟩ := List.mem_flatMap.mp (hmem.resolve_left List.not_mem_nil)
  exact ⟨f, hf⟩

end Order

/-! ## Where a reference stands -/

/-- A span is the inside of one string literal of a file: the scanner enters the literal at the quote before
it, takes all of it for the content, and leaves the literal at the quote behind it. -/
structure OneLiteral (cs : List Char) (s : Span) : Prop where
  opening : 0 < s.start ∧ (roles cs)[s.start - 1]? = some .opening
  content : ∀ i, s.start ≤ i → i < s.stop → (roles cs)[i]? = some .content
  closing : (roles cs)[s.stop]? = some .closing

/-- A span is well placed in a file and in the masked file. -/
structure WellPlaced (cs : List Char) (s : Span) : Prop where
  /-- It is not empty. -/
  nonempty : s.start < s.stop
  /-- It stands between two quotes of one kind, and masking leaves both. -/
  quotes : 0 < s.start ∧ ∃ q, isQuote q = true ∧ cs[s.start - 1]? = some q ∧ cs[s.stop]? = some q ∧
    (maskFrom .code cs)[s.start - 1]? = some q ∧ (maskFrom .code cs)[s.stop]? = some q
  /-- Masking leaves no quote inside. -/
  inside : ∀ i c, s.start ≤ i → i < s.stop → (maskFrom .code cs)[i]? = some c → isQuote c = false
  /-- The word `import` stands before the first quote. -/
  word : ∃ k, WordAt cs k ∧ k + keyword.length < s.start

variable {cs : List Char} {s t : Span}

/-- What masking and the scanner tell about a path that is found. -/
structure Traced (cs : List Char) (s : Span) : Prop where
  placed : WellPlaced cs s
  opening : (roles cs)[s.start - 1]? = some .opening
  literal : if breaksLine (s.cut cs) then ∃ i, s.start ≤ i ∧ i < s.stop ∧ (roles cs)[i]? = some .broken
    else OneLiteral cs s

lemma not_isQuote_of_isBlank {c : Char} (h : isBlank c = true) : isQuote c = false := by
  refine Bool.eq_false_iff.mpr fun hq => ?_
  rcases isQuote_iff.mp hq with rfl | rfl
  · exact absurd h (by decide)
  · exact absurd h (by decide)

lemma drop_succ_append {α : Type} (as bs : List α) (a : α) : (as ++ a :: bs).drop (as.length + 1) = bs := by
  rw [← List.drop_drop, List.drop_left, List.drop_one, List.tail_cons]

/-- Behind a word and blanks the scanner enters a literal at a quote that masking leaves. -/
lemma enters_literal {front blanks tail : List Char} {c q : Char}
    (hmasked : maskFrom .code cs = front ++ c :: (blanks ++ q :: tail)) (hc : isWord c = true)
    (hblanks : ∀ b ∈ blanks, isBlank b = true) (hq : isQuote q = true) :
    (roles cs)[front.length + 1 + blanks.length]? = some .opening ∧
      cs[front.length + 1 + blanks.length]? = some q ∧
      (roles cs).drop (front.length + 1 + blanks.length + 1) =
        rolesFrom (.literal q) (cs.drop (front.length + 1 + blanks.length + 1)) := by
  -- the word is code, so the scanner is in the code behind it, and blanks do not take it elsewhere
  have hword : (maskFrom .code cs)[front.length]? = some c := by simp [hmasked]
  obtain ⟨hcode, hletter⟩ := role_of_isWord hword hc
  have hresume : (roles cs).drop (front.length + 1) = rolesFrom .code (cs.drop (front.length + 1)) :=
    resumes_rolesFrom .code cs _ _ _ hcode rfl hletter
  have hmask : maskFrom .code (cs.drop (front.length + 1)) = blanks ++ q :: tail := by
    rw [← drop_maskFrom (m := .code) hresume, hmasked, drop_succ_append]
  obtain ⟨hopening, hquote⟩ :=
    opening_of_quote hmask (fun b hb => not_isQuote_of_isBlank (hblanks b hb)) hq
  rw [← hresume, List.getElem?_drop] at hopening
  rw [List.getElem?_drop] at hquote
  exact ⟨hopening, hquote, resumes_rolesFrom .code cs _ _ _ hopening rfl hquote⟩

lemma breaks_or_one_literal {q : Char} (hopening : (roles cs)[s.start - 1]? = some .opening)
    (hpos : 0 < s.start) (hresume : (roles cs).drop s.start = rolesFrom (.literal q) (cs.drop s.start))
    {inside rest : List Char} (hmask : maskFrom (.literal q) (cs.drop s.start) = inside ++ q :: rest)
    (hstop : s.stop = s.start + inside.length) (hinside : ∀ c ∈ inside, isQuote c = false)
    (hq : isQuote q = true) :
    if breaksLine (s.cut cs) then ∃ i, s.start ≤ i ∧ i < s.stop ∧ (roles cs)[i]? = some .broken
    else OneLiteral cs s := by
  have hcut : s.cut cs = (cs.drop s.start).take inside.length := by
    rw [Span.cut, hstop, Nat.add_sub_cancel_left]
  have hliteral := literal_of_quote hq hmask hinside hq
  rw [← hcut, ← hresume] at hliteral
  split
  · next hbreaks =>
    rw [if_pos hbreaks] at hliteral
    obtain ⟨i, hi⟩ := List.mem_iff_getElem?.mp hliteral
    have hlt : i < inside.length := by
      by_contra hge
      simp [hge] at hi
    rw [List.getElem?_take_of_lt hlt, List.getElem?_drop] at hi
    exact ⟨s.start + i, by omega, by omega, hi⟩
  · next hbreaks =>
    rw [if_neg hbreaks] at hliteral
    obtain ⟨hcontent, hclosing⟩ := hliteral
    refine ⟨⟨hpos, hopening⟩, fun i hi hlt => ?_, ?_⟩
    · obtain ⟨k, rfl⟩ := Nat.exists_eq_add_of_le hi
      have hk : k < inside.length := by omega
      have hlength : s.start + k < (roles cs).length := by
        obtain ⟨h, -⟩ := List.getElem?_eq_some_iff.mp hclosing
        rw [List.length_drop] at h
        omega
      have hrole := List.getElem?_eq_getElem hlength
      have hmem : (roles cs)[s.start + k] ∈ ((roles cs).drop s.start).take inside.length := by
        refine List.mem_of_getElem? (i := k) ?_
        rw [List.getElem?_take_of_lt hk, List.getElem?_drop, hrole]
      rw [hrole, hcontent _ hmem]
    · rw [hstop, ← List.getElem?_drop]
      exact hclosing

/-- Between two equal quotes that masking leaves, with none inside. -/
lemma wellPlaced_of_masked {before inside rest : List Char} {q : Char} {k : Nat}
    (hmasked : maskFrom .code cs = before ++ q :: (inside ++ q :: rest)) (hq : isQuote q = true)
    (hne : inside ≠ []) (hinside : ∀ c ∈ inside, isQuote c = false) (hword : WordAt cs k)
    (hk : k + keyword.length ≤ before.length) :
    WellPlaced cs ⟨before.length + 1, before.length + 1 + inside.length⟩ := by
  have hfirst : (maskFrom .code cs)[before.length]? = some q := by simp [hmasked]
  have hdrop : (maskFrom .code cs).drop (before.length + 1) = inside ++ q :: rest := by
    rw [hmasked, drop_succ_append]
  have hlast : (maskFrom .code cs)[before.length + 1 + inside.length]? = some q := by
    rw [← List.getElem?_drop, hdrop]
    simp
  refine ⟨?_, ⟨Nat.succ_pos _, q, hq, ?_, ?_, hfirst, hlast⟩, fun i c hi hlt hc => ?_, k, hword, ?_⟩
  · exact Nat.lt_add_of_pos_right (List.length_pos_iff.mpr hne)
  · exact (role_of_isQuote (m := .code) trivial hfirst hq).2
  · exact (role_of_isQuote (m := .code) trivial hlast hq).2
  · obtain ⟨j, rfl⟩ := Nat.exists_eq_add_of_le hi
    rw [← List.getElem?_drop, hdrop, List.getElem?_append_left (by simpa using hlt)] at hc
    exact hinside c (List.mem_of_getElem? hc)
  · exact Nat.lt_succ_of_le hk

theorem traced_of_mem_pathsOf (h : s ∈ pathsOf (maskFrom .code cs)) : Traced cs s := by
  obtain ⟨f, hf⟩ := exists_of_mem_pathsOf h
  obtain ⟨pre, suf, stop, hmasked, hmatch, -, hapart⟩ := f.exists_of_mem_paths hf
  have hfirst : standsFirst keyword suf = true := by
    by_contra hnot
    rw [Form.match?_eq_none_of_standsFirst (Bool.eq_false_iff.mpr hnot)] at hmatch
    cases hmatch
  have hword : WordAt cs pre.length := by
    refine wordAt_of_masked ?_ fun i c hi hc => hapart i c hi ?_
    · rwa [hmasked, List.drop_left]
    · rwa [hmasked, List.getElem?_append_left (by omega)] at hc
  -- the match begins at the word, so the quotes of the path come behind it
  cases f.finds_of_match? hmatch with
  | @intro front blanks inside rest c q hkeyword hc hblanks hq hne hinside =>
    have hbefore : maskFrom .code cs =
        (pre ++ front ++ c :: blanks) ++ q :: (inside ++ q :: rest) := by
      simp [hmasked]
    have hlength : (pre ++ front ++ c :: blanks).length =
        0 + pre.length + front.length + 1 + blanks.length := by
      simp only [List.length_append, List.length_cons]
      omega
    have hk : pre.length + keyword.length ≤ (pre ++ front ++ c :: blanks).length := by
      have hle := hkeyword.length_le
      rw [List.length_append, List.length_singleton] at hle
      omega
    have hfile : maskFrom .code cs = (pre ++ front) ++ c :: (blanks ++ q :: (inside ++ q :: rest)) := by
      simp [hmasked]
    obtain ⟨hopening, -, hresume⟩ := enters_literal hfile hc hblanks hq
    rw [List.length_append, ← Nat.zero_add pre.length, ← hlength] at hopening hresume
    rw [← hlength]
    have hmask : maskFrom (.literal q) (cs.drop ((pre ++ front ++ c :: blanks).length + 1)) =
        inside ++ q :: rest := by
      rw [← drop_maskFrom (m := .code) hresume, hbefore, drop_succ_append]
    exact ⟨wellPlaced_of_masked hbefore hq hne hinside hword hk, hopening,
      breaks_or_one_literal hopening (Nat.succ_pos _) hresume hmask rfl hinside hq⟩

/-! ## The references of a file -/

variable {content file : String} {r : Reference}

lemma mem_extract (h : r ∈ extract content file) :
    r.file = file ∧ r.span ∈ pathsOf (maskFrom .code content.toList) ∧
      r.path = String.ofList (r.span.cut content.toList) := by
  unfold extract at h
  split at h
  · obtain ⟨s, hs, rfl⟩ := List.mem_map.mp h
    exact ⟨rfl, hs, rfl⟩
  · cases h

/-- Where the next path begins, the one before it has ended: the quote before it does not stand inside. -/
lemma WellPlaced.stop_lt (hs : WellPlaced cs s) (ht : WellPlaced cs t) (hlt : s.start < t.start) :
    s.stop < t.start := by
  obtain ⟨hpos, q, hq, -, -, hmasked, -⟩ := ht.quotes
  by_contra hge
  have hinside := hs.inside (t.start - 1) q (by omega) (by omega) hmasked
  exact absurd (hinside.symm.trans hq) nofun

/-- **References are well placed.**  Whatever a file holds, its references come in the order of the text,
and each ends before the next one begins.  The path of a reference is what stands in the file between its
offsets.  It is not empty; before it and behind it stands one and the same quote, also in the masked file,
and none between them there; and before the first quote stands the word `import`, all of it code. -/
theorem references_well_placed (content file : String) :
    ((extract content file).Pairwise fun r r' =>
      r.span.start < r'.span.start ∧ r.span.stop < r'.span.start) ∧
    ∀ r ∈ extract content file, r.file = file ∧ r.path = String.ofList (r.span.cut content.toList) ∧
      WellPlaced content.toList r.span := by
  have hplaced : ∀ r ∈ extract content file, WellPlaced content.toList r.span := fun r hr =>
    (traced_of_mem_pathsOf (mem_extract hr).2.1).placed
  refine ⟨?_, fun r hr => ⟨(mem_extract hr).1, (mem_extract hr).2.2, hplaced r hr⟩⟩
  have hordered : (extract content file).Pairwise fun r r' => r.span.start < r'.span.start := by
    unfold extract
    split
    · exact List.pairwise_map.mpr (pairwise_pathsOf _)
    · exact .nil
  refine hordered.imp_of_mem fun {r r'} hr hr' hlt => ⟨hlt, ?_⟩
  exact (hplaced r hr).stop_lt (hplaced r' hr') hlt

/-- A file in which a literal is not closed, with an import behind it. -/
def unclosed : String := "s = 'import \"no\";\nimport/**/\"a\";"

/-- The import in a file with a literal that is not closed. -/
theorem references_well_placed_unclosed :
    ∃ r ∈ extract unclosed "b.sol", r.path = "a" ∧ WellPlaced unclosed.toList r.span := by
  have hr : (⟨"b.sol", "a", ⟨29, 30⟩⟩ : Reference) ∈ extract unclosed "b.sol" := by decide +kernel
  exact ⟨_, hr, rfl, ((references_well_placed unclosed "b.sol").2 _ hr).2.2⟩

/-- **References and literals.**  The quote before a reference always opens a literal.  The reference is the
inside of this literal, so that no code, no comment and no other literal is taken for a part of the path, if
and only if its path has no line feed that is not escaped. -/
theorem reference_one_literal_iff {content file : String} {r : Reference} (h : r ∈ extract content file) :
    (roles content.toList)[r.span.start - 1]? = some .opening ∧
      (OneLiteral content.toList r.span ↔ breaksLine r.path.toList = false) := by
  obtain ⟨-, hspan, hpath⟩ := mem_extract h
  have htraced := traced_of_mem_pathsOf hspan
  refine ⟨htraced.opening, ?_⟩
  rw [hpath, String.toList_ofList]
  have hliteral := htraced.literal
  cases hbreaks : breaksLine (r.span.cut content.toList) with
  | false =>
    rw [hbreaks] at hliteral
    exact iff_of_true hliteral rfl
  | true =>
    rw [hbreaks] at hliteral
    obtain ⟨i, hi, hlt, hbroken⟩ := hliteral
    refine iff_of_false (fun hone => ?_) nofun
    exact absurd (Option.some.inj ((hone.content i hi hlt).symm.trans hbroken)) nofun

/-- A file with an import whose path has a line feed behind a backslash. -/
def escapedLine : String := "import \"a\\\nb\";"

/-- An escaped line feed does not break a literal. -/
theorem reference_one_literal_iff_escaped :
    ∃ r ∈ extract escapedLine "c.sol", r.path = "a\\\nb" ∧ OneLiteral escapedLine.toList r.span := by
  have hr : (⟨"c.sol", "a\\\nb", ⟨8, 12⟩⟩ : Reference) ∈ extract escapedLine "c.sol" := by decide +kernel
  exact ⟨_, hr, rfl, (reference_one_literal_iff hr).2.mpr (by decide +kernel)⟩

/-- A file with a literal that its line ends, a line of code, and a quote before the semicolon. -/
def brokenLine : String := "import \"a\nb\n\"\n;"

/-- Not every reference is the inside of one literal: here the path is the rest of one that is not closed,
and the line behind it. -/
theorem not_reference_one_literal : ¬ ∀ {content file : String} {r : Reference},
    r ∈ extract content file → OneLiteral content.toList r.span := by
  intro h
  have hr : (⟨"a.sol", "a\nb\n", ⟨8, 12⟩⟩ : Reference) ∈ extract brokenLine "a.sol" := by decide +kernel
  have hcontent := (h hr).content 10 (by decide) (by decide)
  have hcode : (roles brokenLine.toList)[10]? = some .code := by decide +kernel
  exact absurd (hcode.symm.trans hcontent) (by decide)

end SourceBundle.Import
