/-
# Reading a statement

A form reads the statements of its own, up to the semicolon and whatever follows, and no others.
The forms are told apart by the first visible character behind the word `import`; a form and its
sibling, which begin alike, by what comes after the path or the name.
-/
import SourceBundle.Proofs.Import.Keyword
import SourceBundle.Proofs.Text.Cut

namespace SourceBundle.Import

open SourceBundle.Text

/-! ## Tokens -/

section Tokens

variable {cls : Char → Bool} {text rest : List Char} {c q : Char} {pos : Nat}

lemma Place.forward_append (pos : Nat) (text rest : List Char) :
    (⟨pos, text ++ rest⟩ : Place).forward text.length = ⟨pos + text.length, rest⟩ := by
  rw [forward, List.drop_left]

/-- Whether a run of characters of a class ends before a text. -/
def Ends (cls : Char → Bool) (rest : List Char) : Prop := rest.head?.all (!cls ·) = true

@[simp] lemma ends_cons : Ends cls (c :: rest) ↔ cls c = false := by
  simp [Ends]

lemma Name.exists_cons (n : Name) :
    ∃ c cs, n.chars = c :: cs ∧ isBlank c = false ∧ isWord c = true := by
  obtain ⟨c, cs, hcs⟩ := List.exists_cons_of_ne_nil n.nonempty
  have hc : isWord c = true := by
    apply n.isWord_of_mem
    rw [hcs]
    exact List.mem_cons_self
  exact ⟨c, cs, hcs, not_isBlank_of_isWord hc, hc⟩

lemma Name.ends_isBlank (n : Name) : Ends isBlank (n.chars ++ rest) := by
  obtain ⟨c, cs, hcs, hblank, -⟩ := n.exists_cons
  rw [hcs]
  exact ends_cons.mpr hblank

lemma ends_spaceIf {o : Bool} (hspace : cls ' ' = false) (h : Ends cls rest) :
    Ends cls (spaceIf o ++ rest) := by
  cases o with
  | false => exact h
  | true => exact ends_cons.mpr hspace

lemma takeWhile_of_ends (htext : ∀ c ∈ text, cls c = true) (hends : Ends cls rest) :
    (text ++ rest).takeWhile cls = text := by
  rw [List.takeWhile_append_of_pos htext]
  cases rest with
  | nil => simp
  | cons c rest => rw [List.takeWhile_cons_of_neg (by simpa using hends), List.append_nil]

lemma Place.behind_eq (htext : ∀ c ∈ text, cls c = true) (hends : Ends cls rest) :
    (⟨pos, text ++ rest⟩ : Place).behind cls = ⟨pos + text.length, rest⟩ := by
  rw [behind, takeWhile_of_ends htext hends, forward_append]

lemma Place.behindSome?_eq (hne : text ≠ []) (htext : ∀ c ∈ text, cls c = true)
    (hends : Ends cls rest) :
    (⟨pos, text ++ rest⟩ : Place).behindSome? cls = some ⟨pos + text.length, rest⟩ := by
  have hrun : ((text ++ rest).takeWhile cls).isEmpty = false := by
    rw [takeWhile_of_ends htext hends]
    exact List.isEmpty_eq_false_iff.mpr hne
  rw [behindSome?, hrun, behind_eq htext hends]
  rfl

lemma Place.behindSome?_eq_none (hends : Ends cls rest) :
    (⟨pos, rest⟩ : Place).behindSome? cls = none := by
  have hrun : ([] ++ rest).takeWhile cls = [] := takeWhile_of_ends (by simp) hends
  rw [List.nil_append] at hrun
  rw [behindSome?, hrun]
  rfl

namespace Token

/-- Whether a token that is no path takes up a text where another one follows. -/
def Reads (t : Token) (text rest : List Char) : Prop :=
  ∀ pos, t.match? ⟨pos, text ++ rest⟩ = some (none, ⟨pos + text.length, rest⟩)

lemma reads_gap {o : Bool} (hends : Ends isBlank rest) : gap.Reads (spaceIf o) rest := by
  intro pos
  have hall : ∀ c ∈ spaceIf o, isBlank c = true := by
    cases o with
    | false => simp [spaceIf]
    | true => simp [spaceIf, isBlank_space]
  rw [match?, Place.behind_eq hall hends]

lemma reads_space (hends : Ends isBlank rest) : space.Reads [' '] rest := by
  intro pos
  have hall : ∀ c ∈ [' '], isBlank c = true := by simp [isBlank_space]
  rw [match?, Place.behindSome?_eq (List.cons_ne_nil _ _) hall hends]
  rfl

lemma reads_name (n : Name) (hends : Ends isWord rest) : name.Reads n.chars rest := by
  intro pos
  rw [match?, Place.behindSome?_eq n.nonempty n.isWord_of_mem hends]
  rfl

lemma reads_letters (w : List Char) : (letters w).Reads w rest := by
  intro pos
  have hbegins : beginsWith w (w ++ rest) = true := by
    rw [beginsWith, dropPrefix?_append, Option.isSome]
  rw [match?, if_pos hbegins, Place.forward_append]

lemma reads_braces (l : Listing) : braces.Reads ('{' :: (l.chars ++ ['}'])) rest := by
  intro pos
  have hall : ∀ c ∈ '{' :: l.chars, (c != '}') = true := by
    intro c hc
    rw [bne_iff_ne]
    rintro rfl
    rcases List.mem_cons.mp hc with h | h
    · exact absurd h (by decide)
    · rcases isListingChar_iff.mp (List.all_eq_true.mp l.letters _ h) with hname | h | h
      · exact absurd hname (by decide)
      · exact absurd h (by decide)
      · exact absurd h (by decide)
  have hstop : (⟨pos, '{' :: l.chars ++ '}' :: rest⟩ : Place).behind (· != '}') =
      ⟨pos + ('{' :: l.chars).length, '}' :: rest⟩ :=
    Place.behind_eq hall (by simp)
  have htext : '{' :: (l.chars ++ ['}']) ++ rest = '{' :: l.chars ++ '}' :: rest := by simp
  rw [match?, htext, hstop]
  simp [Place.forward]
  omega

/-- A path between quotes is read with its span. -/
lemma match?_path {n : Nat} (hq : isQuote q = true) (hn : n ≠ 0) :
    path.match? ⟨pos, q :: (List.replicate n ' ' ++ q :: rest)⟩ =
      some (some ⟨pos + 1, pos + 1 + n⟩, ⟨pos + 1 + n + 1, rest⟩) := by
  have hall : ∀ c ∈ List.replicate n ' ', (!isQuote c) = true := by
    intro c hc
    rw [List.eq_of_mem_replicate hc]
    decide
  have hne : List.replicate n ' ' ≠ [] := by simpa using hn
  have hbehind : (⟨pos + 1, List.replicate n ' ' ++ q :: rest⟩ : Place).behindSome?
      (fun c => !isQuote c) = some ⟨pos + 1 + n, q :: rest⟩ := by
    rw [Place.behindSome?_eq hne hall (by simp [hq]), List.length_replicate]
  rw [match?, Place.quoted?]
  simp [hq, Place.forward, hbehind]

lemma match?_letters_eq_none {a : Char} (h : a ≠ c) :
    (letters (a :: w)).match? ⟨pos, c :: rest⟩ = none := by
  have hbegins : beginsWith (a :: w) (c :: rest) = false := by
    rw [beginsWith, dropPrefix?, if_neg h]
    rfl
  rw [match?, hbegins]
  rfl

lemma match?_path_eq_none (h : isQuote c = false) : path.match? ⟨pos, c :: rest⟩ = none := by
  simp [match?, Place.quoted?, h]

lemma match?_braces_eq_none (h : c ≠ '{') : braces.match? ⟨pos, c :: rest⟩ = none := by
  simp [match?, h]

lemma match?_name_eq_none (h : isWord c = false) : name.match? ⟨pos, c :: rest⟩ = none := by
  rw [match?, Place.behindSome?_eq_none (ends_cons.mpr h)]
  rfl

end Token

end Tokens

/-! ## Sequences of tokens -/

section Sequences

variable {rest more : List Char} {pos : Nat} {found : Option Span}

/-- Tokens that are no paths take up the parts of a text one by one. -/
inductive Spells (rest : List Char) : List Token → List (List Char) → Prop
  | nil : Spells rest [] []
  | cons {t : Token} {part : List Char} {ts : List Token} {parts : List (List Char)} :
    t.Reads part (parts.flatten ++ rest) → Spells rest ts parts →
      Spells rest (t :: ts) (part :: parts)

lemma matchTokens?_of_spells {ts : List Token} {parts : List (List Char)} (h : Spells rest ts parts)
    (later : List Token) :
    matchTokens? found (ts ++ later) ⟨pos, parts.flatten ++ rest⟩ =
      matchTokens? found later ⟨pos + parts.flatten.length, rest⟩ := by
  induction h generalizing pos with
  | nil => rfl
  | @cons t part ts parts hreads _ ih =>
    rw [List.cons_append, matchTokens?, List.flatten_cons, List.append_assoc, hreads pos,
      List.length_append, ← Nat.add_assoc]
    exact ih

/-- A blank and what must come behind it: where something else comes, nothing is read. -/
lemma matchTokens?_eq_none {t u : Token} {later : List Token} {o : Bool} {c : Char}
    (ht : t = .gap ∨ t = .space) (hc : isBlank c = false)
    (hu : ∀ pos, u.match? ⟨pos, c :: rest⟩ = none) :
    matchTokens? found (t :: u :: later) ⟨pos, spaceIf o ++ c :: rest⟩ = none := by
  have hends : Ends isBlank (c :: rest) := ends_cons.mpr hc
  rcases ht with rfl | rfl
  · rw [matchTokens?, Token.reads_gap hends pos]
    exact congrArg (Option.bind · _) (hu _)
  · cases o with
    | false =>
      rw [matchTokens?, Token.match?, spaceIf, List.nil_append, Place.behindSome?_eq_none hends]
      rfl
    | true =>
      rw [matchTokens?, spaceIf, Token.reads_space hends pos]
      exact congrArg (Option.bind · _) (hu _)

end Sequences

/-! ## Forms -/

namespace Form

/-- The tokens of a form before the path. -/
def front : Form → List Token
  | .bare | .aliased => [.space]
  | .symbols => [.gap, .braces, .gap, .letters "from".toList, .space]
  | .wildcard =>
    [.space, .letters ['*'], .space, .letters "as".toList, .space, .name, .space,
      .letters "from".toList, .space]
  | .named => [.space, .name, .space, .letters "from".toList, .space]
  | .namedSymbols =>
    [.space, .name, .gap, .letters [','], .gap, .braces, .gap, .letters "from".toList, .space]

/-- The tokens of a form behind the path. -/
def back : Form → List Token
  | .aliased => [.space, .letters "as".toList, .space, .name, .gap, .letters [';']]
  | _ => [.gap, .letters [';']]

lemma tokens_eq (f : Form) : f.tokens = f.front ++ .path :: f.back := by
  cases f <;> rfl

/-- Whether a form goes on with a character behind the word `import` and the blanks there. -/
def opens (f : Form) (c : Char) : Bool :=
  match f with
  | .bare | .aliased => isQuote c
  | .symbols => c == '{'
  | .wildcard => c == '*'
  | .named | .namedSymbols => isWord c

lemma tokens_opens (f : Form) :
    ∃ t u later, f.tokens = t :: u :: later ∧ (t = .gap ∨ t = .space) ∧
      ∀ c rest, f.opens c = false → ∀ pos, u.match? ⟨pos, c :: rest⟩ = none := by
  cases f with
  | bare => exact ⟨_, _, _, rfl, .inr rfl, fun c rest h pos => Token.match?_path_eq_none h⟩
  | aliased => exact ⟨_, _, _, rfl, .inr rfl, fun c rest h pos => Token.match?_path_eq_none h⟩
  | symbols =>
    refine ⟨_, _, _, rfl, .inl rfl, fun c rest h pos => ?_⟩
    exact Token.match?_braces_eq_none (beq_eq_false_iff_ne.mp h)
  | wildcard =>
    refine ⟨_, _, _, rfl, .inr rfl, fun c rest h pos => ?_⟩
    exact Token.match?_letters_eq_none (beq_eq_false_iff_ne.mp h).symm
  | named => exact ⟨_, _, _, rfl, .inr rfl, fun c rest h pos => Token.match?_name_eq_none h⟩
  | namedSymbols => exact ⟨_, _, _, rfl, .inr rfl, fun c rest h pos => Token.match?_name_eq_none h⟩

/-- A form matches nothing where its tokens do not. -/
lemma match?_eq_none {f : Form} {p : Place}
    (h : matchTokens? none (.letters keyword :: f.tokens) p = none) : f.match? p = none := by
  rw [match?]
  exact congrArg (Option.bind · _) h

lemma match?_eq_none_of_opens {f : Form} {o : Bool} {c : Char} {rest : List Char} {pos : Nat}
    (hc : isBlank c = false) (h : f.opens c = false) :
    f.match? ⟨pos, keyword ++ (spaceIf o ++ c :: rest)⟩ = none := by
  obtain ⟨t, u, later, htokens, ht, hu⟩ := f.tokens_opens
  refine match?_eq_none ?_
  rw [matchTokens?, Token.reads_letters keyword pos, htokens]
  exact matchTokens?_eq_none ht hc (hu c rest h)

/-- A name, and letters that must come behind it: where others come, nothing is read. -/
lemma match?_behind_name {f : Form} {n : Name} {t : Token} {a c : Char} {w rest : List Char}
    {later : List Token} {o : Bool} {pos : Nat} (ht : t = .gap ∨ t = .space)
    (hf : f.tokens = .space :: .name :: t :: .letters (a :: w) :: later)
    (hends : Ends isWord (spaceIf o ++ c :: rest)) (hc : isBlank c = false) (hac : a ≠ c) :
    f.match? ⟨pos, keyword ++ ([' '] ++ (n.chars ++ (spaceIf o ++ c :: rest)))⟩ = none := by
  have hspells : Spells (spaceIf o ++ c :: rest) [.letters keyword, .space, .name]
      [keyword, [' '], n.chars] :=
    .cons (Token.reads_letters _) <| .cons (Token.reads_space (by simpa using n.ends_isBlank)) <|
      .cons (Token.reads_name n hends) .nil
  have hnone : matchTokens? none (.letters keyword :: f.tokens)
      ⟨pos, [keyword, [' '], n.chars].flatten ++ (spaceIf o ++ c :: rest)⟩ = none := by
    rw [hf]
    refine (matchTokens?_of_spells hspells _).trans ?_
    exact matchTokens?_eq_none ht hc fun pos => Token.match?_letters_eq_none hac
  rw [List.flatten_cons, List.flatten_cons, List.flatten_cons, List.flatten_nil, List.append_nil,
    List.append_assoc, List.append_assoc] at hnone
  exact match?_eq_none hnone

/-- The form that begins with the same tokens. -/
def sibling? : Form → Option Form
  | .bare => some .aliased
  | .aliased => some .bare
  | .named => some .namedSymbols
  | .namedSymbols => some .named
  | _ => none

/-- Forms that go on with the same character are the same or siblings. -/
lemma eq_or_sibling? {f g : Form} {c : Char} (hf : f.opens c = true) (hg : g.opens c = true) :
    f = g ∨ g.sibling? = some f := by
  have hquote : isQuote c = true → isWord c = false := not_isWord_of_isQuote
  have hbrace : isQuote '{' = false ∧ isWord '{' = false := by decide
  have hstar : isQuote '*' = false ∧ isWord '*' = false := by decide
  cases f <;> cases g <;> grind [opens, sibling?]

end Form

namespace Clause

open Token

variable {q : Char} {rest : List Char} (g : Spacing) (clause : Clause)

lemma spells_before (hq : isBlank q = false) :
    Spells (q :: rest) clause.form.front (clause.before g) := by
  have hquote : Ends isBlank (q :: rest) := ends_cons.mpr hq
  cases clause with
  | bare => exact .cons (reads_space hquote) .nil
  | aliased name => exact .cons (reads_space hquote) .nil
  | symbols listing =>
    exact .cons (reads_gap rfl) <| .cons (reads_braces listing) <| .cons (reads_gap rfl) <|
      .cons (reads_letters _) <| .cons (reads_space hquote) .nil
  | wildcard name =>
    exact .cons (reads_space rfl) <| .cons (reads_letters _) <| .cons (reads_space rfl) <|
      .cons (reads_letters _) <| .cons (reads_space (by simpa using name.ends_isBlank)) <|
      .cons (reads_name name rfl) <| .cons (reads_space rfl) <| .cons (reads_letters _) <|
      .cons (reads_space hquote) .nil
  | named name =>
    exact .cons (reads_space (by simpa using name.ends_isBlank)) <| .cons (reads_name name rfl) <|
      .cons (reads_space rfl) <| .cons (reads_letters _) <| .cons (reads_space hquote) .nil
  | namedSymbols name listing =>
    have hcomma : ∀ tail, Ends isWord (spaceIf g.beforeComma ++ ',' :: tail) := fun tail =>
      ends_spaceIf (by decide) (ends_cons.mpr (by decide))
    exact .cons (reads_space (by simpa using name.ends_isBlank)) <|
      .cons (reads_name name (by simpa using hcomma _)) <| .cons (reads_gap rfl) <|
      .cons (reads_letters _) <| .cons (reads_gap rfl) <| .cons (reads_braces listing) <|
      .cons (reads_gap rfl) <| .cons (reads_letters _) <| .cons (reads_space hquote) .nil

lemma spells_behind : Spells rest clause.form.back (clause.behind g) := by
  have hend : Spells rest [.gap, .letters [';']] [spaceIf g.beforeSemicolon, [';']] :=
    .cons (reads_gap rfl) <| .cons (reads_letters _) .nil
  cases clause with
  | aliased name =>
    have hsemicolon : Ends isWord (spaceIf g.beforeSemicolon ++ ';' :: rest) :=
      ends_spaceIf (by decide) (ends_cons.mpr (by decide))
    exact .cons (reads_space rfl) <| .cons (reads_letters _) <|
      .cons (reads_space (by simpa using name.ends_isBlank)) <|
      .cons (reads_name name (by simpa using hsemicolon)) hend
  | bare => exact hend
  | symbols listing => exact hend
  | wildcard name => exact hend
  | named name => exact hend
  | namedSymbols name listing => exact hend

end Clause

namespace Statement

variable (s : Statement) (rest : List Char) (pos : Nat)

lemma masked_append :
    s.masked ++ rest = (keyword :: s.clause.before s.spacing).flatten ++
      s.literal.quote :: (List.replicate s.literal.chars.length ' ' ++
        s.literal.quote :: ((s.clause.behind s.spacing).flatten ++ rest)) := by
  simp [masked, front, back]

lemma not_isBlank_quote : isBlank s.literal.quote = false := by
  rcases isQuote_iff.mp s.literal.quoted with hq | hq
  · rw [hq]
    decide
  · rw [hq]
    decide

/-- Where the text behind the path begins. -/
def afterPath : Nat := (s.span pos).stop + 1

/-- A form that begins like the form of a statement comes to the end of its path. -/
lemma match?_of_front_eq {f : Form} (hf : f.front = s.clause.form.front) :
    f.match? ⟨pos, s.masked ++ rest⟩ = (do
      let (path, p) ← matchTokens? (some (s.span pos)) f.back
        ⟨s.afterPath pos, (s.clause.behind s.spacing).flatten ++ rest⟩
      let path ← path
      pure (path, p)) := by
  have hspells : ∀ tail, Spells (s.literal.quote :: tail)
      (.letters keyword :: s.clause.form.front) (keyword :: s.clause.before s.spacing) :=
    fun tail => .cons (Token.reads_letters _) (s.clause.spells_before _ s.not_isBlank_quote)
  have hn : s.literal.chars.length ≠ 0 := by simpa using s.literal.nonempty
  have hpos : pos + (keyword :: s.clause.before s.spacing).flatten.length + 1 =
      pos + s.front.length := by
    simp [front, Nat.add_assoc]
  have hmatch : matchTokens? none (.letters keyword :: (s.clause.form.front ++ .path :: f.back))
      ⟨pos, s.masked ++ rest⟩ =
      matchTokens? (some (s.span pos)) f.back
        ⟨s.afterPath pos, (s.clause.behind s.spacing).flatten ++ rest⟩ := by
    rw [masked_append, ← List.cons_append, matchTokens?_of_spells (hspells _), matchTokens?,
      Token.match?_path s.literal.quoted hn, hpos]
    rfl
  rw [Form.match?, f.tokens_eq, hf]
  exact congrArg (Option.bind · _) hmatch

/-- The form of a statement reads all of it and finds its path. -/
lemma match?_form :
    s.clause.form.match? ⟨pos, s.masked ++ rest⟩ =
      some (s.span pos, ⟨pos + s.masked.length, rest⟩) := by
  have hspells : Spells rest s.clause.form.back (s.clause.behind s.spacing) :=
    s.clause.spells_behind s.spacing
  have hback : matchTokens? (some (s.span pos)) (s.clause.form.back ++ [])
      ⟨s.afterPath pos, (s.clause.behind s.spacing).flatten ++ rest⟩ =
      some (some (s.span pos), ⟨pos + s.masked.length, rest⟩) := by
    have hlength : s.afterPath pos + (s.clause.behind s.spacing).flatten.length =
        pos + s.masked.length := by
      simp only [afterPath, span, masked, back, List.length_append, List.length_cons,
        List.length_replicate]
      omega
    rw [matchTokens?_of_spells hspells, hlength, matchTokens?]
  rw [List.append_nil] at hback
  rw [s.match?_of_front_eq rest pos rfl, hback]
  rfl

/-- A statement begins with the word `import`, and its form goes on with what comes next. -/
lemma opens :
    ∃ o c tail, s.masked ++ rest = keyword ++ (spaceIf o ++ c :: tail) ∧ isBlank c = false ∧
      s.clause.form.opens c = true := by
  rw [masked_append, List.flatten_cons, List.append_assoc]
  have hq := s.literal.quoted
  have hblank := s.not_isBlank_quote
  cases hclause : s.clause with
  | bare => exact ⟨true, s.literal.quote, _, rfl, hblank, hq⟩
  | aliased name => exact ⟨true, s.literal.quote, _, rfl, hblank, hq⟩
  | symbols listing =>
    rw [Clause.before, List.flatten_cons, List.append_assoc]
    exact ⟨s.spacing.beforeBraces, '{', _, rfl, by decide, rfl⟩
  | wildcard name => exact ⟨true, '*', _, rfl, by decide, rfl⟩
  | named name =>
    obtain ⟨c, cs, hcs, hc⟩ := name.exists_cons
    rw [Clause.before, hcs]
    exact ⟨true, c, _, rfl, hc⟩
  | namedSymbols name listing =>
    obtain ⟨c, cs, hcs, hc⟩ := name.exists_cons
    rw [Clause.before, hcs]
    exact ⟨true, c, _, rfl, hc⟩

/-- What comes behind the path, or behind the name, tells siblings apart. -/
lemma match?_sibling {f : Form} (hf : s.clause.form.sibling? = some f) :
    f.match? ⟨pos, s.masked ++ rest⟩ = none := by
  cases hclause : s.clause with
  | bare =>
    rw [hclause] at hf
    obtain rfl := Option.some.inj hf
    -- the sibling wants the word `as` behind the path, where the semicolon stands
    rw [s.match?_of_front_eq rest pos (by rw [hclause]; rfl), hclause]
    have hback : matchTokens? (some (s.span pos)) Form.aliased.back
        ⟨s.afterPath pos, spaceIf s.spacing.beforeSemicolon ++ ';' :: rest⟩ = none :=
      matchTokens?_eq_none (.inr rfl) (by decide) fun pos => Token.match?_letters_eq_none (by decide)
    simp only [Clause.behind, List.flatten_cons, List.append_assoc]
    exact congrArg (Option.bind · _) hback
  | aliased name =>
    rw [hclause] at hf
    obtain rfl := Option.some.inj hf
    -- the sibling wants the semicolon there, where the word `as` stands
    rw [s.match?_of_front_eq rest pos (by rw [hclause]; rfl), hclause]
    have hback : ∀ tail, matchTokens? (some (s.span pos)) Form.bare.back
        ⟨s.afterPath pos, spaceIf true ++ 'a' :: tail⟩ = none := fun tail =>
      matchTokens?_eq_none (.inl rfl) (by decide) fun pos => Token.match?_letters_eq_none (by decide)
    exact congrArg (Option.bind · _) (hback _)
  | symbols listing =>
    rw [hclause] at hf
    exact absurd hf (by simp [Clause.form, Form.sibling?])
  | wildcard name =>
    rw [hclause] at hf
    exact absurd hf (by simp [Clause.form, Form.sibling?])
  | named name =>
    rw [hclause] at hf
    obtain rfl := Option.some.inj hf
    -- the sibling wants a comma behind the name, where the word `from` stands
    have hnone : ∀ tail, Form.namedSymbols.match?
        ⟨pos, keyword ++ ([' '] ++ (name.chars ++ (spaceIf true ++ 'f' :: tail)))⟩ = none := fun tail =>
      Form.match?_behind_name (.inl rfl) rfl (ends_cons.mpr (by decide)) (by decide) (by decide)
    rw [masked_append, hclause]
    simp only [Clause.before, List.flatten_cons, List.append_assoc]
    exact hnone _
  | namedSymbols name listing =>
    rw [hclause] at hf
    obtain rfl := Option.some.inj hf
    -- the sibling wants the word `from` there, where the comma stands
    have hnone : ∀ tail, Form.named.match? ⟨pos, keyword ++ ([' '] ++ (name.chars ++
        (spaceIf s.spacing.beforeComma ++ ',' :: tail)))⟩ = none := fun tail =>
      Form.match?_behind_name (.inr rfl) rfl (ends_spaceIf (by decide) (ends_cons.mpr (by decide)))
        (by decide) (by decide)
    rw [masked_append, hclause]
    simp only [Clause.before, List.flatten_cons, List.append_assoc]
    exact hnone _

/-- No other form reads a statement. -/
lemma match?_of_ne {f : Form} (hf : f ≠ s.clause.form) :
    f.match? ⟨pos, s.masked ++ rest⟩ = none := by
  obtain ⟨o, c, tail, htext, hc, hopens⟩ := s.opens rest
  cases hfc : f.opens c with
  | false =>
    rw [htext]
    exact Form.match?_eq_none_of_opens hc hfc
  | true =>
    rcases Form.eq_or_sibling? hfc hopens with rfl | hsibling
    · exact absurd rfl hf
    · exact s.match?_sibling rest pos hsibling

end Statement

end SourceBundle.Import
