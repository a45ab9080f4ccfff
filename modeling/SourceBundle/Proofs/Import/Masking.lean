/-
# What masking leaves of a file

Masking keeps the offsets of a file: each of its characters stays as it is or becomes a space, and line feeds
neither come nor go.  No comment is left, and of a string literal only its quotes are, or the line feed that
ends it.

A line feed in the code, in a line comment or in a literal brings the scanner back to the code.  Only a block
comment goes on in the next line, and a literal in which the line feed is escaped.  So, unless a text ends in
one of these two ways, it is masked apart from the lines behind it.
-/
import SourceBundle.Proofs.Import.Scanner

namespace SourceBundle.Import

open SourceBundle.Text

variable {m : Mode} {cs : List Char} {c q : Char} {i : Nat} {r : Role}

/-! ## Offsets -/

/-- What masking may make of a character: the character itself or a space, and a line feed of nothing but a
line feed. -/
def Veils (c d : Char) : Prop := (d = c ∨ d = ' ') ∧ (d = '\n' ↔ c = '\n')

lemma veils_blank (c : Char) : Veils c (blank c) := by
  unfold blank
  split
  · next h => exact ⟨Or.inl h.symm, iff_of_true rfl h⟩
  · next h => exact ⟨Or.inr rfl, iff_of_false (by decide) h⟩

lemma Role.veils_shows (r : Role) (c : Char) : Veils c (r.shows c) := by
  cases r with
  | content => exact veils_blank c
  | comment => exact veils_blank c
  | _ => exact ⟨Or.inl rfl, Iff.rfl⟩

theorem forall₂_veils (m : Mode) (cs : List Char) : List.Forall₂ Veils cs (maskFrom m cs) := by
  refine List.forall₂_iff_get.mpr ⟨(length_maskFrom m cs).symm, fun i hi hi' => ?_⟩
  obtain ⟨r, -, hshown⟩ := exists_masked m (List.getElem?_eq_getElem hi)
  rw [List.getElem?_eq_getElem hi', Option.some_inj] at hshown
  rw [List.get_eq_getElem, List.get_eq_getElem, hshown]
  exact r.veils_shows _

/-! ## Comments -/

/-- Whether a character begins a comment behind a slash. -/
def opensComment (c : Char) : Bool := c == '/' || c == '*'

/-- Behind a slash in the code stands nothing that begins a comment with it. -/
def Uncommented (rs : List Role) (cs : List Char) : Prop :=
  ∀ (i : Nat) (c : Char), rs[i]? = some .code → cs[i]? = some '/' → cs[i + 1]? = some c →
    opensComment c = false

lemma Uncommented.cons {rs : List Role} (h : Uncommented rs cs)
    (hr : r = .code → c = '/' → ∀ d, cs[0]? = some d → opensComment d = false) :
    Uncommented (r :: rs) (c :: cs) := by
  intro i d hcode hslash hd
  cases i with
  | zero => exact hr (Option.some.inj hcode) (Option.some.inj hslash) d hd
  | succ i => exact h i d hcode hslash hd

/-- A character that is no code tells nothing. -/
lemma Uncommented.cons_other {rs : List Role} (h : Uncommented rs cs) (hr : r ≠ .code) :
    Uncommented (r :: rs) (c :: cs) :=
  h.cons fun hcode => absurd hcode hr

theorem uncommented_rolesFrom (m : Mode) (cs : List Char) : Uncommented (rolesFrom m cs) cs := by
  fun_induction rolesFrom m cs with
  | case1 => exact fun i c hcode => absurd hcode (by simp)
  | case2 rest ih => exact (ih.cons_other (by decide)).cons_other (by decide)
  | case3 rest ih => exact (ih.cons_other (by decide)).cons_other (by decide)
  | case4 c rest _ _ _ ih => exact ih.cons_other (by decide)
  | case5 c rest hline hblock _ ih =>
    refine ih.cons fun _ hslash d hd => ?_
    -- otherwise the scanner would have taken both characters for the beginning of a comment
    cases rest with
    | nil => cases hd
    | cons e rest =>
      obtain rfl : e = d := Option.some.inj hd
      have hne : e ≠ '/' := fun he => hline rest hslash (he ▸ rfl)
      have hne' : e ≠ '*' := fun he => hblock rest hslash (he ▸ rfl)
      simp [opensComment, hne, hne']
  | case6 rest ih => exact ih.cons fun _ hslash => absurd hslash (by decide)
  | case7 c rest _ ih => exact ih.cons_other (by decide)
  | case8 rest ih => exact (ih.cons_other (by decide)).cons_other (by decide)
  | case9 c rest _ ih => exact ih.cons_other (by decide)
  | case10 q c rest ih => exact (ih.cons_other (by decide)).cons_other (by decide)
  | case11 q rest _ ih => exact ih.cons_other (by decide)
  | case12 q rest _ _ ih => exact ih.cons_other (by decide)
  | case13 q c rest _ _ _ ih => exact ih.cons_other (by decide)

/-- Nothing that is left begins a comment. -/
theorem not_infix_maskFrom (hm : m.Fine) (hc : opensComment c = true) :
    ¬ ['/', c] <:+: maskFrom m cs := by
  rintro ⟨front, back, hmask⟩
  have hmark : isQuote c = false ∧ c ≠ ' ' ∧ c ≠ '\n' := by
    rcases (Bool.or_eq_true _ _).mp hc with h | h <;> rw [beq_iff_eq.mp h] <;> decide
  have hslash : (maskFrom m cs)[front.length]? = some '/' := by simp [← hmask]
  have hnext : (maskFrom m cs)[front.length + 1]? = some c := by simp [← hmask]
  obtain ⟨hcode, hslash'⟩ := role_of_left hm hslash (by decide) (by decide) (by decide)
  obtain ⟨-, hnext'⟩ := role_of_left hm hnext hmark.1 hmark.2.1 hmark.2.2
  exact absurd ((uncommented_rolesFrom m cs _ c hcode hslash' hnext').symm.trans hc) nofun

/-! ## Literals -/

/-- The number of characters inside of a literal, behind its opening quote: up to the first quote of its kind
or line feed that is not escaped, or else to the end of the text. -/
def insideLength (q : Char) : List Char → Nat
  | '\\' :: _ :: rest => insideLength q rest + 2
  | c :: rest => if c = q ∨ c = '\n' then 0 else insideLength q rest + 1
  | [] => 0

/-- Inside of a literal all is blanked. -/
lemma getElem?_inside {k : Nat} (hk : k < insideLength q cs) :
    ∃ c, (maskFrom (.literal q) cs)[k]? = some (blank c) := by
  fun_induction insideLength q cs generalizing k with
  | case1 c rest ih =>
    rcases k with _ | _ | k
    · exact ⟨'\\', rfl⟩
    · exact ⟨c, rfl⟩
    · simpa [maskFrom] using ih (by omega)
  | case2 c rest _ _ => exact absurd hk (Nat.not_lt_zero k)
  | case3 c rest hesc hend ih =>
    rw [maskFrom, if_neg hend]
    · cases k with
      | zero => exact ⟨c, rfl⟩
      | succ k => exact ih (Nat.lt_of_succ_lt_succ hk)
    · exact hesc
  | case4 => exact absurd hk (Nat.not_lt_zero k)

/-- What ends a literal is left. -/
lemma getElem?_end (q : Char) (cs : List Char) :
    (maskFrom (.literal q) cs)[insideLength q cs]? = cs[insideLength q cs]? := by
  fun_induction insideLength q cs with
  | case1 c rest ih => simpa [maskFrom] using ih
  | case2 c rest hesc hend => simp [maskFrom, hend]
  | case3 c rest hesc hend ih => simpa [maskFrom, hend] using ih
  | case4 => rfl

/-- A literal ends with a quote of its kind or with a line feed. -/
lemma eq_of_end (h : cs[insideLength q cs]? = some c) : c = q ∨ c = '\n' := by
  fun_induction insideLength q cs with
  | case1 d rest ih => exact ih (by simpa using h)
  | case2 d rest hesc hend =>
    obtain rfl : d = c := Option.some.inj h
    exact hend
  | case3 d rest hesc hend ih => exact ih (by simpa using h)
  | case4 => cases h

/-- A string literal as masking leaves it, by the offset of its opening quote: the quote stays, all behind it
becomes spaces and line feeds up to what ends the literal, and that stays too. -/
structure Emptied (cs : List Char) (i : Nat) (q : Char) : Prop where
  opening : (maskFrom .code cs)[i]? = some q
  inside : ∀ k < insideLength q (cs.drop (i + 1)), ∃ c, (maskFrom .code cs)[i + 1 + k]? = some c ∧
    (c = ' ' ∨ c = '\n')
  ending : ∀ c, cs[i + 1 + insideLength q (cs.drop (i + 1))]? = some c →
    (c = q ∨ c = '\n') ∧ (maskFrom .code cs)[i + 1 + insideLength q (cs.drop (i + 1))]? = some c

theorem emptied_of_opening (hopening : (roles cs)[i]? = some .opening) (hq : cs[i]? = some q) :
    Emptied cs i q := by
  have hrest : (maskFrom .code cs).drop (i + 1) = maskFrom (.literal q) (cs.drop (i + 1)) :=
    drop_maskFrom (resumes_rolesFrom .code cs i _ _ hopening rfl hq)
  obtain ⟨r, hr, hmasked⟩ := exists_masked .code hq
  obtain rfl : .opening = r := Option.some.inj (hopening.symm.trans hr)
  refine ⟨hmasked, fun k hk => ?_, fun c hc => ?_⟩
  · obtain ⟨c, hc⟩ := getElem?_inside hk
    exact ⟨blank c, by rw [← List.getElem?_drop, hrest, hc], blank_eq c⟩
  · rw [← List.getElem?_drop] at hc
    exact ⟨eq_of_end hc, by rw [← List.getElem?_drop, hrest, getElem?_end, hc]⟩

/-! ## Lines -/

/-- Where the scan of a text ends. -/
inductive Stop
  /-- Between two characters. -/
  | within (m : Mode)
  /-- In a literal, on a backslash that escapes what comes next. -/
  | escape (quote : Char)
deriving DecidableEq, Repr

/-- Where the scan of a text ends that begins in a mode. -/
def stopFrom : Mode → List Char → Stop
  | m, [] => .within m
  | .code, '/' :: '/' :: rest => stopFrom .lineComment rest
  | .code, '/' :: '*' :: rest => stopFrom .blockComment rest
  | .code, c :: rest => if isQuote c then stopFrom (.literal c) rest else stopFrom .code rest
  | .lineComment, c :: rest => if c = '\n' then stopFrom .code rest else stopFrom .lineComment rest
  | .blockComment, '*' :: '/' :: rest => stopFrom .code rest
  | .blockComment, _ :: rest => stopFrom .blockComment rest
  | .literal q, ['\\'] => .escape q
  | .literal q, '\\' :: _ :: rest => stopFrom (.literal q) rest
  | .literal q, c :: rest =>
    if c = q ∨ c = '\n' then stopFrom .code rest else stopFrom (.literal q) rest

/-- Where the scan of a file ends. -/
def stop (cs : List Char) : Stop := stopFrom .code cs

/-- Where the scanner stands behind a line feed that comes next. -/
def Stop.nextLine : Stop → Mode
  | within .blockComment => .blockComment
  | escape q => .literal q
  | _ => .code

/-- A line feed does not complete a mark of two characters. -/
lemma not_pair_append {c x y : Char} {a b : List Char} (hy : y ≠ '\n')
    (h : ∀ rest, c = x → a = y :: rest → False) :
    ∀ rest, c = x → a ++ '\n' :: b = y :: rest → False := by
  rintro rest rfl ha
  cases a with
  | nil => exact hy (List.cons.inj ha).1.symm
  | cons d a => exact h a rfl ((List.cons.inj ha).1 ▸ rfl)

/-- A backslash in front of a line feed escapes something only if it did so without. -/
lemma not_escape_append {c : Char} {a b : List Char} (hlone : c = '\\' → a = [] → False)
    (hescape : ∀ d rest, c = '\\' → a = d :: rest → False) :
    ∀ d rest, c = '\\' → a ++ '\n' :: b = d :: rest → False := by
  rintro d rest hc -
  cases a with
  | nil => exact hlone hc rfl
  | cons e a => exact hescape e a hc rfl

/-- Behind a line feed the scanner goes on in the mode to which the text in front has brought it. -/
theorem maskFrom_append_newline (hm : m.Fine) (a b : List Char) :
    maskFrom m (a ++ '\n' :: b) = maskFrom m a ++ '\n' :: maskFrom (stopFrom m a).nextLine b := by
  fun_induction stopFrom m a with
  | case1 m => cases m <;> simp [maskFrom, Stop.nextLine, blank]
  | case2 rest ih => simp [maskFrom, ih trivial]
  | case3 rest ih => simp [maskFrom, ih trivial]
  | case4 c rest hline hblock hq ih =>
    have hline' := not_pair_append (b := b) (by decide) hline
    have hblock' := not_pair_append (b := b) (by decide) hblock
    simp [maskFrom, isQuote_iff.mp hq, ih hq]
  | case5 c rest hline hblock hq ih =>
    have hline' := not_pair_append (b := b) (by decide) hline
    have hblock' := not_pair_append (b := b) (by decide) hblock
    simp [maskFrom, isQuote_iff.not.mp hq, ih trivial]
  | case6 rest ih => simp [maskFrom, ih trivial]
  | case7 c rest hc ih => simp [maskFrom, hc, ih trivial]
  | case8 rest ih => simp [maskFrom, ih trivial]
  | case9 c rest hend ih =>
    have hend' := not_pair_append (b := b) (by decide) hend
    simp [maskFrom, ih trivial]
  | case10 q =>
    have hq : '\\' ≠ q := fun hq => absurd (hq ▸ hm : isQuote '\\' = true) (by decide)
    simp [maskFrom, hq, Stop.nextLine, blank]
  | case11 q c rest ih => simp [maskFrom, ih hm]
  | case12 q c rest hlone hescape hend ih =>
    have hescape' := not_escape_append (b := b) hlone hescape
    simp [maskFrom, hend, ih trivial]
  | case13 q c rest hlone hescape hend ih =>
    have hescape' := not_escape_append (b := b) hlone hescape
    simp [maskFrom, hend, ih hm]

/-- In no mode but that of the code all texts are masked as code. -/
lemma eq_code_of_maskFrom (h : ∀ t, maskFrom m t = maskFrom .code t) : m = .code := by
  cases m with
  | code => rfl
  | lineComment => exact absurd (h ['x']) (by decide)
  | blockComment => exact absurd (h ['x']) (by decide)
  | literal q =>
    by_cases hx : 'x' = q
    · subst hx
      exact absurd (h ['y']) (by decide)
    · exact absurd (h ['x']) (by simp [maskFrom, hx, blank])

lemma Stop.nextLine_eq_code {e : Stop} :
    e.nextLine = .code ↔ e ≠ .within .blockComment ∧ ∀ q, e ≠ .escape q := by
  rcases e with m | q
  · cases m <;> simp [Stop.nextLine]
  · simp [Stop.nextLine]

lemma toList_mask (s : String) : (mask s).toList = maskFrom .code s.toList := by
  simp [mask]

lemma mask_append_newline (s t : String) :
    mask (s ++ "\n" ++ t) =
      mask s ++ "\n" ++ String.ofList (maskFrom (stop s.toList).nextLine t.toList) := by
  have hlist := maskFrom_append_newline (m := .code) trivial s.toList t.toList
  exact String.toList_inj.mp (by simpa [toList_mask, stop] using hlist)

/-- A text is masked apart from the lines behind it, unless it ends in a block comment or on a backslash that
escapes the line feed. -/
theorem mask_append_iff (s : String) :
    (∀ t, mask (s ++ "\n" ++ t) = mask s ++ "\n" ++ mask t) ↔
      stop s.toList ≠ .within .blockComment ∧ ∀ q, stop s.toList ≠ .escape q := by
  rw [← Stop.nextLine_eq_code]
  constructor
  · intro h
    refine eq_code_of_maskFrom fun cs => ?_
    have ht := h (String.ofList cs)
    rw [mask_append_newline] at ht
    simpa [mask, String.ofList_inj] using ht
  · intro h t
    rw [mask_append_newline, h, ← mask]

/-- Masking keeps every offset, leaves no comment, empties the literals, and treats a text apart from the
lines behind it, unless it ends in a block comment or on a backslash that escapes the line feed. -/
theorem mask_stable_and_local (s : String) :
    List.Forall₂ Veils s.toList (mask s).toList ∧
    (¬ ['/', '/'] <:+: (mask s).toList ∧ ¬ ['/', '*'] <:+: (mask s).toList) ∧
    (∀ i q, (roles s.toList)[i]? = some .opening → s.toList[i]? = some q → Emptied s.toList i q) ∧
    ((∀ t, mask (s ++ "\n" ++ t) = mask s ++ "\n" ++ mask t) ↔
      stop s.toList ≠ .within .blockComment ∧ ∀ q, stop s.toList ≠ .escape q) := by
  refine ⟨?_, ⟨?_, ?_⟩, fun i q => emptied_of_opening, mask_append_iff s⟩
  · rw [toList_mask]
    exact forall₂_veils .code s.toList
  · rw [toList_mask]
    exact not_infix_maskFrom (m := .code) trivial rfl
  · rw [toList_mask]
    exact not_infix_maskFrom (m := .code) trivial rfl

/-- Behind a literal that is not closed, and in which a comment seems to begin, a comment is masked as if its
line stood alone. -/
theorem mask_stable_and_local_unclosed :
    mask ("x = 'a//b/*" ++ "\n" ++ "y // c") = mask "x = 'a//b/*" ++ "\n" ++ mask "y // c" := by
  have hstop : stop "x = 'a//b/*".toList = .within (.literal '\'') := by decide
  refine (mask_stable_and_local "x = 'a//b/*").2.2.2.mpr ⟨?_, fun q => ?_⟩ _
  · rw [hstop]
    decide
  · rw [hstop]
    exact nofun

end SourceBundle.Import
