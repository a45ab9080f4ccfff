/-
# What the scanner takes a character for

To the scanner each character of a file has a role: it is code, it opens or closes a string literal, or it
stands inside of one, it is the line feed that ends a literal which is not closed, or it belongs to a
comment.  Masking blanks the contents of literals and the comments, and leaves all else as it is; so what is
left of a file tells where its literals begin and end, as long as no line feed breaks them.
-/
import Mathlib.Data.List.Forall2
import SourceBundle.Proofs.Import.Keyword

namespace SourceBundle.Import

open SourceBundle.Text

/-! ## Roles -/

/-- What the scanner takes a character for. -/
inductive Role
  /-- Code. -/
  | code
  /-- A quote at which a string literal is entered. -/
  | opening
  /-- A character inside of a string literal. -/
  | content
  /-- The quote at which a string literal is left. -/
  | closing
  /-- The line feed that ends a string literal which is not closed. -/
  | broken
  /-- A character of a comment. -/
  | comment
deriving DecidableEq, Repr

/-- The roles of the characters that follow in a mode. -/
def rolesFrom : Mode → List Char → List Role
  | _, [] => []
  | .code, '/' :: '/' :: rest => .comment :: .comment :: rolesFrom .lineComment rest
  | .code, '/' :: '*' :: rest => .comment :: .comment :: rolesFrom .blockComment rest
  | .code, c :: rest =>
    if isQuote c then .opening :: rolesFrom (.literal c) rest else .code :: rolesFrom .code rest
  | .lineComment, c :: rest =>
    if c = '\n' then .code :: rolesFrom .code rest else .comment :: rolesFrom .lineComment rest
  | .blockComment, '*' :: '/' :: rest => .comment :: .comment :: rolesFrom .code rest
  | .blockComment, _ :: rest => .comment :: rolesFrom .blockComment rest
  | .literal q, '\\' :: _ :: rest => .content :: .content :: rolesFrom (.literal q) rest
  | .literal q, c :: rest =>
    if c = q then .closing :: rolesFrom .code rest
    else if c = '\n' then .broken :: rolesFrom .code rest
    else .content :: rolesFrom (.literal q) rest

/-- The roles of the characters of a file. -/
def roles (cs : List Char) : List Role := rolesFrom .code cs

/-- What masking leaves of a character. -/
def Role.shows : Role → Char → Char
  | content, c | comment, c => blank c
  | _, c => c

/-- Whether masking leaves a character as it is. -/
def Role.kept : Role → Bool
  | content | comment => false
  | _ => true

/-- Where the scanner stands behind a character that is left as it is. -/
def Role.next : Role → Char → Mode
  | opening, c => .literal c
  | _, _ => .code

/-- What a character is in its role. -/
def Role.Fits : Role → Char → Prop
  | opening, c | closing, c => isQuote c = true
  | broken, c => c = '\n'
  | code, c => isQuote c = false
  | _, _ => True

/-- A literal is entered at a quote. -/
def Mode.Fine : Mode → Prop
  | .literal q => isQuote q = true
  | _ => True

variable {m : Mode} {cs : List Char} {c q : Char} {i : Nat} {r : Role}

/-- Masking is by roles. -/
theorem maskFrom_eq_zipWith (m : Mode) (cs : List Char) :
    maskFrom m cs = List.zipWith Role.shows (rolesFrom m cs) cs := by
  fun_induction rolesFrom m cs <;> simp_all [maskFrom, Role.shows, blank, isQuote_iff]

@[simp] lemma length_rolesFrom (m : Mode) (cs : List Char) : (rolesFrom m cs).length = cs.length := by
  fun_induction rolesFrom m cs <;> simp_all

/-- All characters fit their roles. -/
lemma forall₂_fits (hm : m.Fine) : List.Forall₂ Role.Fits (rolesFrom m cs) cs := by
  have hline : isQuote '\n' = false := by decide
  fun_induction rolesFrom m cs <;> simp_all [Role.Fits, Mode.Fine]

/-- The role of a character of a masked file, and the character itself. -/
lemma exists_role (hc : (maskFrom m cs)[i]? = some c) :
    ∃ r d, (rolesFrom m cs)[i]? = some r ∧ cs[i]? = some d ∧ c = r.shows d := by
  rw [maskFrom_eq_zipWith, List.getElem?_zipWith] at hc
  cases hr : (rolesFrom m cs)[i]? with
  | none => simp [hr] at hc
  | some r =>
    cases hd : cs[i]? with
    | none => simp [hr, hd] at hc
    | some d => exact ⟨r, d, rfl, rfl, by simpa [hr, hd] using hc.symm⟩

/-- What is left of a character of a file. -/
lemma exists_masked (m : Mode) (hc : cs[i]? = some c) :
    ∃ r, (rolesFrom m cs)[i]? = some r ∧ (maskFrom m cs)[i]? = some (r.shows c) := by
  have hi : i < (rolesFrom m cs).length := by
    rw [length_rolesFrom]
    exact (List.getElem?_eq_some_iff.mp hc).1
  have hr := List.getElem?_eq_getElem hi
  refine ⟨_, hr, ?_⟩
  rw [maskFrom_eq_zipWith, List.getElem?_zipWith, hr, hc]

lemma fits_of_getElem? (hm : m.Fine) (hr : (rolesFrom m cs)[i]? = some r) (hc : cs[i]? = some c) :
    r.Fits c := by
  obtain ⟨hi, rfl⟩ := List.getElem?_eq_some_iff.mp hr
  obtain ⟨hi', rfl⟩ := List.getElem?_eq_some_iff.mp hc
  exact (forall₂_fits hm).get hi hi'

lemma blank_eq (c : Char) : blank c = ' ' ∨ blank c = '\n' := by
  unfold blank
  split
  · exact Or.inr rfl
  · exact Or.inl rfl

lemma isQuote_blank (c : Char) : isQuote (blank c) = false := by
  rcases blank_eq c with h | h <;> rw [h] <;> decide

/-- A quote that is left after masking opens or closes a literal. -/
lemma role_of_isQuote (hm : m.Fine) (hc : (maskFrom m cs)[i]? = some q) (hq : isQuote q = true) :
    ((rolesFrom m cs)[i]? = some .opening ∨ (rolesFrom m cs)[i]? = some .closing) ∧ cs[i]? = some q := by
  obtain ⟨r, d, hr, hd, rfl⟩ := exists_role hc
  have hfits := fits_of_getElem? hm hr hd
  cases r with
  | opening => exact ⟨Or.inl hr, hd⟩
  | closing => exact ⟨Or.inr hr, hd⟩
  | code => exact absurd (hfits.symm.trans hq) nofun
  | broken =>
    obtain rfl : d = '\n' := hfits
    exact absurd hq (by decide)
  | content => exact absurd ((isQuote_blank d).symm.trans hq) nofun
  | comment => exact absurd ((isQuote_blank d).symm.trans hq) nofun

/-- What is left after masking, and is neither a quote nor blank, is code. -/
lemma role_of_left (hm : m.Fine) (hc : (maskFrom m cs)[i]? = some c) (hquote : isQuote c = false)
    (hspace : c ≠ ' ') (hline : c ≠ '\n') : (rolesFrom m cs)[i]? = some .code ∧ cs[i]? = some c := by
  obtain ⟨r, d, hr, hd, rfl⟩ := exists_role hc
  have hfits := fits_of_getElem? hm hr hd
  cases r with
  | code => exact ⟨hr, hd⟩
  | opening => exact absurd (hquote.symm.trans hfits) nofun
  | closing => exact absurd (hquote.symm.trans hfits) nofun
  | broken => exact absurd hfits hline
  | content => exact ((blank_eq d).elim hspace hline).elim
  | comment => exact ((blank_eq d).elim hspace hline).elim

/-- A word character that is left after masking is code. -/
lemma role_of_isWord (hc : (maskFrom .code cs)[i]? = some c) (hw : isWord c = true) :
    (roles cs)[i]? = some .code ∧ cs[i]? = some c := by
  refine role_of_left (m := .code) trivial hc ?_ ?_ ?_
  · cases hq : isQuote c with
    | false => rfl
    | true => exact absurd ((not_isWord_of_isQuote hq).symm.trans hw) nofun
  · rintro rfl
    exact absurd hw (by decide)
  · rintro rfl
    exact absurd hw (by decide)

/-! ## Where the scanner stands -/

/-- Behind each character that is left as it is, the scanner goes on in the mode that its role tells. -/
def Resumes (rs : List Role) (cs : List Char) : Prop :=
  ∀ i r c, rs[i]? = some r → r.kept = true → cs[i]? = some c →
    rs.drop (i + 1) = rolesFrom (r.next c) (cs.drop (i + 1))

lemma Resumes.cons {rs : List Role} (h : Resumes rs cs)
    (hr : r.kept = true → rs = rolesFrom (r.next c) cs) : Resumes (r :: rs) (c :: cs) := by
  intro i r' c' hr' hk hc'
  cases i with
  | zero =>
    cases hr'
    cases hc'
    exact hr hk
  | succ i => exact h i r' c' hr' hk hc'

/-- A character that is blanked tells nothing. -/
lemma Resumes.cons_blanked {rs : List Role} (h : Resumes rs cs) (hr : r.kept = false) :
    Resumes (r :: rs) (c :: cs) :=
  h.cons fun hk => absurd (hr.symm.trans hk) nofun

theorem resumes_rolesFrom (m : Mode) (cs : List Char) : Resumes (rolesFrom m cs) cs := by
  fun_induction rolesFrom m cs with
  | case1 => exact fun i r c hr => absurd hr (by simp)
  | case2 rest ih => exact (ih.cons_blanked rfl).cons_blanked rfl
  | case3 rest ih => exact (ih.cons_blanked rfl).cons_blanked rfl
  | case4 c rest _ _ _ ih => exact ih.cons fun _ => rfl
  | case5 c rest _ _ _ ih => exact ih.cons fun _ => rfl
  | case6 rest ih => exact ih.cons fun _ => rfl
  | case7 c rest _ ih => exact ih.cons_blanked rfl
  | case8 rest ih => exact (ih.cons_blanked rfl).cons_blanked rfl
  | case9 c rest _ ih => exact ih.cons_blanked rfl
  | case10 q c rest ih => exact (ih.cons_blanked rfl).cons_blanked rfl
  | case11 q rest _ ih => exact ih.cons fun _ => rfl
  | case12 q rest _ _ ih => exact ih.cons fun _ => rfl
  | case13 q c rest _ _ _ ih => exact ih.cons_blanked rfl

lemma drop_maskFrom {n : Nat} {m' : Mode} (h : (rolesFrom m cs).drop n = rolesFrom m' (cs.drop n)) :
    (maskFrom m cs).drop n = maskFrom m' (cs.drop n) := by
  rw [maskFrom_eq_zipWith, maskFrom_eq_zipWith, List.drop_zipWith, h]

/-! ## Where literals begin and end -/

/-- Whether the scanner leaves a literal at a character. -/
def Role.leaves : Role → Bool
  | closing | broken => true
  | _ => false

/-- A role of one kind comes only after one of another kind. -/
def Preceded (later earlier : Role → Bool) (rs : List Role) : Prop :=
  ∀ (n : Nat) (r : Role), rs[n]? = some r → later r = true →
    ∃ i < n, ∃ r', rs[i]? = some r' ∧ earlier r' = true

namespace Preceded

variable {later earlier : Role → Bool} {rs : List Role}

lemma nil : Preceded later earlier [] := fun n r hr => absurd hr (by simp)

lemma cons (h : Preceded later earlier rs) (hr : later r = false) :
    Preceded later earlier (r :: rs) := by
  intro n r' hr' hlater
  cases n with
  | zero =>
    cases hr'
    exact absurd (hr.symm.trans hlater) nofun
  | succ n =>
    obtain ⟨i, hi, r'', hr'', hearlier⟩ := h n r' hr' hlater
    exact ⟨i + 1, Nat.succ_lt_succ hi, r'', hr'', hearlier⟩

lemma of_earlier (hr : later r = false) (hearlier : earlier r = true) :
    Preceded later earlier (r :: rs) := by
  intro n r' hr' hlater
  cases n with
  | zero =>
    cases hr'
    exact absurd (hr.symm.trans hlater) nofun
  | succ n => exact ⟨0, Nat.succ_pos n, r, rfl, hearlier⟩

end Preceded

/-- Outside of a literal none is closed before one is opened. -/
lemma preceded_closing (hm : ∀ q, m ≠ .literal q) :
    Preceded (· == .closing) (· == .opening) (rolesFrom m cs) := by
  fun_induction rolesFrom m cs with
  | case1 => exact .nil
  | case2 rest ih => exact ((ih nofun).cons rfl).cons rfl
  | case3 rest ih => exact ((ih nofun).cons rfl).cons rfl
  | case4 c rest _ _ _ _ => exact .of_earlier rfl rfl
  | case5 c rest _ _ _ ih => exact (ih nofun).cons rfl
  | case6 rest ih => exact (ih nofun).cons rfl
  | case7 c rest _ ih => exact (ih nofun).cons rfl
  | case8 rest ih => exact ((ih nofun).cons rfl).cons rfl
  | case9 c rest _ ih => exact (ih nofun).cons rfl
  | _ => exact absurd rfl (hm _)

/-- Inside of a literal none is opened before this one is left. -/
lemma preceded_opening (hm : m = .literal q) :
    Preceded (· == .opening) Role.leaves (rolesFrom m cs) := by
  fun_induction rolesFrom m cs with
  | case1 => exact .nil
  | case10 q c rest ih => exact ((ih hm).cons rfl).cons rfl
  | case11 q rest _ _ => exact .of_earlier rfl rfl
  | case12 q rest _ _ _ => exact .of_earlier rfl rfl
  | case13 q c rest _ _ _ ih => exact (ih hm).cons rfl
  | _ => cases hm

/-- Whether a text has a line feed that is not escaped by a backslash. -/
def breaksLine : List Char → Bool
  | '\\' :: _ :: rest => breaksLine rest
  | c :: rest => c == '\n' || breaksLine rest
  | [] => false

/-- As long as a literal is not closed, its characters are content, unless a line feed breaks it. -/
lemma content_of_literal {n : Nat} (hm : m = .literal q)
    (hopen : .closing ∉ (rolesFrom m cs).take n) :
    if breaksLine (cs.take n) then .broken ∈ (rolesFrom m cs).take n
    else ∀ r ∈ (rolesFrom m cs).take n, r = .content := by
  fun_induction rolesFrom m cs generalizing n with
  | case1 => simp [breaksLine]
  | case10 q c rest ih =>
    rcases n with _ | _ | n
    · simp [breaksLine]
    · simp [breaksLine]
    · simpa [breaksLine] using ih hm (by simpa using hopen)
  | case11 q rest _ _ =>
    cases n with
    | zero => simp [breaksLine]
    | succ n => exact absurd List.mem_cons_self hopen
  | case12 q rest _ _ _ =>
    cases n with
    | zero => simp [breaksLine]
    | succ n => simp [breaksLine]
  | case13 q c rest hc _ hline ih =>
    cases n with
    | zero => simp [breaksLine]
    | succ n =>
      have hbreaks : breaksLine (c :: rest.take n) = breaksLine (rest.take n) := by
        rw [breaksLine, beq_eq_false_iff_ne.mpr hline, Bool.false_or]
        rintro d more rfl hrest
        cases rest with
        | nil => simp at hrest
        | cons d' rest => exact hc d' rest rfl rfl
      have ih := ih hm (n := n) (by simpa using hopen)
      rw [List.take_succ_cons, hbreaks]
      simpa using ih
  | _ => cases hm

/-- A quote at which a literal is entered or left is left by masking. -/
lemma isQuote_of_role (hm : m.Fine) (hr : (rolesFrom m cs)[i]? = some r)
    (hquote : r = .opening ∨ r = .closing) : ∃ q, (maskFrom m cs)[i]? = some q ∧ isQuote q = true := by
  obtain ⟨hi, -⟩ := List.getElem?_eq_some_iff.mp hr
  rw [length_rolesFrom] at hi
  have hc : cs[i]? = some cs[i] := List.getElem?_eq_getElem hi
  have hfits := fits_of_getElem? hm hr hc
  obtain ⟨r', hr', hmasked⟩ := exists_masked m hc
  obtain rfl := Option.some.inj (hr.symm.trans hr')
  rcases hquote with rfl | rfl
  · exact ⟨cs[i], hmasked, hfits⟩
  · exact ⟨cs[i], hmasked, hfits⟩

/-- Outside of a literal the first quote that is left opens one. -/
lemma opening_of_quote {blanks tail : List Char} (hmask : maskFrom .code cs = blanks ++ q :: tail)
    (hblanks : ∀ c ∈ blanks, isQuote c = false) (hq : isQuote q = true) :
    (rolesFrom .code cs)[blanks.length]? = some .opening ∧ cs[blanks.length]? = some q := by
  have hmasked : (maskFrom .code cs)[blanks.length]? = some q := by simp [hmask]
  obtain ⟨hrole, hc⟩ := role_of_isQuote (m := .code) trivial hmasked hq
  refine ⟨hrole.resolve_right fun hclosing => ?_, hc⟩
  obtain ⟨i, hi, r, hr, hopening⟩ := preceded_closing (m := .code) (fun _ => nofun) _ _ hclosing rfl
  obtain ⟨q', hmasked', hq'⟩ := isQuote_of_role (m := .code) trivial hr (Or.inl (beq_iff_eq.mp hopening))
  rw [hmask, List.getElem?_append_left hi] at hmasked'
  exact absurd ((hblanks q' (List.mem_of_getElem? hmasked')).symm.trans hq') nofun

/-- Behind the quote that opens a literal, up to the next quote that is left: either a line feed breaks the
literal, or all is its content and the quote closes it. -/
lemma literal_of_quote {inside tail : List Char} {q' : Char} (hq : isQuote q = true)
    (hmask : maskFrom (.literal q) cs = inside ++ q' :: tail)
    (hinside : ∀ c ∈ inside, isQuote c = false) (hq' : isQuote q' = true) :
    if breaksLine (cs.take inside.length) then .broken ∈ (rolesFrom (.literal q) cs).take inside.length
    else (∀ r ∈ (rolesFrom (.literal q) cs).take inside.length, r = .content) ∧
      (rolesFrom (.literal q) cs)[inside.length]? = some .closing := by
  -- a quote that closed the literal further in front would be left
  have hopen : .closing ∉ (rolesFrom (.literal q) cs).take inside.length := by
    intro hmem
    obtain ⟨i, hr⟩ := List.mem_iff_getElem?.mp hmem
    have hlt : i < inside.length := by
      by_contra hge
      rw [List.getElem?_take_eq_none (Nat.le_of_not_lt hge)] at hr
      cases hr
    rw [List.getElem?_take_of_lt hlt] at hr
    obtain ⟨d, hmasked, hd⟩ := isQuote_of_role (m := .literal q) hq hr (Or.inr rfl)
    rw [hmask, List.getElem?_append_left hlt] at hmasked
    exact absurd ((hinside d (List.mem_of_getElem? hmasked)).symm.trans hd) nofun
  have hcontent := content_of_literal rfl hopen
  split
  · next hbreaks => rwa [if_pos hbreaks] at hcontent
  · next hbreaks =>
    rw [if_neg hbreaks] at hcontent
    refine ⟨hcontent, ?_⟩
    -- the quote does not open another literal, for this one has not been left
    have hmasked : (maskFrom (.literal q) cs)[inside.length]? = some q' := by simp [hmask]
    refine (role_of_isQuote (m := .literal q) hq hmasked hq').1.resolve_left fun hopening => ?_
    obtain ⟨i, hi, r, hr, hleaves⟩ := preceded_opening rfl _ _ hopening rfl
    have hmem : r ∈ (rolesFrom (.literal q) cs).take inside.length :=
      List.mem_of_getElem? ((List.getElem?_take_of_lt hi).trans hr)
    rw [hcontent r hmem] at hleaves
    cases hleaves

/-! ## Words -/

/-- Behind a character that is blanked no code comes but a line feed, unless the character is a slash. -/
def Bordered (rs : List Role) (cs : List Char) : Prop :=
  ∀ (i : Nat) (r : Role) (c : Char), rs[i]? = some r → rs[i + 1]? = some .code → cs[i + 1]? = some c →
    c ≠ '\n' → r.kept = true ∨ cs[i]? = some '/'

/-- Outside of the code only a line feed is taken for code. -/
lemma line_of_code (hm : m ≠ .code) (hr : (rolesFrom m cs)[0]? = some .code) : cs[0]? = some '\n' := by
  fun_induction rolesFrom m cs <;> simp_all

lemma Bordered.cons {rs : List Role} (h : Bordered rs cs)
    (hr : r.kept = true ∨ c = '/' ∨ (rs[0]? = some .code → cs[0]? = some '\n')) :
    Bordered (r :: rs) (c :: cs) := by
  intro i r' d hi hi' hd hline
  cases i with
  | zero =>
    cases hi
    refine hr.imp_right fun hr => hr.elim (fun hslash => congrArg some hslash) fun hline' => ?_
    have hd' : cs[0]? = some d := by simpa using hd
    exact absurd (Option.some.inj (hd'.symm.trans (hline' (by simpa using hi')))) hline
  | succ i => exact h i r' d hi hi' hd hline

theorem bordered_rolesFrom (m : Mode) (cs : List Char) : Bordered (rolesFrom m cs) cs := by
  fun_induction rolesFrom m cs with
  | case1 => exact fun i r c hr => absurd hr (by simp)
  | case2 rest ih => exact (ih.cons (Or.inr (Or.inl rfl))).cons (Or.inr (Or.inl rfl))
  | case3 rest ih =>
    exact (ih.cons (Or.inr (Or.inr (line_of_code nofun)))).cons (Or.inr (Or.inl rfl))
  | case4 c rest _ _ _ ih => exact ih.cons (Or.inl rfl)
  | case5 c rest _ _ _ ih => exact ih.cons (Or.inl rfl)
  | case6 rest ih => exact ih.cons (Or.inl rfl)
  | case7 c rest _ ih => exact ih.cons (Or.inr (Or.inr (line_of_code nofun)))
  | case8 rest ih =>
    exact (ih.cons (Or.inr (Or.inl rfl))).cons (Or.inr (Or.inr nofun))
  | case9 c rest _ ih => exact ih.cons (Or.inr (Or.inr (line_of_code nofun)))
  | case10 q c rest ih =>
    exact (ih.cons (Or.inr (Or.inr (line_of_code nofun)))).cons (Or.inr (Or.inr nofun))
  | case11 q rest _ ih => exact ih.cons (Or.inl rfl)
  | case12 q rest _ _ ih => exact ih.cons (Or.inl rfl)
  | case13 q c rest _ _ _ ih => exact ih.cons (Or.inr (Or.inr (line_of_code nofun)))

/-- In the code only a slash begins what is blanked. -/
lemma kept_or_slash (hr : (rolesFrom .code cs)[0]? = some r) : r.kept = true ∨ cs[0]? = some '/' := by
  generalize hm : Mode.code = m at hr
  fun_induction rolesFrom m cs with
  | case1 => simp at hr
  | case2 => exact Or.inr rfl
  | case3 => exact Or.inr rfl
  | case4 =>
    cases hr
    exact Or.inl rfl
  | case5 =>
    cases hr
    exact Or.inl rfl
  | _ => cases hm

lemma standsFirst_iff {w cs : List Char} : standsFirst w cs = true ↔
    ∃ tail, cs = w ++ tail ∧ ∀ c, tail[0]? = some c → isWord c = false := by
  induction w generalizing cs with
  | nil => cases cs <;> simp [standsFirst]
  | cons a w ih =>
    cases cs with
    | nil => simp [standsFirst]
    | cons c cs =>
      rw [standsFirst, Bool.and_eq_true, beq_iff_eq, ih]
      constructor
      · rintro ⟨rfl, tail, rfl, htail⟩
        exact ⟨tail, rfl, htail⟩
      · rintro ⟨tail, heq, htail⟩
        obtain ⟨rfl, rfl⟩ := List.cons.inj heq
        exact ⟨rfl, tail, rfl, htail⟩

lemma not_isWord_of_shows (hk : r.kept = true ∨ c = '/') (hw : isWord (r.shows c) = false) :
    isWord c = false := by
  rcases hk with hk | rfl
  · cases r with
    | content => cases hk
    | comment => cases hk
    | _ => exact hw
  · decide

/-- The word `import` stands at an offset of a file, and its letters are code. -/
structure WordAt (cs : List Char) (k : Nat) : Prop where
  word : standsFirst keyword (cs.drop k) = true
  apart : ∀ i c, i + 1 = k → cs[i]? = some c → isWord c = false
  code : ∀ i < keyword.length, (roles cs)[k + i]? = some .code

/-- Where the word is left after masking, it stands in the file. -/
theorem wordAt_of_masked {k : Nat} (hfirst : standsFirst keyword ((maskFrom .code cs).drop k) = true)
    (hapart : ∀ i c, i + 1 = k → (maskFrom .code cs)[i]? = some c → isWord c = false) :
    WordAt cs k := by
  obtain ⟨tail, htail, hbehind⟩ := standsFirst_iff.mp hfirst
  have hletter : ∀ i (hi : i < keyword.length),
      (roles cs)[k + i]? = some .code ∧ cs[k + i]? = some keyword[i] := by
    intro i hi
    refine role_of_isWord ?_ (isWord_of_mem_keyword _ (List.getElem_mem hi))
    rw [← List.getElem?_drop, htail, List.getElem?_append_left hi, List.getElem?_eq_getElem hi]
  have htake : (cs.drop k).take keyword.length = keyword := by
    refine List.ext_getElem? fun i => ?_
    by_cases hi : i < keyword.length
    · rw [List.getElem?_take_of_lt hi, List.getElem?_drop, (hletter i hi).2, List.getElem?_eq_getElem hi]
    · have hge := Nat.le_of_not_lt hi
      rw [List.getElem?_take_eq_none hge, List.getElem?_eq_none hge]
  refine ⟨standsFirst_iff.mpr ⟨cs.drop (k + keyword.length), ?_, fun c hc => ?_⟩, fun i c hi hc => ?_,
    fun i hi => (hletter i hi).1⟩
  · rw [← List.drop_drop]
    conv_lhs => rw [← List.take_append_drop keyword.length (cs.drop k), htake]
  · -- behind the last letter the scanner is in the code
    obtain ⟨hlast, hlast'⟩ := hletter (keyword.length - 1) (by decide)
    have hresume := resumes_rolesFrom .code cs _ _ _ hlast rfl hlast'
    have hn : k + (keyword.length - 1) + 1 = k + keyword.length := by
      have hpos : 0 < keyword.length := by decide
      omega
    have hmask : maskFrom .code (cs.drop (k + keyword.length)) = tail := by
      rw [← drop_maskFrom (hn ▸ hresume), ← List.drop_drop, htail, List.drop_left]
    obtain ⟨r, hr, hmasked⟩ := exists_masked .code hc
    refine not_isWord_of_shows (r := r) ((kept_or_slash hr).imp_right fun hslash => ?_) ?_
    · exact Option.some.inj (hc.symm.trans hslash)
    · exact hbehind _ (hmask ▸ hmasked)
  · -- what stands in front of the first letter is left, or is the slash that ends a comment
    subst hi
    obtain ⟨hcode, hletter⟩ := hletter 0 (by decide)
    obtain ⟨r, hr, hmasked⟩ := exists_masked .code hc
    have hk := bordered_rolesFrom .code cs i r _ hr hcode hletter (by decide)
    refine not_isWord_of_shows (r := r) (hk.imp_right fun hslash => ?_) (hapart i _ rfl hmasked)
    exact Option.some.inj (hc.symm.trans hslash)

end SourceBundle.Import
