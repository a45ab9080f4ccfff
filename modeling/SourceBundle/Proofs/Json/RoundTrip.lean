/-
# Reading what was written

Whatever texts an object of texts holds, its written form is read back as this object: escapes denote
the characters that they were made from, a character beyond the first plane comes back from its two
halves, and the blanks between the members are passed over.

The reader works on what is left of the document, and so everything is said of a written form with
anything behind it.
-/
import Mathlib.Tactic.Common
import SourceBundle.Json.Reader
import SourceBundle.Json.Writer
import SourceBundle.Proofs.Table

namespace SourceBundle.Json

open SourceBundle.Text

/-! ## Hexadecimal digits -/

/-- The last digit of a number in at least two digits. -/
lemma hexDigits_succ (w n : Nat) :
    hexDigits (w + 2) n = hexDigits (w + 1) (n / 16) ++ [(n % 16).digitChar] := by
  unfold hexDigits
  rw [Nat.toDigits_eq_if (n := n) (by decide)]
  by_cases hn : n < 16
  · have hz : n / 16 = 0 := Nat.div_eq_of_lt hn
    have hm : n % 16 = n := Nat.mod_eq_of_lt hn
    have h0 : Nat.toDigits 16 0 = ['0'] := rfl
    simp only [hn, if_true, hz, hm, h0, List.length_singleton]
    have hw : w + 2 - 1 = w + 1 := rfl
    rw [hw, Nat.add_sub_cancel, List.replicate_succ']
  · simp [hn]

lemma hexDigits_one {n : Nat} (hn : n < 16) : hexDigits 1 n = [n.digitChar] := by
  simp [hexDigits, Nat.toDigits_of_lt_base hn]

lemma hexDigits_four {n : Nat} (hn : n < 0x10000) :
    hexDigits 4 n = [(n / 4096).digitChar, (n / 256 % 16).digitChar, (n / 16 % 16).digitChar,
      (n % 16).digitChar] := by
  have hhead : n / 16 / 16 / 16 < 16 := by omega
  rw [hexDigits_succ, hexDigits_succ, hexDigits_succ, hexDigits_one hhead]
  simp only [Nat.div_div_eq_div_mul, List.cons_append, List.nil_append]

lemma hexValue?_digitChar {d : Nat} (hd : d < 16) : hexValue? d.digitChar = some d := by
  have hall : ∀ d : Fin 16, hexValue? (d : Nat).digitChar = some (d : Nat) := by decide
  exact hall ⟨d, hd⟩

/-- Four digits denote the number that was written. -/
lemma exists_hexQuad {n : Nat} (hn : n < 0x10000) :
    ∃ a b c d, hexDigits 4 n = [a, b, c, d] ∧ hexQuad? a b c d = some n := by
  refine ⟨_, _, _, _, hexDigits_four hn, ?_⟩
  have h₁ : n / 4096 < 16 := by omega
  have hmod : ∀ m, m % 16 < 16 := fun m => Nat.mod_lt m (by decide)
  have hsum : ((n / 4096 * 16 + n / 256 % 16) * 16 + n / 16 % 16) * 16 + n % 16 = n := by omega
  simp [hexQuad?, hexValue?_digitChar h₁, hexValue?_digitChar (hmod _), hsum]

/-! ## Strings -/

/-- From anywhere in a document, a string is read from some characters, and some are left. -/
def ReadsText (input out left : List Char) : Prop :=
  ∀ start pos, ∃ stop, readText start input pos = .ok (out, ⟨left, stop⟩)

namespace ReadsText

variable {input out left : List Char}

lemma quote (left : List Char) : ReadsText ('"' :: left) [] left :=
  fun start pos => ⟨pos + 1, readText.eq_2 start pos left⟩

/-- Something is left to read before a string has ended. -/
lemma exists_cons (h : ReadsText input out left) : ∃ c cs, input = c :: cs := by
  cases input with
  | cons c cs => exact ⟨c, cs, rfl⟩
  | nil =>
    obtain ⟨stop, h⟩ := h 0 0
    simp [readText] at h

lemma plain (h : ReadsText input out left) {c : Char} (hq : c ≠ '"') (hb : c ≠ '\\')
    (hc : ¬ c.toNat < 32) : ReadsText (c :: input) (c :: out) left := by
  intro start pos
  obtain ⟨stop, h⟩ := h start (pos + 1)
  refine ⟨stop, ?_⟩
  rw [readText.eq_7 start pos c input hq (by simp [hb]) (by simp [hb]) (by simp [hb])
    (by simp [hb]), if_neg hc, h]
  rfl

lemma escape (h : ReadsText input out left) {l c : Char} (hl : escaped? l = some c) :
    ReadsText ('\\' :: l :: input) (c :: out) left := by
  have hu : l ≠ 'u' := by
    rintro rfl
    simp [escaped?] at hl
  intro start pos
  obtain ⟨stop, h⟩ := h start (pos + 2)
  refine ⟨stop, ?_⟩
  rw [readText.eq_6 start pos l input (by simp [hu]) hu, hl]
  simp only [h]
  rfl

/-- An escape by code point that is no first half denotes its character. -/
lemma unit (h : ReadsText input out left) {n : Nat} (hn : n < 0x10000)
    (hhalf : isHighHalf n = false) : ReadsText (writeUnit n ++ input) (charOf n :: out) left := by
  obtain ⟨a, b, c, d, hdigits, hquad⟩ := exists_hexQuad hn
  obtain ⟨next, rest, rfl⟩ := h.exists_cons
  intro start pos
  obtain ⟨stop, h⟩ := h start (pos + 6)
  refine ⟨stop, ?_⟩
  rw [writeUnit, hdigits]
  show readText start ('\\' :: 'u' :: a :: b :: c :: d :: next :: rest) pos = _
  rw [readText.eq_4, hquad]
  simp only [hhalf, Bool.false_eq_true, if_false, h]
  rfl

/-- Two halves denote the character that they make up. -/
lemma pair (h : ReadsText input out left) {high low : Nat} (hh : high < 0x10000)
    (hl : low < 0x10000) (hhigh : isHighHalf high = true) (hlow : isLowHalf low = true) :
    ReadsText (writeUnit high ++ writeUnit low ++ input) (joinHalves high low :: out) left := by
  obtain ⟨a, b, c, d, hdigits, hquad⟩ := exists_hexQuad hh
  obtain ⟨a', b', c', d', hdigits', hquad'⟩ := exists_hexQuad hl
  obtain ⟨last, rest, rfl⟩ := h.exists_cons
  intro start pos
  obtain ⟨stop, h⟩ := h start (pos + 12)
  refine ⟨stop, ?_⟩
  rw [writeUnit, writeUnit, hdigits, hdigits']
  show readText start ('\\' :: 'u' :: a :: b :: c :: d :: '\\' :: 'u' :: a' :: b' :: c' :: d' :: last :: rest) pos = _
  rw [readText.eq_4, hquad]
  simp only [hhigh, if_true, hquad', hlow, h]
  rfl

end ReadsText

lemma charOf_toNat (c : Char) : charOf c.toNat = c := by
  have hvalid : ¬ (0xD800 ≤ c.toNat ∧ c.toNat < 0xE000) := by
    have h := c.valid
    simp only [UInt32.isValidChar, Nat.isValidChar] at h
    show ¬ (0xD800 ≤ c.val.toNat ∧ c.val.toNat < 0xE000)
    omega
  rw [charOf, if_neg hvalid, Char.ofNat_toNat]

/-- A character beyond the first plane is made up of its halves. -/
lemma joinHalves_toNat {c : Char} (hc : 0x10000 ≤ c.toNat) :
    joinHalves (0xD800 + (c.toNat - 0x10000) / 0x400) (0xDC00 + (c.toNat - 0x10000) % 0x400) = c := by
  have hsum : 0x10000 + (0xD800 + (c.toNat - 0x10000) / 0x400 - 0xD800) * 0x400 +
      (0xDC00 + (c.toNat - 0x10000) % 0x400 - 0xDC00) = c.toNat := by omega
  rw [joinHalves, hsum, Char.ofNat_toNat]

/-- A written character is read back. -/
lemma readsText_writeChar {input out left : List Char} (h : ReadsText input out left) (c : Char) :
    ReadsText (writeChar c ++ input) (c :: out) left := by
  have hvalid : c.toNat < 0xD800 ∨ 0xE000 ≤ c.toNat ∧ c.toNat < 0x110000 := by
    have h := c.valid
    simp only [UInt32.isValidChar, Nat.isValidChar] at h
    show c.val.toNat < 0xD800 ∨ 0xE000 ≤ c.val.toNat ∧ c.val.toNat < 0x110000
    omega
  -- the characters that have an escape of their own
  rcases eq_or_ne c '"' with rfl | hquote
  · exact h.escape rfl
  rcases eq_or_ne c '\\' with rfl | hbackslash
  · exact h.escape rfl
  rcases eq_or_ne c '\n' with rfl | hn
  · exact h.escape rfl
  rcases eq_or_ne c '\r' with rfl | hr
  · exact h.escape rfl
  rcases eq_or_ne c '\t' with rfl | ht
  · exact h.escape rfl
  rcases eq_or_ne c '\x08' with rfl | hb
  · exact h.escape rfl
  rcases eq_or_ne c '\x0c' with rfl | hf
  · exact h.escape rfl
  rw [writeChar, if_neg hquote, if_neg hbackslash, if_neg hn, if_neg hr, if_neg ht, if_neg hb, if_neg hf]
  split_ifs with hprint hunit
  · exact h.plain hquote hbackslash (by omega)
  · have hhalf : isHighHalf c.toNat = false := by
      simp only [isHighHalf, Bool.and_eq_false_iff, decide_eq_false_iff_not]
      omega
    simpa [charOf_toNat] using h.unit hunit hhalf
  · have hc : 0x10000 ≤ c.toNat := by omega
    have hjoin := joinHalves_toNat hc
    generalize hhigh : 0xD800 + (c.toNat - 0x10000) / 0x400 = high at hjoin
    generalize hlow : 0xDC00 + (c.toNat - 0x10000) % 0x400 = low at hjoin
    rw [← hjoin]
    refine h.pair (by omega) (by omega) ?_ ?_
    · simp only [isHighHalf, Bool.and_eq_true, decide_eq_true_eq]
      omega
    · simp only [isLowHalf, Bool.and_eq_true, decide_eq_true_eq]
      omega

/-- A written string is read back. -/
theorem readsText_flatMap_writeChar (cs left : List Char) :
    ReadsText (cs.flatMap writeChar ++ '"' :: left) cs left := by
  induction cs with
  | nil => exact .quote left
  | cons c cs ih =>
    rw [List.flatMap_cons, List.append_assoc]
    exact readsText_writeChar ih c

/-! ## Values -/

/-- With enough steps a value is read from some characters, which begin with no blank, whatever is left
behind them. -/
structure ReadsValue (input : List Char) (value : Json) : Prop where
  head : ∃ c cs, input = c :: cs ∧ isGap c = false
  reads : ∀ fuel left pos, input.length ≤ fuel →
    ∃ stop, readValue fuel ⟨input ++ left, pos⟩ = .ok (value, ⟨left, stop⟩)

lemma skipGaps_of_head {c : Char} {cs : List Char} (hc : isGap c = false) (pos : Nat) :
    skipGaps ⟨c :: cs, pos⟩ = ⟨c :: cs, pos⟩ := by
  simp [skipGaps, hc]

/-- Blanks are passed over. -/
lemma exists_skipGaps {gaps : List Char} (hg : ∀ c ∈ gaps, isGap c = true) {c : Char}
    (hc : isGap c = false) (cs : List Char) (pos : Nat) :
    ∃ stop, skipGaps ⟨gaps ++ c :: cs, pos⟩ = ⟨c :: cs, stop⟩ := by
  refine ⟨pos + gaps.length, ?_⟩
  simp only [skipGaps, List.dropWhile_append_of_pos hg, List.takeWhile_append_of_pos hg]
  simp [hc]

lemma isGap_of_mem_writeBreak (depth : Nat) : ∀ c ∈ writeBreak depth, isGap c = true := by
  intro c hc
  rcases List.mem_cons.mp hc with rfl | hc
  · rfl
  · rw [List.eq_of_mem_replicate hc]
    rfl

/-- A written string with anything behind it, as the reader takes it. -/
lemma writeText_append (s : String) (left : List Char) :
    writeText s ++ left = '"' :: (s.toList.flatMap writeChar ++ '"' :: left) := by
  simp [writeText]

/-- A written string is read back as a value. -/
theorem readsValue_writeText (s : String) : ReadsValue (writeText s) (.text s) where
  head := ⟨'"', _, rfl, rfl⟩
  reads fuel left pos hfuel := by
    cases fuel with
    | zero => simp [writeText] at hfuel
    | succ fuel =>
      obtain ⟨stop, h⟩ := readsText_flatMap_writeChar s.toList left pos (pos + 1)
      refine ⟨stop, ?_⟩
      rw [writeText_append, readValue]
      simp only [h]
      show Except.ok (text (String.ofList s.toList), _) = _
      rw [String.ofList_toList]

/-! ## Objects -/

/-- The written form of a member at a depth. -/
def writeMember (depth : Nat) (m : String × List Char) : List Char :=
  writeBreak (depth + 1) ++ writeText m.1 ++ [':', ' '] ++ m.2

lemma writeObject_cons (depth : Nat) (m : String × List Char) (ms : List (String × List Char)) :
    writeObject depth (m :: ms) = '{' :: writeMember depth m ++
      ms.flatMap (fun m => ',' :: writeMember depth m) ++ writeBreak depth ++ ['}'] := rfl

/-- The written members of an object from the name of one on, up to its end. -/
def writeRest (depth : Nat) (m : String × List Char) (ms : List (String × List Char)) : List Char :=
  writeText m.1 ++ ':' :: ' ' :: m.2 ++
    (ms.flatMap (fun m => ',' :: writeMember depth m) ++ writeBreak depth ++ ['}'])

lemma writeObject_cons_eq_writeRest (depth : Nat) (m : String × List Char)
    (ms : List (String × List Char)) :
    writeObject depth (m :: ms) = '{' :: (writeBreak (depth + 1) ++ writeRest depth m ms) := by
  simp [writeObject_cons, writeMember, writeRest]

lemma writeRest_cons (depth : Nat) (m m' : String × List Char) (ms : List (String × List Char)) :
    writeRest depth m (m' :: ms) =
      writeText m.1 ++ ':' :: ' ' :: m.2 ++ ',' :: (writeBreak (depth + 1) ++ writeRest depth m' ms) := by
  simp [writeMember, writeRest]

/-- The name and the value of a member are read, and with them the reading has come to what is
behind them. -/
lemma exists_readMember {input : List Char} {value : Json} (hv : ReadsValue input value)
    (name : String) (tail : List Char) {fuel : Nat} (hfuel : input.length ≤ fuel) (start pos : Nat) :
    ∃ next stop, readText start (name.toList.flatMap writeChar ++ '"' :: ':' :: ' ' :: (input ++ tail))
        pos = .ok (name.toList, ⟨':' :: ' ' :: (input ++ tail), next⟩) ∧
      readValue fuel (skipGaps ⟨' ' :: (input ++ tail), next + 1⟩) = .ok (value, ⟨tail, stop⟩) := by
  obtain ⟨next, hnext⟩ := readsText_flatMap_writeChar name.toList (':' :: ' ' :: (input ++ tail)) start pos
  obtain ⟨c, cs, rfl, hc⟩ := hv.head
  obtain ⟨at_, hgaps⟩ := exists_skipGaps (by simp [isGap] : ∀ c ∈ [' '], isGap c = true) hc (cs ++ tail) (next + 1)
  obtain ⟨stop, hstop⟩ := hv.reads fuel tail at_ hfuel
  refine ⟨next, stop, hnext, ?_⟩
  rw [List.cons_append] at hstop
  exact hgaps ▸ hstop

variable {input : List Char} {value : Json} {fuel : Nat}

/-- After its last member an object ends. -/
lemma exists_readMembers_last (members : List (String × Json)) (hv : ReadsValue input value) (hfuel : input.length ≤ fuel)
    (name : String) {gaps : List Char} (hg : ∀ c ∈ gaps, isGap c = true) (left : List Char)
    (pos : Nat) :
    ∃ stop, readMembers (fuel + 1) members
        ⟨writeText name ++ ':' :: ' ' :: input ++ (gaps ++ '}' :: left), pos⟩ =
      .ok (.object (Table.put name value members), ⟨left, stop⟩) := by
  obtain ⟨next, stop, hname, hvalue⟩ :=
    exists_readMember hv name (gaps ++ '}' :: left) hfuel pos (pos + 1)
  obtain ⟨last, hlast⟩ := exists_skipGaps hg (c := '}') rfl left stop
  refine ⟨last + 1, ?_⟩
  simp only [List.append_assoc, writeText_append, List.cons_append, readMembers, hname]
  show (readValue fuel (skipGaps ⟨' ' :: (input ++ (gaps ++ '}' :: left)), next + 1⟩)).bind _ = _
  rw [hvalue]
  simp only [Except.bind, hlast, String.ofList_toList]
  rfl

/-- After a member and a comma the next member is read. -/
lemma exists_readMembers_next (members : List (String × Json)) (hv : ReadsValue input value) (hfuel : input.length ≤ fuel)
    (name : String) {gaps : List Char} (hg : ∀ c ∈ gaps, isGap c = true) {c : Char}
    (hc : isGap c = false) (cs : List Char) (pos : Nat) :
    ∃ stop, readMembers (fuel + 1) members
        ⟨writeText name ++ ':' :: ' ' :: input ++ ',' :: (gaps ++ c :: cs), pos⟩ =
      readMembers fuel (Table.put name value members) ⟨c :: cs, stop⟩ := by
  obtain ⟨next, stop, hname, hvalue⟩ :=
    exists_readMember hv name (',' :: (gaps ++ c :: cs)) hfuel pos (pos + 1)
  obtain ⟨first, hfirst⟩ := exists_skipGaps hg hc cs (stop + 1)
  refine ⟨first, ?_⟩
  simp only [List.append_assoc, writeText_append, List.cons_append, readMembers, hname]
  show (readValue fuel (skipGaps ⟨' ' :: (input ++ ',' :: (gaps ++ c :: cs)), next + 1⟩)).bind _ = _
  rw [hvalue]
  simp only [Except.bind, skipGaps_of_head (c := ',') rfl, hfirst,
    String.ofList_toList]

lemma length_lt_writeRest (depth : Nat) (m : String × List Char) (ms : List (String × List Char)) :
    m.2.length < (writeRest depth m ms).length := by
  simp only [writeRest, List.length_append, List.length_cons]
  omega

/-- The members of an object are read one after the other; names that are new are added behind those
that have been read. -/
lemma exists_readMembers (depth : Nat) (members : List (String × Json))
    (m : String × List Char × Json) (ms : List (String × List Char × Json))
    (hv : ∀ n ∈ m :: ms, ReadsValue n.2.1 n.2.2)
    (hd : (members.map Prod.fst ++ (m :: ms).map Prod.fst).Nodup) {fuel : Nat} (left : List Char)
    (pos : Nat)
    (hfuel : (writeRest depth (m.1, m.2.1) (ms.map fun m => (m.1, m.2.1))).length ≤ fuel) :
    ∃ stop, readMembers fuel members
      ⟨writeRest depth (m.1, m.2.1) (ms.map fun m => (m.1, m.2.1)) ++ left, pos⟩ =
        .ok (.object (members ++ (m :: ms).map fun m => (m.1, m.2.2)), ⟨left, stop⟩) := by
  induction ms generalizing m members fuel pos with
  | nil =>
    have hlength := Nat.lt_of_lt_of_le (length_lt_writeRest depth (m.1, m.2.1) []) hfuel
    obtain ⟨fuel, rfl⟩ := Nat.exists_eq_add_one_of_ne_zero (Nat.ne_zero_of_lt hlength)
    have hnew : m.1 ∉ members.map Prod.fst := by
      rw [List.nodup_append] at hd
      exact fun h => hd.2.2 _ h _ (List.mem_cons_self ..) rfl
    obtain ⟨stop, h⟩ := exists_readMembers_last members (hv m (List.mem_cons_self ..))
      (Nat.le_of_lt_succ hlength) m.1 (isGap_of_mem_writeBreak depth) left pos
    refine ⟨stop, ?_⟩
    rw [Table.put_of_not_mem hnew] at h
    simpa [writeRest] using h
  | cons m' ms ih =>
    have hlength := Nat.lt_of_lt_of_le (length_lt_writeRest depth (m.1, m.2.1) _) hfuel
    obtain ⟨fuel, rfl⟩ := Nat.exists_eq_add_one_of_ne_zero (Nat.ne_zero_of_lt hlength)
    have hnew : m.1 ∉ members.map Prod.fst := by
      rw [List.nodup_append] at hd
      exact fun h => hd.2.2 _ h _ (List.mem_cons_self ..) rfl
    rw [List.map_cons, writeRest_cons] at hfuel ⊢
    have hrest : (writeRest depth (m'.1, m'.2.1) (ms.map fun m => (m.1, m.2.1))).length ≤ fuel := by
      simp only [List.length_append, List.length_cons] at hfuel
      omega
    obtain ⟨cs, hcs⟩ : ∃ cs, writeRest depth (m'.1, m'.2.1) (ms.map fun m => (m.1, m.2.1)) ++ left =
        '"' :: cs := ⟨_, rfl⟩
    obtain ⟨next, h⟩ := exists_readMembers_next members (hv m (List.mem_cons_self ..))
      (Nat.le_of_lt_succ hlength) m.1 (isGap_of_mem_writeBreak (depth + 1))
      (show isGap '"' = false from rfl) cs pos
    rw [Table.put_of_not_mem hnew] at h
    obtain ⟨stop, hstop⟩ := ih (members ++ [(m.1, m.2.2)]) m'
      (fun n hn => hv n (List.mem_cons_of_mem _ hn)) (by simpa using hd) next hrest
    refine ⟨stop, ?_⟩
    rw [hcs] at hstop
    simp only [List.append_assoc, List.cons_append, hcs] at h ⊢
    rw [h, hstop]
    simp

/-- A written object is read back with its members in the order in which they were written. -/
theorem readsValue_writeObject (depth : Nat) {ms : List (String × List Char × Json)}
    (hv : ∀ m ∈ ms, ReadsValue m.2.1 m.2.2) (hd : (ms.map Prod.fst).Nodup) :
    ReadsValue (writeObject depth (ms.map fun m => (m.1, m.2.1)))
      (.object (ms.map fun m => (m.1, m.2.2))) := by
  cases ms with
  | nil =>
    refine ⟨⟨'{', _, rfl, rfl⟩, fun fuel left pos hfuel => ?_⟩
    obtain ⟨fuel, rfl⟩ := Nat.exists_eq_add_one_of_ne_zero (Nat.ne_zero_of_lt hfuel)
    exact ⟨pos + 2, rfl⟩
  | cons m ms =>
    rw [List.map_cons, writeObject_cons_eq_writeRest]
    refine ⟨⟨'{', _, rfl, rfl⟩, fun fuel left pos hfuel => ?_⟩
    rw [List.length_cons] at hfuel
    obtain ⟨fuel, rfl⟩ := Nat.exists_eq_add_one_of_ne_zero (Nat.ne_zero_of_lt hfuel)
    have hrest : (writeRest depth (m.1, m.2.1) (ms.map fun m => (m.1, m.2.1))).length ≤ fuel := by
      rw [List.length_append] at hfuel
      omega
    obtain ⟨cs, hcs⟩ : ∃ cs, writeRest depth (m.1, m.2.1) (ms.map fun m => (m.1, m.2.1)) ++ left =
        '"' :: cs := ⟨_, rfl⟩
    obtain ⟨first, hfirst⟩ := exists_skipGaps (isGap_of_mem_writeBreak (depth + 1))
      (show isGap '"' = false from rfl) cs (pos + 1)
    obtain ⟨stop, hstop⟩ := exists_readMembers depth [] m ms hv (by simpa using hd) left first hrest
    refine ⟨stop, ?_⟩
    rw [hcs] at hstop
    rw [List.cons_append, List.append_assoc, hcs, readValue]
    simp only [hfirst]
    exact hstop

/-- A document that consists of a value denotes it. -/
theorem ReadsValue.read_eq {value : Json} {input : List Char} (h : ReadsValue input value)
    (hmark : input.head? ≠ some '\ufeff') : Json.read (String.ofList input) = .ok value := by
  obtain ⟨c, cs, rfl, hc⟩ := h.head
  obtain ⟨stop, hstop⟩ := h.reads (2 * (c :: cs).length + 2) [] 0 (by omega)
  rw [List.append_nil] at hstop
  rw [Json.read, readChars, String.toList_ofList, if_neg hmark, readUnmarked, skipGaps_of_head hc]
  rw [hstop]
  rfl

end SourceBundle.Json
