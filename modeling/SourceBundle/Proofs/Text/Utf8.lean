/-
# What is encoded can be decoded

The bytes of a text are those of its characters one after the other, and decoding them gives the text back.
-/
import Mathlib.Tactic.Common
import SourceBundle.Text.Utf8

namespace SourceBundle.Text.Utf8

variable {c : Char} {pos : Nat} {rest : List UInt8}

/-! ## The bytes of a text -/

lemma toList_loop (bytes : ByteArray) (i : Nat) (taken : List UInt8) :
    ByteArray.toList.loop bytes i taken = taken.reverse ++ bytes.data.toList.drop i := by
  fun_induction ByteArray.toList.loop bytes i taken with
  | case1 i taken hlt ih =>
    have hlength : i < bytes.data.toList.length := hlt
    have hget : bytes.get! i = bytes.data.toList[i] := getElem!_pos bytes.data i hlt
    rw [ih, hget, List.drop_eq_getElem_cons hlength, List.reverse_cons, List.append_assoc]
    rfl
  | case2 i taken hle =>
    have hnone : bytes.data.toList.drop i = [] := List.drop_eq_nil_of_le (Nat.le_of_not_lt hle)
    rw [hnone, List.append_nil]

lemma encode_eq (s : String) : encode s = s.toList.flatMap String.utf8EncodeChar := by
  rw [encode, ByteArray.toList, toList_loop, String.toUTF8_eq_toByteArray, ← String.utf8Encode_toList]
  exact List.toList_data_toByteArray

/-! ## One character -/

lemma toNat_ofNat {n : Nat} (h : n < 256) : (UInt8.ofNat n).toNat = n := by
  rw [UInt8.toNat_ofNat']
  exact Nat.mod_eq_of_lt h

/-- No character stands for half of a pair. -/
lemma toNat_cases (c : Char) : c.toNat < 0xD800 ∨ 0xDFFF < c.toNat ∧ c.toNat < 0x110000 := c.valid

lemma decodeFrom_skip (more : List UInt8) (pos : Nat) :
    decodeFrom pos more.length (more ++ rest) = decodeFrom (pos + more.length) 0 rest := by
  induction more generalizing pos with
  | nil => rfl
  | cons b more ih =>
    rw [List.cons_append, List.length_cons, decodeFrom, ih, Nat.add_assoc, Nat.add_comm 1]

/-- A sequence of bytes from which a character is read. -/
structure Sequence (c : Char) (b : UInt8) (more : List UInt8) (l : Lead) : Prop where
  lead : lead? b.toNat = some l
  length : more.length = l.more
  tail : ∀ rest, Utf8.tail l.bits l.more l.low l.high 1 (more ++ rest) = .ok c.toNat

lemma Sequence.decodeFrom {b : UInt8} {more : List UInt8} {l : Lead} (h : Sequence c b more l)
    (pos : Nat) (rest : List UInt8) :
    decodeFrom pos 0 (b :: more ++ rest) =
      (decodeFrom (pos + 1 + more.length) 0 rest).map (c :: ·) := by
  rw [List.cons_append, Utf8.decodeFrom, h.lead]
  dsimp only
  rw [h.tail, ← h.length, ← decodeFrom_skip more (pos + 1)]
  dsimp only
  cases Utf8.decodeFrom (pos + 1) more.length (more ++ rest) with
  | error e => rfl
  | ok cs => rw [Char.ofNat_toNat]; rfl

lemma tail_cons {code more low high taken n : Nat} (hlow : low ≤ n) (hhigh : n ≤ high) (hn : n < 256) :
    tail code (more + 1) low high taken (UInt8.ofNat n :: rest) =
      tail (code * 64 + (n - 0x80)) more 0x80 0xBF (taken + 1) rest := by
  rw [tail, toNat_ofNat hn, if_pos ⟨hlow, hhigh⟩]

lemma sequence_one (h : c.toNat ≤ 0x7F) : Sequence c (UInt8.ofNat c.toNat) [] ⟨c.toNat, 0, 0, 0⟩ where
  lead := by rw [toNat_ofNat (by omega), lead?, if_pos (by omega)]
  length := rfl
  tail _ := rfl

lemma sequence_two (h : ¬ c.toNat ≤ 0x7F) (h' : c.toNat ≤ 0x7FF) :
    Sequence c (UInt8.ofNat (c.toNat / 64 % 32 + 192)) [UInt8.ofNat (c.toNat % 64 + 128)]
      ⟨c.toNat / 64 % 32, 1, 0x80, 0xBF⟩ where
  lead := by
    rw [toNat_ofNat (by omega), lead?, if_neg (by omega), if_neg (by omega), if_pos (by omega),
      Nat.add_sub_cancel]
  length := rfl
  tail rest := by
    dsimp only
    rw [List.singleton_append, tail_cons (by omega) (by omega) (by omega), Utf8.tail]
    exact congrArg Except.ok (by omega)

lemma sequence_three (h : ¬ c.toNat ≤ 0x7FF) (h' : c.toNat ≤ 0xFFFF) :
    Sequence c (UInt8.ofNat (c.toNat / 4096 % 16 + 224))
      [UInt8.ofNat (c.toNat / 64 % 64 + 128), UInt8.ofNat (c.toNat % 64 + 128)]
      ⟨c.toNat / 4096 % 16, 2, if c.toNat / 4096 % 16 + 224 = 0xE0 then 0xA0 else 0x80,
        if c.toNat / 4096 % 16 + 224 = 0xED then 0x9F else 0xBF⟩ where
  lead := by
    rw [toNat_ofNat (by omega), lead?, if_neg (by omega), if_neg (by omega), if_neg (by omega),
      if_pos (by omega), Nat.add_sub_cancel]
  length := rfl
  tail rest := by
    -- behind the lead 0xED, all of the upper half would be halves of pairs
    have hchar := toNat_cases c
    have hlow : (if c.toNat / 4096 % 16 + 224 = 0xE0 then 0xA0 else 0x80) ≤ c.toNat / 64 % 64 + 128 := by
      split <;> omega
    have hhigh : c.toNat / 64 % 64 + 128 ≤ if c.toNat / 4096 % 16 + 224 = 0xED then 0x9F else 0xBF := by
      split <;> omega
    dsimp only
    rw [List.cons_append, List.singleton_append, tail_cons hlow hhigh (by omega),
      tail_cons (by omega) (by omega) (by omega), Utf8.tail]
    exact congrArg Except.ok (by omega)

lemma sequence_four (h : ¬ c.toNat ≤ 0xFFFF) :
    Sequence c (UInt8.ofNat (c.toNat / 262144 % 8 + 240))
      [UInt8.ofNat (c.toNat / 4096 % 64 + 128), UInt8.ofNat (c.toNat / 64 % 64 + 128),
        UInt8.ofNat (c.toNat % 64 + 128)]
      ⟨c.toNat / 262144 % 8, 3, if c.toNat / 262144 % 8 + 240 = 0xF0 then 0x90 else 0x80,
        if c.toNat / 262144 % 8 + 240 = 0xF4 then 0x8F else 0xBF⟩ where
  lead := by
    have hchar := toNat_cases c
    rw [toNat_ofNat (by omega), lead?, if_neg (by omega), if_neg (by omega), if_neg (by omega),
      if_neg (by omega), if_pos (by omega), Nat.add_sub_cancel]
  length := rfl
  tail rest := by
    have hchar := toNat_cases c
    have hlow : (if c.toNat / 262144 % 8 + 240 = 0xF0 then 0x90 else 0x80) ≤
        c.toNat / 4096 % 64 + 128 := by
      split <;> omega
    have hhigh : c.toNat / 4096 % 64 + 128 ≤
        if c.toNat / 262144 % 8 + 240 = 0xF4 then 0x8F else 0xBF := by
      split <;> omega
    dsimp only
    rw [List.cons_append, List.cons_append, List.singleton_append, tail_cons hlow hhigh (by omega),
      tail_cons (by omega) (by omega) (by omega), tail_cons (by omega) (by omega) (by omega), Utf8.tail]
    exact congrArg Except.ok (by omega)

lemma exists_sequence (c : Char) :
    ∃ b more l, String.utf8EncodeChar c = b :: more ∧ Sequence c b more l := by
  have hval : c.val.toNat = c.toNat := rfl
  rw [String.utf8EncodeChar.eq_def, hval]
  dsimp only
  split
  · next h => exact ⟨_, _, _, rfl, sequence_one h⟩
  · next h =>
    split
    · next h' => exact ⟨_, _, _, rfl, sequence_two h h'⟩
    · next h' =>
      split
      · next h'' => exact ⟨_, _, _, rfl, sequence_three h' h''⟩
      · next h'' => exact ⟨_, _, _, rfl, sequence_four h''⟩

/-! ## Texts -/

lemma decodeFrom_flatMap (cs : List Char) (pos : Nat) :
    decodeFrom pos 0 (cs.flatMap String.utf8EncodeChar) = .ok cs := by
  induction cs generalizing pos with
  | nil => rfl
  | cons c cs ih =>
    obtain ⟨b, more, l, hbytes, hsequence⟩ := exists_sequence c
    rw [List.flatMap_cons, hbytes, hsequence.decodeFrom, ih]
    rfl

/-- **UTF-8.**  Every text comes back from its bytes. -/
theorem decode_encode (s : String) : decode (encode s) = .ok s := by
  rw [decode, encode_eq, decodeFrom_flatMap]
  exact congrArg Except.ok String.ofList_toList

end SourceBundle.Text.Utf8
