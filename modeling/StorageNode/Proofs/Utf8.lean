import StorageNode.Text.Utf8
import StorageNode.SortedMap

/-!
# Texts and their bytes

Texts are compared by their code points. `Utf8.encode_lt_encode` says that comparing their bytes
comes to the same: of two characters the smaller one has the smaller byte where their encodings
first differ (`Utf8.Encoding.diverge`), and neither encoding begins with the other.

`Utf8.text?_encode` says that the bytes of a text are read as the text. It goes character by character
(`Utf8.next_encodeChar`), and within a character from the lead byte on, six bits at a time.
-/

namespace StorageNode

namespace Utf8

/-! ## Byte sequences that part -/

/-- Two byte sequences part at some place, and the first one has the smaller byte there. -/
inductive Diverge : Bytes → Bytes → Prop
  | head {a b : UInt8} {xs ys : Bytes} (h : a < b) : Diverge (a :: xs) (b :: ys)
  | tail {a : UInt8} {xs ys : Bytes} (h : Diverge xs ys) : Diverge (a :: xs) (a :: ys)

/-- Sequences that part stay in order whatever follows. -/
theorem Diverge.lt_append {xs ys : Bytes} (h : Diverge xs ys) (us vs : Bytes) :
    xs ++ us < ys ++ vs := by
  induction h with
  | head h => exact List.Lex.rel h
  | tail _ ih => exact List.Lex.cons ih

/-- Bytes are compared by their numbers. -/
theorem ofNat_lt_ofNat {m n : Nat} (hn : n < 256) (h : m < n) : UInt8.ofNat m < UInt8.ofNat n := by
  rw [UInt8.lt_iff_toNat_lt]
  simpa [Nat.mod_eq_of_lt hn, Nat.mod_eq_of_lt (Nat.lt_trans h hn)] using h

/-- Sequences whose first bytes are equal or in order part if the rest does where they are equal. -/
theorem diverge_cons {m n : Nat} {xs ys : Bytes} (hn : n < 256) (hle : m ≤ n)
    (h : m = n → Diverge xs ys) : Diverge (UInt8.ofNat m :: xs) (UInt8.ofNat n :: ys) := by
  rcases Nat.lt_or_eq_of_le hle with hlt | rfl
  · exact .head (ofNat_lt_ofNat hn hlt)
  · exact .tail (h rfl)

/-! ## The bytes of a character -/

/-- The bytes of a code point: one to four, with six bits in each but the first. -/
inductive Encoding : Nat → Bytes → Prop
  | one {v : Nat} (h : v ≤ 0x7F) : Encoding v [UInt8.ofNat v]
  | two {v : Nat} (h : 0x7F < v) (h' : v ≤ 0x7FF) :
      Encoding v [UInt8.ofNat (v / 64 + 0xC0), UInt8.ofNat (v % 64 + 0x80)]
  | three {v : Nat} (h : 0x7FF < v) (h' : v ≤ 0xFFFF) :
      Encoding v [UInt8.ofNat (v / 4096 + 0xE0), UInt8.ofNat (v / 64 % 64 + 0x80),
        UInt8.ofNat (v % 64 + 0x80)]
  | four {v : Nat} (h : 0xFFFF < v) (h' : v < 0x110000) :
      Encoding v [UInt8.ofNat (v / 262144 + 0xF0), UInt8.ofNat (v / 4096 % 64 + 0x80),
        UInt8.ofNat (v / 64 % 64 + 0x80), UInt8.ofNat (v % 64 + 0x80)]

theorem encoding_encodeChar (c : Char) : Encoding c.val.toNat (String.utf8EncodeChar c) := by
  have hvalid : c.val.toNat < 0xD800 ∨ 0xDFFF < c.val.toNat ∧ c.val.toNat < 0x110000 := c.valid
  unfold String.utf8EncodeChar
  simp only
  generalize c.val.toNat = v at hvalid
  by_cases h1 : v ≤ 0x7F
  · rw [if_pos h1]
    exact .one h1
  rw [if_neg h1]
  by_cases h2 : v ≤ 0x7FF
  · rw [if_pos h2, Nat.mod_eq_of_lt (show v / 64 < 0x20 by omega)]
    exact .two (by omega) h2
  rw [if_neg h2]
  by_cases h3 : v ≤ 0xFFFF
  · rw [if_pos h3, Nat.mod_eq_of_lt (show v / 4096 < 0x10 by omega)]
    exact .three (by omega) h3
  · rw [if_neg h3, Nat.mod_eq_of_lt (show v / 262144 < 8 by omega)]
    exact .four (by omega) (by omega)

/-- **Code points and their bytes are ordered alike.** Encodings of different lengths part at the
first byte, which tells the length; those of one length are numbers in base 64. -/
theorem Encoding.diverge {m n : Nat} {xs ys : Bytes} (hm : Encoding m xs) (hn : Encoding n ys)
    (hlt : m < n) : Diverge xs ys := by
  cases hm with
  | one => cases hn <;> exact .head (ofNat_lt_ofNat (by omega) (by omega))
  | two =>
      cases hn with
      | one => omega
      | two =>
          exact diverge_cons (by omega) (by omega) fun _ =>
            diverge_cons (by omega) (by omega) (by omega)
      | three | four => exact .head (ofNat_lt_ofNat (by omega) (by omega))
  | three =>
      cases hn with
      | one | two => omega
      | three =>
          exact diverge_cons (by omega) (by omega) fun _ =>
            diverge_cons (by omega) (by omega) fun _ =>
              diverge_cons (by omega) (by omega) (by omega)
      | four => exact .head (ofNat_lt_ofNat (by omega) (by omega))
  | four =>
      cases hn with
      | one | two | three => omega
      | four =>
          exact diverge_cons (by omega) (by omega) fun _ =>
            diverge_cons (by omega) (by omega) fun _ =>
              diverge_cons (by omega) (by omega) fun _ =>
                diverge_cons (by omega) (by omega) (by omega)

theorem diverge_of_lt {c d : Char} (h : c < d) :
    Diverge (String.utf8EncodeChar c) (String.utf8EncodeChar d) :=
  (encoding_encodeChar c).diverge (encoding_encodeChar d) h

/-- Small numbers are bytes. -/
theorem toNat_ofNat {n : Nat} (h : n < 256) : (UInt8.ofNat n).toNat = n := by
  simpa using h

/-- Up to the last number of seven bits there is one byte. -/
theorem Encoding.eq_singleton {v : Nat} {bs : Bytes} (h : Encoding v bs) (hv : v ≤ 0x7F) :
    bs = [UInt8.ofNat v] := by
  cases h with
  | one => rfl
  | _ => omega

/-- Beyond it no byte is one of those. -/
theorem Encoding.le_toNat {v : Nat} {bs : Bytes} (h : Encoding v bs) (hv : 0x7F < v) {b : UInt8}
    (hb : b ∈ bs) : 0x80 ≤ b.toNat := by
  have hhigh : ∀ {n : Nat}, n + 0x80 < 256 → 0x80 ≤ (UInt8.ofNat (n + 0x80)).toNat := by
    intro n hn
    rw [toNat_ofNat hn]
    exact Nat.le_add_left _ _
  cases h with
  | one => omega
  | two =>
      simp only [List.mem_cons, List.not_mem_nil, or_false] at hb
      rcases hb with rfl | rfl
      · exact hhigh (n := v / 64 + 0x40) (by omega)
      · exact hhigh (by omega)
  | three =>
      simp only [List.mem_cons, List.not_mem_nil, or_false] at hb
      rcases hb with rfl | rfl | rfl
      · exact hhigh (n := v / 4096 + 0x60) (by omega)
      · exact hhigh (by omega)
      · exact hhigh (by omega)
  | four =>
      simp only [List.mem_cons, List.not_mem_nil, or_false] at hb
      rcases hb with rfl | rfl | rfl | rfl
      · exact hhigh (n := v / 262144 + 0x70) (by omega)
      · exact hhigh (by omega)
      · exact hhigh (by omega)
      · exact hhigh (by omega)

/-! ## Texts -/

instance : KeyOrder UInt8 where
  irrefl := UInt8.lt_irrefl
  trans := UInt8.lt_trans
  connected := UInt8.lt_or_lt_of_ne

/-- A smaller text has smaller bytes. -/
theorem flatMap_lt_flatMap : ∀ {cs ds : List Char}, cs < ds →
    cs.flatMap String.utf8EncodeChar < ds.flatMap String.utf8EncodeChar
  | [], d :: ds, _ => by
      obtain ⟨b, bs, hb⟩ := List.exists_cons_of_ne_nil (String.utf8EncodeChar_ne_nil (c := d))
      rw [List.flatMap_cons, hb, List.flatMap_nil, List.cons_append]
      exact List.Lex.nil
  | c :: cs, d :: ds, h => by
      rw [List.flatMap_cons, List.flatMap_cons]
      rcases List.cons_lt_cons_iff.mp h with hcd | ⟨rfl, hrest⟩
      · exact (diverge_of_lt hcd).lt_append _ _
      · exact List.append_left_lt (flatMap_lt_flatMap hrest)

/-- **Texts are ordered as their bytes are.** -/
theorem encode_lt_encode {s t : String} : encode s < encode t ↔ s < t := by
  have mono : ∀ {s t : String}, s < t → encode s < encode t := fun h =>
    flatMap_lt_flatMap (String.lt_iff.mp h)
  refine ⟨fun h => Decidable.by_contra fun hst => ?_, mono⟩
  rcases Decidable.em (s = t) with rfl | hne
  · exact KeyOrder.irrefl _ h
  · rcases KeyOrder.connected hne with hlt | hgt
    · exact hst hlt
    · exact KeyOrder.irrefl _ (KeyOrder.trans h (mono hgt))

/-! ## Reading back -/

/-- A number is put back together from its last six bits and the bits in front of them. -/
theorem bits_append (v : Nat) : v / 64 * 64 + v % 64 = v := by omega

/-- A continuation byte adds six bits. -/
theorem continued_ofNat {k value n : Nat} (bs : Bytes) (h : n < 64) :
    continued (k + 1) value (UInt8.ofNat (n + 0x80) :: bs) = continued k (value * 64 + n) bs := by
  have hwithin : within 0x80 0xBF (UInt8.ofNat (n + 0x80)) = true := by
    rw [within, toNat_ofNat (by omega), Bool.and_eq_true, decide_eq_true_eq, decide_eq_true_eq]
    omega
  rw [continued, if_pos hwithin, toNat_ofNat (by omega), Nat.add_sub_cancel]

/-- A lead byte of two, with the bits it carries. -/
theorem announced?_two {n : Nat} (h : 2 ≤ n) (h' : n < 32) :
    announced? (UInt8.ofNat (n + 0xC0)) = some (n, 0x80, 0xBF, 0) := by
  rw [announced?, toNat_ofNat (by omega)]
  simp only [Bool.and_eq_true, decide_eq_true_eq, Nat.add_sub_cancel]
  rw [if_pos (by omega)]

/-- A lead byte of three. -/
theorem announced?_three {n : Nat} (h : n < 16) :
    announced? (UInt8.ofNat (n + 0xE0)) =
      some (n, if n = 0 then 0xA0 else 0x80, if n = 13 then 0x9F else 0xBF, 1) := by
  rw [announced?, toNat_ofNat (by omega)]
  simp only [Bool.and_eq_true, decide_eq_true_eq, Nat.add_sub_cancel]
  rw [if_neg (by omega), if_pos (by omega)]
  simp

/-- A lead byte of four. -/
theorem announced?_four {n : Nat} (h : n < 5) :
    announced? (UInt8.ofNat (n + 0xF0)) =
      some (n, if n = 0 then 0x90 else 0x80, if n = 4 then 0x8F else 0xBF, 2) := by
  rw [announced?, toNat_ofNat (by omega)]
  simp only [Bool.and_eq_true, decide_eq_true_eq, Nat.add_sub_cancel]
  rw [if_neg (by omega), if_neg (by omega), if_pos (by omega)]
  simp

/-- A lead byte and the byte behind it begin a character. -/
theorem next_ofNat {m n value lo hi k : Nat} (bs : Bytes) (hm : m < 256) (hlead : 0x80 ≤ m)
    (hn : n < 64) (h : announced? (UInt8.ofNat m) = some (value, lo, hi, k)) (hlo : lo ≤ n + 0x80)
    (hhi : n + 0x80 ≤ hi) :
    next (UInt8.ofNat m) (UInt8.ofNat (n + 0x80) :: bs) = continued k (value * 64 + n) bs := by
  have hnot : ¬ UInt8.ofNat m < 0x80 := by
    rw [UInt8.lt_iff_toNat_lt, toNat_ofNat hm]
    exact Nat.not_lt.mpr hlead
  have hwithin : within lo hi (UInt8.ofNat (n + 0x80)) = true := by
    rw [within, toNat_ofNat (by omega), Bool.and_eq_true, decide_eq_true_eq, decide_eq_true_eq]
    exact ⟨hlo, hhi⟩
  rw [next, if_neg hnot, h]
  simp only [hwithin, if_true, toNat_ofNat (show n + 0x80 < 256 by omega), Nat.add_sub_cancel]

theorem Encoding.next {v : Nat} {cs : Bytes} (h : Encoding v cs)
    (hvalid : v < 0xD800 ∨ 0xDFFF < v) (bs : Bytes) : ∃ lead tail,
      cs = lead :: tail ∧ next lead (tail ++ bs) = (.char (Char.ofNat v), bs) := by
  cases h with
  | one h =>
      have hlt : UInt8.ofNat v < 0x80 := by
        rw [UInt8.lt_iff_toNat_lt, toNat_ofNat (by omega)]
        exact Nat.lt_succ_of_le h
      refine ⟨_, _, rfl, ?_⟩
      rw [Utf8.next, if_pos hlt, toNat_ofNat (by omega), List.nil_append]
  | two =>
      refine ⟨_, _, rfl, ?_⟩
      rw [List.cons_append, next_ofNat _ (by omega) (by omega) (by omega)
        (announced?_two (by omega) (by omega)) (by omega) (by omega), continued, bits_append,
        List.nil_append]
  | three =>
      refine ⟨_, _, rfl, ?_⟩
      have hbits : v / 4096 * 64 + v / 64 % 64 = v / 64 := by omega
      rw [List.cons_append, List.cons_append, next_ofNat _ (by omega) (by omega) (by omega)
        (announced?_three (by omega)) (by split <;> omega) (by split <;> omega),
        continued_ofNat _ (by omega), continued, hbits, bits_append, List.nil_append]
  | four =>
      refine ⟨_, _, rfl, ?_⟩
      have hbits : v / 262144 * 64 + v / 4096 % 64 = v / 4096 := by omega
      have hbits' : v / 4096 * 64 + v / 64 % 64 = v / 64 := by omega
      rw [List.cons_append, List.cons_append, List.cons_append, next_ofNat _ (by omega) (by omega)
        (by omega) (announced?_four (by omega)) (by split <;> omega) (by split <;> omega),
        continued_ofNat _ (by omega), continued_ofNat _ (by omega), continued, hbits, hbits',
        bits_append, List.nil_append]

/-- **The bytes of a character are read as the character.** -/
theorem next_encodeChar (c : Char) (bs : Bytes) : ∃ lead tail,
    String.utf8EncodeChar c = lead :: tail ∧ next lead (tail ++ bs) = (.char c, bs) := by
  have hvalid : c.val.toNat < 0xD800 ∨ 0xDFFF < c.val.toNat ∧ c.val.toNat < 0x110000 := c.valid
  have hc : Char.ofNat c.val.toNat = c := Char.ofNat_toNat c
  have hnext := (encoding_encodeChar c).next (hvalid.imp_right And.left) bs
  rwa [hc] at hnext

/-- Encoded characters are read back. -/
theorem decode?_flatMap : ∀ cs : List Char, decode? (cs.flatMap String.utf8EncodeChar) = some cs
  | [] => by rw [List.flatMap_nil, decode?]
  | c :: cs => by
      obtain ⟨lead, tail, hchar, hnext⟩ := next_encodeChar c (cs.flatMap String.utf8EncodeChar)
      rw [List.flatMap_cons, hchar, List.cons_append, decode?]
      split
      · next c' rest h =>
          obtain ⟨rfl, rfl⟩ : c = c' ∧ _ = rest := by simpa [hnext] using h
          rw [decode?_flatMap cs]
          rfl
      · next h => simp [hnext] at h

/-- **A text is what its bytes are read as.** -/
theorem text?_encode (s : String) : text? (encode s) = some s := by
  rw [text?, encode, decode?_flatMap, Option.map_some, String.ofList_toList]

end Utf8

end StorageNode
