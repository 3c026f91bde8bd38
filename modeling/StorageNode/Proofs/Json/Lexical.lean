import StorageNode.Json.Decode
import StorageNode.Proofs.Json.Grammar
import StorageNode.Proofs.Utf8

/-!
# Strings and numbers are read

A reader of a value meets blanks, then a text of the value, then something that may stand behind a value
(`Json.Reads`). Strings are read whatever escapes they are spelled with (`Json.string_reads`): a
character gives its own bytes, and all the bytes together are the text's (`Json.stringBytes_spelled`).
Numbers below `2 ^ 64` are read from their digits (`Json.natBelow_reads`), which is where something has to
follow that is no digit.

Where a string is only skipped, more is let through (`Json.skipString_body`).
-/

namespace StorageNode.Json

/-! ## Blanks -/

theorem isBlank_iff {b : UInt8} : isBlank b = true ↔ BlankByte b := by
  simp [isBlank, BlankByte, or_assoc]

/-- Blanks in front are skipped. -/
theorem skipBlanks_append {w : Bytes} (h : Blank w) (bs : Bytes) :
    skipBlanks (w ++ bs) = skipBlanks bs :=
  List.dropWhile_append_of_pos fun b hb => isBlank_iff.mpr (h b hb)

/-- The first byte that is no blank is found behind the blanks. -/
theorem skipBlanks_to {w : Bytes} (h : Blank w) {b : UInt8} (hb : ¬ BlankByte b) (bs : Bytes) :
    skipBlanks (w ++ b :: bs) = b :: bs := by
  rw [skipBlanks_append h]
  exact List.dropWhile_cons_of_neg (mt isBlank_iff.mp hb)

theorem blank_nil : Blank [] := fun _ h => absurd h List.not_mem_nil

theorem skipBlanks_eq_nil {w : Bytes} (h : Blank w) : skipBlanks w = [] := by
  rw [← List.append_nil w, skipBlanks_append h]
  rfl

theorem delimited_cons {b : UInt8} (bs : Bytes)
    (h : BlankByte b ∨ b = 0x2C ∨ b = 0x5D ∨ b = 0x7D) : Delimited (b :: bs) := by
  rintro c ⟨⟩
  exact h

/-- Blanks may stand behind a value, if what they stand in front of may. -/
theorem Blank.delimited {w rest : Bytes} (h : Blank w) (hrest : Delimited rest) :
    Delimited (w ++ rest) := by
  cases w with
  | nil => exact hrest
  | cons b w => exact delimited_cons _ (.inl (h b List.mem_cons_self))

/-- A text begins with a byte that is no blank and closes no array. -/
def Opens (bs : Bytes) : Prop := ∃ b rest, bs = b :: rest ∧ ¬ BlankByte b ∧ b ≠ 0x5D

/-- **A reader reads the texts of a value**, whatever blanks stand in front and whatever may stand
behind. -/
structure Reads {α : Type} (read : Reader α) (text : Bytes → Prop) (a : α) : Prop where
  opens : ∀ {bs}, text bs → Opens bs
  eq_ok : ∀ {bs w rest}, text bs → Blank w → Delimited rest → read (w ++ (bs ++ rest)) = .ok (a, rest)

/-! ## Hexadecimal digits -/

theorem hexValue?_of_hexDigit {b : UInt8} {n : Nat} (h : HexDigit b n) : hexValue? b = some n := by
  have hdecimal : ∀ n < 10, hexValue? (UInt8.ofNat (0x30 + n)) = some n := by decide
  have hupper : ∀ n < 6, hexValue? (UInt8.ofNat (0x41 + n)) = some (10 + n) := by decide
  have hlower : ∀ n < 6, hexValue? (UInt8.ofNat (0x61 + n)) = some (10 + n) := by decide
  cases h with
  | decimal h => exact hdecimal _ h
  | upper h => exact hupper _ h
  | lower h => exact hlower _ h

/-- Four digits are read as the number that they write. -/
theorem hexQuad_append {n : Nat} {q : Bytes} (h : HexQuad n q) (rest : Bytes) :
    hexQuad (q ++ rest) = .ok (n, rest) := by
  cases h with
  | mk ha hb hc hd =>
      simp only [List.cons_append, List.nil_append, hexQuad, hexValue?_of_hexDigit ha,
        hexValue?_of_hexDigit hb, hexValue?_of_hexDigit hc, hexValue?_of_hexDigit hd]

/-! ## Strings that are read -/

/-- The bytes of a character that need no escape need none. -/
theorem plain_of_mem_encodeChar {c : Char} (hquote : c ≠ '"') (hslash : c ≠ '\\')
    (hcontrol : 0x20 ≤ c.toNat) {b : UInt8} (hb : b ∈ String.utf8EncodeChar c) :
    b ≠ 0x22 ∧ b ≠ 0x5C ∧ ¬ b < 0x20 := by
  have hencoding := Utf8.encoding_encodeChar c
  have hplain : 0x20 ≤ b.toNat ∧ b.toNat ≠ 0x22 ∧ b.toNat ≠ 0x5C := by
    by_cases hlow : c.val.toNat ≤ 0x7F
    · have hne : ∀ d : Char, c ≠ d → c.val.toNat ≠ d.toNat := fun d hcd heq =>
        hcd (Char.ext (UInt32.toNat_inj.mp heq))
      rw [hencoding.eq_singleton hlow] at hb
      obtain rfl := List.mem_singleton.mp hb
      rw [Utf8.toNat_ofNat (by omega)]
      exact ⟨hcontrol, hne _ hquote, hne _ hslash⟩
    · have hhigh := hencoding.le_toNat (Nat.lt_of_not_le hlow) hb
      omega
  obtain ⟨hlow, hquote', hslash'⟩ := hplain
  refine ⟨fun heq => hquote' (congrArg UInt8.toNat heq), fun heq => hslash' (congrArg UInt8.toNat heq),
    fun hlt => ?_⟩
  rw [UInt8.lt_iff_toNat_lt] at hlt
  exact Nat.not_lt.mpr hlow hlt

/-- What is read of a string when `out` stands in front of what `bs` is read as. -/
def prepend (out : Bytes) : Except Failure (Bytes × Bytes) → Except Failure (Bytes × Bytes) :=
  Except.map fun (tail, rest) => (out ++ tail, rest)

theorem stringBytes_cons_plain {b : UInt8} (hquote : b ≠ 0x22) (hslash : b ≠ 0x5C)
    (hcontrol : ¬ b < 0x20) (bs : Bytes) :
    stringBytes (b :: bs) = prepend [b] (stringBytes bs) := by
  rw [stringBytes, if_neg hquote, if_neg hslash, if_neg hcontrol]
  cases stringBytes bs <;> rfl

theorem stringBytes_plain {p : Bytes} (h : ∀ b ∈ p, b ≠ 0x22 ∧ b ≠ 0x5C ∧ ¬ b < 0x20)
    (bs : Bytes) : stringBytes (p ++ bs) = prepend p (stringBytes bs) := by
  induction p with
  | nil =>
      rw [List.nil_append]
      cases stringBytes bs <;> rfl
  | cons b p ih =>
      obtain ⟨⟨hquote, hslash, hcontrol⟩, hp⟩ := List.forall_mem_cons.mp h
      rw [List.cons_append, stringBytes_cons_plain hquote hslash hcontrol, ih hp]
      cases stringBytes bs <;> rfl

theorem stringBytes_escape {bs rest out : Bytes} (h : escape bs = .ok (out, rest)) :
    stringBytes (0x5C :: bs) = prepend out (stringBytes rest) := by
  rw [stringBytes, if_neg (by decide), if_pos rfl]
  split
  · next e he => simp [h] at he
  · next out' rest' he =>
      obtain ⟨rfl, rfl⟩ := Prod.mk.inj (Except.ok.inj (h.symm.trans he))
      cases stringBytes rest <;> rfl

theorem escape_short {b : UInt8} {c : Char} (h : (b, c) ∈ shortEscapes) (bs : Bytes) :
    escape (b :: bs) = .ok (String.utf8EncodeChar c, bs) := by
  have hall : ∀ e ∈ shortEscapes, shortEscape? e.1 = some (UInt8.ofNat e.2.toNat) ∧
      String.utf8EncodeChar e.2 = [UInt8.ofNat e.2.toNat] := by decide
  obtain ⟨hshort, hbytes⟩ := hall _ h
  rw [escape, hshort, hbytes]

/-- The digits of a character's number are read as the character. -/
theorem escape_digits {c : Char} {q : Bytes} (h : HexQuad c.toNat q) (bs : Bytes) :
    escape (0x75 :: (q ++ bs)) = .ok (String.utf8EncodeChar c, bs) := by
  have hvalid : c.toNat < 0xD800 ∨ 0xDFFF < c.toNat ∧ c.toNat < 0x110000 := c.valid
  have hunicode : unicodeEscape (q ++ bs) = .ok (String.utf8EncodeChar c, bs) := by
    simp only [unicodeEscape, hexQuad_append h, Bool.and_eq_true, Bool.or_eq_true,
      decide_eq_true_eq]
    rw [if_neg (by omega), if_pos (by omega), Char.ofNat_toNat]
  exact hunicode

/-- The halves of a surrogate pair are read as the character. -/
theorem escape_pair {c : Char} {high low : Nat} {p q : Bytes} (hp : HexQuad high p)
    (hq : HexQuad low q) (hhigh : 0xD800 ≤ high ∧ high ≤ 0xDBFF)
    (hlow : 0xDC00 ≤ low ∧ low ≤ 0xDFFF)
    (hc : c.toNat = (high - 0xD800) * 1024 + (low - 0xDC00) + 0x10000) (bs : Bytes) :
    escape (0x75 :: (p ++ 0x5C :: 0x75 :: (q ++ bs))) = .ok (String.utf8EncodeChar c, bs) := by
  have hpaired : pairedEscape high (0x5C :: 0x75 :: (q ++ bs)) =
      .ok (String.utf8EncodeChar c, bs) := by
    simp only [pairedEscape, hexQuad_append hq, Bool.or_eq_true, decide_eq_true_eq]
    rw [if_neg (by omega), ← hc, Char.ofNat_toNat]
  have hunicode : unicodeEscape (p ++ 0x5C :: 0x75 :: (q ++ bs)) =
      .ok (String.utf8EncodeChar c, bs) := by
    simp only [unicodeEscape, hexQuad_append hp, Bool.and_eq_true, Bool.or_eq_true,
      decide_eq_true_eq]
    rw [if_neg (by omega), if_neg (by omega), hpaired]
  exact hunicode

/-- However a character is spelled, its bytes are read. -/
theorem stringBytes_spelledChar {c : Char} {p : Bytes} (h : SpelledChar c p) (bs : Bytes) :
    stringBytes (p ++ bs) = prepend (String.utf8EncodeChar c) (stringBytes bs) := by
  cases h with
  | plain hquote hslash hcontrol =>
      exact stringBytes_plain (fun _ => plain_of_mem_encodeChar hquote hslash hcontrol) bs
  | short h => exact stringBytes_escape (escape_short h bs)
  | digits h => exact stringBytes_escape (escape_digits h bs)
  | pair hp hq hhigh hlow hc =>
      have hescape := escape_pair hp hq hhigh hlow hc bs
      rw [List.cons_append, List.cons_append, List.append_assoc]
      exact stringBytes_escape hescape

/-- **However a text is spelled, its bytes are read.** -/
theorem stringBytes_spelled {cs : List Char} {body : Bytes} (h : SpelledChars cs body)
    (rest : Bytes) :
    stringBytes (body ++ 0x22 :: rest) = .ok (cs.flatMap String.utf8EncodeChar, rest) := by
  induction h with
  | nil => rw [List.nil_append, stringBytes, if_pos rfl, List.flatMap_nil]
  | cons hc _ ih =>
      rw [List.append_assoc, stringBytes_spelledChar hc, ih, List.flatMap_cons]
      rfl

theorem stringBody_spelled {s : String} {body : Bytes} (h : SpelledChars s.toList body)
    (rest : Bytes) : stringBody (body ++ 0x22 :: rest) = .ok (s, rest) := by
  have htext : Utf8.text? (s.toList.flatMap String.utf8EncodeChar) = some s := Utf8.text?_encode s
  simp only [stringBody, stringBytes_spelled h, htext]

theorem not_blankByte_quote : ¬ BlankByte 0x22 := by
  unfold BlankByte
  decide

theorem Spelled.opens {s : String} {bs : Bytes} (h : Spelled s bs) : Opens bs := by
  obtain ⟨body, -, rfl⟩ := h
  exact ⟨_, _, rfl, not_blankByte_quote, by decide⟩

/-- **A text is read from each of its spellings.** -/
theorem string_reads (s : String) : Reads string (Spelled s) s where
  opens h := h.opens
  eq_ok := by
    rintro _ w rest ⟨body, hbody, rfl⟩ hw -
    rw [quoted, List.cons_append, List.append_assoc]
    simp only [string, skipBlanks_to hw not_blankByte_quote, if_true]
    exact stringBody_spelled hbody rest

/-! ## Strings that are skipped -/

theorem skipString_quote (rest : Bytes) : skipString (0x22 :: rest) = .ok rest := by
  cases rest with
  | nil => rfl
  | cons c rest =>
      rw [skipString.eq_def]
      exact if_pos rfl

theorem skipString_plain {b c : UInt8} (hquote : b ≠ 0x22) (hslash : b ≠ 0x5C)
    (hcontrol : ¬ b < 0x20) (rest : Bytes) :
    skipString (b :: c :: rest) = skipString (c :: rest) := by
  rw [skipString.eq_def]
  simp only [hquote, hslash, hcontrol, if_false]

theorem skipString_short {b : UInt8} {c : Char} (h : (b, c) ∈ shortEscapes) (rest : Bytes) :
    skipString (0x5C :: b :: rest) = skipString rest := by
  have hall : ∀ e ∈ shortEscapes, (shortEscape? e.1).isSome = true := by decide
  rw [skipString.eq_def]
  simp only [hall _ h, if_true]
  rfl

theorem skipString_digits {n : Nat} {q : Bytes} (h : HexQuad n q) (rest : Bytes) :
    skipString (0x5C :: 0x75 :: (q ++ rest)) = skipString rest := by
  cases h with
  | mk ha hb hc hd =>
      rw [skipString.eq_def]
      simp only [List.cons_append, List.nil_append, hexValue?_of_hexDigit ha,
        hexValue?_of_hexDigit hb, hexValue?_of_hexDigit hc, hexValue?_of_hexDigit hd]
      rfl

/-- **Whatever may stand in a string is skipped.** -/
theorem skipString_body {body : Bytes} (h : StringBody body) (rest : Bytes) :
    skipString (body ++ 0x22 :: rest) = .ok rest := by
  induction h with
  | nil => exact skipString_quote rest
  | @plain b bs hquote hslash hcontrol _ ih =>
      have hnot : ¬ b < 0x20 := Nat.not_lt.mpr hcontrol
      -- a byte is passed over with the next one in sight, if only that of the closing quote
      obtain ⟨c, tail, htail⟩ := List.exists_cons_of_ne_nil
        (List.append_ne_nil_of_right_ne_nil bs (List.cons_ne_nil (0x22 : UInt8) rest))
      rw [List.cons_append, htail, skipString_plain hquote hslash hnot, ← htail]
      exact ih
  | short hb _ ih => exact (skipString_short hb _).trans ih
  | digits hq _ ih =>
      rw [List.cons_append, List.cons_append, List.append_assoc, skipString_digits hq]
      exact ih

/-! ## Digits -/

theorem isDigit_iff {b : UInt8} : isDigit b = true ↔ DigitByte b := by
  simp only [isDigit, DigitByte, Bool.and_eq_true, decide_eq_true_eq]
  exact Iff.rfl

/-- No digit comes next. -/
def NoDigit (bs : Bytes) : Prop := ∀ b, bs.head? = some b → isDigit b = false

/-- What stands behind a value begins with no digit. -/
theorem Delimited.noDigit {bs : Bytes} (h : Delimited bs) : NoDigit bs := by
  intro b hb
  rcases h b hb with (rfl | rfl | rfl | rfl) | rfl | rfl | rfl <;> rfl

/-- Digits are passed over up to where no digit comes next. -/
theorem dropWhile_digits {ds rest : Bytes} (h : ∀ b ∈ ds, DigitByte b) (hrest : NoDigit rest) :
    (ds ++ rest).dropWhile isDigit = rest := by
  rw [List.dropWhile_append_of_pos fun b hb => isDigit_iff.mpr (h b hb)]
  cases rest with
  | nil => rfl
  | cons b rest => exact List.dropWhile_cons_of_neg (by simp [hrest b rfl])

theorem spanDigits_append {ds rest : Bytes} (h : ∀ b ∈ ds, DigitByte b) (hrest : NoDigit rest) :
    spanDigits (ds ++ rest) = (ds.map fun b => b.toNat - 0x30, rest) := by
  have htake : rest.takeWhile isDigit = [] := by
    cases rest with
    | nil => rfl
    | cons b rest => exact List.takeWhile_cons_of_neg (by simp [hrest b rfl])
  rw [spanDigits, dropWhile_digits h hrest,
    List.takeWhile_append_of_pos fun b hb => isDigit_iff.mpr (h b hb), htake, List.append_nil]

/-- A zero in front of a number is its only digit. -/
theorem WholePart.no_leading_zero {b : UInt8} {ds rest : Bytes} (h : WholePart (b :: ds))
    (hrest : NoDigit rest) : (b = 0x30 && ((ds ++ rest).head?.any isDigit)) = false := by
  rcases h.head with heq | hhead
  · obtain ⟨rfl, rfl⟩ := List.cons.inj heq
    cases rest with
    | nil => rfl
    | cons c rest => simpa using hrest c rfl
  · have hb : b ≠ 0x30 := fun heq => hhead (by rw [heq]; rfl)
    simp [hb]

/-! ## Natural numbers -/

/-- The number that digits write behind those of another. -/
def valueOf (start : Nat) (ds : List Nat) : Nat := ds.foldl (fun n d => 10 * n + d) start

theorem le_valueOf (ds : List Nat) : ∀ start, start ≤ valueOf start ds := by
  induction ds with
  | nil => exact fun start => Nat.le_refl start
  | cons d ds ih => exact fun start => Nat.le_trans (by omega) (ih (10 * start + d))

/-- Digits of a number below the bound are all taken in. -/
theorem absorb_eq {ds : List Nat} {start : Nat} (h : valueOf start ds < UInt64.size) :
    absorb start ds = (valueOf start ds, ds.length) := by
  induction ds generalizing start with
  | nil => rfl
  | cons d ds ih =>
      have hle := le_valueOf ds (10 * start + d)
      have hvalue : valueOf start (d :: ds) = valueOf (10 * start + d) ds := rfl
      rw [hvalue] at h ⊢
      have hlt : start * 10 + d < UInt64.size := by omega
      rw [absorb, if_pos hlt, Nat.mul_comm start 10, ih h]
      rfl

theorem digit_of_mem_decimal {n : Nat} {b : UInt8} (h : b ∈ decimal n) : DigitByte b := by
  obtain ⟨c, hc, rfl⟩ := List.mem_map.mp h
  have hdigit := Nat.isDigit_of_mem_toDigits (b := 10) (by decide) (by decide) hc
  simp only [Char.isDigit, Bool.and_eq_true, decide_eq_true_eq] at hdigit
  have hlow : 0x30 ≤ c.toNat := hdigit.1
  have hhigh : c.toNat ≤ 0x39 := hdigit.2
  rw [DigitByte, Utf8.toNat_ofNat (by omega)]
  exact ⟨hlow, hhigh⟩

/-- The digits of a number write it. -/
theorem valueOf_decimal (n : Nat) : valueOf 0 ((decimal n).map fun b => b.toNat - 0x30) = n := by
  have hchars : (decimal n).map (fun b => b.toNat - 0x30) =
      (Nat.toDigits 10 n).map fun c => c.toNat - 0x30 := by
    rw [decimal, List.map_map]
    refine List.map_congr_left fun c hc => ?_
    have hdigit := Nat.isDigit_of_mem_toDigits (b := 10) (by decide) (by decide) hc
    simp only [Char.isDigit, Bool.and_eq_true, decide_eq_true_eq] at hdigit
    have hhigh : c.toNat ≤ 0x39 := hdigit.2
    rw [Function.comp_apply, Utf8.toNat_ofNat (by omega)]
  rw [hchars, valueOf, List.foldl_map]
  exact Nat.ofDigitChars_ten_toDigits

/-- The digits of a number begin with a zero only if it is zero. -/
theorem decimal_wholePart (n : Nat) : WholePart (decimal n) where
  digits := ⟨by simp [decimal, Nat.toDigits_ne_nil], fun _ => digit_of_mem_decimal⟩
  head := by
    induction n using Nat.strongRecOn with
    | ind n ih =>
        have hsmall : ∀ n < 10, decimal n = [0x30] ∨ (decimal n).head? ≠ some 0x30 := by decide
        rcases Nat.lt_or_ge n 10 with hn | hn
        · exact hsmall n hn
        · have hsplit : decimal n = decimal (n / 10) ++ decimal (n % 10) := by
            rw [decimal, Nat.toDigits_of_base_le (by decide) hn, List.map_append, decimal, decimal,
              Nat.toDigits_of_lt_base (Nat.mod_lt n (by decide))]
          have hne : decimal (n / 10) ≠ [] := by simp [decimal, Nat.toDigits_ne_nil]
          rw [hsplit, List.head?_append_of_ne_nil _ hne]
          rcases ih (n / 10) (by omega) with hzero | hhead
          · have hvalue := valueOf_decimal (n / 10)
            rw [hzero] at hvalue
            simp [valueOf] at hvalue
            omega
          · exact .inr hhead

/-- A number that fits into 64 bits is read from its digits. -/
theorem unsignedNumber_decimal {n : Nat} (hn : n < UInt64.size) {rest : Bytes}
    (hrest : Delimited rest) :
    unsignedNumber false (decimal n ++ rest) = .ok (.unsigned n, rest) := by
  have hspan := spanDigits_append (fun _ => digit_of_mem_decimal (n := n)) hrest.noDigit
  have habsorb := @absorb_eq _ 0 (by rwa [valueOf_decimal n])
  rw [valueOf_decimal] at habsorb
  have hwhole := decimal_wholePart n
  obtain ⟨b, ds, hb⟩ := List.exists_cons_of_ne_nil hwhole.digits.ne_nil
  rw [hb] at hspan habsorb hwhole ⊢
  have hdigit : isDigit b = true := isDigit_iff.mpr (hwhole.digits.all b List.mem_cons_self)
  have hlead := hwhole.no_leading_zero hrest.noDigit
  rw [List.cons_append] at hspan ⊢
  simp only [unsignedNumber, hdigit, Bool.not_true, Bool.false_eq_true, if_false, hlead, hspan,
    habsorb, List.length_map, Nat.sub_self]
  have hinteger : unsignedNumber.integer false n 0 = .ok (.unsigned n) := rfl
  cases rest with
  | nil => simp only [hinteger, Except.map]
  | cons c rest =>
      have hpoint : c ≠ 0x2E ∧ c ≠ 0x65 ∧ c ≠ 0x45 := by
        rcases hrest c rfl with (rfl | rfl | rfl | rfl) | rfl | rfl | rfl <;> decide
      simp only [hpoint, decide_false, Bool.or_self, Bool.false_eq_true, if_false, hinteger,
        Except.map]

theorem not_blankByte_of_digit {b : UInt8} (h : DigitByte b) : ¬ BlankByte b ∧ b ≠ 0x5D := by
  obtain ⟨hlow, hhigh⟩ := h
  constructor
  · rintro (rfl | rfl | rfl | rfl) <;> exact absurd hlow (by decide)
  · rintro rfl
    exact absurd hhigh (by decide)

/-- Digits in front open a text. -/
theorem Digits.opens {bs : Bytes} (h : Digits bs) (rest : Bytes) : Opens (bs ++ rest) := by
  obtain ⟨b, ds, rfl⟩ := List.exists_cons_of_ne_nil h.ne_nil
  obtain ⟨hblank, hclose⟩ := not_blankByte_of_digit (h.all b List.mem_cons_self)
  exact ⟨b, ds ++ rest, rfl, hblank, hclose⟩

/-- **A number is read from its digits**, if it is below the bound. -/
theorem natBelow_reads {bound n : Nat} (hbound : bound ≤ UInt64.size) (hn : n < bound)
    (expected : String) : Reads (natBelow bound expected) (· = decimal n) n where
  opens := by
    rintro _ rfl
    rw [← List.append_nil (decimal n)]
    exact (decimal_wholePart n).digits.opens []
  eq_ok := by
    rintro _ w rest rfl hw hrest
    have hread := unsignedNumber_decimal (Nat.lt_of_lt_of_le hn hbound) hrest
    obtain ⟨⟨hne, hall⟩, -⟩ := decimal_wholePart n
    obtain ⟨b, ds, hb⟩ := List.exists_cons_of_ne_nil hne
    rw [hb, List.cons_append] at hread ⊢
    have hdigit := hall b (by rw [hb]; exact List.mem_cons_self)
    have hminus : b ≠ 0x2D := by
      rintro rfl
      exact absurd hdigit.1 (by decide)
    simp only [natBelow, skipBlanks_to hw (not_blankByte_of_digit hdigit).1, hminus, if_false,
      isDigit_iff.mpr hdigit, if_true, hread, natBelow.check, hn]

end StorageNode.Json
