/-!
# UTF-8

Text is stored as bytes. `Utf8.next` reads one character or the longest prefix of an ill-formed one;
`Utf8.decode?` accepts exactly the well-formed sequences, and `Utf8.decodeLossy` puts a replacement
character in the place of each ill-formed piece. Encoding is the core library's.
-/

namespace StorageNode

/-- Contents of files and messages. -/
abbrev Bytes := List UInt8

namespace Utf8

/-- The bytes of a text. -/
def encode (s : String) : Bytes := s.toList.flatMap String.utf8EncodeChar

/-- What stands at the head of a byte sequence. -/
inductive Piece where
  /-- One character. -/
  | char (c : Char)
  /-- Bytes that begin no character. -/
  | bad

/-- A byte between two bounds, both included. -/
def within (lo hi : Nat) (b : UInt8) : Bool := lo ≤ b.toNat && b.toNat ≤ hi

/-- Reads `n` more continuation bytes, six bits each, behind the bits in `value`. -/
def continued : Nat → Nat → Bytes → Piece × Bytes
  | 0, value, bs => (.char (Char.ofNat value), bs)
  | _ + 1, _, [] => (.bad, [])
  | n + 1, value, b :: bs =>
    if within 0x80 0xBF b then continued n (value * 64 + (b.toNat - 0x80)) bs else (.bad, b :: bs)

/-- What a lead byte above ASCII announces: its own bits, the range of the byte behind it, and how
many continuation bytes follow that one. The ranges exclude overlong forms, surrogates and numbers
beyond the last code point. -/
def announced? (lead : UInt8) : Option (Nat × Nat × Nat × Nat) :=
  let l := lead.toNat
  if 0xC2 ≤ l && l ≤ 0xDF then some (l - 0xC0, 0x80, 0xBF, 0)
  else if 0xE0 ≤ l && l ≤ 0xEF then
    some (l - 0xE0, if l = 0xE0 then 0xA0 else 0x80, if l = 0xED then 0x9F else 0xBF, 1)
  else if 0xF0 ≤ l && l ≤ 0xF4 then
    some (l - 0xF0, if l = 0xF0 then 0x90 else 0x80, if l = 0xF4 then 0x8F else 0xBF, 2)
  else none

/-- The piece at the head of `lead :: tail`, and the bytes after it. A bad piece extends as far as
its bytes still begin some character. -/
def next (lead : UInt8) (tail : Bytes) : Piece × Bytes :=
  if lead < 0x80 then (.char (Char.ofNat lead.toNat), tail)
  else
    match announced? lead with
    | none => (.bad, tail)
    | some (value, lo, hi, n) =>
      match tail with
      | [] => (.bad, [])
      | b :: bs =>
        if within lo hi b then continued n (value * 64 + (b.toNat - 0x80)) bs else (.bad, b :: bs)

theorem length_continued_le : ∀ (n value : Nat) (bs : Bytes),
    (continued n value bs).2.length ≤ bs.length
  | 0, _, _ => Nat.le_refl _
  | _ + 1, _, [] => Nat.le_refl _
  | n + 1, value, b :: bs => by
    unfold continued
    split
    · exact Nat.le_succ_of_le (length_continued_le n _ bs)
    · exact Nat.le_refl _

/-- What `next` leaves is no longer than what it was given behind the lead byte. -/
theorem length_next_le (lead : UInt8) (tail : Bytes) : (next lead tail).2.length ≤ tail.length := by
  unfold next
  split
  · exact Nat.le_refl _
  · split
    · exact Nat.le_refl _
    · split
      · exact Nat.le_refl _
      · split
        · exact Nat.le_succ_of_le (length_continued_le _ _ _)
        · exact Nat.le_refl _

/-- The characters of a byte sequence, or nothing if some piece of it is no character. -/
def decode? : Bytes → Option (List Char)
  | [] => some []
  | b :: bs =>
    match h : next b bs with
    | (.char c, rest) =>
      have : rest.length ≤ bs.length := by have := length_next_le b bs; rwa [h] at this
      (decode? rest).map (c :: ·)
    | (.bad, _) => none
termination_by bs => bs.length
decreasing_by simp; omega

/-- The characters of a byte sequence, each bad piece read as U+FFFD. -/
def decodeLossy : Bytes → List Char
  | [] => []
  | b :: bs =>
    match h : next b bs with
    | (p, rest) =>
      have : rest.length ≤ bs.length := by have := length_next_le b bs; rwa [h] at this
      (match p with | .char c => c | .bad => '\uFFFD') :: decodeLossy rest
termination_by bs => bs.length
decreasing_by simp; omega

/-- The text that a byte sequence encodes. -/
def text? (bs : Bytes) : Option String := (decode? bs).map String.ofList

/-- The text of a byte sequence, bad pieces replaced. -/
def textLossy (bs : Bytes) : String := String.ofList (decodeLossy bs)

end Utf8

end StorageNode
