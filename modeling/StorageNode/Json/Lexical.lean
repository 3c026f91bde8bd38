import StorageNode.Json.Failure
import StorageNode.Text.Utf8

/-!
# Blanks, strings, numbers and literals of JSON

Each function reads one lexical element at the head of the bytes and returns what is behind it.
Strings are collected as bytes, so that their UTF-8 is checked once, when they are complete; a string
that is skipped is not checked at all. A number is a natural, a negative integer, or a double; doubles
are computed from the leading digits that fit into 64 bits and a power of ten, each step rounded.
-/

namespace StorageNode.Json

/-- A reading step: what was read and the bytes behind it. -/
abbrev Reader (α : Type) := Bytes → Except Failure (α × Bytes)

/-! ## Blanks -/

/-- Space, tab, line feed or carriage return. -/
def isBlank (b : UInt8) : Bool := b = 0x20 || b = 0x09 || b = 0x0A || b = 0x0D

/-- The bytes from the first that is not blank. -/
def skipBlanks (bs : Bytes) : Bytes := bs.dropWhile isBlank

/-! ## Strings -/

/-- The value of a hexadecimal digit. -/
def hexValue? (b : UInt8) : Option Nat :=
  if 0x30 ≤ b && b ≤ 0x39 then some (b.toNat - 0x30)
  else if 0x41 ≤ b && b ≤ 0x46 then some (b.toNat - 0x37)
  else if 0x61 ≤ b && b ≤ 0x66 then some (b.toNat - 0x57)
  else none

/-- Four hexadecimal digits. -/
def hexQuad : Reader Nat
  | a :: b :: c :: d :: rest =>
    match hexValue? a, hexValue? b, hexValue? c, hexValue? d with
    | some w, some x, some y, some z => .ok (((w * 16 + x) * 16 + y) * 16 + z, rest)
    | _, _, _, _ => .error .badEscape
  | _ => .error .endInString

/-- The byte that a one-character escape stands for. -/
def shortEscape? (b : UInt8) : Option UInt8 :=
  if b = 0x22 || b = 0x5C || b = 0x2F then some b
  else if b = 0x62 then some 0x08
  else if b = 0x66 then some 0x0C
  else if b = 0x6E then some 0x0A
  else if b = 0x72 then some 0x0D
  else if b = 0x74 then some 0x09
  else none

/-- The second half of a surrogate pair, of which `high` is the first. -/
def pairedEscape (high : Nat) : Reader Bytes
  | 0x5C :: 0x75 :: us =>
    match hexQuad us with
    | .error e => .error e
    | .ok (low, rest) =>
      if low < 0xDC00 || 0xDFFF < low then .error .loneSurrogate
      else
        .ok (String.utf8EncodeChar
          (Char.ofNat ((high - 0xD800) * 1024 + (low - 0xDC00) + 0x10000)), rest)
  | [] => .error .endInString
  | [0x5C] => .error .endInString
  | _ => .error .unfinishedPair

/-- A character given by four hexadecimal digits, or by two such escapes of a surrogate pair, read
behind its backslash and letter. -/
def unicodeEscape : Reader Bytes := fun bs =>
  match hexQuad bs with
  | .error e => .error e
  | .ok (n, rest) =>
    if 0xDC00 ≤ n && n ≤ 0xDFFF then .error .loneSurrogate
    else if n < 0xD800 || 0xDBFF < n then .ok (String.utf8EncodeChar (Char.ofNat n), rest)
    else pairedEscape n rest

/-- The bytes that an escape stands for, read behind its backslash. -/
def escape : Reader Bytes
  | [] => .error .endInString
  | b :: bs =>
    match shortEscape? b with
    | some c => .ok ([c], bs)
    | none => if b = 0x75 then unicodeEscape bs else .error .badEscape

theorem length_hexQuad {bs rest : Bytes} {n : Nat} (h : hexQuad bs = .ok (n, rest)) :
    rest.length < bs.length := by
  unfold hexQuad at h
  split at h
  · split at h
    · cases h; simp; omega
    · cases h
  · cases h

theorem length_pairedEscape {high : Nat} {bs rest out : Bytes}
    (h : pairedEscape high bs = .ok (out, rest)) : rest.length < bs.length := by
  unfold pairedEscape at h
  split at h
  · split at h
    · cases h
    · rename_i hq
      have := length_hexQuad hq
      split at h
      · cases h
      · obtain ⟨-, rfl⟩ := Prod.mk.inj (Except.ok.inj h)
        simp only [List.length_cons]
        omega
  all_goals cases h

theorem length_unicodeEscape {bs rest out : Bytes} (h : unicodeEscape bs = .ok (out, rest)) :
    rest.length < bs.length := by
  unfold unicodeEscape at h
  split at h
  · cases h
  · rename_i hq
    have hl := length_hexQuad hq
    split at h
    · cases h
    · split at h
      · cases h; exact hl
      · exact Nat.lt_trans (length_pairedEscape h) hl

theorem length_escape {bs rest out : Bytes} (h : escape bs = .ok (out, rest)) :
    rest.length < bs.length := by
  unfold escape at h
  split at h
  · cases h
  · split at h
    · cases h; simp
    · split at h
      · have := length_unicodeEscape h; simp; omega
      · cases h

/-- The bytes of a string up to its closing quote. -/
def stringBytes (bs : Bytes) : Except Failure (Bytes × Bytes) :=
  match bs with
  | [] => .error .endInString
  | b :: rest =>
    if b = 0x22 then .ok ([], rest)
    else if b = 0x5C then
      match h : escape rest with
      | .error e => .error e
      | .ok (out, rest') =>
        have := length_escape h
        match stringBytes rest' with
        | .error e => .error e
        | .ok (tail, behind) => .ok (out ++ tail, behind)
    else if b < 0x20 then .error .controlInString
    else
      match stringBytes rest with
      | .error e => .error e
      | .ok (tail, behind) => .ok (b :: tail, behind)
termination_by bs.length

/-- A string, read behind its opening quote. -/
def stringBody : Reader String := fun bs =>
  match stringBytes bs with
  | .error e => .error e
  | .ok (out, rest) =>
    match Utf8.text? out with
    | some s => .ok (s, rest)
    | none => .error .badUtf8

/-- A string that is skipped: its escapes are not combined, its UTF-8 is not checked. -/
def skipString : Bytes → Except Failure Bytes
  | [] => .error .endInString
  | [b] =>
    if b = 0x22 then .ok [] else if b < 0x20 then .error .controlInString else .error .endInString
  | b :: c :: rest =>
    if b = 0x22 then .ok (c :: rest)
    else if b = 0x5C then
      if (shortEscape? c).isSome then skipString rest
      else if c = 0x75 then
        match rest with
        | p :: q :: r :: s :: rest' =>
          match hexValue? p, hexValue? q, hexValue? r, hexValue? s with
          | some _, some _, some _, some _ => skipString rest'
          | _, _, _, _ => .error .badEscape
        | _ => .error .endInString
      else .error .badEscape
    else if b < 0x20 then .error .controlInString
    else skipString (c :: rest)

/-! ## Numbers -/

/-- A number as it is read. -/
inductive Number where
  | unsigned (n : Nat)
  /-- A negative integer. -/
  | signed (n : Int)
  | float (x : Binary64)

/-- The number as something found. -/
def Number.found : Number → Found
  | .unsigned n => .unsigned n
  | .signed n => .signed n
  | .float x => .float x

/-- A decimal digit. -/
def isDigit (b : UInt8) : Bool := 0x30 ≤ b && b ≤ 0x39

/-- The digits at the head, and what is behind them. -/
def spanDigits (bs : Bytes) : List Nat × Bytes :=
  ((bs.takeWhile isDigit).map fun b => b.toNat - 0x30, bs.dropWhile isDigit)

/-- Appends digits to a number as long as it stays below `2 ^ 64`; the count tells how many. -/
def absorb (significand : Nat) : List Nat → Nat × Nat
  | [] => (significand, 0)
  | d :: ds =>
    if significand * 10 + d < UInt64.size then
      let (s, n) := absorb (significand * 10 + d) ds
      (s, n + 1)
    else (significand, 0)

/-- A double times a power of ten, each product and quotient rounded. `fuel` bounds the number of
divisions by `10 ^ 308`, after three of which every double is zero. -/
def scale : Nat → Binary64 → Int → Except Failure Binary64
  | 0, x, _ => .ok x
  | fuel + 1, x, e =>
    if e.natAbs ≤ 308 then
      let power := Binary64.ofDecimal false 1 (Int.ofNat e.natAbs)
      if 0 ≤ e then
        let y := x.mul power
        if y.isInfinite then .error .numberTooLarge else .ok y
      else .ok (x.div power)
    else if x.isZero then .ok x
    else if 0 ≤ e then .error .numberTooLarge
    else scale fuel (x.div (Binary64.ofDecimal false 1 308)) (e + 308)

/-- The double of a significand and a decimal exponent. -/
def floatOf (negative : Bool) (significand : Nat) (exponent : Int) : Except Failure Number :=
  match scale 8 (Binary64.ofNat significand) exponent with
  | .error e => .error e
  | .ok x => .ok (.float (if negative then x.neg else x))

/-- The largest 32-bit integer; a written exponent beyond it is not computed with. -/
def maxExponent : Nat := 2147483647

/-- An exponent, read behind its letter, and the double it completes. -/
def exponentPart (negative : Bool) (significand : Nat) (start : Int) : Reader Number := fun bs =>
  let (down, bs) := match bs with
    | b :: rest => if b = 0x2B then (false, rest) else if b = 0x2D then (true, rest) else (false, bs)
    | [] => (false, bs)
  match bs with
  | [] => .error .endInValue
  | b :: _ =>
    if isDigit b then
      let (ds, rest) := spanDigits bs
      let e := ds.foldl (fun n d => n * 10 + d) 0
      if maxExponent < e then
        if significand ≠ 0 && !down then .error .numberTooLarge
        else .ok (.float (Binary64.zero negative), rest)
      else
        match floatOf negative significand (if down then start - e else start + e) with
        | .error err => .error err
        | .ok n => .ok (n, rest)
    else .error .badNumber

/-- What may follow the digits before the point and behind it: an exponent, or nothing. -/
def floatTail (negative : Bool) (significand : Nat) (exponent : Int) : Reader Number := fun bs =>
  match bs with
  | b :: rest =>
    if b = 0x65 || b = 0x45 then exponentPart negative significand exponent rest
    else (floatOf negative significand exponent).map (·, bs)
  | [] => (floatOf negative significand exponent).map (·, bs)

/-- The digits behind the point, and the double they complete. -/
def fractionPart (negative : Bool) (significand extra : Nat) : Reader Number := fun bs =>
  match bs with
  | [] => .error .endInValue
  | b :: _ =>
    if isDigit b then
      let (ds, rest) := spanDigits bs
      let (s, used) := absorb significand ds
      floatTail negative s (Int.ofNat extra - Int.ofNat used) rest
    else .error .badNumber

/-- A number behind its sign. An integer of too many digits becomes a double, and so does a negative
one below `-2 ^ 63` and minus zero. -/
def unsignedNumber (negative : Bool) : Reader Number := fun bs =>
  match bs with
  | [] => .error .endInValue
  | b :: rest =>
    if !isDigit b then .error .badNumber
    else if b = 0x30 && (rest.head?.any isDigit) then .error .badNumber
    else
      let (ds, behind) := spanDigits bs
      let (s, used) := absorb 0 ds
      let extra := ds.length - used
      match behind with
      | c :: cs =>
        if c = 0x2E then fractionPart negative s extra cs
        else if c = 0x65 || c = 0x45 then exponentPart negative s extra cs
        else (integer s extra).map (·, behind)
      | [] => (integer s extra).map (·, behind)
where
  /-- A number without point and exponent. -/
  integer (s extra : Nat) : Except Failure Number :=
    if extra ≠ 0 then floatOf negative s extra
    else if !negative then .ok (.unsigned s)
    else if s = 0 || 9223372036854775808 < s then .ok (.float (Binary64.ofNat s).neg)
    else .ok (.signed (-(Int.ofNat s)))

/-- A number that is skipped: only its grammar is checked. -/
def skipNumber (bs : Bytes) : Except Failure Bytes :=
  match bs with
  | [] => .error .badNumber
  | b :: rest =>
    if !isDigit b then .error .badNumber
    else if b = 0x30 && (rest.head?.any isDigit) then .error .badNumber
    else
      let behind := bs.dropWhile isDigit
      match behind with
      | [] => .ok behind
      | c :: cs =>
        if c = 0x2E then
          if cs.head?.any isDigit then
            let behind' := cs.dropWhile isDigit
            match behind' with
            | [] => .ok behind'
            | d :: ds => if d = 0x65 || d = 0x45 then exponent ds else .ok behind'
          else .error .badNumber
        else if c = 0x65 || c = 0x45 then exponent cs
        else .ok behind
where
  /-- The exponent behind its letter. -/
  exponent (cs : Bytes) : Except Failure Bytes :=
    let ds := match cs with
      | s :: rest => if s = 0x2B || s = 0x2D then rest else cs
      | [] => cs
    if ds.head?.any isDigit then .ok (ds.dropWhile isDigit) else .error .badNumber

/-! ## Literals -/

/-- The rest of a literal, read behind its first letter. -/
def word : List UInt8 → Bytes → Except Failure Bytes
  | [], bs => .ok bs
  | _ :: _, [] => .error .endInValue
  | w :: ws, b :: bs => if w = b then word ws bs else .error .wordExpected

/-- The bytes of `ull`, `rue` and `alse`. -/
def wordTail (first : UInt8) : Option (List UInt8 × Found) :=
  if first = 0x6E then some ([0x75, 0x6C, 0x6C], .unit)
  else if first = 0x74 then some ([0x72, 0x75, 0x65], .bool true)
  else if first = 0x66 then some ([0x61, 0x6C, 0x73, 0x65], .bool false)
  else none

end StorageNode.Json
