import StorageNode.Json.Value
import StorageNode.Proofs.Json.Lexical

/-!
# What is written is a text

The compact text of a value is one of the value's texts: numbers are their digits, strings are spelled
(`Json.quote_spelled`), and items and members stand without blanks (`Json.items_compact`,
`Json.items_compactMembers`). For records the members that are written must be the parts in their order,
those left out being such as may be (`Json.Written`); then the object is a text of the record
(`Json.recordText_compact`).

Values are written as characters and read as bytes, so all of this is said of the bytes of what is
written (`Json.bytesOf`).
-/

namespace StorageNode.Json

/-- The bytes of characters. -/
def bytesOf (cs : List Char) : Bytes := cs.flatMap String.utf8EncodeChar

/-- The bytes that a value is written as. -/
def Value.bytes (v : Value) : Bytes := bytesOf v.compactChars

theorem encode_compact (v : Value) : Utf8.encode v.compact = v.bytes := by
  rw [Utf8.encode, Value.compact, String.toList_ofList]
  rfl

theorem bytesOf_append (cs ds : List Char) : bytesOf (cs ++ ds) = bytesOf cs ++ bytesOf ds :=
  List.flatMap_append

theorem bytesOf_cons (c : Char) (cs : List Char) :
    bytesOf (c :: cs) = String.utf8EncodeChar c ++ bytesOf cs := List.flatMap_cons

/-! ## Numbers and strings -/

/-- A digit is one byte. -/
theorem encodeChar_digitChar : ∀ n < 16,
    String.utf8EncodeChar (Nat.digitChar n) = [UInt8.ofNat (Nat.digitChar n).toNat] := by decide

theorem bytesOf_digits (n : Nat) : bytesOf (digits n) = decimal n := by
  have hmap : ∀ cs : List Char, (∀ c ∈ cs, c.isDigit = true) →
      bytesOf cs = cs.map fun c => UInt8.ofNat c.toNat := by
    intro cs hcs
    induction cs with
    | nil => rfl
    | cons c cs ih =>
        obtain ⟨hc, hcs⟩ := List.forall_mem_cons.mp hcs
        have hle : c.val.toNat ≤ 0x7F := by
          simp only [Char.isDigit, Bool.and_eq_true, decide_eq_true_eq] at hc
          exact Nat.le_trans hc.2 (by decide)
        have hbyte : String.utf8EncodeChar c = [UInt8.ofNat c.toNat] :=
          (Utf8.encoding_encodeChar c).eq_singleton hle
        rw [bytesOf_cons, hbyte, ih hcs]
        rfl
  exact hmap _ fun c hc => Nat.isDigit_of_mem_toDigits (by decide) (by decide) hc

/-- A hexadecimal digit is written for a number below 16. -/
theorem hexDigit_digitChar {n : Nat} (hn : n < 16) :
    HexDigit (UInt8.ofNat (Nat.digitChar n).toNat) n := by
  have hdecimal : ∀ n < 10, (Nat.digitChar n).toNat = 0x30 + n := by decide
  have hletter : ∀ n < 6, (Nat.digitChar (10 + n)).toNat = 0x61 + n := by decide
  rcases Nat.lt_or_ge n 10 with h | h
  · rw [hdecimal n h]
    exact .decimal h
  · obtain ⟨k, rfl⟩ := Nat.exists_eq_add_of_le h
    have hk : k < 6 := by omega
    rw [hletter k hk]
    exact .lower hk

/-- Each character is spelled as it is written. -/
theorem escapeChar_spelled (c : Char) : SpelledChar c (bytesOf (escapeChar c)) := by
  unfold escapeChar
  split
  case h_8 hquote hslash _ _ _ _ _ =>
    split
    · next hcontrol =>
        have hvalue : c.toNat = ((0 * 16 + 0) * 16 + c.toNat / 16) * 16 + c.toNat % 16 := by omega
        have hzero : HexDigit 0x30 0 := HexDigit.decimal (n := 0) (by decide)
        have hquad := HexQuad.mk hzero hzero (hexDigit_digitChar (n := c.toNat / 16) (by omega))
          (hexDigit_digitChar (n := c.toNat % 16) (by omega))
        rw [← hvalue] at hquad
        have htext : bytesOf ['\\', 'u', '0', '0', Nat.digitChar (c.toNat / 16),
            Nat.digitChar (c.toNat % 16)] = 0x5C :: 0x75 :: [0x30, 0x30,
              UInt8.ofNat (Nat.digitChar (c.toNat / 16)).toNat,
              UInt8.ofNat (Nat.digitChar (c.toNat % 16)).toNat] := by
          simp only [bytesOf_cons, encodeChar_digitChar _ (show c.toNat / 16 < 16 by omega),
            encodeChar_digitChar _ (show c.toNat % 16 < 16 by omega)]
          rfl
        rw [htext]
        exact .digits hquad
    · next hcontrol =>
        have hbytes : bytesOf [c] = String.utf8EncodeChar c := List.append_nil _
        rw [hbytes]
        exact .plain hquote hslash (Nat.not_lt.mp hcontrol)
  all_goals exact .short (by decide)

/-- **A text is spelled as it is written.** -/
theorem quote_spelled (s : String) : Spelled s (bytesOf (quote s)) := by
  have hchars : ∀ cs : List Char, SpelledChars cs (bytesOf (cs.flatMap escapeChar)) := by
    intro cs
    induction cs with
    | nil => exact .nil
    | cons c cs ih =>
        rw [List.flatMap_cons, bytesOf_append]
        exact .cons (escapeChar_spelled c) ih
  refine ⟨_, hchars s.toList, ?_⟩
  rw [quote, List.cons_append, bytesOf_cons, bytesOf_append]
  rfl

/-! ## Arrays and objects -/

/-- What is written in front of an item. -/
theorem lead_compact (first : Bool) : Lead first (bytesOf (if first then [] else [','])) := by
  cases first with
  | true => exact .first blank_nil
  | false => exact .later blank_nil blank_nil

theorem items_compact (vs : List Value) : ∀ first,
    Items first (vs.map Value.bytes) (bytesOf (compactItems first vs)) := by
  induction vs with
  | nil => exact fun first => .done blank_nil
  | cons v vs ih =>
      intro first
      rw [compactItems, bytesOf_append, bytesOf_append, List.append_assoc]
      exact .item (lead_compact first) (ih false)

/-- The bytes that a member is written as. -/
def memberBytes (m : String × Value) : Bytes := bytesOf (quote m.1) ++ 0x3A :: m.2.bytes

theorem memberBytes_text (m : String × Value) :
    MemberText (bytesOf (quote m.1)) m.2.bytes (memberBytes m) := .mk blank_nil blank_nil

theorem items_compactMembers (ms : List (String × Value)) : ∀ first,
    Items first (ms.map memberBytes) (bytesOf (compactMembers first ms)) := by
  induction ms with
  | nil => exact fun first => .done blank_nil
  | cons m ms ih =>
      intro first
      have hmember : bytesOf (quote m.1 ++ ':' :: m.2.compactChars) = memberBytes m := by
        rw [bytesOf_append, bytesOf_cons]
        rfl
      have hsplit : bytesOf (compactMembers first (m :: ms)) =
          bytesOf (if first then [] else [',']) ++
            (memberBytes m ++ bytesOf (compactMembers false ms)) := by
        rw [← hmember, ← bytesOf_append, ← bytesOf_append]
        simp [compactMembers]
      rw [hsplit]
      exact .item (lead_compact first) (ih false)

/-! ## Data -/

theorem number_bytes (n : Nat) : (Value.number n).bytes = decimal n := by
  rw [Value.bytes, Value.compactChars, bytesOf_digits]

theorem string_spelled (s : String) : Spelled s (Value.string s).bytes := by
  rw [Value.bytes, Value.compactChars]
  exact quote_spelled s

/-- **A list is written as one of its texts**, if its items are. -/
theorem listText_compact {α : Type} {form : Form α} {f : α → Value}
    (h : ∀ a, form a (f a).bytes) (as : List α) :
    listText form as (Value.array (as.map f)).bytes := by
  refine ⟨as.map fun a => (f a).bytes, bytesOf (compactItems true (as.map f)), ?_, ?_, ?_⟩
  · induction as with
    | nil => exact .nil
    | cons a as ih => exact .cons (h a) ih
  · have hitems := items_compact (as.map f) true
    rwa [List.map_map] at hitems
  · rw [Value.bytes, Value.compactChars, List.cons_append, bytesOf_cons, bytesOf_append]
    rfl

/-- The members that are written are the parts of a record in their order, but for some of those that
may be left out. -/
inductive Written : List Part → List (String × Value) → Prop
  | nil : Written [] []
  | part {p : Part} {parts : List Part} {v : Value} {ms : List (String × Value)}
      (hvalue : p.text v.bytes) (hrest : Written parts ms) :
      Written (p :: parts) ((p.name, v) :: ms)
  | omitted {p : Part} {parts : List Part} {ms : List (String × Value)} (h : p.mayOmit)
      (hrest : Written parts ms) : Written (p :: parts) ms

/-- A part that may be left out is left out. -/
theorem Members.omit {known : List String} {p : Part} (hp : p.mayOmit) {parts : List Part}
    {ms : List Bytes} (h : Members known parts ms) : Members known (p :: parts) ms := by
  induction h with
  | done h => exact .done (List.forall_mem_cons.mpr ⟨hp, h⟩)
  | @part parts behind q _ _ _ _ hq hname hvalue hm _ ih =>
      exact .part ((hq.cons p).trans (.swap q p behind)) hname hvalue hm ih
  | unknown hn hname hvalue hm _ ih => exact .unknown hn hname hvalue hm ih

/-- **A record is written as one of its texts.** -/
theorem recordText_compact {parts : List Part} {ms : List (String × Value)} (h : Written parts ms) :
    RecordText parts (Value.object ms).bytes := by
  have hmembers : ∀ {known : List String}, Members known parts (ms.map memberBytes) := by
    intro known
    induction h with
    | nil => exact .done fun _ hp => absurd hp List.not_mem_nil
    | @part p parts v ms hvalue _ ih =>
        exact .part (.refl _) (quote_spelled p.name) hvalue (memberBytes_text (p.name, v)) ih
    | omitted hp _ ih => exact ih.omit hp
  have htext : (Value.object ms).bytes = 0x7B :: (bytesOf (compactMembers true ms) ++ [0x7D]) := by
    rw [Value.bytes, Value.compactChars, List.cons_append, bytesOf_cons, bytesOf_append]
    rfl
  rw [htext]
  exact .object hmembers (items_compactMembers ms true)

end StorageNode.Json
