import StorageNode.Proofs.Json.Lexical

/-!
# Any value is skipped

`Json.skipValue_text` says that the reader passes over every text of a value, of any shape and depth,
and stops where the text ends. The reader keeps a stack of the arrays and objects that are still open,
and counts its turns down. A value takes it from in front of the value to behind it, in a number of turns
that the length of the text bounds, and leaves the stack as it was (`Json.Passes`); the induction is over
the grammar. What is behind an item, up to the bracket that closes, is passed in the same way
(`Json.passes_behind`), for arrays and objects alike: they differ in that a name comes first
(`Json.Enters`).
-/

namespace StorageNode.Json

/-! ## Numbers that are skipped -/

/-- An exponent is passed over behind its letter. -/
theorem skipNumber_exponent {sign ds rest : Bytes}
    (hsign : sign = [] ∨ sign = [0x2B] ∨ sign = [0x2D]) (h : Digits ds) (hrest : Delimited rest) :
    skipNumber.exponent (sign ++ (ds ++ rest)) = .ok rest := by
  obtain ⟨b, tail, rfl⟩ := List.exists_cons_of_ne_nil h.ne_nil
  have hdigit := h.all b List.mem_cons_self
  have hplus : b ≠ 0x2B := by
    rintro rfl
    exact absurd hdigit.1 (by decide)
  have hminus : b ≠ 0x2D := by
    rintro rfl
    exact absurd hdigit.1 (by decide)
  have hdrop := dropWhile_digits h.all hrest.noDigit
  rw [List.cons_append] at hdrop ⊢
  rcases hsign with rfl | rfl | rfl <;>
    simp [skipNumber.exponent, hplus, hminus, isDigit_iff.mpr hdigit, hdrop]

/-- No part of a number behind its digits begins with a digit. -/
theorem Exponent.noDigit {exponent rest : Bytes} (h : Exponent exponent) (hrest : Delimited rest) :
    NoDigit (exponent ++ rest) := by
  cases h with
  | none => exact hrest.noDigit
  | some he =>
      rintro b ⟨⟩
      rcases he with rfl | rfl <;> rfl

theorem Fraction.noDigit {fraction rest : Bytes} (h : Fraction fraction) (hrest : NoDigit rest) :
    NoDigit (fraction ++ rest) := by
  cases h with
  | none => exact hrest
  | some _ =>
      rintro b ⟨⟩
      rfl

theorem Digits.head_isDigit {ds : Bytes} (h : Digits ds) (rest : Bytes) :
    (ds ++ rest).head?.any isDigit = true := by
  obtain ⟨b, tail, rfl⟩ := List.exists_cons_of_ne_nil h.ne_nil
  exact isDigit_iff.mpr (h.all b List.mem_cons_self)

/-- What delimits a number begins neither a fraction nor an exponent. -/
theorem Delimited.ne_mark {b : UInt8} {rest : Bytes} (h : Delimited (b :: rest)) :
    b ≠ 0x2E ∧ b ≠ 0x65 ∧ b ≠ 0x45 := by
  rcases h b rfl with (rfl | rfl | rfl | rfl) | rfl | rfl | rfl <;> decide

/-- **A number is passed over**, if no digit comes behind it. -/
theorem skipNumber_magnitude {bs rest : Bytes} (h : Magnitude bs) (hrest : Delimited rest) :
    skipNumber (bs ++ rest) = .ok rest := by
  obtain @⟨whole, fraction, exponent, hwhole, hfraction, hexponent⟩ := h
  have hbehind := hfraction.noDigit (hexponent.noDigit hrest)
  have hdrop := dropWhile_digits hwhole.digits.all hbehind
  rw [List.append_assoc, List.append_assoc]
  obtain ⟨b, ds, rfl⟩ := List.exists_cons_of_ne_nil hwhole.digits.ne_nil
  have hdigit : isDigit b = true := isDigit_iff.mpr (hwhole.digits.all b List.mem_cons_self)
  have hlead := hwhole.no_leading_zero hbehind
  rw [List.cons_append] at hdrop ⊢
  simp only [skipNumber, hdigit, hlead, hdrop, Bool.not_true, Bool.false_eq_true, if_false]
  cases hfraction with
  | none =>
      cases hexponent with
      | none =>
          cases rest with
          | nil => rfl
          | cons c rest => simp [hrest.ne_mark]
      | @some e sign es he hsign hes =>
          have hskip := skipNumber_exponent hsign hes hrest
          rcases he with rfl | rfl <;> simpa using hskip
  | @some fs hfs =>
      have hhead := hfs.head_isDigit (exponent ++ rest)
      have hdrop' := dropWhile_digits hfs.all (hexponent.noDigit hrest)
      simp only [List.cons_append, if_true, hhead, hdrop']
      cases hexponent with
      | none =>
          cases rest with
          | nil => rfl
          | cons c rest => simp [hrest.ne_mark]
      | @some e sign es he hsign hes =>
          have hskip := skipNumber_exponent hsign hes hrest
          rcases he with rfl | rfl <;> simpa using hskip

/-! ## Names that are skipped -/

theorem not_blankByte_colon : ¬ BlankByte 0x3A := by
  unfold BlankByte
  decide

/-- The name and the colon in front of a member's value are skipped. -/
theorem skipKey_member {name value t : Bytes} (hname : StringBody name)
    (h : MemberText (quoted name) value t) :
    ∃ w', Blank w' ∧ ∀ w rest, Blank w → skipKey (w ++ (t ++ rest)) = .ok (w' ++ (value ++ rest)) := by
  obtain @⟨u, w', hu, hw'⟩ := h
  refine ⟨w', hw', fun w rest hw => ?_⟩
  have hstring := skipString_body hname (u ++ 0x3A :: (w' ++ (value ++ rest)))
  simp only [quoted, List.cons_append, List.append_assoc, List.nil_append, skipKey,
    skipBlanks_to hw not_blankByte_quote, if_true, hstring, skipBlanks_to hu not_blankByte_colon]

/-! ## Arrays and objects -/

/-- The bracket that opens an array, or an object if the flag is set. -/
def opening (object : Bool) : UInt8 := if object then 0x7B else 0x5B

/-- The bracket that closes it. -/
def closing (object : Bool) : UInt8 := if object then 0x7D else 0x5D

/-- The reader gets from in front of an item to that of its value: past the name in an object, and in an
array it is there. -/
def Enters (object : Bool) (bs behind : Bytes) : Prop :=
  if object then skipKey bs = .ok behind else bs = behind

/-- In `n` turns the reader gets from in front of a value to behind it, and the brackets that are open
stay open. -/
def Passes (v : Bytes) (n : Nat) : Prop :=
  ∀ {w rest}, Blank w → Delimited rest → ∀ fuel stack,
    skipNested (fuel + n) .before stack (w ++ (v ++ rest)) = skipNested fuel .behind stack rest

/-- The reader gets behind an item in `n` turns, once it has entered it. -/
structure PassesItem (object : Bool) (t : Bytes) (n : Nat) : Prop where
  starts : ∃ b more, t = b :: more ∧ ¬ BlankByte b ∧ b ≠ closing object
  bound : n + 1 ≤ 2 * t.length
  passes : ∀ {w rest}, Blank w → Delimited rest → ∃ bs, Enters object (w ++ (t ++ rest)) bs ∧
    ∀ fuel stack, skipNested (fuel + n) .before stack bs = skipNested fuel .behind stack rest

theorem not_blankByte_closing (object : Bool) : ¬ BlankByte (closing object) := by
  cases object <;> simp [closing, BlankByte]

theorem delimited_closing (object : Bool) (rest : Bytes) : Delimited (closing object :: rest) :=
  delimited_cons rest (.inr (.inr (by cases object <;> simp [closing])))

/-- What comes behind an item may stand behind a value. -/
theorem Items.delimited {ts : List Bytes} {body rest : Bytes} (h : Items false ts body)
    (hrest : Delimited rest) : Delimited (body ++ rest) := by
  cases h with
  | done hw => exact hw.delimited hrest
  | item hlead _ =>
      cases hlead with
      | later hw _ =>
          rw [List.append_assoc, List.append_assoc]
          exact hw.delimited (delimited_cons _ (.inr (.inl rfl)))

variable {object : Bool} {w : Bytes}

/-- Where the closing bracket comes next, one array or object fewer is open. -/
theorem skipNested_close (hw : Blank w) (fuel : Nat) (stack : List Bool) (rest : Bytes) :
    skipNested (fuel + 1) .behind (object :: stack) (w ++ closing object :: rest) =
      skipNested fuel .behind stack rest := by
  rw [skipNested, skipBlanks_to hw (not_blankByte_closing object)]
  cases object <;> simp [closing]

/-- Where a comma comes next, the reader enters the item behind it. -/
theorem skipNested_comma (hw : Blank w) {bs behind : Bytes} (h : Enters object bs behind)
    (fuel : Nat) (stack : List Bool) :
    skipNested (fuel + 1) .behind (object :: stack) (w ++ 0x2C :: bs) =
      skipNested fuel .before (object :: stack) behind := by
  have hcomma : ¬ BlankByte 0x2C := by
    unfold BlankByte
    decide
  rw [skipNested, skipBlanks_to hw hcomma]
  cases object with
  | false =>
      obtain rfl : bs = behind := h
      rfl
  | true =>
      have hkey : skipKey bs = .ok behind := h
      simp only [if_true, hkey]

/-- Brackets with nothing between them are passed at once. -/
theorem skipNested_empty {w' : Bytes} (hw : Blank w) (hw' : Blank w') (fuel : Nat)
    (stack : List Bool) (rest : Bytes) :
    skipNested (fuel + 1) .before stack (w ++ opening object :: (w' ++ closing object :: rest)) =
      skipNested fuel .behind stack rest := by
  have hopen : ¬ BlankByte (opening object) := by cases object <;> simp [opening, BlankByte]
  rw [skipNested, skipBlanks_to hw hopen]
  cases object with
  | false =>
      have hskip := skipBlanks_to hw' (not_blankByte_closing false) rest
      simp only [opening, closing, Bool.false_eq_true, if_false] at hskip ⊢
      rw [hskip]
      rfl
  | true =>
      have hskip := skipBlanks_to hw' (not_blankByte_closing true) rest
      simp only [opening, closing, if_true] at hskip ⊢
      rw [hskip]
      rfl

/-- Where an item comes behind the opening bracket, the reader enters it. -/
theorem skipNested_open {w' more behind : Bytes} {b : UInt8} (hw : Blank w) (hw' : Blank w')
    (hb : ¬ BlankByte b) (hne : b ≠ closing object) (h : Enters object (w' ++ b :: more) behind)
    (fuel : Nat) (stack : List Bool) :
    skipNested (fuel + 1) .before stack (w ++ opening object :: (w' ++ b :: more)) =
      skipNested fuel .before (object :: stack) behind := by
  have hopen : ¬ BlankByte (opening object) := by cases object <;> simp [opening, BlankByte]
  have hskip := skipBlanks_to hw' hb more
  rw [skipNested, skipBlanks_to hw hopen]
  cases object with
  | false =>
      obtain rfl : w' ++ b :: more = behind := h
      have hne' : b ≠ 0x5D := hne
      simp only [opening, Bool.false_eq_true, if_false, hskip, hne']
      rfl
  | true =>
      have hkey : skipKey (w' ++ b :: more) = .ok behind := h
      have hne' : b ≠ 0x7D := hne
      simp only [opening, if_true, hskip, hne', hkey, if_false]
      rfl

/-- **What is behind an item is passed**, up to the bracket that closes. -/
theorem passes_behind : ∀ {ts : List Bytes} {body : Bytes}, Items false ts body →
    (∀ t ∈ ts, ∃ n, PassesItem object t n) →
    ∃ n, n ≤ 2 * body.length + 1 ∧ ∀ fuel stack rest,
      skipNested (fuel + n) .behind (object :: stack) (body ++ closing object :: rest) =
        skipNested fuel .behind stack rest
  | _, _, .done hw, _ => ⟨1, by omega, skipNested_close hw⟩
  | _, _, @Items.item _ _ t body _ (@Lead.later w w' hw hw') hrest, h => by
      obtain ⟨⟨n, hitem⟩, htail⟩ := List.forall_mem_cons.mp h
      obtain ⟨m, hm, hbehind⟩ := passes_behind hrest htail
      have hbound := hitem.bound
      refine ⟨m + n + 1, ?_, fun fuel stack rest => ?_⟩
      · simp only [List.length_append, List.length_cons]
        omega
      · obtain ⟨bs, henters, hpasses⟩ :=
          hitem.passes hw' (hrest.delimited (delimited_closing object rest))
        calc skipNested (fuel + (m + n + 1)) .behind (object :: stack)
              (w ++ 0x2C :: w' ++ (t ++ body) ++ closing object :: rest)
            = skipNested (fuel + m + n) .before (object :: stack) bs := by
              rw [← skipNested_comma hw henters]
              simp only [List.append_assoc, List.cons_append, Nat.add_assoc]
          _ = skipNested (fuel + m) .behind (object :: stack) (body ++ closing object :: rest) :=
              hpasses _ _
          _ = skipNested fuel .behind stack rest := hbehind _ _ _

/-- **An array or an object is passed**, if each of its items is. -/
theorem exists_passes_nested (object : Bool) {ts : List Bytes} {body : Bytes}
    (hbody : Items true ts body) (h : ∀ t ∈ ts, ∃ n, PassesItem object t n) :
    ∃ n, n + 1 ≤ 2 * (opening object :: (body ++ [closing object])).length ∧
      Passes (opening object :: (body ++ [closing object])) n := by
  have hlength : (opening object :: (body ++ [closing object])).length = body.length + 2 := by simp
  rw [hlength]
  cases hbody with
  | done hw' =>
      refine ⟨1, by omega, fun {w rest} hw _ fuel stack => ?_⟩
      rw [List.cons_append, List.append_assoc]
      exact skipNested_empty hw hw' fuel stack rest
  | @item _ w' t body ts hlead hrest =>
      obtain ⟨⟨n, hitem⟩, htail⟩ := List.forall_mem_cons.mp h
      obtain ⟨m, hm, hbehind⟩ := passes_behind hrest htail
      obtain ⟨b, more, rfl, hb, hne⟩ := hitem.starts
      have hbound := hitem.bound
      have hw' : Blank w' := by
        cases hlead
        assumption
      refine ⟨m + n + 1, ?_, fun {w rest} hw _ fuel stack => ?_⟩
      · simp only [List.length_append, List.length_cons] at hbound ⊢
        omega
      · obtain ⟨bs, henters, hpasses⟩ :=
          hitem.passes hw' (hrest.delimited (delimited_closing object rest))
        rw [List.cons_append] at henters
        calc skipNested (fuel + (m + n + 1)) .before stack
              (w ++ (opening object :: (w' ++ (b :: more ++ body) ++ [closing object]) ++ rest))
            = skipNested (fuel + m + n) .before (object :: stack) bs := by
              rw [← skipNested_open hw hw' hb hne henters]
              simp only [List.append_assoc, List.cons_append, List.nil_append, Nat.add_assoc]
          _ = skipNested (fuel + m) .behind (object :: stack) (body ++ closing object :: rest) :=
              hpasses _ _
          _ = skipNested fuel .behind stack rest := hbehind _ _ _

/-! ## Values -/

theorem ValueText.opens {v : Bytes} (h : ValueText v) : Opens v := by
  have hliteral : ∀ bs ∈ literals, ∃ b rest, bs = b :: rest ∧ (b = 0x6E ∨ b = 0x74 ∨ b = 0x66) := by
    simp [literals, nullText]
  have hnot : ∀ b : UInt8, b = 0x6E ∨ b = 0x74 ∨ b = 0x66 ∨ b = 0x22 ∨ b = 0x2D ∨ b = 0x5B ∨
      b = 0x7B → ¬ BlankByte b ∧ b ≠ 0x5D := by
    rintro b (rfl | rfl | rfl | rfl | rfl | rfl | rfl) <;> simp [BlankByte]
  cases h with
  | literal h =>
      obtain ⟨b, rest, rfl, hb⟩ := hliteral _ h
      exact ⟨b, rest, rfl, hnot b (by tauto)⟩
  | string => exact ⟨_, _, rfl, hnot _ (by decide)⟩
  | negative => exact ⟨_, _, rfl, hnot _ (by decide)⟩
  | array => exact ⟨_, _, rfl, hnot _ (by decide)⟩
  | object => exact ⟨_, _, rfl, hnot _ (by decide)⟩
  | number h =>
      obtain ⟨hwhole, -, -⟩ := h
      exact hwhole.digits.opens _

/-- A scalar is passed in one turn. -/
theorem Passes.of_scalar {v : Bytes} (h : ∀ {w rest}, Blank w → Delimited rest → ∀ fuel stack,
    skipNested (fuel + 1) .before stack (w ++ (v ++ rest)) = skipNested fuel .behind stack rest)
    (hv : Opens v) : ∃ n, n + 1 ≤ 2 * v.length ∧ Passes v n := by
  obtain ⟨b, rest, rfl, -⟩ := hv
  exact ⟨1, by simp only [List.length_cons]; omega, h⟩

/-- Each of the texts of items is the text of one of them. -/
theorem exists_mem_of_forall₂ {α β : Type} {R : α → β → Prop} {as : List α} {bs : List β}
    (h : List.Forall₂ R as bs) : ∀ b ∈ bs, ∃ a ∈ as, R a b := by
  induction h with
  | nil => exact fun b hb => absurd hb List.not_mem_nil
  | @cons a b as bs hab _ ih =>
      refine List.forall_mem_cons.mpr ⟨⟨a, List.mem_cons_self, hab⟩, fun c hc => ?_⟩
      obtain ⟨d, hd, hdc⟩ := ih c hc
      exact ⟨d, List.mem_cons_of_mem a hd, hdc⟩

section

variable {w rest : Bytes}

theorem skipNested_literal {bs : Bytes} (h : bs ∈ literals) (hw : Blank w) (fuel : Nat)
    (stack : List Bool) : skipNested (fuel + 1) .before stack (w ++ (bs ++ rest)) =
      skipNested fuel .behind stack rest := by
  rw [skipNested]
  simp only [literals, nullText, List.mem_cons, List.not_mem_nil, or_false] at h
  rcases h with rfl | rfl | rfl <;>
    · rw [List.cons_append, skipBlanks_to hw (by simp [BlankByte])]
      rfl

theorem skipNested_magnitude {bs : Bytes} (h : Magnitude bs) (hw : Blank w)
    (hrest : Delimited rest) (fuel : Nat) (stack : List Bool) :
    skipNested (fuel + 1) .before stack (w ++ (bs ++ rest)) = skipNested fuel .behind stack rest := by
  have hskip := skipNumber_magnitude h hrest
  obtain @⟨whole, _, _, hwhole, -, -⟩ := h
  obtain ⟨b, ds, rfl⟩ := List.exists_cons_of_ne_nil hwhole.digits.ne_nil
  have hdigit := hwhole.digits.all b List.mem_cons_self
  have hb : b ≠ 0x22 ∧ b ≠ 0x2D := by
    constructor <;> rintro rfl <;> exact absurd hdigit.1 (by decide)
  rw [List.cons_append, List.cons_append] at hskip ⊢
  rw [skipNested, skipBlanks_to hw (not_blankByte_of_digit hdigit).1]
  simp only [hb, if_false, isDigit_iff.mpr hdigit, if_true, hskip]

theorem skipNested_negative {bs : Bytes} (h : Magnitude bs) (hw : Blank w)
    (hrest : Delimited rest) (fuel : Nat) (stack : List Bool) :
    skipNested (fuel + 1) .before stack (w ++ ((0x2D :: bs) ++ rest)) =
      skipNested fuel .behind stack rest := by
  have hskip := skipNumber_magnitude h hrest
  rw [List.cons_append, skipNested, skipBlanks_to hw (by simp [BlankByte])]
  simp only [hskip]
  rfl

end

/-- **Every value is passed**, in a number of turns that its length bounds. -/
theorem exists_passes {v : Bytes} (h : ValueText v) : ∃ n, n + 1 ≤ 2 * v.length ∧ Passes v n := by
  have hopens := h.opens
  induction h with
  | literal h => exact Passes.of_scalar (fun hw _ => skipNested_literal h hw) hopens
  | string h =>
      refine Passes.of_scalar (fun {w rest} hw _ fuel stack => ?_) hopens
      rw [quoted, List.cons_append, List.append_assoc, skipNested,
        skipBlanks_to hw not_blankByte_quote]
      simp only [if_true, List.cons_append, List.nil_append, skipString_body h]
  | number h => exact Passes.of_scalar (fun hw hrest => skipNested_magnitude h hw hrest) hopens
  | negative h => exact Passes.of_scalar (fun hw hrest => skipNested_negative h hw hrest) hopens
  | @array vs body h hbody ih =>
      refine exists_passes_nested false hbody fun v hv => ?_
      obtain ⟨n, hbound, hpasses⟩ := ih v hv (h v hv).opens
      exact ⟨n, (h v hv).opens, hbound, fun hw hrest => ⟨_, rfl, hpasses hw hrest⟩⟩
  | @object ms texts body hname h htexts hbody ih =>
      refine exists_passes_nested true hbody fun t ht => ?_
      obtain ⟨m, hm, hmember⟩ := exists_mem_of_forall₂ htexts t ht
      obtain ⟨n, hbound, hpasses⟩ := ih m hm (h m hm).opens
      obtain ⟨w', hw', hkey⟩ := skipKey_member (hname m hm) hmember
      obtain ⟨hu, hu'⟩ := hmember
      refine ⟨n, ⟨_, _, rfl, not_blankByte_quote, by decide⟩, ?_, fun {w rest} hw hrest => ?_⟩
      · simp only [List.length_append, List.length_cons]
        omega
      · exact ⟨_, hkey w rest hw, hpasses hw' hrest⟩

/-- **The text of a value is skipped.** -/
theorem skipValue_text {v w rest : Bytes} (h : ValueText v) (hw : Blank w) (hrest : Delimited rest) :
    skipValue (w ++ (v ++ rest)) = .ok ((), rest) := by
  obtain ⟨n, hbound, hpasses⟩ := exists_passes h
  obtain ⟨k, hk⟩ : ∃ k, 2 * (w ++ (v ++ rest)).length + 2 = (k + 1) + n := by
    refine ⟨2 * (w ++ (v ++ rest)).length + 1 - n, ?_⟩
    simp only [List.length_append]
    omega
  rw [skipValue, hk, hpasses hw hrest]
  rfl

end StorageNode.Json
