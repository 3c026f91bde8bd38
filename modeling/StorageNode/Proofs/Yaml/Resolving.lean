import Mathlib.Data.List.Forall2
import StorageNode.Yaml.Event
import StorageNode.Proofs.Yaml.Reading

/-!
# What written values are read as

A node shows a value (`Node.Shows`) if it is what a value looks like once it is written: numbers, null
and booleans plainly, a string plainly only where its writer lets it be, and no tags or anchors. Such a
node stands for the value (`Shows.stands`), because every text is resolved to what it was written for:
digits to the integer (`Plain.ofText_toString`), and a text that would stand for something else than
itself is not written plainly (`ofText_of_wishFor`). Only NaNs are not told apart: all of them are
written alike, so what is read is the value with one NaN for all (`Value.canonical`), which is the same
data (`Value.same_canonical_self`).
-/

namespace StorageNode.Yaml

/-! ## Digits -/

theorem digit?_of_isDigit {c : Char} (h : c.isDigit = true) :
    digit? 10 c = some (c.toNat - '0'.toNat) := by
  have hbounds : '0' ≤ c ∧ c ≤ '9' := by simpa [Char.isDigit, Char.le_def] using h
  have hvalue : c.toNat - 48 < 10 := by
    have hle : c.toNat ≤ 57 := by simpa [Char.le_def, UInt32.le_iff_toNat_le] using hbounds.2
    omega
  simp [digit?, hexValue?, hbounds, hvalue]

/-- Decimal digits stand for their number. -/
theorem ofDigits?_of_digits {cs : List Char} (hne : cs ≠ [])
    (h : ∀ c ∈ cs, c.isDigit = true) : ofDigits? 10 cs = some (Nat.ofDigitChars 10 cs 0) := by
  have hfold : ∀ n, cs.foldl (fun n c => n.bind fun n => (digit? 10 c).map (n * 10 + ·)) (some n) =
      some (Nat.ofDigitChars 10 cs n) := by
    clear hne
    induction cs with
    | nil => intro n; rfl
    | cons c cs ih =>
        intro n
        obtain ⟨hc, hcs⟩ := List.forall_mem_cons.mp h
        rw [List.foldl_cons, Option.bind_some, digit?_of_isDigit hc, Option.map_some, ih hcs,
          Nat.ofDigitChars_cons, Nat.mul_comm]
  rw [ofDigits?, if_neg hne, hfold]

/-- No number but zero is written with a zero in front. -/
theorem eq_zero_of_head?_toDigits (n : Nat) (h : (Nat.toDigits 10 n).head? = some '0') : n = 0 := by
  induction n using Nat.strongRecOn with
  | ind n ih =>
      by_cases hn : n < 10
      · rw [Nat.toDigits_of_lt_base hn, List.head?_cons, Option.some.injEq] at h
        have hdigit : ∀ d < 10, d.digitChar = '0' → d = 0 := by decide
        exact hdigit n hn h
      · rw [Nat.toDigits_of_base_le (by decide) (by omega), List.head?_append_of_ne_nil _
          Nat.toDigits_ne_nil] at h
        have hzero := ih (n / 10) (by omega) h
        omega

/-- Digits have no leading zero, and no mark of a base. -/
theorem magnitude?_toDigits (n : Nat) : magnitude? (Nat.toDigits 10 n) = some n := by
  have hdigits : ofDigits? 10 (Nat.toDigits 10 n) = some n := by
    rw [ofDigits?_of_digits Nat.toDigits_ne_nil fun c hc =>
      Nat.isDigit_of_mem_toDigits (by decide) (by decide) hc, Nat.ofDigitChars_ten_toDigits]
  unfold magnitude?
  split
  next m ds heq =>
    obtain rfl := eq_zero_of_head?_toDigits n (by rw [heq]; rfl)
    simp at heq
  next => exact hdigits

/-- A number is read off its digits. -/
theorem signedMagnitude?_toDigits (n : Nat) :
    signedMagnitude? (Nat.toDigits 10 n) = some (false, n) := by
  have hdigit : ∀ c ds, Nat.toDigits 10 n = c :: ds → c.isDigit = true := fun c ds heq =>
    Nat.isDigit_of_mem_toDigits (by decide) (by decide) (heq ▸ List.mem_cons_self)
  unfold signedMagnitude?
  split
  next ds heq => exact absurd (hdigit _ _ heq) (by decide)
  next ds heq => exact absurd (hdigit _ _ heq) (by decide)
  next => rw [magnitude?_toDigits, Option.map_some]

/-- Likewise behind a minus sign. -/
theorem signedMagnitude?_minus (n : Nat) :
    signedMagnitude? ('-' :: Nat.toDigits 10 n) = some (true, n) := by
  rw [signedMagnitude?, magnitude?_toDigits, Option.map_some]

/-! ## Plain texts -/

/-- An integer fits itself. -/
theorem Integer.ofInt?_value (n : Integer) : Integer.ofInt? n.value = some n := by
  unfold Integer.ofInt?
  rw [dif_pos ⟨n.lower, n.upper⟩]

/-- A sign and digits stand for their integer if it fits. -/
theorem integerOf?_of_signedMagnitude? {cs : List Char} {negative : Bool} {k : Nat} {n : Integer}
    (h : signedMagnitude? cs = some (negative, k)) (hn : (if negative then -(k : Int) else k) = n.value) :
    integerOf? cs = some (.integer n) := by
  unfold integerOf?
  rw [h]
  simp only [hn, Integer.ofInt?_value]

/-- An integer is read off its text. -/
theorem integerOf?_toString (n : Integer) :
    integerOf? (toString n.value).toList = some (.integer n) := by
  rw [Int.toString_eq_repr]
  cases hvalue : n.value with
  | ofNat k =>
      have htext : (Int.repr (Int.ofNat k)).toList = Nat.toDigits 10 k := String.toList_ofList
      rw [htext]
      exact integerOf?_of_signedMagnitude? (signedMagnitude?_toDigits k) hvalue.symm
  | negSucc k =>
      have htext : (Int.repr (Int.negSucc k)).toList = '-' :: Nat.toDigits 10 (k + 1) := by
        show ("-" ++ Nat.repr (k + 1)).toList = _
        rw [String.toList_append]
        exact congrArg ('-' :: ·) String.toList_ofList
      rw [htext]
      exact integerOf?_of_signedMagnitude? (signedMagnitude?_minus (k + 1)) hvalue.symm

/-- The text of an integer is no word. -/
theorem ofText_of_integerOf? {s : String} {p : Plain} (h : integerOf? s.toList = some p) :
    Plain.ofText s = p := by
  have hne : ∀ w : String, integerOf? w.toList = none → s ≠ w := by
    rintro w hw rfl
    simp [hw] at h
  have hnull : isNullWord s = false := by
    simp only [isNullWord, List.mem_cons, List.not_mem_nil, or_false, decide_eq_false_iff_not,
      not_or]
    exact ⟨hne _ (by decide), hne _ (by decide), hne _ (by decide), hne _ (by decide)⟩
  have hbool : boolWord? s = none := by
    have htrue : s ∉ ["true", "True", "TRUE"] := by
      simp only [List.mem_cons, List.not_mem_nil, or_false, not_or]
      exact ⟨hne _ (by decide), hne _ (by decide), hne _ (by decide)⟩
    have hfalse : s ∉ ["false", "False", "FALSE"] := by
      simp only [List.mem_cons, List.not_mem_nil, or_false, not_or]
      exact ⟨hne _ (by decide), hne _ (by decide), hne _ (by decide)⟩
    rw [boolWord?, if_neg htrue, if_neg hfalse]
  have hempty : s ≠ "" := hne _ (by decide)
  simp [Plain.ofText, hempty, hnull, hbool, h]

/-- **An integer is what its text stands for.** -/
theorem Plain.ofText_toString (n : Integer) : Plain.ofText (toString n.value) = .integer n :=
  ofText_of_integerOf? (integerOf?_toString n)

/-- A text that may be written plainly stands for itself. -/
theorem ofText_of_wishFor {s : String} (h : wishFor s = .any) : Plain.ofText s = .string := by
  unfold wishFor at h
  split at h
  · cases h
  · split at h
    next hs => exact hs
    next => cases h

/-! ## One NaN for all -/

end StorageNode.Yaml

namespace StorageNode.Binary64

/-- The number, or the NaN that a literal stands for in place of any NaN. -/
def canonical (x : Binary64) : Binary64 := if x.isNaN then nan else x

theorem isNaN_canonical (x : Binary64) : x.canonical.isNaN = x.isNaN := by
  unfold canonical
  split
  next h => rw [h]; decide
  next => rfl

@[simp] theorem canonical_canonical (x : Binary64) : x.canonical.canonical = x.canonical := by
  unfold canonical
  split
  next => exact if_pos (by decide)
  next => rfl

/-- A NaN is no zero, and is another number than those that are none. -/
theorem sameNumber_of_isNaN {x y : Binary64} (hx : x.isNaN = false) (hy : y.isNaN = true) :
    x.sameNumber y = false := by
  have hne : x ≠ y := by
    rintro rfl
    simp [hx] at hy
  have hzero : y.isZero = false := by
    simp only [isNaN, decide_eq_true_eq] at hy
    simp only [isZero, decide_eq_false_iff_not]
    omega
  simp [sameNumber, hx, hne, hzero]

theorem sameNumber_canonical (x y : Binary64) :
    x.canonical.sameNumber y.canonical = x.sameNumber y := by
  cases hx : x.isNaN with
  | true => simp [sameNumber, isNaN_canonical, hx]
  | false =>
      have hxc : x.canonical = x := if_neg (by simp [hx])
      rw [hxc]
      cases hy : y.isNaN with
      | true =>
          rw [sameNumber_of_isNaN hx hy, sameNumber_of_isNaN hx ((isNaN_canonical y).trans hy)]
      | false => rw [show y.canonical = y from if_neg (by simp [hy])]

theorem sameNumber_self (x : Binary64) : x.sameNumber x = true := by
  unfold sameNumber
  split
  next h => exact h
  next => simp

end StorageNode.Binary64

namespace StorageNode.Yaml

/-- **Induction over values**: what holds of a collection if it holds of all its parts, and of scalars,
holds of every value. -/
theorem Value.ind {P : Value → Prop} (hnull : P .null) (hbool : ∀ b, P (.bool b))
    (hinteger : ∀ n, P (.integer n)) (hfloat : ∀ x, P (.float x)) (hstring : ∀ s, P (.string s))
    (hsequence : ∀ vs, (∀ v ∈ vs, P v) → P (.sequence vs))
    (hmapping : ∀ es, (∀ e ∈ es, P e.1 ∧ P e.2) → P (.mapping es))
    (htagged : ∀ t v, P v → P (.tagged t v)) (v : Value) : P v :=
  @Value.rec P (fun vs => ∀ v ∈ vs, P v) (fun es => ∀ e ∈ es, P e.1 ∧ P e.2)
    (fun e => P e.1 ∧ P e.2) hnull hbool hinteger hfloat hstring hsequence hmapping htagged
    (fun _ h => absurd h List.not_mem_nil) (fun _ _ h hs => List.forall_mem_cons.mpr ⟨h, hs⟩)
    (fun _ h => absurd h List.not_mem_nil) (fun _ _ h hs => List.forall_mem_cons.mpr ⟨h, hs⟩)
    (fun _ _ h h' => ⟨h, h'⟩) v

mutual

/-- The value with one NaN for all. -/
def Value.canonical : Value → Value
  | .float x => .float x.canonical
  | .sequence vs => .sequence (canonicalItems vs)
  | .mapping es => .mapping (canonicalEntries es)
  | .tagged t v => .tagged t v.canonical
  | v => v

/-- Likewise in items. -/
def canonicalItems : List Value → List Value
  | [] => []
  | v :: vs => v.canonical :: canonicalItems vs

/-- Likewise in entries. -/
def canonicalEntries : List (Value × Value) → List (Value × Value)
  | [] => []
  | (k, v) :: es => (k.canonical, v.canonical) :: canonicalEntries es

end

theorem canonicalItems_eq_map (vs : List Value) : canonicalItems vs = vs.map Value.canonical := by
  induction vs with
  | nil => rfl
  | cons v vs ih => rw [canonicalItems, ih, List.map_cons]

theorem canonicalEntries_eq_map (es : List (Value × Value)) :
    canonicalEntries es = es.map fun e => (e.1.canonical, e.2.canonical) := by
  induction es with
  | nil => rfl
  | cons e es ih => rw [canonicalEntries, ih, List.map_cons]

theorem canonical_string (s : String) : (Value.string s).canonical = .string s := by
  simp only [Value.canonical]

@[simp] theorem Value.canonical_canonical (v : Value) : v.canonical.canonical = v.canonical := by
  induction v using Value.ind with
  | hnull | hbool | hinteger | hstring => simp only [canonical]
  | hfloat x => simp only [canonical, Binary64.canonical_canonical]
  | hsequence vs ih =>
      simp only [canonical, canonicalItems_eq_map, List.map_map]
      exact congrArg _ (List.map_congr_left ih)
  | hmapping es ih =>
      simp only [canonical, canonicalEntries_eq_map, List.map_map]
      exact congrArg _ (List.map_congr_left fun e he => Prod.ext (ih e he).1 (ih e he).2)
  | htagged t v ih => simp only [canonical, ih]

/-- Items are the same data if their values are. -/
theorem sameItems_self {vs : List Value} (h : ∀ v ∈ vs, v.same v = true) : sameItems vs vs = true := by
  induction vs with
  | nil => rfl
  | cons v vs ih =>
      obtain ⟨hv, hvs⟩ := List.forall_mem_cons.mp h
      rw [sameItems, hv, ih hvs]
      rfl

/-- Entries are found among others if each of them is. -/
theorem sameEntries_iff {es ds : List (Value × Value)} : sameEntries es ds = true ↔
    ∀ e ∈ es, ∃ d ∈ ds, e.1.same d.1 = true ∧ e.2.same d.2 = true := by
  induction es with
  | nil => simp [sameEntries]
  | cons e es ih => simp [sameEntries, ih]

/-- A value is the same data as itself. -/
theorem Value.same_self (v : Value) : v.same v = true := by
  induction v using Value.ind with
  | hnull => simp [same]
  | hbool | hinteger | hstring => simp [same]
  | hfloat x => simp [same, Binary64.sameNumber_self]
  | hsequence vs ih => rw [same, sameItems_self ih]
  | hmapping es ih =>
      simp only [same, beq_self_eq_true, Bool.true_and, sameEntries_iff]
      exact fun e he => ⟨e, he, ih e he⟩
  | htagged t v ih => simp [same, ih]

/-- **Which NaN it is makes no difference** to the data. -/
theorem Value.same_canonical (a b : Value) : a.canonical.same b.canonical = a.same b := by
  induction a using Value.ind generalizing b with
  | hnull => cases b <;> simp [canonical, same]
  | hbool => cases b <;> simp [canonical, same]
  | hinteger => cases b <;> simp [canonical, same]
  | hstring => cases b <;> simp [canonical, same]
  | hfloat x => cases b <;> simp [canonical, same, Binary64.sameNumber_canonical]
  | hsequence vs ih =>
      cases b with
      | sequence ws =>
          simp only [canonical, same]
          induction vs generalizing ws with
          | nil => cases ws <;> simp [canonicalItems, sameItems]
          | cons v vs ihs =>
              obtain ⟨hv, hvs⟩ := List.forall_mem_cons.mp ih
              cases ws with
              | nil => simp [canonicalItems, sameItems]
              | cons w ws => simp only [canonicalItems, sameItems, hv, ihs hvs]
      | _ => simp [canonical, same]
  | hmapping es ih =>
      cases b with
      | mapping ds =>
          simp only [canonical, same, canonicalEntries_eq_map, List.length_map]
          congr 1
          rw [Bool.eq_iff_iff, sameEntries_iff, sameEntries_iff]
          simp only [List.mem_map, forall_exists_index, and_imp, forall_apply_eq_imp_iff₂,
            exists_exists_and_eq_and]
          exact forall₂_congr fun e he => by simp only [(ih e he).1, (ih e he).2]
      | _ => simp [canonical, same]
  | htagged t v ih => cases b <;> simp [canonical, same, ih]

theorem Value.same_canonical_self (v : Value) : v.same v.canonical = true := by
  rw [← same_canonical, canonical_canonical, same_self]

theorem Value.depth_canonical (v : Value) : v.canonical.depth = v.depth := by
  induction v using Value.ind with
  | hnull | hbool | hinteger | hfloat | hstring => simp only [canonical, depth]
  | hsequence vs ih =>
      simp only [canonical, depth]
      congr 1
      induction vs with
      | nil => rfl
      | cons v vs ihs =>
          obtain ⟨hv, hvs⟩ := List.forall_mem_cons.mp ih
          simp only [canonicalItems, depthOfValues, hv, ihs hvs]
  | hmapping es ih =>
      simp only [canonical, depth]
      congr 1
      induction es with
      | nil => rfl
      | cons e es ihs =>
          obtain ⟨he, hes⟩ := List.forall_mem_cons.mp ih
          simp only [canonicalEntries, depthOfPairs, he.1, he.2, ihs hes]
  | htagged t v ih => simp only [canonical, depth, ih]

theorem canonical_distinctKeys {v : Value} (h : v.distinctKeys = .ok ()) :
    v.canonical.distinctKeys = .ok () := by
  induction v using Value.ind with
  | hnull | hbool | hinteger | hfloat | hstring => simp only [Value.canonical, Value.distinctKeys]
  | hsequence vs ih =>
      rw [Value.distinctKeys, distinctInItems_eq_ok_iff] at h
      rw [Value.canonical, Value.distinctKeys, canonicalItems_eq_map, distinctInItems_eq_ok_iff,
        List.forall_mem_map]
      exact fun v hv => ih v hv (h v hv)
  | hmapping es ih =>
      rw [Value.distinctKeys, distinctInEntries_eq_ok_iff] at h
      rw [Value.canonical, Value.distinctKeys, canonicalEntries_eq_map, distinctInEntries_eq_ok_iff]
      obtain ⟨hparts, -, hkeys⟩ := h
      refine ⟨List.forall_mem_map.mpr fun e he => ?_, by simp, List.pairwise_map.mpr ?_⟩
      · exact ⟨(ih e he).1 (hparts e he).1, (ih e he).2 (hparts e he).2⟩
      · exact hkeys.imp fun hne => (Value.same_canonical _ _).trans hne
  | htagged t v ih =>
      rw [Value.distinctKeys] at h
      rw [Value.canonical, Value.distinctKeys]
      exact ih h

/-! ## Written values -/

/-- Pairs that are related part by part. -/
inductive Paired {α β : Type} (P : α → β → Prop) : α × α → β × β → Prop
  | intro {a a' : α} {b b' : β} (h : P a b) (h' : P a' b') : Paired P (a, a') (b, b')

/-- **What a value looks like once it is written**: without tags and anchors, plain if it is no string,
and if it is one, then plain only where its writer lets it be. -/
inductive Node.Shows : Node → Value → Prop
  | null : Shows (.scalar none none .plain "null") .null
  | bool (b : Bool) : Shows (.scalar none none .plain (if b then "true" else "false")) (.bool b)
  | integer (n : Integer) : Shows (.scalar none none .plain (toString n.value)) (.integer n)
  | float {x : Binary64} {s : String} (h : Plain.ofText s = .float x.canonical) :
      Shows (.scalar none none .plain s) (.float x)
  | string {style : Style} {s : String} (h : style = .plain → wishFor s = .any) :
      Shows (.scalar none none style s) (.string s)
  | sequence {ns : List Node} {vs : List Value} (h : List.Forall₂ Shows ns vs) :
      Shows (.sequence none none ns) (.sequence vs)
  | mapping {ns : List (Node × Node)} {es : List (Value × Value)}
      (h : List.Forall₂ (Paired Shows) ns es) : Shows (.mapping none none ns) (.mapping es)

section

variable {d : Document} {n : Node}

/-- A scalar without a tag stands for what its text, or its style, says. -/
theorem stands_scalar {style : Style} {s : String} {p : Plain} {v : Value}
    (hp : (if style = .plain then Plain.ofText s else .string) = p) (hv : p.value? s = some v) :
    d.Stands (.scalar none none style s) v 0 := by
  have hscalar : Plain.ofScalar none style s = .ok p := congrArg Except.ok hp
  exact .intro (.self (by simp)) (.scalar rfl hscalar hv)

/-- Items stand for what they show. -/
theorem costs_items {ns : List Node} {vs : List Value} (h : List.Forall₂ Node.Shows ns vs)
    (hvs : ∀ v ∈ vs, ∀ n : Node, n.Shows v → d.Stands n v.canonical 0) :
    Costs d.Stands ns (canonicalItems vs) 0 := by
  induction h with
  | nil => exact .nil
  | cons h _ ih =>
      obtain ⟨hv, hvs⟩ := List.forall_mem_cons.mp hvs
      exact .cons (hv _ h) (ih hvs)

/-- Entries stand for what they show. -/
theorem costs_entries {ns : List (Node × Node)} {es : List (Value × Value)}
    (h : List.Forall₂ (Paired Node.Shows) ns es)
    (hes : ∀ e ∈ es, (∀ n : Node, n.Shows e.1 → d.Stands n e.1.canonical 0) ∧
      ∀ n : Node, n.Shows e.2 → d.Stands n e.2.canonical 0) :
    Costs (Both d.Stands) ns (canonicalEntries es) 0 := by
  induction h with
  | nil => exact .nil
  | cons h _ ih =>
      obtain ⟨hk, hv⟩ := h
      obtain ⟨⟨hkey, hvalue⟩, hes⟩ := List.forall_mem_cons.mp hes
      exact .cons (.intro (hkey _ hk) (hvalue _ hv)) (ih hes)

/-- **A written value is read as itself**, with one NaN for all. -/
theorem Node.Shows.stands {v : Value} (h : n.Shows v) : d.Stands n v.canonical 0 := by
  induction v using Value.ind generalizing n with
  | hnull =>
      cases h
      exact stands_scalar (p := .null) (by decide) rfl
  | hbool b =>
      cases h
      cases b
      · exact stands_scalar (p := .bool false) (by decide) rfl
      · exact stands_scalar (p := .bool true) (by decide) rfl
  | hinteger k =>
      cases h
      exact stands_scalar (p := .integer k) ((if_pos rfl).trans (Plain.ofText_toString k)) rfl
  | hfloat x =>
      cases h with
      | float htext =>
          rw [Value.canonical]
          exact stands_scalar (p := .float x.canonical) ((if_pos rfl).trans htext) rfl
  | hstring s =>
      cases h with
      | string hstyle =>
          refine stands_scalar (p := .string) ?_ rfl
          split
          next hplain => exact ofText_of_wishFor (hstyle hplain)
          next => rfl
  | hsequence vs ih =>
      cases h with
      | sequence h => exact .intro (.self (by simp)) (.sequence rfl (costs_items h ih))
  | hmapping es ih =>
      cases h with
      | mapping h => exact .intro (.self (by simp)) (.mapping rfl (costs_entries h ih))
  | htagged => cases h

end

end StorageNode.Yaml
