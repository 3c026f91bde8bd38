import StorageNode.Yaml.Decode

/-!
# What reading comes to

Reading counts the aliases that it follows, and gives up when there are too many. What is read has a
cost, therefore: the number of aliases on the way (`Document.Means`). `Read.Exact` says of a reading
that it comes to certain results at certain costs, and to no others, as long as the limit is kept. The
rule for one reading after another adds up the costs (`Read.Exact.bind`), and so every function that
reads has a meaning in which neither the count nor the path occurs.

`Document.Stands` is that meaning for data of any shape: which nodes stand for a value at all, and for
which one (`Document.value_exact`). Nodes with local tags, and integers of more than 64 bits, stand for
none.
-/

namespace StorageNode.Yaml

/-! ## Exact readings -/

/-- **The results of a reading, and what they cost**: with at most `limit` aliases it comes to them, and
to nothing else. -/
def Read.Exact {α : Type} (limit : Nat) (r : Read α) (P : α → Nat → Prop) : Prop :=
  ∀ n a m, n ≤ limit → (r n = .ok (a, m) ↔ ∃ c, P a c ∧ m = n + c ∧ m ≤ limit)

namespace Read

section

variable {α β : Type} {limit : Nat} {r : Read α} {P : α → Nat → Prop}

theorem Exact.congr {Q : α → Nat → Prop} (h : r.Exact limit P) (hPQ : ∀ a c, P a c ↔ Q a c) :
    r.Exact limit Q := by
  intro n a m hn
  rw [h n a m hn]
  exact exists_congr fun c => and_congr_left' (hPQ a c)

theorem Exact.pure (a : α) : (Read.pure a).Exact limit fun b c => b = a ∧ c = 0 := by
  intro n b m hn
  constructor
  · rintro h
    obtain ⟨rfl, rfl⟩ := Prod.mk.inj (Except.ok.inj h)
    exact ⟨0, ⟨rfl, rfl⟩, rfl, hn⟩
  · rintro ⟨c, ⟨rfl, rfl⟩, rfl, -⟩
    rfl

theorem Exact.fail (e : Failure) : (Read.fail e : Read α).Exact limit fun _ _ => False := by
  intro n a m _
  constructor
  · intro h
    cases h
  · rintro ⟨c, hc, -⟩
    exact hc.elim

/-- What is decided without reading anything, for one result. -/
theorem Exact.of_pure {a : α} {p : α → Prop} (h : ∀ b, p b ↔ b = a) :
    (Read.pure a).Exact limit fun b c => p b ∧ c = 0 :=
  (Exact.pure a).congr fun b _ => and_congr_left' (h b).symm

/-- What is decided without reading anything, against any result. -/
theorem Exact.of_fail {e : Failure} {p : α → Prop} (h : ∀ b, ¬ p b) :
    (Read.fail e : Read α).Exact limit fun b c => p b ∧ c = 0 :=
  (Exact.fail e).congr fun b _ => by simp [h b]

theorem bind_eq_ok {f : α → Read β} {n m : Nat} {b : β} :
    (r >>= f) n = .ok (b, m) ↔ ∃ a k, r n = .ok (a, k) ∧ f a k = .ok (b, m) := by
  show Read.bind r f n = _ ↔ _
  unfold Read.bind
  cases hr : r n with
  | error e => simp
  | ok p =>
      constructor
      · exact fun h => ⟨p.1, p.2, rfl, h⟩
      · rintro ⟨a, k, heq, h⟩
        obtain rfl := Except.ok.inj heq
        exact h

/-- **One reading after another** costs what both do. -/
theorem Exact.bind {f : α → Read β} {Q : α → β → Nat → Prop} (h : r.Exact limit P)
    (hf : ∀ a, (f a).Exact limit (Q a)) :
    (r >>= f).Exact limit fun b c => ∃ a c₁ c₂, P a c₁ ∧ Q a b c₂ ∧ c = c₁ + c₂ := by
  intro n b m hn
  rw [bind_eq_ok]
  constructor
  · rintro ⟨a, k, hr, hk⟩
    obtain ⟨c₁, hP, rfl, hle⟩ := (h n a k hn).mp hr
    obtain ⟨c₂, hQ, rfl, hm⟩ := (hf a _ b m hle).mp hk
    exact ⟨c₁ + c₂, ⟨a, c₁, c₂, hP, hQ, rfl⟩, Nat.add_assoc n c₁ c₂, hm⟩
  · rintro ⟨c, ⟨a, c₁, c₂, hP, hQ, rfl⟩, rfl, hm⟩
    have hle : n + c₁ ≤ limit := by omega
    refine ⟨a, n + c₁, (h n a _ hn).mpr ⟨c₁, hP, rfl, hle⟩, ?_⟩
    exact (hf a _ b _ hle).mpr ⟨c₂, hQ, (Nat.add_assoc n c₁ c₂).symm, hm⟩

/-- A result that is given out in other words costs the same. -/
theorem Exact.map {f : α → β} (h : r.Exact limit P) :
    (r >>= fun a => Read.pure (f a)).Exact limit fun b c => ∃ a, P a c ∧ b = f a := by
  refine (h.bind fun a => .pure (f a)).congr fun b c => ?_
  constructor
  · rintro ⟨a, c₁, c₂, hP, ⟨rfl, rfl⟩, rfl⟩
    exact ⟨a, hP, rfl⟩
  · rintro ⟨a, hP, rfl⟩
    exact ⟨a, c, 0, hP, ⟨rfl, rfl⟩, rfl⟩

theorem Exact.check (p : Path) (e : Except Mismatch α) :
    (Read.check p e).Exact limit fun a c => e = .ok a ∧ c = 0 := by
  cases e with
  | ok b => exact (Exact.pure b).congr fun a c => by simp [eq_comm]
  | error m => exact (Exact.fail _).congr fun a c => by simp

/-- What is read from the beginning on is a result whose cost is within the limit. -/
theorem Exact.start_iff (h : r.Exact limit P) {a : α} :
    (r 0).map (·.1) = .ok a ↔ ∃ c, P a c ∧ c ≤ limit := by
  constructor
  · intro hok
    cases hr : r 0 with
    | error e => simp [hr, Except.map] at hok
    | ok b =>
        obtain ⟨b, m⟩ := b
        obtain rfl : b = a := by simpa [hr, Except.map] using hok
        obtain ⟨c, hP, rfl, hle⟩ := (h 0 b m (Nat.zero_le _)).mp hr
        exact ⟨c, hP, by omega⟩
  · rintro ⟨c, hP, hle⟩
    rw [(h 0 a c (Nat.zero_le _)).mpr ⟨c, hP, (Nat.zero_add c).symm, hle⟩]
    rfl

/-- **What is read from the bytes of a document** is a result whose cost is within its limit. -/
theorem Exact.read_iff {f : Document → Node → Read α} {d : Document}
    (h : (f d d.root).Exact d.aliasLimit P) {bytes : Bytes}
    (hparse : Document.parse? bytes = .ok (some d)) {a : α} :
    Yaml.read f bytes = .ok a ↔ ∃ c, P a c ∧ c ≤ d.aliasLimit := by
  rw [← h.start_iff, Yaml.read, hparse]
  dsimp only
  generalize (f d d.root 0).map (·.1) = result
  cases result with
  | error e => exact ⟨nofun, nofun⟩
  | ok b => exact Iff.rfl

end

end Read

/-! ## Lists that are read item by item -/

/-- **Two lists correspond item by item**, and each pair has its cost. -/
inductive Costs {α β : Type} (P : α → β → Nat → Prop) : List α → List β → Nat → Prop
  | nil : Costs P [] [] 0
  | cons {a : α} {b : β} {as : List α} {bs : List β} {c₁ c₂ : Nat} (h : P a b c₁)
      (hs : Costs P as bs c₂) : Costs P (a :: as) (b :: bs) (c₁ + c₂)

namespace Costs

variable {α β : Type} {P : α → β → Nat → Prop} {as : List α} {bs : List β} {c : Nat}

/-- What holds of the second item of every pair can be told apart. -/
theorem and_iff {p : β → Prop} :
    Costs (fun a b c => P a b c ∧ p b) as bs c ↔ Costs P as bs c ∧ ∀ b ∈ bs, p b := by
  constructor
  · intro h
    induction h with
    | nil => exact ⟨.nil, by simp⟩
    | cons h _ ih => exact ⟨.cons h.1 ih.1, List.forall_mem_cons.mpr ⟨h.2, ih.2⟩⟩
  · rintro ⟨h, hp⟩
    induction h with
    | nil => exact .nil
    | cons h _ ih =>
        obtain ⟨hb, hbs⟩ := List.forall_mem_cons.mp hp
        exact .cons ⟨h, hb⟩ (ih hbs)

/-- An item and its cost determine the other one, and so do lists. -/
theorem unique {bs' : List β} {c' : Nat} (h : Costs P as bs c) (h' : Costs P as bs' c')
    (hP : ∀ {a b b' c c'}, P a b c → P a b' c' → b = b' ∧ c = c') : bs = bs' ∧ c = c' := by
  induction h generalizing bs' c' with
  | nil =>
      cases h'
      exact ⟨rfl, rfl⟩
  | cons h _ ih =>
      cases h' with
      | cons h₂ hs₂ =>
          obtain ⟨rfl, rfl⟩ := hP h h₂
          obtain ⟨rfl, rfl⟩ := ih hs₂
          exact ⟨rfl, rfl⟩

theorem nil_iff : Costs P [] bs c ↔ bs = [] ∧ c = 0 := by
  constructor
  · intro h
    cases h
    exact ⟨rfl, rfl⟩
  · rintro ⟨rfl, rfl⟩
    exact .nil

theorem cons_iff {a : α} : Costs P (a :: as) bs c ↔
    ∃ b bs' c₁ c₂, bs = b :: bs' ∧ P a b c₁ ∧ Costs P as bs' c₂ ∧ c = c₁ + c₂ := by
  constructor
  · intro h
    cases h with
    | cons h hs => exact ⟨_, _, _, _, rfl, h, hs, rfl⟩
  · rintro ⟨b, bs', c₁, c₂, rfl, h, hs, rfl⟩
    exact .cons h hs

end Costs

/-- Two pairs correspond, part by part. -/
inductive Both {α β : Type} (P : α → β → Nat → Prop) : α × α → β × β → Nat → Prop
  | intro {a a' : α} {b b' : β} {c₁ c₂ : Nat} (h : P a b c₁) (h' : P a' b' c₂) :
      Both P (a, a') (b, b') (c₁ + c₂)

/-! ## What nodes mean -/

namespace Document

section

variable {d : Document} {n : Node} {c : Nat}

/-- **The node that is meant**: the node itself, or the one an alias refers to, at the cost of one
alias. -/
inductive Means (d : Document) : Node → Node → Nat → Prop
  | self {n : Node} (h : ∀ a, n ≠ .alias a) : Means d n n 0
  | target {a : Nat} {n : Node} (h : d.target? a = some n) : Means d (.alias a) n 1

theorem Means.unique {m m' : Node} {c' : Nat} (h : d.Means n m c) (h' : d.Means n m' c') :
    m = m' ∧ c = c' := by
  cases h with
  | self h =>
      cases h' with
      | self => exact ⟨rfl, rfl⟩
      | target => exact absurd rfl (h _)
  | target h =>
      cases h' with
      | self h' => exact absurd rfl (h' _)
      | target h' => exact ⟨Option.some.inj (h.symm.trans h'), rfl⟩

theorem follow_exact (d : Document) (n : Node) :
    (d.follow n).Exact d.aliasLimit fun m c => d.Means n m c := by
  have hself : (∀ a, n ≠ .alias a) → (Read.pure n).Exact d.aliasLimit fun m c => d.Means n m c := by
    refine fun h => (Read.Exact.pure n).congr fun m c => ?_
    constructor
    · rintro ⟨rfl, rfl⟩
      exact .self h
    · intro hm
      exact hm.unique (.self h)
  cases n with
  | «alias» a =>
      intro k m k' hk
      simp only [follow]
      constructor
      · intro h
        split at h
        · cases h
        next hlimit =>
        split at h
        next target htarget =>
          obtain ⟨rfl, rfl⟩ := Prod.mk.inj (Except.ok.inj h)
          exact ⟨1, .target htarget, rfl, by omega⟩
        · cases h
      · rintro ⟨c, hm, rfl, hle⟩
        cases hm with
        | self h => exact absurd rfl (h a)
        | target h => rw [if_neg (by omega), h]
  | scalar => exact hself (by simp)
  | sequence => exact hself (by simp)
  | mapping => exact hself (by simp)

/-- **Of the node that is meant**, this holds. -/
def At {α : Type} (d : Document) (P : Node → α → Prop) (n : Node) (a : α) (c : Nat) : Prop :=
  ∃ m, d.Means n m c ∧ P m a

theorem At.unique {α : Type} {P : Node → α → Prop} {a b : α} {c' : Nat} (h : d.At P n a c)
    (h' : d.At P n b c') (hP : ∀ {m a b}, P m a → P m b → a = b) : a = b ∧ c = c' := by
  obtain ⟨m, hm, ha⟩ := h
  obtain ⟨m', hm', hb⟩ := h'
  obtain ⟨rfl, rfl⟩ := hm.unique hm'
  exact ⟨hP ha hb, rfl⟩

/-- A scalar is meant itself. -/
theorem At.of_scalar {α : Type} {P : Node → α → Prop} {anchor : Option Nat} {tag : Option String}
    {style : Style} {s : String} {a : α} (h : P (.scalar anchor tag style s) a) :
    d.At P (.scalar anchor tag style s) a 0 := ⟨_, .self (by simp), h⟩

/-- What is read of the node that is meant costs no more than getting there. -/
theorem follow_bind_exact {α : Type} {f : Node → Read α} {P : Node → α → Prop} (n : Node)
    (hf : ∀ m, (f m).Exact d.aliasLimit fun a c => P m a ∧ c = 0) :
    (d.follow n >>= f).Exact d.aliasLimit (d.At P n) := by
  refine ((follow_exact d n).bind hf).congr fun a c => ?_
  constructor
  · rintro ⟨m, c₁, c₂, hm, ⟨hP, rfl⟩, rfl⟩
    exact ⟨m, hm, hP⟩
  · rintro ⟨m, hm, hP⟩
    exact ⟨m, c, 0, hm, ⟨hP, rfl⟩, rfl⟩

end

end Document

/-! ## Nodes of one kind -/

namespace Node

/-- A scalar with this text. -/
inductive HasText : Node → String → Prop
  | scalar (anchor : Option Nat) (tag : Option String) (style : Style) (s : String) :
      HasText (.scalar anchor tag style s) s

/-- An unsigned number below a bound, written plainly, or as a literal block with the tag of
integers. -/
inductive HasNatural (bound : Nat) : Node → Nat → Prop
  | scalar {anchor : Option Nat} {tag : Option String} {style : Style} {s : String} {k : Nat}
      (hstyle : style = .plain ∨ (style = .literal ∧ tag = some (coreTag "int")))
      (hs : signedMagnitude? s.toList = some (false, k)) (hk : k < bound) :
      HasNatural bound (.scalar anchor tag style s) k

/-- One of some words: the text of a scalar, or a local tag on nothing. -/
inductive HasWord (words : List String) : Node → String → Prop
  | text {anchor : Option Nat} {tag : Option String} {style : Style} {w : String}
      (htag : localTag? tag = none) (hw : w ∈ words) :
      HasWord words (.scalar anchor tag style w) w
  | tag {anchor : Option Nat} {tag : Option String} {style : Style} {s w : String}
      (htag : localTag? tag = some w) (hw : w ∈ words) (hstyle : style = .plain)
      (hs : s = "" ∨ isNullWord s = true) : HasWord words (.scalar anchor tag style s) w

/-- The entries of a mapping; none where nothing is written. -/
inductive HasEntries : Node → List (Node × Node) → Prop
  | mapping (anchor : Option Nat) (tag : Option String) (es : List (Node × Node)) :
      HasEntries (.mapping anchor tag es) es
  | empty {n : Node} (h : Document.isEmpty n = true) : HasEntries n []

/-- The items of a sequence; none where nothing is written. -/
inductive HasItems : Node → List Node → Prop
  | sequence (anchor : Option Nat) (tag : Option String) (ns : List Node) :
      HasItems (.sequence anchor tag ns) ns
  | empty {n : Node} (h : Document.isEmpty n = true) : HasItems n []

section

variable {m : Node}

theorem HasText.unique {s s' : String} (h : m.HasText s) (h' : m.HasText s') : s = s' := by
  cases h
  cases h'
  rfl

theorem hasNatural_scalar_iff {bound k : Nat} {a : Option Nat} {tag : Option String}
    {style : Style} {s : String} :
    HasNatural bound (.scalar a tag style s) k ↔
      (style = .plain ∨ (style = .literal ∧ tag = some (coreTag "int"))) ∧
        signedMagnitude? s.toList = some (false, k) ∧ k < bound :=
  ⟨fun ⟨hstyle, hs, hk⟩ => ⟨hstyle, hs, hk⟩, fun ⟨hstyle, hs, hk⟩ => .scalar hstyle hs hk⟩

/-- What is written decides on the number. -/
theorem hasNatural_scalar_iff_of_magnitude {bound k k' : Nat} {a : Option Nat}
    {tag : Option String} {style : Style} {s : String}
    (hstyle : style = .plain ∨ (style = .literal ∧ tag = some (coreTag "int")))
    (hs : signedMagnitude? s.toList = some (false, k)) :
    HasNatural bound (.scalar a tag style s) k' ↔ k' = k ∧ k < bound := by
  rw [hasNatural_scalar_iff, hs]
  constructor
  · rintro ⟨-, ⟨⟩, hk⟩
    exact ⟨rfl, hk⟩
  · rintro ⟨rfl, hk⟩
    exact ⟨hstyle, rfl, hk⟩

theorem HasNatural.unique {bound k k' : Nat} (h : m.HasNatural bound k)
    (h' : m.HasNatural bound k') : k = k' := by
  cases h with
  | scalar _ hs _ =>
      cases h' with
      | scalar _ hs' _ => exact (Prod.mk.inj (Option.some.inj (hs.symm.trans hs'))).2

/-- Without a tag of its own a scalar is a word as it is written. -/
theorem hasWord_text_iff {words : List String} {a : Option Nat} {tag : Option String} {style : Style}
    {s w : String} (htag : localTag? tag = none) :
    HasWord words (.scalar a tag style s) w ↔ w ∈ words ∧ w = s := by
  constructor
  · intro h
    cases h with
    | text _ hw => exact ⟨hw, rfl⟩
    | tag htag' => simp [htag] at htag'
  · rintro ⟨hw, rfl⟩
    exact .text htag hw

/-- With a tag of its own a scalar is the word of the tag, and nothing else is written. -/
theorem hasWord_tag_iff {words : List String} {a : Option Nat} {tag : Option String} {style : Style}
    {s t w : String} (htag : localTag? tag = some t) :
    HasWord words (.scalar a tag style s) w ↔
      t ∈ words ∧ (style = .plain ∧ (s = "" ∨ isNullWord s = true)) ∧ w = t := by
  constructor
  · intro h
    cases h with
    | text htag' => simp [htag] at htag'
    | tag htag' hw hstyle hs =>
        obtain rfl := Option.some.inj (htag'.symm.trans htag)
        exact ⟨hw, ⟨hstyle, hs⟩, rfl⟩
  · rintro ⟨hw, ⟨hstyle, hs⟩, rfl⟩
    exact .tag htag hw hstyle hs

theorem HasWord.unique {words : List String} {w w' : String} (h : m.HasWord words w)
    (h' : m.HasWord words w') : w = w' := by
  cases h with
  | text htag _ =>
      cases h' with
      | text => rfl
      | tag htag' => simp [htag] at htag'
  | tag htag _ _ _ =>
      cases h' with
      | text htag' => simp [htag] at htag'
      | tag htag' => exact Option.some.inj (htag.symm.trans htag')

theorem HasEntries.unique {es es' : List (Node × Node)} (h : m.HasEntries es)
    (h' : m.HasEntries es') : es = es' := by
  cases h with
  | mapping =>
      cases h' with
      | mapping => rfl
      | empty h => cases h
  | empty h =>
      cases h' with
      | mapping => cases h
      | empty => rfl

theorem HasItems.unique {ns ns' : List Node} (h : m.HasItems ns) (h' : m.HasItems ns') :
    ns = ns' := by
  cases h with
  | sequence =>
      cases h' with
      | sequence => rfl
      | empty h => cases h
  | empty h =>
      cases h' with
      | sequence => cases h
      | empty => rfl

end

end Node

namespace Document

section

variable (d : Document) (p : Path) (expected : String) (n : Node)

theorem text_exact : (d.text p expected n).Exact d.aliasLimit (d.At Node.HasText n) := by
  refine follow_bind_exact n fun m => ?_
  cases m with
  | scalar a t style s =>
      refine .of_pure fun s' => ?_
      constructor
      · rintro ⟨⟩
        rfl
      · rintro rfl
        exact .scalar a t style s'
  | _ => exact .of_fail fun _ h => by cases h

theorem natural_exact (bound : Nat) :
    (d.natural p bound expected n).Exact d.aliasLimit (d.At (Node.HasNatural bound) n) := by
  refine follow_bind_exact n fun m => ?_
  cases m with
  | scalar a tag style s =>
      dsimp only
      split
      next hstyle =>
        split
        next k hs =>
          have hiff : ∀ k', Node.HasNatural bound (.scalar a tag style s) k' ↔ k' = k ∧ k < bound :=
            fun k' => Node.hasNatural_scalar_iff_of_magnitude (by simpa using hstyle) hs
          split
          next hk => exact .of_pure fun k' => by simp [hiff, hk]
          next hk =>
            have hnone : ∀ k', ¬ Node.HasNatural bound (.scalar a tag style s) k' :=
              fun k' h => hk ((hiff k').mp h).2
            split
            · exact .of_fail hnone
            · exact .of_fail hnone
        next hs => exact .of_fail fun k' h => hs k' (Node.hasNatural_scalar_iff.mp h).2.1
      next hstyle =>
        exact .of_fail fun k' h =>
          hstyle (by simpa using (Node.hasNatural_scalar_iff.mp h).1)
  | _ => exact .of_fail fun _ h => by cases h

/-- A word of the list is taken, and any other one is refused, before what comes next. -/
theorem exact_of_known {α : Type} {words : List String} {w : String} {f : String → Read α}
    {P : α → Prop} {e : Failure} (hf : w ∈ words → (f w).Exact d.aliasLimit fun a c => P a ∧ c = 0)
    (hnone : w ∉ words → ∀ a, ¬ P a) :
    ((if w ∈ words then Read.pure w else Read.fail e) >>= f).Exact d.aliasLimit
      fun a c => P a ∧ c = 0 := by
  split
  next hw => exact hf hw
  next hw => exact .of_fail (hnone hw)

theorem oneOf_exact (words : List String) :
    (d.oneOf p words n).Exact d.aliasLimit (d.At (Node.HasWord words) n) := by
  refine follow_bind_exact n fun m => ?_
  cases m with
  | scalar a tag style s =>
      dsimp only
      split
      next htag =>
        simp only [Node.hasWord_text_iff htag]
        split
        next hw => exact .of_pure fun w => and_iff_right_of_imp fun h => h ▸ hw
        next hw => exact .of_fail fun w h => hw (h.2 ▸ h.1)
      next t htag =>
        simp only [Node.hasWord_tag_iff htag]
        refine exact_of_known d (fun hw => ?_) fun hw w h => hw h.1
        split
        next hs =>
          have hs : style = .plain ∧ (s = "" ∨ isNullWord s = true) := by simpa using hs
          exact .of_pure fun w => (and_iff_right hw).trans (and_iff_right hs)
        next hs => exact .of_fail fun w h => hs (by simpa using h.2.1)
  | sequence a tag ns =>
      dsimp only
      split
      · exact .of_fail fun _ h => by cases h
      · exact exact_of_known d (fun _ => .of_fail fun _ h => by cases h) fun _ _ h => by cases h
  | mapping a tag es =>
      dsimp only
      split
      · exact .of_fail fun _ h => by cases h
      · exact exact_of_known d (fun _ => .of_fail fun _ h => by cases h) fun _ _ h => by cases h
  | «alias» => exact .of_fail fun _ h => by cases h

/-- A node that is no collection is read as an empty one if nothing is written. -/
theorem exact_of_empty {α : Type} {m : Node} {P : List α → Prop}
    (hP : ∀ xs, P xs ↔ isEmpty m = true ∧ xs = []) :
    (if isEmpty m then pure [] else Read.fail (refuse p expected m) : Read (List α)).Exact
      d.aliasLimit fun xs c => P xs ∧ c = 0 := by
  split
  next h => exact .of_pure fun xs => (hP xs).trans (and_iff_right h)
  next h => exact .of_fail fun xs hxs => h ((hP xs).mp hxs).1

theorem entries_exact :
    (d.entries p expected n).Exact d.aliasLimit (d.At Node.HasEntries n) := by
  refine follow_bind_exact n fun m => ?_
  have hempty : (∀ a t es, m ≠ .mapping a t es) →
      ∀ es, m.HasEntries es ↔ isEmpty m = true ∧ es = [] := by
    refine fun hm es => ⟨fun h => ?_, fun h => h.2 ▸ .empty h.1⟩
    cases h with
    | mapping => exact absurd rfl (hm _ _ _)
    | empty h => exact ⟨h, rfl⟩
  cases m with
  | mapping a t es =>
      refine .of_pure fun es' => ⟨fun h => h.unique (.mapping a t es), ?_⟩
      rintro rfl
      exact .mapping a t es'
  | _ => exact exact_of_empty d p expected (hempty (by simp))

theorem items_exact : (d.items p expected n).Exact d.aliasLimit (d.At Node.HasItems n) := by
  refine follow_bind_exact n fun m => ?_
  have hempty : (∀ a t ns, m ≠ .sequence a t ns) →
      ∀ ns, m.HasItems ns ↔ isEmpty m = true ∧ ns = [] := by
    refine fun hm ns => ⟨fun h => ?_, fun h => h.2 ▸ .empty h.1⟩
    cases h with
    | sequence => exact absurd rfl (hm _ _ _)
    | empty h => exact ⟨h, rfl⟩
  cases m with
  | sequence a t ns =>
      refine .of_pure fun ns' => ⟨fun h => h.unique (.sequence a t ns), ?_⟩
      rintro rfl
      exact .sequence a t ns'
  | _ => exact exact_of_empty d p expected (hempty (by simp))

/-! ## Lists of nodes -/

variable {d}

theorem eachItem_exact {α : Type} {f : Nat → Node → Read α} {P : Node → α → Nat → Prop}
    (hf : ∀ i n, (f i n).Exact d.aliasLimit (P n)) (i : Nat) (ns : List Node) :
    (eachItem f i ns).Exact d.aliasLimit (Costs P ns) := by
  induction ns generalizing i with
  | nil => exact (Read.Exact.pure []).congr fun as c => Costs.nil_iff.symm
  | cons n ns ih =>
      refine ((hf i n).bind fun a => (ih (i + 1)).map).congr fun as c => ?_
      rw [Costs.cons_iff]
      constructor
      · rintro ⟨a, c₁, c₂, ha, ⟨as', has, rfl⟩, rfl⟩
        exact ⟨a, as', c₁, c₂, rfl, ha, has, rfl⟩
      · rintro ⟨a, as', c₁, c₂, rfl, ha, has, rfl⟩
        exact ⟨a, c₁, c₂, ha, ⟨as', has, rfl⟩, rfl⟩

theorem eachEntry_exact {α : Type} {f : Node → Node → Read α} {P : Node × Node → α → Nat → Prop}
    (hf : ∀ k v, (f k v).Exact d.aliasLimit (P (k, v))) (es : List (Node × Node)) :
    (eachEntry f es).Exact d.aliasLimit (Costs P es) := by
  induction es with
  | nil => exact (Read.Exact.pure []).congr fun as c => Costs.nil_iff.symm
  | cons e es ih =>
      refine ((hf e.1 e.2).bind fun a => ih.map).congr fun as c => ?_
      rw [Costs.cons_iff]
      constructor
      · rintro ⟨a, c₁, c₂, ha, ⟨as', has, rfl⟩, rfl⟩
        exact ⟨a, as', c₁, c₂, rfl, ha, has, rfl⟩
      · rintro ⟨a, as', c₁, c₂, rfl, ha, has, rfl⟩
        exact ⟨a, c₁, c₂, ha, ⟨as', has, rfl⟩, rfl⟩

end

end Document

/-! ## Data of any shape -/

/-- The data that a plain text stands for; none for an integer of more than 64 bits. -/
def Plain.value? (s : String) : Plain → Option Value
  | .null => some .null
  | .bool b => some (.bool b)
  | .integer n => some (.integer n)
  | .wideUnsigned _ => none
  | .wideSigned _ => none
  | .float x => some (.float x)
  | .string => some (.string s)

mutual

/-- How deep the collections of a value are nested. -/
def Value.depth : Value → Nat
  | .sequence vs => depthOfValues vs + 1
  | .mapping es => depthOfPairs es + 1
  | .tagged _ v => v.depth
  | _ => 0

/-- Likewise in the items of a sequence. -/
def depthOfValues : List Value → Nat
  | [] => 0
  | v :: vs => max v.depth (depthOfValues vs)

/-- Likewise in the entries of a mapping. -/
def depthOfPairs : List (Value × Value) → Nat
  | [] => 0
  | (k, v) :: es => max (max k.depth v.depth) (depthOfPairs es)

end

theorem depthOfValues_le_iff {vs : List Value} {n : Nat} :
    depthOfValues vs ≤ n ↔ ∀ v ∈ vs, v.depth ≤ n := by
  induction vs with
  | nil => simp [depthOfValues]
  | cons v vs ih => rw [depthOfValues, List.forall_mem_cons, ← ih, Nat.max_le]

theorem depthOfPairs_le_iff {es : List (Value × Value)} {n : Nat} :
    depthOfPairs es ≤ n ↔ ∀ e ∈ es, e.1.depth ≤ n ∧ e.2.depth ≤ n := by
  induction es with
  | nil => simp [depthOfPairs]
  | cons e es ih => rw [depthOfPairs, List.forall_mem_cons, ← ih, Nat.max_le, Nat.max_le]

/-- **A node holds a value**, given what its parts stand for. There is no local tag on it, and it is no
integer of more than 64 bits. -/
inductive Node.Holds (P : Node → Value → Nat → Prop) : Node → Value → Nat → Prop
  | scalar {anchor : Option Nat} {tag : Option String} {style : Style} {s : String} {p : Plain}
      {v : Value} (htag : localTag? tag = none) (hp : Plain.ofScalar tag style s = .ok p)
      (hv : p.value? s = some v) : Holds P (.scalar anchor tag style s) v 0
  | sequence {anchor : Option Nat} {tag : Option String} {ns : List Node} {vs : List Value} {c : Nat}
      (htag : localTag? tag = none) (hs : Costs P ns vs c) :
      Holds P (.sequence anchor tag ns) (.sequence vs) c
  | mapping {anchor : Option Nat} {tag : Option String} {es : List (Node × Node)}
      {vs : List (Value × Value)} {c : Nat} (htag : localTag? tag = none)
      (hs : Costs (Both P) es vs c) : Holds P (.mapping anchor tag es) (.mapping vs) c

/-- **A node stands for a value**, at the cost of all aliases on the way. -/
inductive Document.Stands (d : Document) : Node → Value → Nat → Prop
  | intro {n m : Node} {v : Value} {c₁ c₂ : Nat} (h : d.Means n m c₁)
      (hm : m.Holds (Stands d) v c₂) : Stands d n v (c₁ + c₂)

namespace Document

section

variable {d : Document} {n : Node} {v : Value} {c : Nat}

theorem stands_iff : d.Stands n v c ↔
    ∃ m c₁ c₂, d.Means n m c₁ ∧ m.Holds d.Stands v c₂ ∧ c = c₁ + c₂ := by
  constructor
  · rintro ⟨h, hm⟩
    exact ⟨_, _, _, h, hm, rfl⟩
  · rintro ⟨m, c₁, c₂, h, hm, rfl⟩
    exact .intro h hm

theorem isSome_localTag_iff {tag : Option String} :
    ¬ (localTag? tag).isSome = true ↔ localTag? tag = none := by
  cases localTag? tag <;> simp

theorem scalarValue_exact {P : Node → Value → Nat → Prop} (depth : Nat) (p : Path)
    (anchor : Option Nat) (tag : Option String) (style : Style) (s : String) :
    (scalarValue p tag style s).Exact d.aliasLimit fun v c =>
      (Node.scalar anchor tag style s).Holds P v c ∧ v.depth ≤ depth := by
  unfold scalarValue
  split
  next htag =>
    refine (Read.Exact.fail _).congr fun v c => ⟨False.elim, fun h => ?_⟩
    cases h.1 with
    | scalar htag' => simp [htag'] at htag
  next htag =>
    have htag := isSome_localTag_iff.mp htag
    refine ((Read.Exact.check p _).bind (Q := fun q v c => q.value? s = some v ∧ c = 0)
      fun q => ?_).congr fun v c => ?_
    · cases q with
      | wideUnsigned | wideSigned => exact .of_fail fun v h => by cases h
      | _ => exact .of_pure fun v => by simp [Plain.value?, eq_comm]
    · constructor
      · rintro ⟨q, c₁, c₂, ⟨hq, rfl⟩, ⟨hv, rfl⟩, rfl⟩
        refine ⟨.scalar htag hq hv, ?_⟩
        cases q <;> cases hv <;> exact Nat.zero_le _
      · rintro ⟨h, -⟩
        cases h with
        | scalar _ hp hv => exact ⟨_, 0, 0, ⟨hp, rfl⟩, ⟨hv, rfl⟩, rfl⟩

/-- What is read of the node that is meant decides what is read. -/
theorem exact_of_holds {depth : Nat} {f : Node → Read Value} (n : Node)
    (hf : ∀ m, (f m).Exact d.aliasLimit fun v c => m.Holds d.Stands v c ∧ v.depth ≤ depth) :
    (d.follow n >>= f).Exact d.aliasLimit fun v c => d.Stands n v c ∧ v.depth ≤ depth := by
  refine ((follow_exact d n).bind hf).congr fun v c => ?_
  rw [stands_iff]
  constructor
  · rintro ⟨m, c₁, c₂, hm, ⟨hholds, hdepth⟩, rfl⟩
    exact ⟨⟨m, c₁, c₂, hm, hholds, rfl⟩, hdepth⟩
  · rintro ⟨⟨m, c₁, c₂, hm, hholds, rfl⟩, hdepth⟩
    exact ⟨m, c₁, c₂, hm, ⟨hholds, hdepth⟩, rfl⟩

/-- The items of a sequence are read one after another. -/
theorem sequence_exact {depth : Nat} {p : Path} {anchor : Option Nat} {tag : Option String}
    {f : Nat → Node → Read Value}
    (hf : ∀ i n, (f i n).Exact d.aliasLimit fun v c => d.Stands n v c ∧ v.depth ≤ depth)
    (ns : List Node) :
    (if (localTag? tag).isSome then Read.mismatch p .tagged
      else eachItem f 0 ns >>= fun vs => Read.pure (.sequence vs)).Exact d.aliasLimit fun v c =>
        (Node.sequence anchor tag ns).Holds d.Stands v c ∧ v.depth ≤ depth + 1 := by
  split
  next htag =>
    refine (Read.Exact.fail _).congr fun v c => ⟨False.elim, fun h => ?_⟩
    cases h.1 with
    | sequence htag' => simp [htag'] at htag
  next htag =>
    refine (eachItem_exact hf 0 ns).map.congr fun v c => ?_
    simp only [Costs.and_iff, ← depthOfValues_le_iff]
    constructor
    · rintro ⟨vs, ⟨hvs, hdepth⟩, rfl⟩
      exact ⟨.sequence (isSome_localTag_iff.mp htag) hvs, Nat.succ_le_succ hdepth⟩
    · rintro ⟨h, hdepth⟩
      cases h with
      | sequence _ hvs => exact ⟨_, ⟨hvs, Nat.le_of_succ_le_succ hdepth⟩, rfl⟩

/-- The entries of a mapping are read one after another, keys first. -/
theorem mapping_exact {depth : Nat} {p : Path} {anchor : Option Nat} {tag : Option String}
    {f : Node → Read Value} {g : Node → Node → Read Value}
    (hf : ∀ n, (f n).Exact d.aliasLimit fun v c => d.Stands n v c ∧ v.depth ≤ depth)
    (hg : ∀ k n, (g k n).Exact d.aliasLimit fun v c => d.Stands n v c ∧ v.depth ≤ depth)
    (es : List (Node × Node)) :
    (if (localTag? tag).isSome then Read.mismatch p .tagged
      else eachEntry (fun k v => f k >>= fun k' => g k v >>= fun v' => Read.pure (k', v')) es >>=
        fun vs => Read.pure (.mapping vs)).Exact d.aliasLimit fun v c =>
        (Node.mapping anchor tag es).Holds d.Stands v c ∧ v.depth ≤ depth + 1 := by
  have hentry : ∀ k v, (f k >>= fun k' => g k v >>= fun v' => Read.pure (k', v')).Exact
      d.aliasLimit fun e c => Both d.Stands (k, v) e c ∧ e.1.depth ≤ depth ∧ e.2.depth ≤ depth := by
    intro k v
    refine ((hf k).bind fun k' => (hg k v).map).congr fun e c => ?_
    constructor
    · rintro ⟨k', c₁, c₂, ⟨hk, hkd⟩, ⟨v', ⟨hv, hvd⟩, rfl⟩, rfl⟩
      exact ⟨.intro hk hv, hkd, hvd⟩
    · rintro ⟨hboth, hkd, hvd⟩
      cases hboth with
      | intro hk hv => exact ⟨_, _, _, ⟨hk, hkd⟩, ⟨_, ⟨hv, hvd⟩, rfl⟩, rfl⟩
  split
  next htag =>
    refine (Read.Exact.fail _).congr fun v c => ⟨False.elim, fun h => ?_⟩
    cases h.1 with
    | mapping htag' => simp [htag'] at htag
  next htag =>
    refine (eachEntry_exact (P := fun a e c => Both d.Stands a e c ∧ e.1.depth ≤ depth ∧
      e.2.depth ≤ depth) hentry es).map.congr fun v c => ?_
    simp only [Costs.and_iff, ← depthOfPairs_le_iff]
    constructor
    · rintro ⟨vs, ⟨hvs, hdepth⟩, rfl⟩
      exact ⟨.mapping (isSome_localTag_iff.mp htag) hvs, Nat.succ_le_succ hdepth⟩
    · rintro ⟨h, hdepth⟩
      cases h with
      | mapping _ hvs => exact ⟨_, ⟨hvs, Nat.le_of_succ_le_succ hdepth⟩, rfl⟩

/-- A collection is too deep where none may be opened. -/
theorem too_deep_exact {α : Type} {tag : Option String} {p : Path} {Q : α → Nat → Prop}
    (hQ : ∀ a c, ¬ Q a c) :
    (if (localTag? tag).isSome then Read.mismatch p .tagged else Read.fail .tooDeep :
      Read α).Exact d.aliasLimit Q := by
  split <;> exact (Read.Exact.fail _).congr fun a c => by simp [hQ a c]

/-- **What is read with a bounded depth** is what the node stands for, if that is not deeper. -/
theorem value_exact (depth : Nat) (p : Path) (n : Node) :
    (d.value depth p n).Exact d.aliasLimit fun v c => d.Stands n v c ∧ v.depth ≤ depth := by
  induction depth generalizing p n with
  | zero =>
      rw [value]
      refine exact_of_holds n fun m => ?_
      cases m with
      | scalar anchor tag style s => exact scalarValue_exact 0 p anchor tag style s
      | sequence =>
          refine too_deep_exact fun v c h => ?_
          cases h.1
          exact absurd h.2 (Nat.not_succ_le_zero _)
      | mapping =>
          refine too_deep_exact fun v c h => ?_
          cases h.1
          exact absurd h.2 (Nat.not_succ_le_zero _)
      | «alias» =>
          refine (Read.Exact.fail _).congr fun v c => ⟨False.elim, fun h => ?_⟩
          cases h.1
  | succ depth ih =>
      rw [value]
      refine exact_of_holds n fun m => ?_
      cases m with
      | scalar anchor tag style s => exact scalarValue_exact (depth + 1) p anchor tag style s
      | sequence anchor tag ns => exact sequence_exact (fun _ n => ih _ n) ns
      | mapping anchor tag es => exact mapping_exact (fun n => ih _ n) (fun _ n => ih _ n) es
      | «alias» =>
          refine (Read.Exact.fail _).congr fun v c => ⟨False.elim, fun h => ?_⟩
          cases h.1

end

end Document

/-! ## Distinct keys -/

/-- The keys in items are distinct if they are in each. -/
theorem distinctInItems_eq_ok_iff {vs : List Value} :
    distinctInItems vs = .ok () ↔ ∀ v ∈ vs, v.distinctKeys = .ok () := by
  induction vs with
  | nil => simp [distinctInItems]
  | cons v vs ih =>
      rw [distinctInItems, List.forall_mem_cons, ← ih]
      cases v.distinctKeys <;> simp [bind, Except.bind]

/-- The keys of entries are distinct if they are in each part, and no two of them, and none seen before,
are the same. -/
theorem distinctInEntries_eq_ok_iff {seen : List Value} {es : List (Value × Value)} :
    distinctInEntries seen es = .ok () ↔
      (∀ e ∈ es, e.1.distinctKeys = .ok () ∧ e.2.distinctKeys = .ok ()) ∧
      (∀ k ∈ seen, ∀ e ∈ es, k.same e.1 = false) ∧
      es.Pairwise fun d e => d.1.same e.1 = false := by
  induction es generalizing seen with
  | nil => simp [distinctInEntries]
  | cons e es ih =>
      obtain ⟨k, v⟩ := e
      have hseen : (∀ s ∈ seen, ∀ e ∈ (k, v) :: es, s.same e.1 = false) ↔
          (seen.any fun s => s.same k) = false ∧ ∀ s ∈ seen, ∀ e ∈ es, s.same e.1 = false := by
        simp only [List.forall_mem_cons, List.any_eq_false, Bool.not_eq_true, forall_and]
      rw [distinctInEntries, hseen, List.forall_mem_cons, List.pairwise_cons]
      cases hk : k.distinctKeys with
      | error => simp [bind, Except.bind]
      | ok =>
      cases hany : seen.any fun s => s.same k with
      | true => simp [bind, Except.bind]
      | false =>
      cases hv : v.distinctKeys with
      | error => simp [bind, Except.bind]
      | ok =>
          simp only [bind, Except.bind, Bool.false_eq_true, if_false, ih, List.forall_mem_cons]
          simp only [true_and, and_self]
          constructor
          · rintro ⟨hparts, ⟨hk, hseen⟩, hpairs⟩
            exact ⟨hparts, hseen, hk, hpairs⟩
          · rintro ⟨hparts, hseen, hk, hpairs⟩
            exact ⟨hparts, ⟨hk, hseen⟩, hpairs⟩

end StorageNode.Yaml
