/-!
# Maps in the order of their keys

A `SortedMap` is the list of its entries with strictly ascending keys, so maps with the same entries
are equal and are listed in one order. What is stored under a key is read by `SortedMap.get?`;
`get?_insert` and `get?_erase` say what the operations do to it, and `ext_get?` that nothing else
tells two maps apart.
-/

namespace StorageNode

/-! ## Orders of keys -/

/-- Keys are ordered strictly, and of two different keys one is the smaller. -/
class KeyOrder (κ : Type) [LT κ] : Prop where
  irrefl (a : κ) : ¬ a < a
  trans {a b c : κ} : a < b → b < c → a < c
  connected {a b : κ} : a ≠ b → a < b ∨ b < a

instance : KeyOrder UInt64 where
  irrefl := UInt64.lt_irrefl
  trans := UInt64.lt_trans
  connected := UInt64.lt_or_lt_of_ne

instance : KeyOrder String where
  irrefl := String.lt_irrefl
  trans := String.lt_trans
  connected h := Decidable.by_contra fun hn =>
    h (String.le_antisymm (String.not_lt.1 fun hb => hn (.inr hb))
      (String.not_lt.1 fun ha => hn (.inl ha)))

/-- Lists of keys are ordered by the first keys that differ. -/
instance [LT κ] [DecidableLT κ] [DecidableEq κ] [KeyOrder κ] : KeyOrder (List κ) where
  irrefl := @List.lt_irrefl κ _ ⟨KeyOrder.irrefl⟩
  trans h h' := @List.lt_trans κ _ ⟨KeyOrder.trans⟩ _ _ _ h h'
  connected h := Decidable.by_contra fun hn =>
    h (@List.le_antisymm κ _ ⟨fun _ _ hab hba => Decidable.by_contra fun hne =>
        (KeyOrder.connected hne).elim hab hba⟩ _ _
      (List.not_lt.1 fun hb => hn (.inr hb)) (List.not_lt.1 fun ha => hn (.inl ha)))

/-! ## Maps -/

/-- A finite map, listed by ascending keys. -/
structure SortedMap (κ ν : Type) [LT κ] where
  entries : List (κ × ν)
  ascending : entries.Pairwise fun a b => a.1 < b.1

namespace SortedMap

variable {κ ν : Type}

instance [LT κ] [DecidableEq κ] [DecidableEq ν] : DecidableEq (SortedMap κ ν) := fun m n =>
  if h : m.entries = n.entries then
    .isTrue (by cases m; cases n; simp_all)
  else .isFalse (by rintro rfl; exact h rfl)

/-- No entries. -/
def empty [LT κ] : SortedMap κ ν := ⟨[], .nil⟩

instance [LT κ] : Inhabited (SortedMap κ ν) := ⟨empty⟩

/-! ## On lists -/

section Entries

variable [LT κ] [DecidableLT κ] [DecidableEq κ]

/-- The value under a key. -/
def lookup (k : κ) : List (κ × ν) → Option ν
  | [] => none
  | e :: es => if k = e.1 then some e.2 else lookup k es

/-- Puts an entry in its place, over one with the same key. -/
def insertEntry (k : κ) (v : ν) : List (κ × ν) → List (κ × ν)
  | [] => [(k, v)]
  | e :: es =>
    if k < e.1 then (k, v) :: e :: es
    else if k = e.1 then (k, v) :: es
    else e :: insertEntry k v es

/-- Takes the entry with a key away. -/
def eraseEntry (k : κ) (es : List (κ × ν)) : List (κ × ν) := es.filter (·.1 ≠ k)

theorem mem_insertEntry {k : κ} {v : ν} {e : κ × ν} :
    ∀ {es : List (κ × ν)}, e ∈ insertEntry k v es → e = (k, v) ∨ e ∈ es
  | [], h => by simpa [insertEntry] using h
  | d :: ds, h => by
    unfold insertEntry at h
    split at h
    · simpa using h
    · split at h
      · rcases List.mem_cons.1 h with h | h
        · exact .inl h
        · exact .inr (List.mem_cons_of_mem _ h)
      · rcases List.mem_cons.1 h with h | h
        · exact .inr (h ▸ List.mem_cons_self)
        · exact (mem_insertEntry h).imp_right (List.mem_cons_of_mem _)

theorem lookup_insertEntry (k j : κ) (v : ν) (es : List (κ × ν)) :
    lookup j (insertEntry k v es) = if j = k then some v else lookup j es := by
  induction es with
  | nil => simp [insertEntry, lookup]
  | cons e es ih =>
    unfold insertEntry
    split
    · simp [lookup]
    · split
      · rename_i h; subst h; by_cases hj : j = e.1 <;> simp [lookup, hj]
      · rename_i hne
        by_cases hj : j = e.1
        · subst hj; simp [lookup, Ne.symm hne]
        · simp [lookup, hj, ih]

omit [LT κ] [DecidableLT κ] in
theorem lookup_eraseEntry (k j : κ) (es : List (κ × ν)) :
    lookup j (eraseEntry k es) = if j = k then none else lookup j es := by
  induction es with
  | nil => simp [eraseEntry, lookup]
  | cons e es ih =>
    by_cases he : e.1 = k
    · have : eraseEntry k (e :: es) = eraseEntry k es := by simp [eraseEntry, he]
      rw [this, ih]
      by_cases hj : j = k <;> simp [lookup, hj, he]
    · have : eraseEntry k (e :: es) = e :: eraseEntry k es := by simp [eraseEntry, he]
      rw [this]
      by_cases hj : j = e.1
      · subst hj; simp [lookup, he]
      · simp [lookup, hj, ih]

end Entries

variable [LT κ] [DecidableLT κ] [DecidableEq κ] [KeyOrder κ]

theorem ascending_insertEntry {k : κ} {v : ν} :
    ∀ {es : List (κ × ν)}, es.Pairwise (fun a b => a.1 < b.1) →
      (insertEntry k v es).Pairwise fun a b => a.1 < b.1
  | [], _ => by simp [insertEntry]
  | d :: ds, h => by
    have hd := List.pairwise_cons.1 h
    unfold insertEntry
    split
    · rename_i hlt
      refine List.pairwise_cons.2 ⟨fun e he => ?_, h⟩
      rcases List.mem_cons.1 he with rfl | he
      · exact hlt
      · exact KeyOrder.trans hlt (hd.1 e he)
    · split
      · rename_i heq
        exact List.pairwise_cons.2 ⟨fun e he => heq ▸ hd.1 e he, hd.2⟩
      · rename_i hlt hne
        refine List.pairwise_cons.2 ⟨fun e he => ?_, ascending_insertEntry hd.2⟩
        rcases mem_insertEntry he with rfl | he
        · exact (KeyOrder.connected hne).resolve_left hlt
        · exact hd.1 e he

omit [DecidableLT κ] in
/-- A key below all others is not among them. -/
theorem lookup_eq_none_of_lt {k : κ} :
    ∀ {es : List (κ × ν)}, (∀ e ∈ es, k < e.1) → lookup k es = none
  | [], _ => rfl
  | d :: ds, h => by
    have hd : k ≠ d.1 := fun heq => KeyOrder.irrefl d.1 (heq ▸ h d List.mem_cons_self)
    simp [lookup, hd, lookup_eq_none_of_lt fun e he => h e (List.mem_cons_of_mem _ he)]

omit [DecidableLT κ] in
/-- The first key of an ascending list is not found behind an entry with a greater key. -/
theorem lookup_cons_of_lt {k : κ} {d : κ × ν} {ds : List (κ × ν)}
    (h : (d :: ds).Pairwise fun a b => a.1 < b.1) (hlt : k < d.1) : lookup k (d :: ds) = none :=
  lookup_eq_none_of_lt fun e he => by
    rcases List.mem_cons.1 he with rfl | he
    · exact hlt
    · exact KeyOrder.trans hlt ((List.pairwise_cons.1 h).1 e he)

omit [DecidableLT κ] in
/-- Ascending lists in which the same is found are equal. -/
theorem eq_of_lookup_eq :
    ∀ {es ds : List (κ × ν)}, es.Pairwise (fun a b => a.1 < b.1) →
      ds.Pairwise (fun a b => a.1 < b.1) → (∀ k, lookup k es = lookup k ds) → es = ds
  | [], [], _, _, _ => rfl
  | [], d :: _, _, _, h => by simpa [lookup] using h d.1
  | e :: _, [], _, _, h => by simpa [lookup] using h e.1
  | e :: es, d :: ds, hes, hds, h => by
    have he := h e.1
    have hd := h d.1
    by_cases hk : e.1 = d.1
    · have hv : e.2 = d.2 := by simpa [lookup, hk] using he
      have hed : e = d := Prod.ext hk hv
      subst hed
      have hes' := List.pairwise_cons.1 hes
      have hds' := List.pairwise_cons.1 hds
      refine congrArg (e :: ·) (eq_of_lookup_eq hes'.2 hds'.2 fun k => ?_)
      by_cases hke : k = e.1
      · rw [hke, lookup_eq_none_of_lt hes'.1, lookup_eq_none_of_lt hds'.1]
      · simpa [lookup, hke] using h k
    · rcases KeyOrder.connected hk with hlt | hlt
      · rw [lookup_cons_of_lt hds hlt] at he
        simp [lookup] at he
      · rw [lookup_cons_of_lt hes hlt] at hd
        simp [lookup] at hd

/-! ## On maps -/

/-- The value under a key. -/
def get? (m : SortedMap κ ν) (k : κ) : Option ν := lookup k m.entries

/-- There is an entry with the key. -/
def contains (m : SortedMap κ ν) (k : κ) : Bool := (m.get? k).isSome

/-- The map with an entry put in, over one with the same key. -/
def insert (m : SortedMap κ ν) (k : κ) (v : ν) : SortedMap κ ν :=
  ⟨insertEntry k v m.entries, ascending_insertEntry m.ascending⟩

/-- The map without the entry of a key. -/
def erase (m : SortedMap κ ν) (k : κ) : SortedMap κ ν :=
  ⟨eraseEntry k m.entries, m.ascending.filter _⟩

/-- The number of entries. -/
def size (m : SortedMap κ ν) : Nat := m.entries.length

/-- The keys, ascending. -/
def keys (m : SortedMap κ ν) : List κ := m.entries.map (·.1)

/-- The values, by ascending keys. -/
def values (m : SortedMap κ ν) : List ν := m.entries.map (·.2)

@[simp] theorem get?_insert (m : SortedMap κ ν) (k j : κ) (v : ν) :
    (m.insert k v).get? j = if j = k then some v else m.get? j := lookup_insertEntry k j v _

omit [DecidableLT κ] [KeyOrder κ] in
@[simp] theorem get?_erase (m : SortedMap κ ν) (k j : κ) :
    (m.erase k).get? j = if j = k then none else m.get? j := lookup_eraseEntry k j _

omit [DecidableLT κ] in
/-- Maps in which the same is found are equal. -/
theorem ext_get? {m n : SortedMap κ ν} (h : ∀ k, m.get? k = n.get? k) : m = n := by
  cases m with
  | mk es hes =>
    cases n with
    | mk ds hds =>
      have heq : es = ds := eq_of_lookup_eq hes hds h
      subst heq
      rfl

omit [DecidableLT κ] in
/-- What is found under a key is an entry of an ascending list. -/
theorem lookup_eq_some_iff {k : κ} {v : ν} :
    ∀ {es : List (κ × ν)}, es.Pairwise (fun a b => a.1 < b.1) →
      (lookup k es = some v ↔ (k, v) ∈ es)
  | [], _ => by simp [lookup]
  | e :: es, h => by
    have he := List.pairwise_cons.1 h
    unfold lookup
    split
    · rename_i heq
      subst heq
      refine ⟨fun hv => ?_, fun hmem => ?_⟩
      · obtain rfl := Option.some.inj hv
        exact List.mem_cons_self
      · rcases List.mem_cons.1 hmem with hhead | htail
        · rw [← hhead]
        · exact absurd (he.1 _ htail) (KeyOrder.irrefl _)
    · rename_i hne
      rw [lookup_eq_some_iff he.2, List.mem_cons]
      refine ⟨.inr, fun hmem => hmem.resolve_left fun hhead => hne ?_⟩
      rw [← hhead]

omit [DecidableLT κ] in
theorem get?_eq_some_iff {m : SortedMap κ ν} {k : κ} {v : ν} :
    m.get? k = some v ↔ (k, v) ∈ m.entries := lookup_eq_some_iff m.ascending

omit [DecidableLT κ] in
theorem mem_keys_iff {m : SortedMap κ ν} {k : κ} : k ∈ m.keys ↔ ∃ v, m.get? k = some v := by
  simp [keys, get?_eq_some_iff]

omit [DecidableLT κ] [DecidableEq κ] in
/-- No key is listed twice. -/
theorem nodup_keys (m : SortedMap κ ν) : m.keys.Nodup := by
  refine List.pairwise_map.2 (m.ascending.imp ?_)
  intro a b hlt heq
  exact KeyOrder.irrefl b.1 (heq ▸ hlt)

/-- What is found once ascending entries have been put in is found among them, or was there before. -/
theorem get?_foldl_insert {k : κ} : ∀ {es : List (κ × ν)}, es.Pairwise (fun a b => a.1 < b.1) →
    ∀ m : SortedMap κ ν,
      (es.foldl (fun m e => m.insert e.1 e.2) m).get? k = (lookup k es).or (m.get? k)
  | [], _, _ => rfl
  | e :: es, h, m => by
    have he := List.pairwise_cons.1 h
    rw [List.foldl_cons, get?_foldl_insert he.2, get?_insert]
    by_cases hk : k = e.1
    · rw [hk, lookup_eq_none_of_lt he.1, lookup, if_pos rfl, if_pos rfl]
      rfl
    · rw [lookup, if_neg hk, if_neg hk]

/-- A map is put together from its entries. -/
theorem foldl_insert_entries (m : SortedMap κ ν) :
    m.entries.foldl (fun m e => m.insert e.1 e.2) .empty = m :=
  ext_get? fun k => by
    rw [get?_foldl_insert m.ascending]
    exact Option.or_none

end SortedMap

end StorageNode
