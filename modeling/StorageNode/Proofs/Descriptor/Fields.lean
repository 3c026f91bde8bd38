import StorageNode.Descriptor.Document
import StorageNode.Proofs.Yaml.Reading

/-!
# What the entries of a descriptor say

Every entry of a document is a `Field`: one of the five common ones with its data, or another one, left
as it is written (`Says`). Reading takes the fields one after another into a draft (`Takes`), and what
comes of it is told by the fields alone, whatever their order (`Declares`): the common ones at most once
each, and of the other ones the values they stand for (`Kept`), in the order of the document. The last
step is `ofBytes_eq_ok_iff`, which says exactly which descriptors are read from a document.

The five common fields are treated as one, by a `Slot` of the draft that they go into.
-/

namespace StorageNode.Descriptor

open Yaml (Value Document Node Read Costs Both)

/-! ## Common fields -/

/-- The common fields. -/
inductive Slot where
  | id
  | kind
  | layoutVersion
  | state
  | metadata
deriving DecidableEq

namespace Slot

/-- What kind of data a field has. -/
def Data : Slot → Type
  | id => ContainerId
  | kind => ContainerKind
  | layoutVersion => UInt32
  | state => ContainerState
  | metadata => SortedMap String String

/-- The key of a field. -/
def name : Slot → String
  | id => "container_id"
  | kind => "container_type"
  | layoutVersion => "layout_version"
  | state => "state"
  | metadata => "metadata"

theorem name_injective {s t : Slot} (h : s.name = t.name) : s = t := by
  cases s <;> cases t <;> first | rfl | exact absurd h (by decide)

end Slot

/-- A map of texts: of entries with the same key the last one counts. -/
def TextMap (d : Document) (n : Node) (m : SortedMap String String) (c : Nat) : Prop :=
  ∃ es texts c₁ c₂, d.At Node.HasEntries n es c₁ ∧ Costs (Both (d.At Node.HasText)) es texts c₂ ∧
    m = texts.foldl (fun m e => m.insert e.1 e.2) .empty ∧ c = c₁ + c₂

/-- **The node is data for a field.** -/
def Slot.Fits (d : Document) : (s : Slot) → Node → s.Data → Nat → Prop
  | .id, n, x, c => ∃ k, d.At (Node.HasNatural UInt64.size) n k c ∧ x = UInt64.ofNat k
  | .kind, n, x, c => d.At Node.HasText n x.tag c
  | .layoutVersion, n, x, c => ∃ k, d.At (Node.HasNatural UInt32.size) n k c ∧ x = UInt32.ofNat k
  | .state, n, x, c => d.At (Node.HasWord (ContainerState.all.map (·.word))) n x.word c
  | .metadata, n, x, c => TextMap d n x c

section

variable {d : Document} {n : Node}

theorem TextMap.unique {m m' : SortedMap String String} {c c' : Nat} (h : TextMap d n m c)
    (h' : TextMap d n m' c') : m = m' ∧ c = c' := by
  obtain ⟨es, texts, c₁, c₂, hes, htexts, rfl, rfl⟩ := h
  obtain ⟨es', texts', c₁', c₂', hes', htexts', rfl, rfl⟩ := h'
  obtain ⟨rfl, rfl⟩ := hes.unique hes' Node.HasEntries.unique
  have hboth : ∀ {a : Node × Node} {b b' : String × String} {k k' : Nat},
      Both (d.At Node.HasText) a b k → Both (d.At Node.HasText) a b' k' → b = b' ∧ k = k' := by
    rintro _ _ _ _ _ ⟨hk, hv⟩ ⟨hk', hv'⟩
    obtain ⟨rfl, rfl⟩ := hk.unique hk' Node.HasText.unique
    obtain ⟨rfl, rfl⟩ := hv.unique hv' Node.HasText.unique
    exact ⟨rfl, rfl⟩
  obtain ⟨rfl, rfl⟩ := htexts.unique htexts' hboth
  exact ⟨rfl, rfl⟩

theorem word_injective {s t : ContainerState} (h : s.word = t.word) : s = t := by
  have hs := ContainerState.ofWord?_word s
  rw [h, ContainerState.ofWord?_word] at hs
  exact (Option.some.inj hs).symm

/-- A node is data for a field in one way only. -/
theorem Slot.Fits.unique {s : Slot} {x x' : s.Data} {c c' : Nat} (h : s.Fits d n x c)
    (h' : s.Fits d n x' c') : x = x' ∧ c = c' := by
  cases s with
  | id =>
      obtain ⟨k, hk, rfl⟩ := h
      obtain ⟨k', hk', rfl⟩ := h'
      obtain ⟨rfl, rfl⟩ := hk.unique hk' Node.HasNatural.unique
      exact ⟨rfl, rfl⟩
  | layoutVersion =>
      obtain ⟨k, hk, rfl⟩ := h
      obtain ⟨k', hk', rfl⟩ := h'
      obtain ⟨rfl, rfl⟩ := hk.unique hk' Node.HasNatural.unique
      exact ⟨rfl, rfl⟩
  | kind =>
      obtain ⟨htag, hc⟩ := Document.At.unique h h' Node.HasText.unique
      exact ⟨congrArg ContainerKind.mk htag, hc⟩
  | state =>
      obtain ⟨hword, hc⟩ := Document.At.unique h h' Node.HasWord.unique
      exact ⟨word_injective hword, hc⟩
  | metadata => exact TextMap.unique h h'

/-- A word that stands for a state is the word of that state. -/
theorem exists_of_word {w : String} {c : Nat}
    (h : d.At (Node.HasWord (ContainerState.all.map (·.word))) n w c) :
    ∃ s : ContainerState, s.word = w := by
  obtain ⟨m, -, hw⟩ := h
  have hmem : w ∈ ContainerState.all.map (·.word) := by
    cases hw with
    | text _ hw => exact hw
    | tag _ hw => exact hw
  obtain ⟨s, -, hs⟩ := List.mem_map.mp hmem
  exact ⟨s, hs⟩

theorem textMap_exact (d : Document) (p : Yaml.Path) (n : Node) :
    (textMap d p n).Exact d.aliasLimit (TextMap d n) := by
  have hentry : ∀ k v, (do
      let key ← d.text p "a string" k
      let value ← d.text (Document.stepTo k :: p) "a string" v
      return (key, value) : Read (String × String)).Exact d.aliasLimit fun e c =>
        Both (d.At Node.HasText) (k, v) e c := by
    intro k v
    refine ((Document.text_exact d p _ k).bind fun key =>
      (Document.text_exact d _ _ v).map).congr fun e c => ?_
    constructor
    · rintro ⟨key, c₁, c₂, hk, ⟨value, hv, rfl⟩, rfl⟩
      exact .intro hk hv
    · rintro ⟨hk, hv⟩
      exact ⟨_, _, _, hk, ⟨_, hv, rfl⟩, rfl⟩
  refine ((Document.entries_exact d p _ n).bind fun es =>
    (Document.eachEntry_exact (P := Both (d.At Node.HasText)) hentry es).map).congr fun m c => ?_
  constructor
  · rintro ⟨es, c₁, c₂, hes, ⟨texts, htexts, rfl⟩, rfl⟩
    exact ⟨es, texts, c₁, c₂, hes, htexts, rfl, rfl⟩
  · rintro ⟨es, texts, c₁, c₂, hes, htexts, rfl, rfl⟩
    exact ⟨es, c₁, c₂, hes, ⟨texts, htexts, rfl⟩, rfl⟩

end

/-! ## Fields of a document -/

/-- What an entry of a document says under its key. -/
inductive Field where
  | common (s : Slot) (x : s.Data)
  | other (name : String) (value : Node)

namespace Field

/-- The data of a field, if it is this one. -/
def at? (s : Slot) : Field → Option s.Data
  | common t x => if h : t = s then some (h ▸ x) else none
  | other .. => none

/-- The key and the node of a field that is not a common one. -/
def other? : Field → Option (String × Node)
  | common .. => none
  | other name n => some (name, n)

end Field

/-- **The entry is this field.** -/
inductive Says (d : Document) : Node × Node → Field → Nat → Prop
  | common {k v : Node} {s : Slot} {x : s.Data} {a b : Nat} (hk : d.At Node.HasText k s.name a)
      (hv : s.Fits d v x b) : Says d (k, v) (.common s x) (a + b)
  | other {k v : Node} {name : String} {a : Nat} (hk : d.At Node.HasText k name a)
      (hname : ∀ s : Slot, s.name ≠ name) : Says d (k, v) (.other name v) a

/-- An entry is one field only. -/
theorem Says.unique {d : Document} {e : Node × Node} {f f' : Field} {c c' : Nat}
    (h : Says d e f c) (h' : Says d e f' c') : f = f' ∧ c = c' := by
  cases h with
  | common hk hv =>
      cases h' with
      | common hk' hv' =>
          obtain ⟨hname, rfl⟩ := hk.unique hk' Node.HasText.unique
          obtain rfl := Slot.name_injective hname
          obtain ⟨rfl, rfl⟩ := hv.unique hv'
          exact ⟨rfl, rfl⟩
      | other hk' hname => exact absurd (hk.unique hk' Node.HasText.unique).1 (hname _)
  | other hk hname =>
      cases h' with
      | common hk' hv' =>
          exact absurd (hk'.unique hk Node.HasText.unique).1 (hname _)
      | other hk' =>
          obtain ⟨rfl, rfl⟩ := hk.unique hk' Node.HasText.unique
          exact ⟨rfl, rfl⟩

/-! ## Taking a field into a draft -/

namespace Draft

/-- The data in a slot of a draft. -/
def get (draft : Draft) : (s : Slot) → Option s.Data
  | .id => draft.id
  | .kind => draft.kind
  | .layoutVersion => draft.layoutVersion
  | .state => draft.state
  | .metadata => draft.metadata

/-- The draft with data in a slot. -/
def set (draft : Draft) : (s : Slot) → s.Data → Draft
  | .id, x => { draft with id := some x }
  | .kind, x => { draft with kind := some x }
  | .layoutVersion, x => { draft with layoutVersion := some x }
  | .state, x => { draft with state := some x }
  | .metadata, x => { draft with metadata := some x }

/-- The draft with an entry more in its payload. -/
def keep (draft : Draft) (e : Value × Value) : Draft :=
  { draft with payload := draft.payload ++ [e] }

variable (draft : Draft) {s t : Slot} (x : s.Data) (e : Value × Value)

@[simp] theorem get_set_self : (draft.set s x).get s = some x := by cases s <;> rfl

theorem get_set_of_ne (h : s ≠ t) : (draft.set s x).get t = draft.get t := by
  cases s <;> cases t <;> first | rfl | exact absurd rfl h

@[simp] theorem payload_set : (draft.set s x).payload = draft.payload := by cases s <;> rfl

@[simp] theorem get_keep : (draft.keep e).get s = draft.get s := by cases s <;> rfl

@[simp] theorem payload_keep : (draft.keep e).payload = draft.payload ++ [e] := rfl

/-- Drafts with the same in every slot, and the same payload, are equal. -/
theorem ext_get {draft draft' : Draft} (h : ∀ s, draft.get s = draft'.get s)
    (hpayload : draft.payload = draft'.payload) : draft = draft' := by
  obtain ⟨id, kind, version, state, metadata, payload⟩ := draft
  obtain ⟨id', kind', version', state', metadata', payload'⟩ := draft'
  obtain rfl : id = id' := h .id
  obtain rfl : kind = kind' := h .kind
  obtain rfl : version = version' := h .layoutVersion
  obtain rfl : state = state' := h .state
  obtain rfl : metadata = metadata' := h .metadata
  obtain rfl : payload = payload' := hpayload
  rfl

end Draft

/-- **An entry beside the common ones is kept** as what its node stands for. -/
inductive Kept (d : Document) : String × Node → Value × Value → Nat → Prop
  | intro {name : String} {n : Node} {v : Value} {c : Nat} (h : d.Stands n v c)
      (hdepth : v.depth ≤ payloadDepth) : Kept d (name, n) (.string name, v) c

/-- **A draft takes a field**: a common one into its slot, which is empty, and another one into the
payload. -/
inductive Takes (d : Document) (draft : Draft) : Field → Draft → Nat → Prop
  | common {s : Slot} {x : s.Data} (h : draft.get s = none) :
      Takes d draft (.common s x) (draft.set s x) 0
  | other {name : String} {n : Node} {e : Value × Value} {c : Nat} (h : Kept d (name, n) e c) :
      Takes d draft (.other name n) (draft.keep e) c

section

variable {d : Document} {draft : Draft} {k v : Node}

/-- A field that is read is put into its slot, once. -/
theorem once_exact (s : Slot) {r : Read Draft}
    (hr : r.Exact d.aliasLimit fun draft' c => ∃ x, s.Fits d v x c ∧ draft' = draft.set s x) :
    (once s.name (draft.get s).isSome r).Exact d.aliasLimit fun draft' c =>
      ∃ x, s.Fits d v x c ∧ Takes d draft (.common s x) draft' 0 := by
  unfold once
  split
  next hsome =>
    refine (Read.Exact.fail _).congr fun draft' c => ⟨False.elim, ?_⟩
    rintro ⟨x, -, ⟨hnone⟩⟩
    simp [hnone] at hsome
  next hnone =>
    refine hr.congr fun draft' c => exists_congr fun x => and_congr_right fun _ => ?_
    constructor
    · rintro rfl
      exact .common (by simpa using hnone)
    · rintro ⟨⟩
      rfl

/-- What is read under a key decides what is read of an entry. -/
theorem exact_of_name {f : String → Read Draft} (hf : ∀ name, (f name).Exact d.aliasLimit
      fun draft' c =>
        (∃ s x, name = Slot.name s ∧ s.Fits d v x c ∧ Takes d draft (.common s x) draft' 0) ∨
        ((∀ s, Slot.name s ≠ name) ∧ Takes d draft (.other name v) draft' c)) :
    (d.text [] "field identifier" k >>= f).Exact d.aliasLimit fun draft' c =>
      ∃ f c₁ c₂, Says d (k, v) f c₁ ∧ Takes d draft f draft' c₂ ∧ c = c₁ + c₂ := by
  refine ((Document.text_exact d [] _ k).bind hf).congr fun draft' c => ?_
  constructor
  · rintro ⟨name, a, b, hk, ⟨s, x, rfl, hv, ht⟩ | ⟨hname, ht⟩, rfl⟩
    · exact ⟨_, a + b, 0, .common hk hv, ht, rfl⟩
    · exact ⟨_, a, b, .other hk hname, ht, rfl⟩
  · rintro ⟨f, c₁, c₂, hsays, ht, rfl⟩
    cases hsays with
    | common hk hv =>
        cases ht with
        | common h => exact ⟨_, _, _, hk, .inl ⟨_, _, rfl, hv, .common h⟩, by omega⟩
    | other hk hname => exact ⟨_, _, _, hk, .inr ⟨hname, ht⟩, rfl⟩

/-- Under the key of a common field there is nothing else. -/
theorem exact_of_slot {s : Slot} {r : Read Draft}
    (hr : r.Exact d.aliasLimit fun draft' c =>
      ∃ x, s.Fits d v x c ∧ Takes d draft (.common s x) draft' 0) :
    r.Exact d.aliasLimit fun draft' c =>
      (∃ t x, s.name = Slot.name t ∧ t.Fits d v x c ∧ Takes d draft (.common t x) draft' 0) ∨
      ((∀ t, Slot.name t ≠ s.name) ∧ Takes d draft (.other s.name v) draft' c) := by
  refine hr.congr fun draft' c => ?_
  constructor
  · rintro ⟨x, hv, ht⟩
    exact .inl ⟨s, x, rfl, hv, ht⟩
  · rintro (⟨t, x, hname, hv, ht⟩ | ⟨hname, -⟩)
    · obtain rfl := Slot.name_injective hname
      exact ⟨x, hv, ht⟩
    · exact absurd rfl (hname s)

/-- Data that are read as what fits a field go into its slot. -/
theorem fits_exact {α : Type} {s : Slot} {r : Read α} {P : α → Nat → Prop} {f : α → s.Data}
    (hr : r.Exact d.aliasLimit P) (hfits : ∀ x c, s.Fits d v x c ↔ ∃ a, P a c ∧ x = f a) :
    (r >>= fun a => Read.pure (draft.set s (f a))).Exact d.aliasLimit fun draft' c =>
      ∃ x, s.Fits d v x c ∧ draft' = draft.set s x := by
  refine hr.map.congr fun draft' c => ?_
  constructor
  · rintro ⟨a, ha, rfl⟩
    exact ⟨f a, (hfits _ _).mpr ⟨a, ha, rfl⟩, rfl⟩
  · rintro ⟨x, hx, rfl⟩
    obtain ⟨a, ha, rfl⟩ := (hfits _ _).mp hx
    exact ⟨a, ha, rfl⟩

/-- Under any other key there is what the node stands for. -/
theorem exact_of_other {name : String} (hname : ∀ s, Slot.name s ≠ name) (p : Yaml.Path) :
    (d.value payloadDepth p v >>= fun value =>
        Read.pure (draft.keep (.string name, value))).Exact d.aliasLimit fun draft' c =>
      (∃ s x, name = Slot.name s ∧ s.Fits d v x c ∧ Takes d draft (.common s x) draft' 0) ∨
      ((∀ s, Slot.name s ≠ name) ∧ Takes d draft (.other name v) draft' c) := by
  refine (Document.value_exact payloadDepth p v).map.congr fun draft' c => ?_
  constructor
  · rintro ⟨value, ⟨hv, hdepth⟩, rfl⟩
    exact .inr ⟨hname, .other (.intro hv hdepth)⟩
  · rintro (⟨s, x, rfl, -⟩ | ⟨-, ht⟩)
    · exact absurd rfl (hname s)
    · cases ht with
      | other h =>
          cases h with
          | intro hv hdepth => exact ⟨_, ⟨hv, hdepth⟩, rfl⟩

/-- **One entry** is the field that it says, and the draft takes that field. -/
theorem add_exact (draft : Draft) (k v : Node) :
    (draft.add d k v).Exact d.aliasLimit fun draft' c =>
      ∃ f c₁ c₂, Says d (k, v) f c₁ ∧ Takes d draft f draft' c₂ ∧ c = c₁ + c₂ := by
  refine exact_of_name fun name => ?_
  dsimp only
  split
  · exact exact_of_slot (once_exact .id
      (fits_exact (Document.natural_exact d _ _ v _) fun _ _ => Iff.rfl))
  · refine exact_of_slot (once_exact .kind (fits_exact (Document.text_exact d _ _ v) fun x c => ?_))
    exact ⟨fun h => ⟨x.tag, h, rfl⟩, fun ⟨_, h, heq⟩ => heq ▸ h⟩
  · exact exact_of_slot (once_exact .layoutVersion
      (fits_exact (Document.natural_exact d _ _ v _) fun _ _ => Iff.rfl))
  · refine exact_of_slot (once_exact .state ?_)
    refine (Document.oneOf_exact d _ v _).map.congr fun draft' c => ?_
    constructor
    · rintro ⟨word, hword, rfl⟩
      obtain ⟨s, rfl⟩ := exists_of_word hword
      exact ⟨s, hword, by rw [ContainerState.ofWord?_word]; rfl⟩
    · rintro ⟨(s : ContainerState), hs, rfl⟩
      refine ⟨s.word, hs, ?_⟩
      rw [ContainerState.ofWord?_word]
      rfl
  · refine exact_of_slot (once_exact .metadata ?_)
    exact (textMap_exact d _ v).map
  next h₁ h₂ h₃ h₄ h₅ =>
    have hname : ∀ s, Slot.name s ≠ name := fun s hs => by
      cases s with
      | id => exact h₁ hs.symm
      | kind => exact h₂ hs.symm
      | layoutVersion => exact h₃ hs.symm
      | state => exact h₄ hs.symm
      | metadata => exact h₅ hs.symm
    exact exact_of_other hname _

/-- **A draft takes fields**, one after another. -/
inductive TakesAll (d : Document) : Draft → List Field → Draft → Nat → Prop
  | nil (draft : Draft) : TakesAll d draft [] draft 0
  | cons {draft draft₁ draft' : Draft} {f : Field} {fs : List Field} {c₁ c₂ : Nat}
      (h : Takes d draft f draft₁ c₁) (hs : TakesAll d draft₁ fs draft' c₂) :
      TakesAll d draft (f :: fs) draft' (c₁ + c₂)

/-- **All entries** are the fields that they say, and the draft takes these. -/
theorem addAll_exact (es : List (Node × Node)) (draft : Draft) :
    (draft.addAll d es).Exact d.aliasLimit fun draft' c =>
      ∃ fs c₁ c₂, Costs (Says d) es fs c₁ ∧ TakesAll d draft fs draft' c₂ ∧ c = c₁ + c₂ := by
  induction es generalizing draft with
  | nil =>
      refine (Read.Exact.pure draft).congr fun draft' c => ?_
      constructor
      · rintro ⟨rfl, rfl⟩
        exact ⟨[], 0, 0, .nil, .nil draft', rfl⟩
      · rintro ⟨fs, c₁, c₂, hfs, ht, rfl⟩
        obtain ⟨rfl, rfl⟩ := Costs.nil_iff.mp hfs
        cases ht
        exact ⟨rfl, rfl⟩
  | cons e es ih =>
      refine ((add_exact draft e.1 e.2).bind fun draft₁ => ih draft₁).congr fun draft' c => ?_
      constructor
      · rintro ⟨draft₁, -, -, ⟨f, a, b, hf, ht, rfl⟩, ⟨fs, a', b', hfs, hts, rfl⟩, rfl⟩
        exact ⟨f :: fs, a + a', b + b', .cons hf hfs, .cons ht hts, by omega⟩
      · rintro ⟨fs, c₁, c₂, hfs, hts, rfl⟩
        obtain ⟨f, fs', a, a', rfl, hf, hfs', rfl⟩ := Costs.cons_iff.mp hfs
        cases hts with
        | cons ht hts' =>
            exact ⟨_, _, _, ⟨f, _, _, hf, ht, rfl⟩, ⟨fs', _, _, hfs', hts', rfl⟩, by omega⟩

end

/-! ## What all fields come to -/

/-- The data of the fields of one slot. -/
def fieldsAt (s : Slot) (fs : List Field) : List s.Data := fs.filterMap (Field.at? s)

/-- The fields beside the common ones. -/
def others (fs : List Field) : List (String × Node) := fs.filterMap Field.other?

section

variable {d : Document} {draft draft' : Draft} {fs : List Field} {s t : Slot}

@[simp] theorem fieldsAt_common_self (x : s.Data) :
    fieldsAt s (.common s x :: fs) = x :: fieldsAt s fs := by
  simp [fieldsAt, Field.at?]

theorem fieldsAt_common_of_ne (h : s ≠ t) (x : s.Data) :
    fieldsAt t (.common s x :: fs) = fieldsAt t fs := by
  simp [fieldsAt, Field.at?, h]

@[simp] theorem fieldsAt_other (name : String) (n : Node) :
    fieldsAt s (.other name n :: fs) = fieldsAt s fs := rfl

@[simp] theorem others_common (x : s.Data) : others (.common s x :: fs) = others fs := rfl

@[simp] theorem others_other (name : String) (n : Node) :
    others (.other name n :: fs) = (name, n) :: others fs := rfl

/-- **What fields make of a draft**, whatever their order: in every slot there is what was there, or
the one field for it, and the payload goes on with the other ones. -/
structure Collects (d : Document) (draft : Draft) (fs : List Field) (draft' : Draft) (c : Nat) :
    Prop where
  slots : ∀ s, (draft'.get s).toList = (draft.get s).toList ++ fieldsAt s fs
  payload : ∃ es, Costs (Kept d) (others fs) es c ∧ draft'.payload = draft.payload ++ es

/-- An empty slot takes the one field for it. -/
theorem toList_eq_append_cons {α : Type} {o o' : Option α} {x : α} {xs : List α}
    (h : o'.toList = o.toList ++ x :: xs) : o = none ∧ o' = some x ∧ xs = [] := by
  cases o with
  | some y => cases o' <;> simp at h
  | none =>
      cases o' with
      | none => simp at h
      | some y =>
          simp only [Option.toList_some, Option.toList_none, List.nil_append, List.cons.injEq] at h
          exact ⟨rfl, congrArg some h.1, h.2.symm⟩

/-- The data in a slot is all there is. -/
theorem eq_of_toList_eq {α : Type} {o o' : Option α} (h : o.toList = o'.toList) : o = o' := by
  have hhead := congrArg List.head? h
  rwa [Option.head?_toList, Option.head?_toList] at hhead

/-- A common field fills its slot, and leaves the other ones. -/
theorem collects_common {x : s.Data} {c : Nat} : Collects d draft (.common s x :: fs) draft' c ↔
    draft.get s = none ∧ Collects d (draft.set s x) fs draft' c := by
  constructor
  · rintro ⟨hslots, hpayload⟩
    have hs := hslots s
    rw [fieldsAt_common_self] at hs
    obtain ⟨hnone, -⟩ := toList_eq_append_cons hs
    refine ⟨hnone, fun t => ?_, by simpa using hpayload⟩
    by_cases hst : s = t
    · subst hst
      simpa [hnone] using hs
    · rw [hslots t, Draft.get_set_of_ne draft x hst, fieldsAt_common_of_ne hst]
  · rintro ⟨hnone, hslots, hpayload⟩
    refine ⟨fun t => ?_, by simpa using hpayload⟩
    by_cases hst : s = t
    · subst hst
      simpa [hnone] using hslots s
    · rw [hslots t, Draft.get_set_of_ne draft x hst, fieldsAt_common_of_ne hst]

/-- **Fields are collected**, and only what can be collected is taken. -/
theorem takesAll_iff {c : Nat} : TakesAll d draft fs draft' c ↔ Collects d draft fs draft' c := by
  induction fs generalizing draft c with
  | nil =>
      constructor
      · rintro ⟨⟩
        exact ⟨fun s => by simp [fieldsAt], [], .nil, by simp⟩
      · rintro ⟨hslots, es, hes, hpayload⟩
        obtain ⟨rfl, rfl⟩ := Costs.nil_iff.mp hes
        obtain rfl : draft' = draft := by
          refine Draft.ext_get (fun s => eq_of_toList_eq ?_) (by simpa using hpayload)
          simpa [fieldsAt] using hslots s
        exact .nil draft'
  | cons f fs ih =>
      cases f with
      | common s x =>
          rw [collects_common]
          constructor
          · rintro (_ | ⟨⟨hnone⟩, hs⟩)
            rw [Nat.zero_add]
            exact ⟨hnone, ih.mp hs⟩
          · rintro ⟨hnone, hcollects⟩
            rw [← Nat.zero_add c]
            exact .cons (.common hnone) (ih.mpr hcollects)
      | other name n =>
          constructor
          · intro h
            cases h with
            | cons ht hs =>
                cases ht with
                | other he =>
                    obtain ⟨hslots, es, hes, hpayload⟩ := ih.mp hs
                    exact ⟨by simpa using hslots, _, .cons he hes, by simpa using hpayload⟩
          · rintro ⟨hslots, es, hes, hpayload⟩
            rw [others_other] at hes
            obtain ⟨e, es', c₁, c₂, rfl, he, hes', rfl⟩ := Costs.cons_iff.mp hes
            exact .cons (.other he) (ih.mpr ⟨by simpa using hslots, es', hes', by simpa using hpayload⟩)

/-- **The descriptor that fields declare**, apart from its payload: each common field at most once, and
its default where it is missing and may be. -/
structure Declares (fs : List Field) (x : Descriptor) : Prop where
  id : fieldsAt .id fs = [x.id]
  kind : fieldsAt .kind fs = [x.kind]
  layoutVersion : fieldsAt .layoutVersion fs = [x.layoutVersion] ∨
    (fieldsAt .layoutVersion fs = [] ∧ x.layoutVersion = 1)
  state : fieldsAt .state fs = [x.state]
  metadata : fieldsAt .metadata fs = [x.metadata] ∨
    (fieldsAt .metadata fs = [] ∧ x.metadata = .empty)

/-- A slot that may be left empty declares its default. -/
theorem getD_eq_iff {α : Type} {o : Option α} {a x : α} :
    o.getD a = x ↔ o.toList = [x] ∨ (o.toList = [] ∧ x = a) := by
  cases o with
  | none => simp [eq_comm]
  | some y => simp

/-- A draft that fields were collected in holds what they declare. -/
theorem declares_iff {c : Nat} (h : Collects d {} fs draft' c) {x : Descriptor} :
    Declares fs x ↔ draft'.id = some x.id ∧ draft'.kind = some x.kind ∧
      draft'.layoutVersion.getD 1 = x.layoutVersion ∧ draft'.state = some x.state ∧
      draft'.metadata.getD .empty = x.metadata := by
  have hslots : ∀ s, fieldsAt s fs = (draft'.get s).toList := fun s => by
    rw [h.slots s]
    cases s <;> rfl
  have hsome : ∀ {s} {y : s.Data}, fieldsAt s fs = [y] ↔ draft'.get s = some y := by
    intro s y
    rw [hslots s]
    exact ⟨fun h => eq_of_toList_eq h, fun h => by rw [h]; rfl⟩
  constructor
  · rintro ⟨hid, hkind, hversion, hstate, hmetadata⟩
    rw [hslots] at hversion hmetadata
    exact ⟨hsome.mp hid, hsome.mp hkind, getD_eq_iff.mpr hversion, hsome.mp hstate,
      getD_eq_iff.mpr hmetadata⟩
  · rintro ⟨hid, hkind, hversion, hstate, hmetadata⟩
    refine ⟨hsome.mpr hid, hsome.mpr hkind, ?_, hsome.mpr hstate, ?_⟩
    · rw [hslots]
      exact getD_eq_iff.mp hversion
    · rw [hslots]
      exact getD_eq_iff.mp hmetadata

/-- What has been collected is complete if it declares a descriptor with distinct keys. -/
theorem complete_iff {c : Nat} (h : Collects d {} fs draft' c) {x : Descriptor} :
    draft'.complete = .ok x ↔ Declares fs x ∧ draft'.payload = x.payload ∧
      Yaml.distinctInEntries [] x.payload = .ok () := by
  rw [declares_iff h]
  obtain ⟨id, kind, version, state, metadata, payload⟩ := draft'
  cases id with
  | none => simp [Draft.complete]
  | some id =>
  cases kind with
  | none => simp [Draft.complete]
  | some kind =>
  cases state with
  | none => simp [Draft.complete]
  | some state =>
  simp only [Draft.complete, Option.some.injEq]
  cases hdistinct : Yaml.distinctInEntries [] payload with
  | error m =>
      simp only [reduceCtorEq, false_iff]
      rintro ⟨-, hpayload, h⟩
      rw [← hpayload] at h
      exact absurd (hdistinct.symm.trans h) (by simp)
  | ok u =>
      obtain ⟨⟩ := u
      obtain ⟨id', kind', version', state', metadata', payload'⟩ := x
      simp only [Except.ok.injEq, Descriptor.mk.injEq]
      constructor
      · rintro ⟨rfl, rfl, rfl, rfl, rfl, rfl⟩
        exact ⟨⟨rfl, rfl, rfl, rfl, rfl⟩, rfl, hdistinct⟩
      · rintro ⟨⟨rfl, rfl, rfl, rfl, rfl⟩, rfl, -⟩
        exact ⟨rfl, rfl, rfl, rfl, rfl, rfl⟩

/-- Fields that declare a descriptor can be collected. -/
theorem Declares.collects {x : Descriptor} (h : Declares fs x) {c : Nat}
    (hkept : Costs (Kept d) (others fs) x.payload c) : ∃ draft', Collects d {} fs draft' c ∧
      draft'.payload = x.payload := by
  refine ⟨{ id := some x.id, kind := some x.kind, state := some x.state
            layoutVersion := (fieldsAt .layoutVersion fs).head?
            metadata := (fieldsAt .metadata fs).head?, payload := x.payload },
    ⟨fun s => ?_, x.payload, hkept, rfl⟩, rfl⟩
  cases s with
  | id => exact h.id.symm
  | kind => exact h.kind.symm
  | state => exact h.state.symm
  | layoutVersion =>
      show (fieldsAt .layoutVersion fs).head?.toList = _
      rcases h.layoutVersion with heq | ⟨heq, -⟩ <;> rw [heq] <;> rfl
  | metadata =>
      show (fieldsAt .metadata fs).head?.toList = _
      rcases h.metadata with heq | ⟨heq, -⟩ <;> rw [heq] <;> rfl

/-- **The descriptors that a node holds**, exactly. -/
theorem ofNode_exact (d : Document) (n : Node) :
    (ofNode d n).Exact d.aliasLimit fun x c => ∃ es fs c₁ c₂ c₃,
      d.At Node.HasEntries n es c₁ ∧ Costs (Says d) es fs c₂ ∧ Declares fs x ∧
      Costs (Kept d) (others fs) x.payload c₃ ∧
      Yaml.distinctInEntries [] x.payload = .ok () ∧ c = c₁ + c₂ + c₃ := by
  have hread : (ofNode d n).Exact d.aliasLimit _ :=
    (Document.entries_exact d [] _ n).bind fun es =>
      (addAll_exact es {}).bind fun draft => Read.Exact.check [] draft.complete
  refine hread.congr fun x c => ?_
  constructor
  · rintro ⟨es, c₁, -, hes, ⟨draft, -, -, ⟨fs, a, b, hfs, hts, rfl⟩, ⟨hx, rfl⟩, rfl⟩, rfl⟩
    have hcollects := takesAll_iff.mp hts
    obtain ⟨hdeclares, hpayload, hdistinct⟩ := (complete_iff hcollects).mp hx
    obtain ⟨kept, hkept, heq⟩ := hcollects.payload
    rw [hpayload] at heq
    obtain rfl : x.payload = kept := heq
    exact ⟨es, fs, c₁, a, b, hes, hfs, hdeclares, hkept, hdistinct, by omega⟩
  · rintro ⟨es, fs, c₁, a, b, hes, hfs, hdeclares, hkept, hdistinct, rfl⟩
    obtain ⟨draft, hcollects, hpayload⟩ := hdeclares.collects hkept
    have hx := (complete_iff hcollects).mpr ⟨hdeclares, hpayload, hdistinct⟩
    exact ⟨es, c₁, a + b, hes, ⟨draft, a + b, 0, ⟨fs, a, b, hfs, takesAll_iff.mpr hcollects, rfl⟩,
      ⟨hx, rfl⟩, rfl⟩, by omega⟩

/-- **The descriptors that are read from a document**, exactly: those that its fields declare, with the
other entries as what they stand for, if aliases are not followed too often. -/
theorem ofBytes_eq_ok_iff {bytes : Bytes} {d : Document} {anchor : Option Nat} {tag : Option String}
    {es : List (Node × Node)} (hparse : Document.parse? bytes = .ok (some d))
    (hroot : d.root = .mapping anchor tag es) {x : Descriptor} : ofBytes bytes = .ok x ↔ ∃ fs c₁ c₂, Costs (Says d) es fs c₁ ∧ Declares fs x ∧
      Costs (Kept d) (others fs) x.payload c₂ ∧ Yaml.distinctInEntries [] x.payload = .ok () ∧
      c₁ + c₂ ≤ d.aliasLimit := by
  have hentries : ∀ {es' c}, d.At Node.HasEntries d.root es' c ↔ es' = es ∧ c = 0 := by
    intro es' c
    have hself : d.At Node.HasEntries d.root es 0 :=
      ⟨d.root, .self fun a h => by simp [hroot] at h, hroot ▸ .mapping anchor tag es⟩
    constructor
    · exact fun h => h.unique hself Node.HasEntries.unique
    · rintro ⟨rfl, rfl⟩
      exact hself
  rw [ofBytes, (ofNode_exact d d.root).read_iff hparse]
  constructor
  · rintro ⟨c, ⟨es', fs, c₁, c₂, c₃, hes, hfs, hdeclares, hkept, hdistinct, rfl⟩, hle⟩
    obtain ⟨rfl, rfl⟩ := hentries.mp hes
    exact ⟨fs, c₂, c₃, hfs, hdeclares, hkept, hdistinct, by omega⟩
  · rintro ⟨fs, c₁, c₂, hfs, hdeclares, hkept, hdistinct, hle⟩
    exact ⟨c₁ + c₂, ⟨es, fs, 0, c₁, c₂, hentries.mpr ⟨rfl, rfl⟩, hfs, hdeclares, hkept, hdistinct,
      by omega⟩, hle⟩

end

/-! ## Distinct keys -/

/-- Texts are the same data if they are equal. -/
theorem string_same (a b : String) : (Value.string a).same (.string b) = (a == b) := by
  rw [Value.same]

/-- **Entries under texts have distinct keys** if the texts are, and the keys in their values. -/
theorem distinctInEntries_iff {es : List (Value × Value)} {names : List String}
    (hkeys : es.map (·.1) = names.map Value.string) :
    Yaml.distinctInEntries [] es = .ok () ↔
      names.Nodup ∧ ∀ e ∈ es, e.2.distinctKeys = .ok () := by
  have hmem : ∀ e ∈ es, ∃ name, e.1 = .string name := fun e he => by
    have hkey : e.1 ∈ names.map Value.string := hkeys ▸ List.mem_map_of_mem he
    obtain ⟨name, -, hname⟩ := List.mem_map.mp hkey
    exact ⟨name, hname.symm⟩
  have hparts : (∀ e ∈ es, e.1.distinctKeys = .ok () ∧ e.2.distinctKeys = .ok ()) ↔
      ∀ e ∈ es, e.2.distinctKeys = .ok () := by
    refine forall₂_congr fun e he => ?_
    obtain ⟨name, hname⟩ := hmem e he
    simp [hname, Value.distinctKeys]
  have hpairs : (es.Pairwise fun d e => d.1.same e.1 = false) ↔ names.Nodup := by
    have hmap := List.pairwise_map (f := fun e : Value × Value => e.1) (l := es)
      (R := fun k k' : Value => k.same k' = false)
    rw [← hmap, hkeys, List.pairwise_map]
    simp only [string_same, beq_eq_false_iff_ne]
    rfl
  rw [Yaml.distinctInEntries_eq_ok_iff, hparts, hpairs]
  simp [and_comm]

/-- The keys of entries that are kept are those of the fields. -/
theorem keys_of_kept {d : Document} {rest : List (String × Node)} {es : List (Value × Value)} {c : Nat}
    (h : Costs (Kept d) rest es c) : es.map (·.1) = (rest.map (·.1)).map Value.string := by
  induction h with
  | nil => rfl
  | cons h _ ih =>
      cases h
      simp [ih]

end StorageNode.Descriptor
