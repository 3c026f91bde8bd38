import Mathlib.Data.List.Perm.Basic
import Mathlib.Data.List.Pairwise
import StorageNode.Proofs.Loading

/-!
# Attempts to insert

A catalog is changed by attempts to insert a container and by nothing else. `Catalog.Inserts` says what one
attempt comes to, by what the catalog has under the number of the container: it is taken in if there is
nothing, and refused as a duplicate if there is something. `Catalog.InsertsAll` is a sequence of attempts.
What a catalog has under a number it keeps (`Catalog.InsertsAll.keeps`), and what it has in the end comes
from the attempts that succeeded (`Catalog.InsertsAll.origin`), of which there are as many as containers
(`Catalog.InsertsAll.size_eq`).

The catalog shows its containers in several ways. They agree as long as every container is found under its
own number (`Catalog.Numbered`), which all attempts keep.
-/

namespace StorageNode

namespace Catalog

/-! ## What a catalog shows -/

/-- The catalog has a container of the volume under the number. -/
def Holds (c : Catalog) (v : VolumeId) (id : ContainerId) : Prop :=
  ∃ x, c.get? id = some x ∧ x.volume = v

/-- A container is found under its own number. -/
def Numbered (c : Catalog) : Prop := ∀ id x, c.get? id = some x → x.id = id

section

variable {c c' : Catalog} {x : Container} {v : VolumeId} {id : ContainerId}

/-- The one container more is one of its volume. -/
theorem Gains.holds_iff (h : c.Gains x c') :
    c'.Holds v id ↔ (id = x.id ∧ x.volume = v) ∨ c.Holds v id := by
  by_cases hid : id = x.id
  · subst hid
    simp [Holds, h.get?_self, h.vacant]
  · simp [Holds, h.get?_of_ne hid, hid]

theorem Gains.numbered (h : c.Gains x c') (hc : c.Numbered) : c'.Numbered := by
  intro id y hy
  rw [h.entries] at hy
  split at hy
  · next hid =>
      obtain rfl := Option.some.inj hy
      exact hid.symm
  · exact hc id y hy

theorem numbered_empty : Numbered .empty := by
  intro id x hx
  cases hx

theorem mem_ids_iff : id ∈ c.ids ↔ ∃ x, c.get? id = some x := SortedMap.mem_keys_iff

/-- The numbers are listed in ascending order. -/
theorem ascending_ids (c : Catalog) : c.ids.Pairwise (· < ·) :=
  List.pairwise_map.mpr c.containers.ascending

theorem nodup_ids (c : Catalog) : c.ids.Nodup := c.containers.nodup_keys

theorem size_eq_length_ids (c : Catalog) : c.size = c.ids.length := (List.length_map _).symm

/-- With one container more there is one number more. -/
theorem Gains.size_eq (h : c.Gains x c') : c'.size = c.size + 1 := by
  have hvacant : x.id ∉ c.ids := by
    intro hmem
    obtain ⟨y, hy⟩ := mem_ids_iff.mp hmem
    exact absurd (h.vacant.symm.trans hy) (by simp)
  have hids : c'.ids.Perm (x.id :: c.ids) := by
    refine (List.perm_ext_iff_of_nodup c'.nodup_ids
      (List.nodup_cons.mpr ⟨hvacant, c.nodup_ids⟩)).mpr fun id => ?_
    rw [List.mem_cons, mem_ids_iff, mem_ids_iff]
    by_cases hid : id = x.id
    · simp [hid, h.get?_self]
    · simp [hid, h.get?_of_ne hid]
  rw [size_eq_length_ids, size_eq_length_ids, hids.length_eq, List.length_cons]

theorem mem_containersOn_iff :
    x ∈ c.containersOn v ↔ (∃ id, c.get? id = some x) ∧ x.volume = v := by
  simp [containersOn, SortedMap.values, Catalog.get?, SortedMap.get?_eq_some_iff]

/-- The containers are listed in the order of their numbers. -/
theorem Numbered.map_id_values (h : c.Numbered) : c.containers.values.map (·.id) = c.ids := by
  rw [SortedMap.values, ids, SortedMap.keys, List.map_map]
  exact List.map_congr_left fun e he => h e.1 e.2 (SortedMap.get?_eq_some_iff.mpr he)

/-- So are those of a volume. -/
theorem Numbered.ascending_containersOn (h : c.Numbered) (v : VolumeId) :
    ((c.containersOn v).map (·.id)).Pairwise (· < ·) := by
  have hall : (c.containers.values.map (·.id)).Pairwise (· < ·) := by
    rw [h.map_id_values]
    exact c.ascending_ids
  exact hall.sublist (List.filter_sublist.map _)

/-- The numbers of a volume are those under which the catalog has its containers, each once. -/
theorem Numbered.containersOn (h : c.Numbered) (v : VolumeId) :
    ((c.containersOn v).map (·.id)).Nodup ∧
      ∀ id, id ∈ (c.containersOn v).map (·.id) ↔ c.Holds v id := by
  constructor
  · have hnodup : (c.containers.values.map (·.id)).Nodup := by
      rw [h.map_id_values]
      exact c.nodup_ids
    exact hnodup.sublist (List.filter_sublist.map _)
  · intro id
    rw [List.mem_map]
    constructor
    · rintro ⟨x, hx, rfl⟩
      obtain ⟨⟨id, hget⟩, hvolume⟩ := mem_containersOn_iff.mp hx
      exact ⟨x, h id x hget ▸ hget, hvolume⟩
    · rintro ⟨x, hget, hvolume⟩
      exact ⟨x, mem_containersOn_iff.mpr ⟨⟨id, hget⟩, hvolume⟩, h id x hget⟩

end

/-! ## One attempt -/

/-- An attempt to insert a container, and why it was refused, if it was. -/
structure Insertion where
  container : Container
  refusal : Option DuplicateContainer

/-- The container was taken in. -/
def Insertion.succeeded (i : Insertion) : Bool := i.refusal.isNone

/-- **What an attempt to insert comes to**, and the catalog behind it: the container is the one entry more,
or its number is taken and the catalog stays. -/
inductive Inserts (c : Catalog) : Insertion → Catalog → Prop
  | gains {x : Container} {c' : Catalog} (h : c.Gains x c') : Inserts c ⟨x, none⟩ c'
  | refused {x old : Container} (h : c.get? x.id = some old) :
      Inserts c ⟨x, some ⟨x.id, old.volume, x.volume⟩⟩ c

section

variable {c c' : Catalog} {x : Container}

/-- An insertion that succeeds is the one entry more. -/
theorem inserts_of_ok (h : c.insert x = .ok c') : c.Inserts ⟨x, none⟩ c' := by
  cases hold : c.get? x.id with
  | some old => simp [Catalog.insert, hold] at h
  | none =>
      obtain ⟨k, htakes, hg⟩ := admit_of_none hold
      obtain rfl : k = c' := by
        simp only [h, Catalog.admit, Prod.mk.injEq] at htakes
        exact htakes.2.1.symm
      exact .gains hg

/-- An insertion that is refused is one of a duplicate. -/
theorem inserts_of_error {e : DuplicateContainer} (h : c.insert x = .error e) :
    c.Inserts ⟨x, some e⟩ c := by
  cases hold : c.get? x.id with
  | none => simp [Catalog.insert, hold] at h
  | some old =>
      obtain rfl : ⟨x.id, old.volume, x.volume⟩ = e := by simpa [Catalog.insert, hold] using h
      exact .refused hold

end

/-! ## Attempts one after another -/

/-- **Attempts one after another**, from the catalog before them to the one behind them. -/
inductive InsertsAll : Catalog → List Insertion → Catalog → Prop
  | nil (c : Catalog) : InsertsAll c [] c
  | cons {c c₁ c' : Catalog} {i : Insertion} {is : List Insertion} (h : c.Inserts i c₁)
      (hrest : InsertsAll c₁ is c') : InsertsAll c (i :: is) c'

/-- The second catalog has all that the first one has. -/
def Extends (c c' : Catalog) : Prop := ∀ id x, c.get? id = some x → c'.get? id = some x

theorem Extends.refl (c : Catalog) : c.Extends c := fun _ _ hx => hx

theorem Extends.trans {c c₁ c' : Catalog} (h : c.Extends c₁) (h' : c₁.Extends c') : c.Extends c' :=
  fun id x hx => h' id x (h id x hx)

section

variable {c c₁ c' : Catalog} {i : Insertion} {is js : List Insertion}

theorem Inserts.keeps (h : c.Inserts i c') : c.Extends c' := by
  cases h with
  | gains hg => exact fun id x hx => hg.get?_of_some hx
  | refused => exact .refl c

theorem Inserts.numbered (h : c.Inserts i c') (hc : c.Numbered) : c'.Numbered := by
  cases h with
  | gains hg => exact hg.numbered hc
  | refused => exact hc

theorem Inserts.insertsAll (h : c.Inserts i c') : c.InsertsAll [i] c' := .cons h (.nil c')

namespace InsertsAll

theorem append (h : c.InsertsAll is c₁) (h' : c₁.InsertsAll js c') : c.InsertsAll (is ++ js) c' := by
  induction h with
  | nil => exact h'
  | cons hi _ ih => exact .cons hi (ih h')

/-- There is a catalog behind the first of the attempts. -/
theorem exists_of_append (h : c.InsertsAll (is ++ js) c') :
    ∃ c₁, c.InsertsAll is c₁ ∧ c₁.InsertsAll js c' := by
  induction is generalizing c with
  | nil => exact ⟨c, .nil c, h⟩
  | cons i is ih =>
      cases h with
      | cons hi hrest =>
          obtain ⟨c₁, hfirst, hlast⟩ := ih hrest
          exact ⟨c₁, .cons hi hfirst, hlast⟩

/-- **What is in the catalog stays.** -/
theorem keeps (h : c.InsertsAll is c') : c.Extends c' := by
  induction h with
  | nil => exact .refl _
  | cons hi _ ih => exact hi.keeps.trans ih

theorem numbered (h : c.InsertsAll is c') (hc : c.Numbered) : c'.Numbered := by
  induction h with
  | nil => exact hc
  | cons hi _ ih => exact ih (hi.numbered hc)

/-- **There are as many containers more as attempts that succeeded.** -/
theorem size_eq (h : c.InsertsAll is c') : c'.size = c.size + is.countP (·.succeeded) := by
  induction h with
  | nil => rfl
  | cons hi _ ih =>
      rw [ih, List.countP_cons]
      cases hi with
      | gains hg =>
          rw [hg.size_eq]
          simp only [Insertion.succeeded, Option.isNone_none, if_true]
          omega
      | refused => simp [Insertion.succeeded]

/-- **What is in the catalog in the end** was there before, or an attempt to insert it succeeded. -/
theorem origin (h : c.InsertsAll is c') {id : ContainerId} {x : Container}
    (hx : c'.get? id = some x) : c.get? id = some x ∨ (x.id = id ∧ ⟨x, none⟩ ∈ is) := by
  induction h with
  | nil => exact .inl hx
  | cons hi _ ih =>
      rcases ih hx with hbefore | ⟨hid, hmem⟩
      · cases hi with
        | refused => exact .inl hbefore
        | @gains y _ hg =>
            rw [hg.entries] at hbefore
            split at hbefore
            · next hid =>
                obtain rfl := Option.some.inj hbefore
                exact .inr ⟨hid.symm, List.mem_cons_self⟩
            · exact .inl hbefore
      · exact .inr ⟨hid, List.mem_cons_of_mem _ hmem⟩

end InsertsAll

end

end Catalog

/-! ## Attempts to load -/

namespace Attempt

/-- Why a container was refused, if an attempt to load ended so. -/
def refusal? : Attempt → Option DuplicateContainer
  | .skipped (.duplicate e) => some e
  | _ => none

/-- The attempt to insert that an attempt to load leads to, with the answer of the catalog. -/
def insertions (c : Catalog) (a : Attempt) : List Catalog.Insertion :=
  match a with
  | .loaded x => [⟨x, refusal? <| Prod.fst <| c.admit a⟩]
  | _ => []

/-- **The catalog takes part in an attempt to load by one attempt to insert**, or by none. -/
theorem insertsAll_admit {c c' : Catalog} {a b : Attempt} {es : List Event}
    (hanswer : c.admit a = (b, c', es)) : c.InsertsAll (a.insertions c) c' := by
  cases a with
  | skipped | crashed =>
      obtain ⟨-, rfl, -⟩ := Prod.mk.inj hanswer
      exact .nil c
  | loaded x =>
      rw [insertions]
      cases hold : c.get? x.id with
      | some old =>
          rw [Catalog.admit_of_some hold] at hanswer ⊢
          obtain ⟨-, rfl, -⟩ : _ ∧ c = c' ∧ _ := by simpa using hanswer
          exact (Catalog.Inserts.refused hold).insertsAll
      | none =>
          obtain ⟨d, htakes, hg⟩ := Catalog.admit_of_none hold
          rw [htakes] at hanswer ⊢
          obtain ⟨-, rfl, -⟩ : _ ∧ d = c' ∧ _ := by simpa using hanswer
          exact (Catalog.Inserts.gains hg).insertsAll

end Attempt

end StorageNode
