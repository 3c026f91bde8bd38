import Mathlib.Data.List.Induction
import Mathlib.Data.List.Nodup
import StorageNode.Proofs.Block.Text
import StorageNode.Proofs.Utf8

/-!
# Stored forms and their records

A stored form lists its metadata in any order, a record keeps it by ascending keys. A stored form stands for
a record just if no key occurs twice in it, and the record is stored as the same form with its metadata
sorted (`Frame.SortsTo`); otherwise it is refused for the first key that occurs again (`Frame.Repeats`).
`Record.ofFrame_decides` says so of every stored form, and that every record is stored sorted and comes
back from its stored form.

Entries are added one after another, so the map behind the first ones holds just these: an entry is refused
if its key is among those in front of it (`Record.ofFrame_of_repeats`). Of a list with a key that occurs
again, the entries in front of the first such one have keys of their own (`Frame.exists_repeats`).
-/

namespace StorageNode.Block

/-- Entries stand in the byte order of their keys. -/
def KeysAscend (es : List (String × String)) : Prop :=
  es.Pairwise fun a b => Utf8.encode a.1 < Utf8.encode b.1

/-- **A stored form with its metadata sorted** by the byte order of the keys, and all else as it was. -/
structure Frame.SortsTo (f g : Frame) : Prop where
  id_eq : g.id = f.id
  chunks_eq : g.chunks = f.chunks
  size_eq : g.size = f.size
  listed : g.metadata.Perm f.metadata
  ascending : KeysAscend g.metadata

/-- **The first entry whose key has occurred before it** has the key. -/
def Frame.Repeats (f : Frame) (key : String) : Prop :=
  ∃ before value behind, f.metadata = before ++ (key, value) :: behind ∧
    (before.map (·.1)).Nodup ∧ key ∈ before.map (·.1)

/-! ## Stored forms without a repeated key -/

theorem keysAscend_iff {es : List (String × String)} :
    KeysAscend es ↔ es.Pairwise fun a b => a.1 < b.1 := by
  simp only [KeysAscend, Utf8.encode_lt_encode]

/-- The metadata of a record is in the byte order of the keys. -/
theorem keysAscend_entries (m : SortedMap String String) : KeysAscend m.entries :=
  keysAscend_iff.mpr m.ascending

theorem KeysAscend.nodup {es : List (String × String)} (h : KeysAscend es) : (es.map (·.1)).Nodup :=
  SortedMap.nodup_keys ⟨es, keysAscend_iff.mp h⟩

/-- Entries with keys of their own can be sorted. -/
theorem exists_ascending {es : List (String × String)} (h : (es.map (·.1)).Nodup) :
    ∃ m : SortedMap String String, m.entries.Perm es := by
  have hperm : (es.mergeSort fun a b => a.1 ≤ b.1).Perm es := List.mergeSort_perm es _
  have hsorted : (es.mergeSort fun a b => a.1 ≤ b.1).Pairwise fun a b => decide (a.1 ≤ b.1) = true :=
    List.pairwise_mergeSort
      (fun a b c hab hbc => by
        simp only [decide_eq_true_eq] at hab hbc ⊢
        exact String.le_trans hab hbc)
      (fun a b => by simpa using String.le_total a.1 b.1) es
  have hdistinct : (es.mergeSort fun a b => a.1 ≤ b.1).Pairwise fun a b => a.1 ≠ b.1 :=
    List.pairwise_map.mp ((hperm.map Prod.fst).nodup_iff.mpr h)
  refine ⟨⟨_, hsorted.imp₂ (fun a b hle hne => ?_) hdistinct⟩, hperm⟩
  exact (KeyOrder.connected hne).resolve_right (String.not_lt.mpr (of_decide_eq_true hle))

/-- A stored form without a repeated key has a record that is stored as its sorted form. -/
theorem Frame.exists_sortsTo {f : Frame} (h : (f.metadata.map (·.1)).Nodup) :
    ∃ r : Record, f.SortsTo r.toFrame := by
  obtain ⟨m, hperm⟩ := exists_ascending h
  exact ⟨⟨f.id, m, f.chunks, f.size⟩, rfl, rfl, rfl, hperm, keysAscend_entries m⟩

/-- **A stored form stands for the record that is stored as its sorted form.** -/
theorem Record.ofFrame_of_sortsTo {f : Frame} {r : Record} (h : f.SortsTo r.toFrame) :
    ofFrame f = .ok r := by
  have hf : f = { r.toFrame with metadata := f.metadata } := by
    cases f
    obtain ⟨rfl, rfl, rfl, -, -⟩ := h
    rfl
  rw [hf]
  exact ofFrame_perm h.listed.symm

/-! ## Stored forms with a repeated key -/

/-- Entries are added in their order. -/
theorem Record.addAll_append (r : Record) (es ds : List (String × String)) :
    r.addAll (es ++ ds) = match r.addAll es with
      | .ok r' => r'.addAll ds
      | .error e => .error e := by
  induction es generalizing r with
  | nil => rfl
  | cons e es ih =>
      rw [List.cons_append, addAll, addAll]
      cases r.addMetadata e.1 e.2 with
      | ok r' => exact ih r'
      | error e => rfl

/-- **A stored form with a repeated key is refused for the first one.** The entries in front of it are
added, and then the key is there. -/
theorem Record.ofFrame_of_repeats {f : Frame} {key : String} (h : f.Repeats key) :
    ofFrame f = .error (.duplicateKey key) := by
  obtain ⟨before, value, behind, hsplit, hnodup, hkey⟩ := h
  obtain ⟨⟨_, old⟩, hold, rfl⟩ := List.mem_map.mp hkey
  obtain ⟨m, hbefore, hm⟩ := addAll_distinct (r := .new f.id) hnodup fun _ _ => rfl
  have hpresent : Record.value? { new f.id with metadata := m } _ = some old :=
    (hm _ old).mpr (.inl hold)
  rw [ofFrame, hsplit, addAll_append, hbefore]
  simp only [addAll, addMetadata_of_some hpresent]

/-- If a key occurs again, there is a first entry where one does. -/
theorem Frame.exists_repeats {f : Frame} (h : ¬ (f.metadata.map (·.1)).Nodup) :
    ∃ key, f.Repeats key := by
  obtain ⟨id, chunks, es, size⟩ := f
  induction es using List.reverseRecOn with
  | nil => exact absurd List.nodup_nil h
  | append_singleton es e ih =>
      obtain ⟨key, value⟩ := e
      by_cases hnodup : (es.map (·.1)).Nodup
      · refine ⟨key, es, value, [], rfl, hnodup, Decidable.by_contra fun hnew => h ?_⟩
        rw [List.map_append, List.map_singleton, ← List.concat_eq_append]
        exact hnodup.concat hnew
      · obtain ⟨first, before, value', behind, hsplit, hfirst⟩ := ih hnodup
        refine ⟨first, before, value', behind ++ [(key, value)], ?_, hfirst⟩
        simp only at hsplit
        simp [hsplit]

/-! ## The theorem -/

/-- **A stored form stands for a record just if no key of its metadata occurs twice.** The record is stored
as the same form with its metadata sorted; if a key occurs twice, the form is refused for the key of the
first entry that repeats one. Every record is stored with ascending keys, and its stored form stands for
it. -/
theorem Record.ofFrame_decides :
    (∀ f : Frame, (∃ r, ofFrame f = .ok r) ↔ (f.metadata.map (·.1)).Nodup) ∧
    (∀ (f : Frame) (r : Record), ofFrame f = .ok r ↔ f.SortsTo r.toFrame) ∧
    (∀ (f : Frame) (e : Error),
      ofFrame f = .error e ↔ ∃ key, f.Repeats key ∧ e = .duplicateKey key) ∧
    ∀ r : Record, KeysAscend r.toFrame.metadata ∧ ofFrame r.toFrame = .ok r := by
  have hrefused : ∀ f : Frame, ¬ (f.metadata.map (·.1)).Nodup →
      ∃ key, f.Repeats key ∧ ofFrame f = .error (.duplicateKey key) := fun f h =>
    let ⟨key, hkey⟩ := f.exists_repeats h
    ⟨key, hkey, ofFrame_of_repeats hkey⟩
  have hsorted : ∀ (f : Frame) (r : Record), ofFrame f = .ok r ↔ f.SortsTo r.toFrame := by
    refine fun f r => ⟨fun hr => ?_, ofFrame_of_sortsTo⟩
    by_cases hnodup : (f.metadata.map (·.1)).Nodup
    · obtain ⟨r', hr'⟩ := Frame.exists_sortsTo hnodup
      obtain rfl : r' = r := Except.ok.inj ((ofFrame_of_sortsTo hr').symm.trans hr)
      exact hr'
    · obtain ⟨key, -, herror⟩ := hrefused f hnodup
      exact nomatch herror.symm.trans hr
  refine ⟨fun f => ⟨fun ⟨r, hr⟩ => ?_, fun h => ?_⟩, hsorted, fun f e => ⟨fun he => ?_, ?_⟩,
    fun r => ⟨keysAscend_entries r.metadata, ofFrame_perm (.refl _)⟩⟩
  · have hsorts := (hsorted f r).mp hr
    exact (hsorts.listed.map _).nodup_iff.mp hsorts.ascending.nodup
  · obtain ⟨r, hr⟩ := Frame.exists_sortsTo h
    exact ⟨r, ofFrame_of_sortsTo hr⟩
  · by_cases hnodup : (f.metadata.map (·.1)).Nodup
    · obtain ⟨r, hr⟩ := Frame.exists_sortsTo hnodup
      exact nomatch (ofFrame_of_sortsTo hr).symm.trans he
    · obtain ⟨key, hkey, herror⟩ := hrefused f hnodup
      exact ⟨key, hkey, Except.error.inj (he.symm.trans herror)⟩
  · rintro ⟨key, hkey, rfl⟩
    exact ofFrame_of_repeats hkey

/-- Two keys occur again, and the one that does so first is not the one that occurred first. -/
example : Record.ofFrame
    ⟨⟨7, 9⟩, [], [("a", "1"), ("b", "2"), ("b", "3"), ("a", "4")], none⟩ =
      .error (.duplicateKey "b") := by
  decide +kernel

end StorageNode.Block
