import StorageNode.Layout
import StorageNode.Proofs.FilePath

/-!
# Where a container's files lie

The names of the layout are names of entries, so the paths of a container can be taken apart again:
`ofDescriptor?_ofDirectory` finds a container's paths from its descriptor, in the spelling they have
seen from its directory. The directory itself is named by the container's number, which
`ofName?_text` reads back.
-/

namespace StorageNode

open FilePath (IsName)

/-! ## Names -/

/-- A text without a separator that begins with anything but a dot is a name. -/
theorem FilePath.isName_of_head {name : String} {c : Char} (hhead : name.toList.head? = some c)
    (hc : c ≠ '.') (hsep : '/' ∉ name.toList) : IsName name where
  ne_empty := by rintro rfl; simp at hhead
  no_separator := hsep
  ne_dot := by rintro rfl; simp at hhead; exact hc hhead.symm
  ne_dots := by rintro rfl; simp at hhead; exact hc hhead.symm

/-- The digits of a number. -/
theorem toList_decimal (n : Nat) : (toString n).toList = Nat.toDigits 10 n := by
  rw [Nat.toString_eq_ofList_toDigits, String.toList_ofList]

/-- A number written in digits has no separator. -/
theorem separator_not_mem_decimal (n : Nat) : '/' ∉ (toString n).toList := by
  intro hmem
  rw [toList_decimal] at hmem
  have hdigit : '/'.isDigit = true :=
    Nat.isDigit_of_mem_toDigits (b := 10) (by decide) (by decide) hmem
  simp at hdigit

namespace ContainerId

theorem toList_text (id : ContainerId) :
    (ContainerId.text id).toList = Nat.toDigits 10 (UInt64.toNat id) :=
  toList_decimal _

/-- The number of a container is written in digits. -/
theorem isDigit_of_mem_text {id : ContainerId} {c : Char}
    (h : c ∈ (ContainerId.text id).toList) : c.isDigit = true := by
  rw [toList_text] at h
  exact Nat.isDigit_of_mem_toDigits (by decide) (by decide) h

/-- The number of a container has at least one digit. -/
theorem text_ne_empty (id : ContainerId) : ContainerId.text id ≠ "" := by
  rw [ne_eq, ← String.toList_eq_nil_iff, toList_text]
  exact Nat.toDigits_ne_nil

/-- A name that spells a number: decimal digits, at least one, leading zeros allowed. -/
structure Spells (name : String) (n : Nat) : Prop where
  ne_empty : name ≠ ""
  digits : ∀ c ∈ name.toList, c.isDigit = true
  value : Nat.ofDigitChars 10 name.toList 0 = n

/-- **The number of a directory is the one that its name spells.** -/
theorem ofName?_eq_some_iff {name : String} {id : ContainerId} :
    ContainerId.ofName? name = some id ↔ Spells name (UInt64.toNat id) := by
  simp only [ContainerId.ofName?, ne_eq, Bool.and_eq_true, decide_eq_true_eq, List.all_eq_true,
    Option.ite_none_right_eq_some, Option.some.injEq]
  constructor
  · rintro ⟨⟨hne, hall⟩, hlt, rfl⟩
    exact ⟨mt String.toList_eq_nil_iff.mpr hne, hall, (UInt64.toNat_ofNat_of_lt hlt).symm⟩
  · rintro ⟨hne, hall, hvalue⟩
    refine ⟨⟨mt String.toList_eq_nil_iff.mp hne, hall⟩, ?_⟩
    rw [hvalue]
    exact ⟨UInt64.toNat_lt_size id, UInt64.ofNat_toNat⟩

/-- **The name of a container's directory reads back as its number.** -/
theorem ofName?_text (id : ContainerId) : ContainerId.ofName? (ContainerId.text id) = some id :=
  ofName?_eq_some_iff.mpr
    { ne_empty := text_ne_empty id
      digits := fun _ => isDigit_of_mem_text
      value := by rw [toList_text, Nat.ofDigitChars_ten_toDigits] }

/-- Digits with anything but separators behind them are a name. -/
theorem isName_text_append (id : ContainerId) {suffix : String} (h : '/' ∉ suffix.toList) :
    IsName (ContainerId.text id ++ suffix) := by
  obtain ⟨c, cs, hcs⟩ := List.exists_cons_of_ne_nil
    (mt String.toList_eq_nil_iff.mp (text_ne_empty id))
  have hdigit : c.isDigit = true := isDigit_of_mem_text (by rw [hcs]; exact List.mem_cons_self)
  refine FilePath.isName_of_head (c := c) (by simp [hcs]) (by rintro rfl; simp at hdigit) ?_
  rw [String.toList_append, List.mem_append, not_or]
  exact ⟨separator_not_mem_decimal _, h⟩

/-- The number of a container is a name. -/
theorem isName_text (id : ContainerId) : IsName (ContainerId.text id) := by
  have h := @isName_text_append id "" (by simp)
  rwa [String.append_empty] at h

end ContainerId

namespace Layout

theorem isName_descriptorName (id : ContainerId) : IsName (descriptorName id) :=
  ContainerId.isName_text_append id (by decide)

theorem isName_indexName (id : ContainerId) : IsName (indexName id) :=
  ContainerId.isName_text_append id (by decide)

theorem isName_currentName : IsName currentName :=
  FilePath.isName_of_head (c := 'c') (by decide) (by decide) (by decide)

theorem isName_groupName (id : ContainerId) : IsName (groupName id) := by
  refine FilePath.isName_of_head (c := 'c') (by simp [groupName]) (by decide) ?_
  rw [groupName, String.toList_append, List.mem_append, not_or]
  exact ⟨by decide, separator_not_mem_decimal _⟩

theorem isName_metadata : IsName "metadata" :=
  FilePath.isName_of_head (c := 'm') (by decide) (by decide) (by decide)

theorem isName_chunks : IsName "chunks" :=
  FilePath.isName_of_head (c := 'c') (by decide) (by decide) (by decide)

end Layout

namespace ContainerPaths

/-- Two levels above its descriptor lies the directory of a container, without the separators and dots that
trail it. -/
theorem ofDescriptor?_descriptor (dir : FilePath) (id : ContainerId) :
    ofDescriptor? (ofDirectory dir id).descriptor id = some (ofDirectory dir.trimmed id) := by
  show ((dir / "metadata" / Layout.descriptorName id).parent?.bind
    FilePath.parent?).map (ofDirectory · id) = _
  rw [FilePath.parent?_join_join _ Layout.isName_metadata (Layout.isName_descriptorName id),
    Option.bind_some, FilePath.parent?_join _ Layout.isName_metadata, Option.map_some]

example : ofDescriptor? (ofDirectory ⟨"v//7/."⟩ 7).descriptor 7 = some (ofDirectory ⟨"v//7"⟩ 7) := by
  decide +kernel

/-- **A descriptor leads back to the paths of its container.** The directory two levels up has the
spelling it was given, because it ends in a name. -/
theorem ofDescriptor?_ofDirectory (parent : FilePath) {name : String} (h : IsName name)
    (id : ContainerId) :
    ofDescriptor? (ofDirectory (parent / name) id).descriptor id =
      some (ofDirectory (parent / name) id) := by
  rw [ofDescriptor?_descriptor, FilePath.trimmed_join parent h]

end ContainerPaths

/-! ## Places for containers -/

namespace Layout

/-- A directory where a container of the volume with this root may lie. -/
def IsContainerDirectory (root dir : FilePath) : Prop :=
  ∃ cluster group name, IsName cluster ∧ IsName group ∧ IsName name ∧
    dir = root / cluster / currentName / group / name

namespace IsContainerDirectory

variable {root dir dir' : FilePath}

/-- Container directories of a volume lie at one depth. -/
theorem length_components (h : IsContainerDirectory root dir) :
    dir.components.length = root.components.length + 4 := by
  obtain ⟨cluster, group, name, hcluster, hgroup, hname, rfl⟩ := h
  rw [FilePath.components_join _ hname, FilePath.components_join _ hgroup,
    FilePath.components_join _ isName_currentName, FilePath.components_join _ hcluster]
  simp

/-- They lie below the root. -/
theorem isBelow (h : IsContainerDirectory root dir) : dir.IsBelow root := by
  obtain ⟨cluster, group, name, hcluster, hgroup, hname, rfl⟩ := h
  exact ((((FilePath.IsBelow.refl root).join hcluster).join isName_currentName).join hgroup).join hname

/-- Container directories of a volume that are the same place have the same spelling. -/
theorem eq_of_components (h : IsContainerDirectory root dir) (h' : IsContainerDirectory root dir')
    (heq : dir.components = dir'.components) : dir = dir' := by
  obtain ⟨cluster, group, name, hcluster, hgroup, hname, rfl⟩ := h
  obtain ⟨cluster', group', name', hcluster', hgroup', hname', rfl⟩ := h'
  simp only [FilePath.components_join _ hname, FilePath.components_join _ hgroup,
    FilePath.components_join _ isName_currentName, FilePath.components_join _ hcluster,
    FilePath.components_join _ hname', FilePath.components_join _ hgroup',
    FilePath.components_join _ hcluster', List.append_assoc, List.append_cancel_left_eq] at heq
  obtain ⟨rfl, rfl, rfl⟩ : cluster = cluster' ∧ group = group' ∧ name = name' := by
    simpa using heq
  rfl

end IsContainerDirectory

end Layout

end StorageNode
