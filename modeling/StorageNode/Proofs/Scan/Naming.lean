import Mathlib.Data.List.Induction
import StorageNode.Proofs.Scan.Firsts
import StorageNode.Proofs.Scan.Insertions

/-!
# Directories and the numbers they are named by

A container is written to a directory that is named by its number in digits. A reader takes any digits for
a number, so that zeros may stand in front (`ContainerId.ofName?_eq_some_iff_padded`): one number has
infinitely many names, of which the writer uses the shortest one. Names and numbers correspond one to one
as long as there are no such zeros (`ContainerId.Plain`).

`Scan.named_by_numbers` says this of the directories that a scan comes to and of the containers that it
loads.
-/

namespace StorageNode

namespace ContainerId

/-! ## Zeros in front of a number -/

/-- The digits of a number with zeros in front. -/
def padded (zeros : Nat) (id : ContainerId) : String :=
  String.ofList (List.replicate zeros '0' ++ (text id).toList)

/-- A name that does not begin with a zero, unless this is all of it. -/
def Plain (name : String) : Prop := name.toList.head? = some '0' → name = "0"

theorem toList_padded (zeros : Nat) (id : ContainerId) :
    (padded zeros id).toList = List.replicate zeros '0' ++ Nat.toDigits 10 (UInt64.toNat id) := by
  rw [padded, String.toList_ofList, toList_text]

theorem padded_zero (id : ContainerId) : padded 0 id = text id := String.ofList_toList

/-- Zeros in front make another name. -/
theorem padded_succ_ne_text (zeros : Nat) (id : ContainerId) : padded (zeros + 1) id ≠ text id := by
  intro heq
  have hlength := congrArg (List.length ∘ String.toList) heq
  simp only [Function.comp_apply, toList_padded, toList_text, List.length_append,
    List.length_replicate] at hlength
  omega

theorem exists_digitChar {c : Char} (h : c.isDigit = true) : ∃ d < 10, c = Nat.digitChar d := by
  obtain ⟨hlow, hhigh⟩ := Char.isDigit_iff_toNat.mp h
  simp only [Char.reduceToNat] at hlow hhigh
  refine ⟨c.toNat - 48, by omega, Char.toNat_inj.mp ?_⟩
  rw [Nat.toNat_digitChar_of_lt_ten (by omega)]
  omega

/-- **Digits are those of the number that they spell, with zeros in front.** -/
theorem exists_zeros {cs : List Char} (hne : cs ≠ []) (hdigits : ∀ c ∈ cs, c.isDigit = true) :
    ∃ zeros, cs = List.replicate zeros '0' ++ Nat.toDigits 10 (Nat.ofDigitChars 10 cs 0) := by
  induction cs using List.reverseRecOn with
  | nil => exact absurd rfl hne
  | append_singleton cs c ih =>
      obtain ⟨hall, hlast⟩ := List.forall_mem_append.mp hdigits
      obtain ⟨d, hd, rfl⟩ := exists_digitChar (hlast c (List.mem_singleton.mpr rfl))
      have hdigit : Nat.toDigits 10 d = [Nat.digitChar d] := Nat.toDigits_of_lt_base hd
      rw [Nat.ofDigitChars_append, Nat.ofDigitChars_cons_digitChar_of_lt_ten hd, Nat.ofDigitChars_nil]
      by_cases hcs : cs = []
      · subst hcs
        exact ⟨0, by simp [hdigit]⟩
      · obtain ⟨zeros, hzeros⟩ := ih hcs hall
        generalize Nat.ofDigitChars 10 cs 0 = n at hzeros ⊢
        rcases Nat.eq_zero_or_pos n with rfl | hpos
        · -- only zeros so far
          refine ⟨zeros + 1, ?_⟩
          rw [hzeros, Nat.toDigits_zero, Nat.mul_zero, Nat.zero_add, hdigit, List.replicate_succ']
        · refine ⟨zeros, ?_⟩
          rw [← Nat.toDigits_append_toDigits (by decide) hpos hd, hdigit, ← List.append_assoc, ← hzeros]

/-- **The names of a number**: its digits, with any zeros in front. -/
theorem ofName?_eq_some_iff_padded {name : String} {id : ContainerId} :
    ofName? name = some id ↔ ∃ zeros, name = padded zeros id := by
  rw [ofName?_eq_some_iff]
  constructor
  · intro h
    obtain ⟨zeros, hzeros⟩ := exists_zeros (mt String.toList_eq_nil_iff.mp h.ne_empty) h.digits
    refine ⟨zeros, String.toList_inj.mp ?_⟩
    rw [toList_padded, hzeros, h.value]
  · rintro ⟨zeros, rfl⟩
    refine ⟨fun hempty => ?_, fun c hc => ?_, ?_⟩
    · have hlist := String.toList_eq_nil_iff.mpr hempty
      rw [toList_padded, List.append_eq_nil_iff] at hlist
      exact Nat.toDigits_ne_nil hlist.2
    · rw [toList_padded, List.mem_append] at hc
      rcases hc with hzero | hdigit
      · rw [List.eq_of_mem_replicate hzero]
        rfl
      · exact Nat.isDigit_of_mem_toDigits (by decide) (by decide) hdigit
    · rw [toList_padded, Nat.ofDigitChars_append, Nat.ofDigitChars_replicate_zero, Nat.mul_zero,
        Nat.ofDigitChars_ten_toDigits]

/-- The writer puts no zeros in front. -/
theorem plain_text (id : ContainerId) : Plain (text id) := by
  intro hhead
  obtain ⟨cs, hcs⟩ : ∃ cs, (text id).toList = '0' :: cs := List.head?_eq_some_iff.mp hhead
  have hrest : cs = [] := by
    by_contra hne
    have hvalue : Nat.ofDigitChars 10 cs 0 = UInt64.toNat id := by
      rw [← Nat.ofDigitChars_ten_toDigits (n := UInt64.toNat id), ← toList_text, hcs,
        Nat.ofDigitChars_cons]
      simp
    -- without its zero, the name would still be as long as the digits of the number
    obtain ⟨zeros, hzeros⟩ := exists_zeros hne fun c hc =>
      isDigit_of_mem_text (by rw [hcs]; exact List.mem_cons_of_mem _ hc)
    rw [hvalue, ← toList_text, hcs] at hzeros
    have hlength := congrArg List.length hzeros
    simp only [List.length_append, List.length_replicate, List.length_cons] at hlength
    omega
  rw [hrest] at hcs
  exact String.toList_inj.mp hcs

/-- **A number has one plain name**, which is the one that the writer uses. -/
theorem ofName?_eq_some_and_plain_iff {name : String} {id : ContainerId} :
    ofName? name = some id ∧ Plain name ↔ name = text id := by
  constructor
  · intro ⟨hname, hplain⟩
    obtain ⟨zeros, rfl⟩ := ofName?_eq_some_iff_padded.mp hname
    cases zeros with
    | zero => exact padded_zero id
    | succ zeros =>
        have hzero : padded (zeros + 1) id = "0" := hplain (by simp [toList_padded, List.replicate_succ])
        rw [hzero] at hname
        obtain rfl : 0 = id := Option.some.inj hname
        exact hzero
  · rintro rfl
    exact ⟨ofName?_text id, plain_text id⟩

end ContainerId

namespace Scan

open ContainerId (Plain padded text)

/-! ## The directories of containers -/

/-- The name that a container is written to. -/
theorem fileName?_containerPaths (root : FilePath) (cluster : String) (id : ContainerId) :
    (Layout.containerPaths root cluster id).container.fileName? = some (text id) :=
  FilePath.fileName?_join _ (ContainerId.isName_text id)

/-- **A container that a scan adds to the catalog lies in a directory of its number**, among the
directories of a group. -/
theorem added_or_mem (s : Scan) (hview : s.view.WellNamed) (c : Catalog) (r : Registry)
    {id : ContainerId} {x : Container} (hx : (s.run c r).catalog.get? id = some x) :
    c.get? id = some x ∨ ∃ (group : FilePath) (name : String), FilePath.IsName name ∧
      containerId? (group / name) = some id ∧ x.id = id ∧ x.paths = .ofDirectory (group / name) id := by
  rcases (insertsAll_run s c r).origin hx with hbefore | ⟨hid, hmem⟩
  · exact .inl hbefore
  · obtain ⟨cluster, ss, dir, id', -, hstops, hcandidate, hid', hexamine⟩ := exists_of_mem_insertions hmem
    obtain ⟨group, name, hname, rfl⟩ := named_of_mem_stops hview hstops hcandidate
    obtain ⟨rfl, -⟩ := Loading.loaded_of_examine hexamine
    exact .inr ⟨group, name, hname, hid ▸ hid', hid,
      hid ▸ (Loading.passes_of_examine hname hexamine).paths_eq⟩

/-- **Names without zeros in front and numbers correspond one to one.** An entry of a group with such a name
has the number whose directory would be written under this name, if there is one, and no other entry with
such a name has it. Any other name that has a number is the one that is written with zeros in front. A
container that a scan adds lies in a directory that is named by its number, which stands there as it is
written or with zeros in front. -/
theorem named_by_numbers (s : Scan) (hview : s.view.WellNamed) (c : Catalog) (r : Registry) :
    (∀ (group : FilePath) name id, FilePath.IsName name → Plain name →
      (containerId? (group / name) = some id ↔ ∀ root cluster,
        (Layout.containerPaths root cluster id).container.fileName? = some name)) ∧
    (∀ (group : FilePath) name name' id, FilePath.IsName name → FilePath.IsName name' →
      Plain name → Plain name' →
      containerId? (group / name) = some id → containerId? (group / name') = some id → name = name') ∧
    (∀ (group : FilePath) name id, FilePath.IsName name →
      (containerId? (group / name) = some id ∧ name ≠ text id ↔
        ∃ zeros, name = padded (zeros + 1) id)) ∧
    ∀ id x, (s.run c r).catalog.get? id = some x → c.get? id = some x ∨
      ∃ name, x.paths.container.fileName? = some name ∧ x.id = id ∧
        (Plain name → name = text id) ∧ ∃ zeros, name = padded zeros id := by
  have hone : ∀ (group : FilePath) name id, FilePath.IsName name → Plain name →
      (containerId? (group / name) = some id ↔ name = text id) := by
    intro group name id hname hplain
    rw [containerId?_join group hname, ← ContainerId.ofName?_eq_some_and_plain_iff]
    exact (and_iff_left hplain).symm
  refine ⟨fun group name id hname hplain => ?_, ?_, fun group name id hname => ?_, ?_⟩
  · simp only [fileName?_containerPaths, Option.some.injEq, hone group name id hname hplain]
    exact ⟨fun heq _ _ => heq.symm, fun heq => (heq ⟨"/"⟩ "c").symm⟩
  · intro group name name' id hname hname' hplain hplain' hid hid'
    rw [(hone group name id hname hplain).mp hid, (hone group name' id hname' hplain').mp hid']
  · rw [containerId?_join group hname, ContainerId.ofName?_eq_some_iff_padded]
    constructor
    · rintro ⟨⟨zeros, rfl⟩, hne⟩
      cases zeros with
      | zero => exact absurd (ContainerId.padded_zero id) hne
      | succ zeros => exact ⟨zeros, rfl⟩
    · rintro ⟨zeros, rfl⟩
      exact ⟨⟨zeros + 1, rfl⟩, ContainerId.padded_succ_ne_text zeros id⟩
  · intro id x hx
    refine (added_or_mem s hview c r hx).imp_right fun ⟨group, name, hname, hid, hnumber, hpaths⟩ => ?_
    refine ⟨name, ?_, hnumber, fun hplain => (hone group name id hname hplain).mp hid, ?_⟩
    · rw [hpaths]
      exact FilePath.fileName?_join group hname
    · rw [containerId?_join group hname] at hid
      exact ContainerId.ofName?_eq_some_iff_padded.mp hid

/-- A scan of a volume with a container 5 adds it to an empty catalog, from a directory that is named by the
number. -/
theorem named_by_numbers_sample : stocked.view.WellNamed ∧
    containerId? ((⟨"/v/c/current/g"⟩ : FilePath) / "5") = some 5 ∧
    ∃ x name, (stocked.run .empty .empty).catalog.get? 5 = some x ∧
      x.paths.container.fileName? = some name ∧ (Plain name → name = text 5) ∧
      ∃ zeros, name = padded zeros 5 := by
  have hview := Disk.isPlain_stocked.tree.wellNamed
  obtain ⟨hone, -, -, hadded⟩ := named_by_numbers stocked hview .empty .empty
  obtain ⟨_, hreport, -⟩ := exists_serves stocked .empty .empty hview
    StructureCheck.neverCrashes_indexFile
  obtain ⟨-, x, hx⟩ := loads_stocked (.inl rfl) rfl .empty hreport
  refine ⟨hview, ?_, x, ?_⟩
  · rw [hone ⟨"/v/c/current/g"⟩ "5" 5 (ContainerId.isName_text 5) (ContainerId.plain_text 5)]
    exact fun root cluster => fileName?_containerPaths root cluster 5
  · rcases hadded 5 x hx with hbefore | ⟨name, hname, -, hplain, hzeros⟩
    · cases hbefore
    · exact ⟨name, hx, hname, hplain, hzeros⟩

/-- Without zeros in front is needed: the entries `7` and `007` of a group are given one number, and the
second one is not what a container is written to. -/
theorem named_by_numbers_needs_plain :
    FilePath.IsName "7" ∧ FilePath.IsName "007" ∧ containerId? ((⟨"/g"⟩ : FilePath) / "7") = some 7 ∧
      containerId? ((⟨"/g"⟩ : FilePath) / "007") = some 7 ∧
      (Layout.containerPaths ⟨"/"⟩ "c" 7).container.fileName? ≠ some "007" := by
  have hplain : FilePath.IsName "7" := ContainerId.isName_text 7
  have hzeros : FilePath.IsName "007" :=
    FilePath.isName_of_head (c := '0') (by decide) (by decide) (by decide)
  refine ⟨hplain, hzeros, ?_, ?_, ?_⟩
  · rw [containerId?_join _ hplain]
    rfl
  · rw [containerId?_join _ hzeros]
    rfl
  · rw [fileName?_containerPaths]
    decide

end Scan

end StorageNode
