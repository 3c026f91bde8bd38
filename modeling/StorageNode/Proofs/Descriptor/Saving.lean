import StorageNode.Proofs.Disk.Slots
import StorageNode.Proofs.Placement

/-!
# Saving a descriptor is atomic

A descriptor that is saved is first written under a temporary name, and then moved over the file. Up to
the move the file is what it was, and so is all else that was there; then it is at once what it is to be
(`Descriptor.save_atomic`). So it is what it was if saving fails, be it that the disk does not permit
something or that the device refuses to write. Links may be anywhere but under the two names themselves.

The directories on the way may have to be made first. Until they are, the file is missing, and its
directory is empty when it has just been made (`Disk.Built.fresh`); so both names are free of links then,
too (`Disk.Built.slot`), and the file is still missing (`Disk.Built.at?_eq`). The path has to be steady
for this: with two dots behind a missing directory, saving a descriptor may bring another file to
light, and fail (`Descriptor.save_needs_steady`).
-/

namespace StorageNode

open DiskTask (Unmoved)
open FilePath (Behind IsName)

namespace Disk

/-- No link bears the name that a path ends in. -/
def Unlinked (d : Disk) (p : FilePath) : Prop :=
  ∀ l, d.nameAt? p = some l → ∀ target, d.entry? l ≠ some (.link target)

section

variable {d d' : Disk} {p q : FilePath} {name : String} {l : Location}

/-- **What a path leads to stays the same** while directories are made on the way to it. -/
theorem Built.at?_eq (h : d.Built q d') (hb : p.Behind q name.toList) (hname : IsName name) :
    d'.at? p = d.at? p := by
  rcases h.fresh with rfl | hfresh
  · rfl
  · rw [at?_of_passage_error hb hfresh.missing]
    cases hq : d'.passage q with
    | error e => exact at?_of_passage_error hb fun a ha => by simp [hq] at ha
    | ok a =>
        obtain ⟨l, n⟩ := a
        exact at?_of_vacant hb hname hq (hfresh.empty hq name)

/-- A name that no link bears is a slot in the directory that has been built. -/
theorem Built.slot (h : d.Built q d') (hp : d.Unlinked p) (hb : p.Behind q name.toList)
    (hname : IsName name) (hf : fault? p = none) (hq : ∃ n, d'.passage q = .ok (l, n))
    (hs : (d'.rightsOn l).search = true) : d'.Slot p q name l where
  behind := hb
  isName := hname
  usable := hf
  arrives := hq
  search := hs
  plain := by
    intro target he
    obtain ⟨n, hn⟩ := hq
    have hofList : String.ofList name.toList = name := String.ofList_toList
    rcases h.fresh with rfl | hfresh
    · have hresolve := resolve_name .name hb hf hn (by rw [hofList]; exact hname) hs
        fun _ _ => rfl
      rw [hofList] at hresolve
      exact hp (name :: l) (by rw [nameAt?, hresolve]) target he
    · simp [hfresh.empty hn name] at he

/-- What has been there is there still. -/
theorem Built.entry?_of_some (h : d.Built q d') {e : DiskEntry} (he : d.entry? l = some e) :
    d'.entry? l = some e := by
  rcases h.grown l with heq | ⟨hnone, -⟩
  · exact heq.trans he
  · simp [he] at hnone

/-- What has been there does not bear a name in a directory that has been built, but that very
name. -/
theorem Built.nameAt?_of_some (h : d.Built q d') (hslot : d'.Slot p q name l) {e : DiskEntry}
    (he : d.entry? (name :: l) = some e) : d.nameAt? p = some (name :: l) := by
  rcases h.fresh with rfl | hfresh
  · exact hslot.nameAt?_eq
  · obtain ⟨n, hn⟩ := hslot.arrives
    have hthere := h.entry?_of_some he
    simp [hfresh.empty hn name] at hthere

end

end Disk

namespace Descriptor

open Disk

/-- **The file is as it was**, and so is everything that was there, but for what bears the temporary
name. -/
structure Spared (d : Disk) (file : FilePath) (d' : Disk) : Prop where
  content : d'.at? file = d.at? file
  old : ∀ {l e}, d.entry? l = some e → d.nameAt? (temporary file) ≠ some l → d'.entry? l = some e

/-- **The file holds these bytes**, the temporary name is free, and everything else that was there is
as it was. Nothing is new but the file and directories where its ancestors lead. -/
structure Saved (d : Disk) (file : FilePath) (bytes : Bytes) (d' : Disk) : Prop where
  content : ∃ r, d'.at? file = some (.file r bytes)
  moved : d'.at? (temporary file) = none ∧
    ∃ l, d'.nameAt? (temporary file) = some l ∧ d'.entry? l = none
  old : ∀ {l e}, d.entry? l = some e → d.nameAt? file ≠ some l →
    d.nameAt? (temporary file) ≠ some l → d'.entry? l = some e
  new : ∀ {l e}, d.entry? l = none → d'.entry? l = some e → d'.nameAt? file = some l ∨
    (e = .directory .ofDirectory ∧ ∃ q ∈ file.ancestors, d'.locate q = .ok l)

section

variable {d d₁ d' : Disk} {file q : FilePath} {name temporaryName : String} {l : Location}

/-- Directories on the way and a draft under the temporary name spare the file. -/
theorem Spared.of_built (h : d.Built q d₁) (hb : file.Behind q name.toList)
    (hname : IsName name) : Spared d file d₁ where
  content := h.at?_eq hb hname
  old := fun he _ => h.entry?_of_some he

theorem Spared.of_drafted (h : d.Built q d₁) (hb : file.Behind q name.toList)
    (hname : IsName name) (hne : temporaryName ≠ name)
    (ht : d₁.Slot (temporary file) q temporaryName l)
    (hp : fault? file = none → d₁.Slot file q name l) (hd' : d₁.Drafted (temporaryName :: l) d') :
    Spared d file d' where
  content := by
    rw [← h.at?_eq hb hname]
    cases hf : fault? file with
    | some e => rw [at?_of_fault hf, at?_of_fault hf]
    | none =>
        have hkept : d'.entry? (name :: l) = d₁.entry? (name :: l) :=
          hd'.off fun heq => hne (List.cons.inj heq).1.symm
        rw [(hp hf).at?_eq, ((hp hf).drafted h.tree hd').at?_eq, hkept]
  old := by
    intro m e he hm
    refine (hd'.off ?_).trans (h.entry?_of_some he)
    rintro rfl
    exact hm (h.nameAt?_of_some ht he)

/-- What is replaced behind directories that have been made is saved. -/
theorem Saved.of_replaced {bytes : Bytes} (h : d.Built q d₁) (hb : file.Behind q name.toList)
    (ht : d₁.Slot (temporary file) q temporaryName l)
    (hp : d₁.Slot file q name l) (hd' : d₁.Replaced file q name temporaryName l bytes d') :
    Saved d file bytes d' where
  content := by
    obtain ⟨r, hr⟩ := hd'.content
    exact ⟨r, by rw [hd'.slot.at?_eq, if_neg (Nat.not_lt.mpr hd'.short), hr]⟩
  moved := by
    have hslot : d'.Slot (temporary file) q temporaryName l :=
      ⟨ht.behind, ht.isName, ht.usable, hd'.slot.arrives, hd'.slot.search,
        fun target => by simp [hd'.moved]⟩
    refine ⟨?_, temporaryName :: l, hslot.nameAt?_eq, hd'.moved⟩
    rw [hslot.at?_eq, hd'.moved]
    split <;> rfl
  old := by
    intro m e he hm hmt
    refine (hd'.off ?_ ?_).trans (h.entry?_of_some he)
    · rintro rfl
      exact hmt (h.nameAt?_of_some ht he)
    · rintro rfl
      exact hm (h.nameAt?_of_some hp he)
  new := by
    intro m e hnone he
    by_cases hm : m = name :: l
    · exact .inl (hm ▸ hd'.slot.nameAt?_eq)
    have hmt : m ≠ temporaryName :: l := by
      rintro rfl
      simp [hd'.moved] at he
    rw [hd'.off hmt hm] at he
    rcases h.grown m with heq | ⟨-, hdir, a, hway, hf, n, hn⟩
    · rw [heq, hnone] at he
      cases he
    · refine .inr ⟨Option.some.inj (he.symm.trans hdir), a, ?_, ?_⟩
      · rw [hb.ancestors]
        exact List.mem_cons_of_mem _ hway.mem
      · exact (locate_of_passage hd'.tree hf (passage_mono h.tree hd'.alike hn)).1

end

section

variable {d : Disk} {dir : FilePath} {id : ContainerId}

/-- The directory of a file is made, wherever that is cut off. -/
theorem makeParent_survives {file q : FilePath} {x : List Char} (hd : d.IsTree)
    (hb : file.Behind q x) (hq : q.Trim ∨ q.text = "" ∨ q.text = "/") (hsteady : d.Steady file) :
    (makeParent file).Survives (d.Built q) d fun _ d' => d.Built q d' := by
  have hparent : makeParent file = if q.text = "" then DiskTask.pure () else makePath q := by
    rw [makeParent, hb.parent]
  rw [hparent]
  split
  · exact .pure (.refl hd q) (.refl hd q)
  · exact makePath_survives hd (hsteady.of_behind hb) hq

/-- **Replacing the file behind directories that have been made** spares it up to the move. -/
theorem replaceFile_commits {d₁ : Disk} {file q : FilePath} {name temporaryName : String}
    (device : Device) (h : d.Built q d₁) (hb : file.Behind q name.toList) (hname : IsName name)
    (hbt : (temporary file).Behind q temporaryName.toList) (hnamet : IsName temporaryName)
    (hne : temporaryName ≠ name) (hp : d.Unlinked file) (ht : d.Unlinked (temporary file))
    (bytes : Bytes) :
    (replaceFile device (temporary file) file bytes).Commits (Spared d file) d₁ fun _ d' =>
      Saved d file bytes d' := by
  rcases replaceFile_cases device hbt hnamet d₁ file bytes with ⟨e, herror⟩ | ⟨l, hft, hq, hs⟩
  · exact (DiskTask.Survives.of_error (e := e) (.of_built h hb hname) herror).commits
  · have hslot := h.slot ht hbt hnamet hft hq hs
    have hslot' : fault? file = none → d₁.Slot file q name l := fun hf =>
      h.slot hp hb hname hf hq hs
    refine (hslot.replaceFile_commits device h.tree hslot' hne bytes).imp
      (fun d' hd' => .of_drafted h hb hname hne hslot hslot' hd') fun _ d' hd' => ?_
    exact .of_replaced h hb hslot (hslot' hd'.slot.usable) hd'

/-- **Saving a descriptor commits**: before the move the file is spared. -/
theorem save_commits (hd : d.IsTree) (hsteady : d.Steady (dir / Layout.descriptorName id))
    (hp : d.Unlinked (dir / Layout.descriptorName id))
    (ht : d.Unlinked (temporary (dir / Layout.descriptorName id))) (x : Descriptor)
    (device : Device) :
    (save (dir / Layout.descriptorName id) x device).Commits
      (Spared d (dir / Layout.descriptorName id)) d fun _ d' => ∃ bytes, x.toBytes = .ok bytes ∧
        Saved d (dir / Layout.descriptorName id) bytes d' := by
  have hname := Layout.isName_descriptorName id
  have hb := FilePath.behind_join dir hname
  have hbt := FilePath.behind_join dir (Layout.isName_temporaryName id)
  rw [← temporary_join] at hbt
  cases hbytes : x.toBytes with
  | error e =>
      rw [save_of_error hbytes]
      exact (DiskTask.Survives.of_error (e := .unwritable e) ⟨rfl, fun he _ => he⟩ rfl).commits
  | ok bytes =>
      rw [save_of_ok hbytes]
      refine .mapError _ (.bind ((makeParent_survives hd hb ?_ hsteady).imp
        (fun d' h => .of_built h hb hname) fun _ _ h => h) fun _ h => ?_)
      · exact ((FilePath.trim_join dir hname).behind (FilePath.parent?_join dir hname)).2
      · exact (replaceFile_commits device h hb hname hbt (Layout.isName_temporaryName id)
          (Layout.temporaryName_ne_descriptorName id) hp ht bytes).imp (fun _ h => h)
          fun _ _ h => ⟨bytes, rfl, h⟩

/-- **Saving a descriptor replaces its file at once**, whatever the device refuses. Whenever it is cut
off before the move, and whenever it fails, the file is as before, and all that was there but for the
temporary name. Behind the move the file is there with all of the new content, and nothing else has
changed but that directories on the way have come to be, and that the temporary name is free. A
descriptor that cannot be written down changes nothing. -/
theorem save_atomic (hd : d.IsTree) (dir : FilePath) (id : ContainerId) (x : Descriptor)
    (device : Device) (hsteady : d.Steady (dir / Layout.descriptorName id))
    (hp : d.Unlinked (dir / Layout.descriptorName id))
    (ht : d.Unlinked (temporary (dir / Layout.descriptorName id))) :
    (∀ ds, DiskChange.CutOff (save (dir / Layout.descriptorName id) x device d).changes ds →
      (Unmoved ds →
        Spared d (dir / Layout.descriptorName id) (DiskChange.applyAll d ds)) ∧
      (Spared d (dir / Layout.descriptorName id) (DiskChange.applyAll d ds) ∨
        ∃ bytes, x.toBytes = .ok bytes ∧
          Saved d (dir / Layout.descriptorName id) bytes (DiskChange.applyAll d ds))) ∧
    (∀ e, (save (dir / Layout.descriptorName id) x device d).result = .error e →
      Spared d (dir / Layout.descriptorName id)
        ((save (dir / Layout.descriptorName id) x device).after d)) ∧
    (∀ e, x.toBytes = .error e →
      (save (dir / Layout.descriptorName id) x device d).changes = []) ∧
    ((save (dir / Layout.descriptorName id) x device d).result = .ok () →
      ∃ bytes, x.toBytes = .ok bytes ∧ Saved d (dir / Layout.descriptorName id) bytes
        ((save (dir / Layout.descriptorName id) x device).after d)) := by
  have hcommits := save_commits hd hsteady hp ht x device
  refine ⟨fun ds hds => ?_, fun e he => hcommits.of_error he, fun e he => ?_, fun hok =>
    hcommits.post hok⟩
  · rcases hcommits.cut hds with hspared | ⟨hall, ⟨source, target, hmove⟩, a, ha⟩
    · exact ⟨fun _ => hspared, .inl hspared⟩
    · refine ⟨fun hunmoved => absurd hmove (hunmoved source target), .inr ?_⟩
      rw [hall]
      exact hcommits.post ha
  · rw [save_of_error he]
    rfl

end

/-! ## A path through a link, and one behind a missing directory -/

/-- A disk with a descriptor of container 5, and with a link to the directory that holds it. -/
def linked : Disk where
  entries := [
    ([], .directory .ofDirectory),
    (["5.container", "v"], .file .ofFile []),
    (["l"], .link "v"),
    (["v"], .directory .ofDirectory)]
  ascending := by decide

/-- The descriptor, by way of the link. -/
def throughLink : FilePath := (⟨"/l/../v"⟩ : FilePath) / Layout.descriptorName 5

/-- A device that takes three bytes, and has no room for more. -/
def fullDevice : Device where
  writeFault _ _ := some (3, .full)

/-- Through a link, and two dots behind it, the descriptor is saved in its place. Where the device has no
room for it, the file is spared, though the directory holds some bytes under the temporary name. -/
theorem save_atomic_linked :
    ((save throughLink (keyValue 5 {}) .sound linked).result = .ok () ∧
      ∃ bytes, (keyValue 5 {}).toBytes = .ok bytes ∧
        Saved linked throughLink bytes ((save throughLink (keyValue 5 {}) .sound).after linked)) ∧
    ((save throughLink (keyValue 5 {}) fullDevice linked).result =
        .error (.disk throughLink .full) ∧
      entry? ((save throughLink (keyValue 5 {}) fullDevice).after linked) ["5.tmp", "v"] =
        some (.file .ofFile [99, 111, 110]) ∧
      Spared linked throughLink ((save throughLink (keyValue 5 {}) fullDevice).after linked)) := by
  have htree : linked.IsTree := IsTree.of_keys (by decide)
  have hsteady : linked.Steady throughLink := by
    unfold Steady
    decide +kernel
  have hname : linked.nameAt? throughLink = some ["5.container", "v"] := by decide +kernel
  have htemporary : linked.nameAt? (temporary throughLink) = some ["5.tmp", "v"] := by
    decide +kernel
  have hp : linked.Unlinked throughLink := by
    intro l hl target
    obtain rfl := Option.some.inj (hname.symm.trans hl)
    simp [show linked.entry? ["5.container", "v"] = some (.file .ofFile []) by decide +kernel]
  have ht : linked.Unlinked (temporary throughLink) := by
    intro l hl target
    obtain rfl := Option.some.inj (htemporary.symm.trans hl)
    simp [show linked.entry? ["5.tmp", "v"] = none by decide +kernel]
  have hok : (save throughLink (keyValue 5 {}) .sound linked).result = .ok () := by decide +kernel
  have hfull : (save throughLink (keyValue 5 {}) fullDevice linked).result =
      .error (.disk throughLink .full) := by decide +kernel
  have hatomic := fun device => save_atomic htree ⟨"/l/../v"⟩ 5 (keyValue 5 {}) device hsteady hp ht
  exact ⟨⟨hok, (hatomic .sound).2.2.2 hok⟩, hfull, by decide +kernel, (hatomic fullDevice).2.1 _ hfull⟩

/-- A disk with a descriptor of container 5, and with a directory under its temporary name. -/
def overlaid : Disk where
  entries := [
    ([], .directory .ofDirectory),
    (["5.container", "v"], .file .ofFile []),
    (["5.tmp", "v"], .directory .ofDirectory),
    (["v"], .directory .ofDirectory)]
  ascending := by decide

/-- The descriptor, behind a directory that is missing. -/
def hidden : FilePath := (⟨"/v/x/.."⟩ : FilePath) / Layout.descriptorName 5

/-- **Saving is not atomic on a path that is not steady**: the missing directory is made, then saving
fails, and there is a file where there was none. -/
theorem save_needs_steady :
    overlaid.IsTree ∧ overlaid.Unlinked hidden ∧ overlaid.Unlinked (temporary hidden) ∧
      (save hidden (keyValue 5 {}) .sound overlaid).result = .error (.disk hidden .isDirectory) ∧
      overlaid.at? hidden = none ∧
      at? ((save hidden (keyValue 5 {}) .sound).after overlaid) hidden = some (.file .ofFile []) := by
  have hfree : overlaid.LinkFree := LinkFree.of_entries fun l target hl => by
    simp [overlaid] at hl
  refine ⟨IsTree.of_keys (by decide), fun l _ => hfree l, fun l _ => hfree l, ?_⟩
  decide +kernel

end Descriptor

end StorageNode
