import StorageNode.Disk.Setup
import StorageNode.Proofs.Disk.Ways

/-!
# Replacing a file where there are links

`Disk.Slot` is a name in the directory that a path's parent arrives in, and which no link bears: what
is done with the path is done there (`Slot.resolve`), and what the path leads to is the entry there
(`Slot.at?_eq`). While a file is drafted under another name in the same directory, nothing but this
other name is touched (`Disk.Drafted`); the move at the end puts the draft in its place at once
(`Slot.replaceFile_commits`).
-/

namespace StorageNode

namespace Disk

open FilePath (Behind IsName)

/-- The entry that a path leads to; none if it leads nowhere. -/
def at? (d : Disk) (p : FilePath) : Option DiskEntry :=
  match d.locate p with
  | .ok l => d.entry? l
  | .error _ => none

/-- A reader finds no file where a path leads to nothing. -/
theorem isFile_of_at?_eq_none {d : Disk} {p : FilePath} (h : d.at? p = none) :
    d.isFile p = false := by
  rw [at?] at h
  rw [isFile]
  cases hl : d.locate p with
  | error e => rfl
  | ok l =>
      rw [hl] at h
      simp only [h]

/-- **A name in the directory that the parent of a path arrives in**, borne by no link. -/
structure Slot (d : Disk) (p q : FilePath) (name : String) (l : Location) : Prop where
  behind : p.Behind q name.toList
  isName : IsName name
  usable : fault? p = none
  arrives : ∃ n, d.passage q = .ok (l, n)
  search : (d.rightsOn l).search = true
  plain : ∀ target, d.entry? (name :: l) ≠ some (.link target)

section

variable {d d' : Disk} {p q t : FilePath} {name temporary : String} {l : Location}

namespace Slot

theorem resolve (h : d.Slot p q name l) (aim : Aim) :
    d.resolve aim p = .ok (.named l name false) := by
  obtain ⟨n, hn⟩ := h.arrives
  have hname : String.ofList name.toList = name := String.ofList_toList
  have hresolve := resolve_name aim h.behind h.usable hn (by rw [hname]; exact h.isName)
    h.search fun target he => absurd he (by rw [hname]; exact h.plain target)
  rwa [hname] at hresolve

theorem nameAt?_eq (h : d.Slot p q name l) : d.nameAt? p = some (name :: l) := by
  rw [nameAt?, h.resolve .name]

/-- **What the path leads to is the entry of the name**, if the name is not too long for any. -/
theorem at?_eq (h : d.Slot p q name l) :
    d.at? p = if nameLimit < name.utf8ByteSize then none else d.entry? (name :: l) := by
  have hresolve := h.resolve .use
  unfold at? locate find
  rw [hresolve]
  by_cases hlong : nameLimit < name.utf8ByteSize
  · simp [hlong]
  · cases he : d.entry? (name :: l) with
    | none => simp [hlong, he]
    | some e => cases e <;> simp [hlong, he]

/-- A slot stays where it is if nothing changes but what is not there, and files. -/
theorem mono {lost : DiskError → Prop} (hd : d.IsTree) (h : d.Slot p q name l)
    (halike : d.Alike lost d') (hplain : ∀ target, d'.entry? (name :: l) ≠ some (.link target)) :
    d'.Slot p q name l where
  behind := h.behind
  isName := h.isName
  usable := h.usable
  arrives := by
    obtain ⟨n, hn⟩ := h.arrives
    exact ⟨n, passage_mono hd halike hn⟩
  search := by
    obtain ⟨r, hr, hs⟩ := exists_of_search h.search
    rw [rightsOn_eq (halike.directory hr), hs]
  plain := hplain

end Slot

/-- A name that nothing bears leads nowhere. -/
theorem at?_of_vacant {n : Nat} (h : p.Behind q name.toList) (hname : IsName name)
    (hq : d.passage q = .ok (l, n)) (he : d.entry? (name :: l) = none) : d.at? p = none := by
  have hofList : String.ofList name.toList = name := String.ofList_toList
  cases named_of_behind d h with
  | error h _ => simp [at?, locate, h]
  | dots hx _ =>
      rcases hx with hx | hx
      · exact absurd (String.toList_inj.mp hx) hname.ne_dot
      · exact absurd (String.toList_inj.mp hx) hname.ne_dots
  | @name k hf hk _ hs _ =>
      obtain ⟨n', hn'⟩ := hk
      obtain ⟨rfl, -⟩ := Prod.mk.inj (Except.ok.inj (hq.symm.trans hn'))
      have hslot : d.Slot p q name l := ⟨h, hname, hf, ⟨n, hq⟩, hs, fun target => by simp [he]⟩
      rw [hslot.at?_eq, he]
      split <;> rfl

/-- A path whose parent arrives nowhere leads nowhere. -/
theorem at?_of_passage_error {x : List Char} (h : p.Behind q x) (hq : ∀ a, d.passage q ≠ .ok a) :
    d.at? p = none := by
  have hlocate : ∃ e, d.locate p = .error e := by
    rw [locate_eq, resolve_behind h]
    cases fault? p with
    | some e => exact ⟨e, rfl⟩
    | none =>
        cases hp : d.passage q with
        | error e => exact ⟨e, rfl⟩
        | ok a => exact absurd hp (hq a)
  obtain ⟨e, he⟩ := hlocate
  rw [at?, he]

/-- A path that cannot be used leads nowhere. -/
theorem at?_of_fault {e : DiskError} (hf : fault? p = some e) : d.at? p = none := by
  rw [at?, locate, resolve_of_fault hf]

/-- A name in a directory that is still there leads to the same entry, if that stays. -/
theorem at?_of_kept (hd : d.LinkFree) (hd' : d'.LinkFree) (hkeep : d.Keeps d') (h : IsName name)
    (hreach : d.reach p = .ok l) (hdir : ∃ r, d.entry? l = some (.directory r))
    (hentry : d'.entry? (name :: l) = d.entry? (name :: l)) :
    d'.at? (p / name) = d.at? (p / name) := by
  obtain ⟨r, hr⟩ := hdir
  have hrights : d'.rightsOn l = d.rightsOn l := by
    rw [rightsOn_eq hr, rightsOn_eq (hkeep _ _ hr)]
  have hlookUp : d'.lookUp l name = d.lookUp l name := by
    simp only [lookUp, find, hrights, hentry]
  have hlocate : d'.locate (p / name) = d.locate (p / name) := by
    rw [locate_join hd' p h, locate_join hd p h, reach_mono hkeep hreach, hreach]
    cases fault? (p / name) with
    | some e => rfl
    | none => exact hlookUp
  rw [at?, at?, hlocate]
  cases hk : d.locate (p / name) with
  | error e => rfl
  | ok k =>
      rw [locate_join hd p h, hreach] at hk
      cases hf : fault? (p / name) with
      | some e => simp [hf] at hk
      | none =>
          simp only [hf, Except.bind, lookUp] at hk
          split at hk
          · simp at hk
          cases hfind : d.find l name with
          | error e => simp [hfind] at hk
          | ok o =>
              cases o with
              | none => simp [hfind] at hk
              | some e =>
                  obtain rfl : name :: l = k := by simpa [hfind] using hk
                  exact hentry

/-! ## Drafting a file -/

/-- What is done to a file before it is moved. -/
inductive DraftStep (l : Location) (name : String) (d : Disk) : DiskChange → Prop
  | makeFile (hv : d.Vacant name l) : DraftStep l name d (.makeFile (name :: l))
  | truncate : DraftStep l name d (.truncate (name :: l))
  | append (bytes : Bytes) : DraftStep l name d (.append (name :: l) bytes)
  | sync : DraftStep l name d (.sync (name :: l))

/-- There is a file, or nothing. -/
def Loose (d : Disk) (k : Location) : Prop :=
  d.entry? k = none ∨ ∃ r content, d.entry? k = some (.file r content)

/-- **Nothing is touched but one place**, which has held a file or nothing, and holds a file if it is
touched. -/
structure Drafted (d : Disk) (k : Location) (d' : Disk) : Prop where
  tree : d'.IsTree
  off : ∀ {m}, m ≠ k → d'.entry? m = d.entry? m
  on : d'.entry? k = d.entry? k ∨ (d.Loose k ∧ ∃ r content, d'.entry? k = some (.file r content))

theorem DraftStep.sound {c : DiskChange} : DraftStep l name d c → d.Sound c
  | .makeFile hv => .makeFile hv
  | .truncate => .truncate _
  | .append bytes => .append _ bytes
  | .sync => .sync _

theorem DraftStep.places_eq {c : DiskChange} (h : DraftStep l name d c) : c.places = [name :: l] := by
  cases h <;> rfl

theorem Drafted.refl (hd : d.IsTree) (k : Location) : d.Drafted k d := ⟨hd, fun _ => rfl, .inl rfl⟩

/-- A step leaves its place as it is, or a file there, where there was a file or nothing. -/
theorem DraftStep.entry?_apply {c : DiskChange} (h : DraftStep l name d c) :
    entry? (c.apply d) (name :: l) = d.entry? (name :: l) ∨
      (d.Loose (name :: l) ∧
        ∃ r content, entry? (c.apply d) (name :: l) = some (.file r content)) := by
  cases h with
  | makeFile hv => exact .inr ⟨.inl hv.empty, .ofFile, [], by simp [DiskChange.apply]⟩
  | sync => exact .inl rfl
  | truncate | append =>
      simp only [DiskChange.apply]
      split
      · next r content he => exact .inr ⟨.inr ⟨r, content, he⟩, r, _, by simp; rfl⟩
      · exact .inl rfl

/-- **Drafting goes on.** -/
theorem Drafted.apply {c : DiskChange} (h : d.Drafted (name :: l) d')
    (hc : DraftStep l name d' c) : d.Drafted (name :: l) (c.apply d') where
  tree := h.tree.apply hc.sound
  off := fun {m} hm => by
    rw [entry?_apply_of_not_mem (by simpa [hc.places_eq] using hm)]
    exact h.off hm
  on := by
    rcases hc.entry?_apply with heq | ⟨hloose, hfile⟩
    · rw [heq]
      exact h.on
    · refine .inr ⟨?_, hfile⟩
      rcases h.on with heq | ⟨hd, -⟩
      · unfold Loose at hloose ⊢
        rwa [heq] at hloose
      · exact hd

theorem Drafted.alike {k : Location} (h : d.Drafted k d') : d.Alike (fun _ => True) d' := by
  intro m
  by_cases hm : m = k
  · subst hm
    rcases h.on with heq | ⟨hnone | hfile, -⟩
    · exact .inl heq
    · exact .inr (.inl ⟨hnone, trivial⟩)
    · exact .inr (.inr ⟨hfile, trivial⟩)
  · exact .inl (h.off hm)

/-- No link comes to be. -/
theorem Drafted.not_link {k m : Location} (h : d.Drafted k d') {target : String}
    (hm : d.entry? m ≠ some (.link target)) : d'.entry? m ≠ some (.link target) := by
  by_cases hmk : m = k
  · subst hmk
    rcases h.on with heq | ⟨-, r, content, hfile⟩
    · rwa [heq]
    · simp [hfile]
  · rwa [h.off hmk]

theorem Slot.drafted {k : Location} (hd : d.IsTree) (h : d.Slot p q name l) (hk : d.Drafted k d') :
    d'.Slot p q name l :=
  h.mono hd hk.alike fun target => hk.not_link (h.plain target)

/-! ## Creating and moving -/

/-- Where a file is opened for writing in a slot: there is one, or nothing. -/
theorem Slot.writable_eq_ok (h : d.Slot p q name l) {k : Location} {isNew : Bool}
    (hw : writable p d = .ok (k, isNew)) :
    k = name :: l ∧ ((isNew = true ∧ d.entry? (name :: l) = none) ∨
      (isNew = false ∧ ∃ r content, d.entry? (name :: l) = some (.file r content))) := by
  obtain ⟨rfl, -, hcase⟩ := writable_of_named (h.resolve .write) hw
  exact ⟨rfl, hcase⟩

/-- **Creating a file** in a slot makes it, or empties it. -/
theorem Slot.createFile_does (h : d.Slot p q name l) :
    (createFile p).Does (DraftStep l name) d fun k d' =>
      k = name :: l ∧ ∃ r, d'.entry? (name :: l) = some (.file r []) := by
  refine (DiskTask.Does.ask (Q := fun a d' => d' = d ∧ writable p d = .ok a)
    fun a ha => ⟨rfl, ha⟩).bind ?_
  rintro ⟨k, isNew⟩ ⟨hafter, hw⟩
  rw [hafter]
  obtain ⟨rfl, ⟨rfl, hnone⟩ | ⟨rfl, r, content, hfile⟩⟩ := h.writable_eq_ok hw
  · show (DiskTask.change (.makeFile (name :: l)) >>= fun _ => DiskTask.pure (name :: l)).Does _ d _
    refine (DiskTask.Does.change (.makeFile (vacant_of_search h.isName h.search hnone))
      (Q := fun _ d' => ∃ r, d'.entry? (name :: l) = some (.file r [])) ?_).bind
      fun _ hnew => .pure ⟨rfl, hnew⟩
    exact ⟨.ofFile, by simp [DiskChange.apply]⟩
  · show (DiskTask.change (.truncate (name :: l)) >>= fun _ => DiskTask.pure (name :: l)).Does _ d _
    refine (DiskTask.Does.change .truncate
      (Q := fun _ d' => ∃ r, d'.entry? (name :: l) = some (.file r [])) ?_).bind
      fun _ hnew => .pure ⟨rfl, hnew⟩
    exact ⟨r, by simp [DiskChange.apply, hfile]⟩

/-- What can be moved from one slot to another in the same directory: over a file, or where nothing
is. -/
theorem Slot.movable_eq_ok (ht : d.Slot t q temporary l) (hp : d.Slot p q name l)
    (hne : temporary ≠ name) {a : Option (Location × Location)} (hm : movable t p d = .ok a) :
    a = some (temporary :: l, name :: l) ∧ name.utf8ByteSize ≤ nameLimit ∧
      ∀ r, d.entry? (name :: l) ≠ some (.directory r) :=
  movable_of_named (ht.resolve .name) (hp.resolve .name) hne hm

/-- **What replacing a file leaves**: the new content under its name, nothing under the temporary one,
and all else as it was. -/
structure Replaced (d : Disk) (p q : FilePath) (name temporary : String) (l : Location)
    (bytes : Bytes) (d' : Disk) : Prop where
  tree : d'.IsTree
  /-- What is replaced was a file, or nothing. -/
  alike : d.Alike (fun _ => True) d'
  slot : d'.Slot p q name l
  short : name.utf8ByteSize ≤ nameLimit
  content : ∃ r, d'.entry? (name :: l) = some (.file r bytes)
  moved : d'.entry? (temporary :: l) = none
  off : ∀ {m}, m ≠ temporary :: l → m ≠ name :: l → d'.entry? m = d.entry? m

/-- Moving a file onto a name that no directory has replaces what is there. -/
theorem Slot.replaced {d₀ : Disk} {bytes : Bytes} {r : Rights} (hslot : d.Slot p q name l)
    (hne : temporary ≠ name) (hdrafted : d₀.Drafted (temporary :: l) d)
    (hfile : d.entry? (temporary :: l) = some (.file r bytes)) (hshort : name.utf8ByteSize ≤ nameLimit)
    (hold : ∀ r, d.entry? (name :: l) ≠ some (.directory r)) :
    d₀.Replaced p q name temporary l bytes
      (DiskChange.apply d (.move (temporary :: l) (name :: l))) := by
  have happly : DiskChange.apply d (.move (temporary :: l) (name :: l)) =
      (d.erase (temporary :: l)).insert (name :: l) (.file r bytes) := by
    simp [DiskChange.apply, hfile]
  have hsound : d.Sound (.move (temporary :: l) (name :: l)) := by
    obtain ⟨rl, hrl, -⟩ := exists_of_search hslot.search
    exact .move hfile hslot.isName ⟨rl, hrl⟩ hold
  have hoff : ∀ {m}, m ≠ temporary :: l → m ≠ name :: l →
      entry? (DiskChange.apply d (.move (temporary :: l) (name :: l))) m = d.entry? m :=
    fun hm₁ hm₂ => entry?_apply_of_not_mem (by simp [DiskChange.places, hm₁, hm₂])
  -- what is overwritten was a file, or nothing
  have halike : d.Alike (fun _ => True) (DiskChange.apply d (.move (temporary :: l) (name :: l))) := by
    intro m
    by_cases hm₁ : m = temporary :: l
    · exact .inr (.inr ⟨⟨r, bytes, hm₁ ▸ hfile⟩, trivial⟩)
    by_cases hm₂ : m = name :: l
    · subst hm₂
      cases he : d.entry? (name :: l) with
      | none => exact .inr (.inl ⟨rfl, trivial⟩)
      | some e =>
          cases e with
          | file r' content => exact .inr (.inr ⟨⟨r', content, rfl⟩, trivial⟩)
          | directory r' => exact absurd he (hold r')
          | link target => exact absurd he (hslot.plain target)
    · exact .inl (hoff hm₁ hm₂)
  exact {
    tree := hdrafted.tree.apply hsound
    alike := hdrafted.alike.trans halike
    slot := hslot.mono hdrafted.tree halike fun target => by simp [happly]
    short := hshort
    content := ⟨r, by simp [happly]⟩
    moved := by simp [happly, hne]
    off := fun hm₁ hm₂ => (hoff hm₁ hm₂).trans (hdrafted.off hm₁) }

/-- **The move commits.** -/
theorem Slot.move_commits {d₀ : Disk} {bytes : Bytes} {r : Rights}
    (ht : d.Slot t q temporary l) (hp : fault? p = none → d.Slot p q name l)
    (hne : temporary ≠ name) (hdrafted : d₀.Drafted (temporary :: l) d)
    (hfile : d.entry? (temporary :: l) = some (.file r bytes)) :
    (move t p).Commits (d₀.Drafted (temporary :: l)) d fun _ d' =>
      d₀.Replaced p q name temporary l bytes d' := by
  refine .bind (Q := fun a d' => d' = d ∧ movable t p d = .ok a)
    ⟨fun hds => ?_, fun ha => ⟨rfl, ha⟩⟩ ?_
  · rw [DiskChange.CutOff.eq_nil hds]
    exact hdrafted
  rintro a ⟨hafter, hm⟩
  rw [hafter]
  cases hf : fault? p with
  | some e => simp [movable, ht.resolve .name, resolve_of_fault hf] at hm
  | none =>
      obtain ⟨rfl, hshort, hold⟩ := ht.movable_eq_ok (hp hf) hne hm
      exact .move hdrafted ((hp hf).replaced hne hdrafted hfile hshort hold)

/-- **Replacing a file** touches nothing but the temporary one before the move, and then the new
content is there at once. -/
theorem Slot.replaceFile_commits (device : Device) (hd : d.IsTree) (ht : d.Slot t q temporary l)
    (hp : fault? p = none → d.Slot p q name l) (hne : temporary ≠ name) (bytes : Bytes) :
    (replaceFile device t p bytes).Commits (d.Drafted (temporary :: l)) d fun _ d' =>
      d.Replaced p q name temporary l bytes d' := by
  have hpart : ∀ (d : Disk) (k : Location) (part rest : Bytes),
      DraftStep l temporary d (.append k (part ++ rest)) →
      DraftStep l temporary d (.append k part) := by
    rintro d k part rest ⟨⟩
    exact .append part
  have hstep : ∀ (d' : Disk) (c : DiskChange), d.Drafted (temporary :: l) d' →
      DraftStep l temporary d' c → d.Drafted (temporary :: l) (c.apply d') :=
    fun _ _ h hc => h.apply hc
  refine .bind (ht.createFile_does.survives (.refl hd _) hpart hstep) ?_
  rintro k ⟨⟨rfl, r, hempty⟩, hdrafted⟩
  generalize (createFile t).after d = d₁ at hempty hdrafted
  have hwrite : (writeBytes device (temporary :: l) bytes).Does
      (DraftStep l temporary) d₁ fun _ d' =>
        d'.entry? (temporary :: l) = some (.file r bytes) :=
    writeBytes_does device .append (by simp [DiskChange.apply, hempty])
  have hfinish : ∀ d₂ : Disk, d.Drafted (temporary :: l) d₂ →
      d₂.entry? (temporary :: l) = some (.file r bytes) →
      (syncFile device (temporary :: l) >>= fun _ => move t p).Commits
        (d.Drafted (temporary :: l)) d₂ fun _ d' =>
          d.Replaced p q name temporary l bytes d' := by
    intro d₂ hdrafted₂ hfile
    have hsync : (syncFile device (temporary :: l)).Does
        (DraftStep l temporary) d₂ fun _ d' => d' = d₂ := syncFile_does device .sync rfl
    refine .bind (hsync.survives hdrafted₂ hpart hstep) ?_
    rintro - ⟨hafter, -⟩
    rw [hafter]
    exact (ht.drafted hd hdrafted₂).move_commits (fun hf => (hp hf).drafted hd hdrafted₂) hne
      hdrafted₂ hfile
  by_cases hbytes : bytes = []
  · subst hbytes
    exact hfinish d₁ hdrafted hempty
  · simp only [ne_eq, hbytes, not_false_eq_true, if_true]
    exact .bind (hwrite.survives hdrafted hpart hstep) fun _ h => hfinish _ h.2 h.1

/-- Where the parent arrives nowhere, or may not be searched, no file is created. -/
theorem createFile_of_error {e : DiskError} (h : d.resolve .write p = .error e) :
    createFile p d = ⟨[], .error e⟩ :=
  DiskTask.bind_of_error (t := DiskTask.ask (writable p)) (by
    show writable p d = _
    rw [writable, h])

/-- Replacing a file fails at once, or the temporary one is looked for in the directory that its parent
arrives in. -/
theorem replaceFile_cases (device : Device) (ht : t.Behind q temporary.toList)
    (hname : IsName temporary) (d : Disk) (p : FilePath) (bytes : Bytes) :
    (∃ e, replaceFile device t p bytes d = ⟨[], .error e⟩) ∨
      ∃ l, fault? t = none ∧ (∃ n, d.passage q = .ok (l, n)) ∧ (d.rightsOn l).search = true := by
  cases named_of_behind d ht with
  | @error e he _ =>
      have hcreate := createFile_of_error (he .write)
      exact .inl ⟨e, by rw [replaceFile, DiskTask.bind_of_error (by rw [hcreate]), hcreate]⟩
  | dots hx _ =>
      rcases hx with hx | hx
      · exact absurd (String.toList_inj.mp hx) hname.ne_dot
      · exact absurd (String.toList_inj.mp hx) hname.ne_dots
  | @name l hf hq _ hs _ => exact .inr ⟨l, hf, hq, hs⟩

end

end Disk

end StorageNode
