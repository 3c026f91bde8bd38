import StorageNode.Container.Loading
import StorageNode.Proofs.Layout

/-!
# What becomes of a container directory

`Loading.Decided` lists the ways an attempt to load a container can end, one constructor for each
condition that may fail and one for success, each with the conditions before it, in the words of the
disk and of the descriptor alone. The steps of the reader, which checks paths twice and derives them
anew from the descriptor's file, come to the same for every catalog, and to nothing else
(`Loading.decided_iff`).

The derived paths are those that were checked because a container directory is found by its name
(`ContainerPaths.ofDescriptor?_ofDirectory`).
-/

namespace StorageNode

/-- A check that comes to a verdict on every container. -/
def StructureCheck.NeverCrashes (check : StructureCheck) : Prop :=
  ∀ v d settings paths, check v d settings paths ≠ .crashed

/-- The check for the index file comes to a verdict. -/
theorem StructureCheck.neverCrashes_indexFile : StructureCheck.indexFile.NeverCrashes := by
  intro v d settings paths
  unfold StructureCheck.indexFile
  split <;> exact Verdict.noConfusion

/-! ## The catalog with one entry more -/

/-- The second catalog has one entry more than the first: this container, under its number. -/
structure Catalog.Gains (c : Catalog) (x : Container) (c' : Catalog) : Prop where
  /-- The number was not taken. -/
  vacant : c.get? x.id = none
  entries : ∀ id, c'.get? id = if id = x.id then some x else c.get? id

/-- Catalogs in which the same is found are equal. -/
theorem Catalog.ext_get? {c d : Catalog} (h : ∀ id, c.get? id = d.get? id) : c = d := by
  obtain ⟨m⟩ := c
  obtain ⟨n⟩ := d
  exact congrArg Catalog.mk (SortedMap.ext_get? h)

theorem Catalog.Gains.unique {c d d' : Catalog} {x : Container} (h : c.Gains x d)
    (h' : c.Gains x d') : d = d' :=
  Catalog.ext_get? fun id => by rw [h.entries id, h'.entries id]

/-- The new entry. -/
theorem Catalog.Gains.get?_self {c c' : Catalog} {x : Container} (h : c.Gains x c') :
    c'.get? x.id = some x := by
  rw [h.entries, if_pos rfl]

theorem Catalog.Gains.get?_of_ne {c c' : Catalog} {x : Container} (h : c.Gains x c')
    {id : ContainerId} (hne : id ≠ x.id) : c'.get? id = c.get? id := by
  rw [h.entries, if_neg hne]

/-- What was in the catalog stays. -/
theorem Catalog.Gains.get?_of_some {c c' : Catalog} {x y : Container} (h : c.Gains x c')
    {id : ContainerId} (hy : c.get? id = some y) : c'.get? id = some y := by
  have hne : id ≠ x.id := by
    rintro rfl
    exact absurd (h.vacant.symm.trans hy) (by simp)
  rw [h.get?_of_ne hne, hy]

/-- A container whose number is taken is refused, and the catalog stays. -/
theorem Catalog.admit_of_some {c : Catalog} {x old : Container} (h : c.get? x.id = some old) :
    c.admit (.loaded x) = (.skipped (.duplicate ⟨x.id, old.volume, x.volume⟩), c, []) := by
  simp [h, Catalog.admit, Catalog.insert]

/-- A container whose number is not taken is the one entry more. -/
theorem Catalog.admit_of_none {c : Catalog} {x : Container} (h : c.get? x.id = none) :
    ∃ c', c.admit (.loaded x) = (.loaded x, c', [Catalog.inserted x]) ∧ c.Gains x c' := by
  refine ⟨⟨c.containers.insert x.id x⟩, by simp [h, Catalog.admit, Catalog.insert], h,
    fun id => ?_⟩
  exact SortedMap.get?_insert _ _ _ _

/-- The catalog crashes no attempt. -/
theorem Catalog.admit_ne_crashed {c c' : Catalog} {a b : Attempt} {es : List Event}
    (h : a ≠ .crashed) (hanswer : c.admit a = (b, c', es)) : b ≠ .crashed := by
  cases a with
  | crashed => exact absurd rfl h
  | skipped cause =>
      obtain ⟨rfl, -⟩ := Prod.mk.inj hanswer
      exact Attempt.noConfusion
  | loaded x =>
      cases hold : c.get? x.id with
      | some old =>
          obtain ⟨rfl, -⟩ := Prod.mk.inj ((Catalog.admit_of_some hold).symm.trans hanswer)
          exact Attempt.noConfusion
      | none =>
          obtain ⟨d, htakes, -⟩ := Catalog.admit_of_none hold
          obtain ⟨rfl, -⟩ := Prod.mk.inj (htakes.symm.trans hanswer)
          exact Attempt.noConfusion

namespace Loading

/-! ## The conditions, in their order -/

section

variable (l : Loading) (dir : FilePath) (id : ContainerId)

/-- The metadata directory and the descriptor file are there. -/
structure Found : Prop where
  metadata : l.view.isDirectory (dir / "metadata") = true
  descriptor : l.view.isFile (dir / "metadata" / Layout.descriptorName id) = true

/-- The descriptor can be read, and is the container's own. -/
structure Parsed (d : Descriptor) : Prop where
  found : l.Found dir id
  load : Descriptor.load l.view (dir / "metadata" / Layout.descriptorName id) = .ok d
  own : d.id = id

/-- The container is of the supported type, and its payload holds the settings of that type. -/
structure Typed (d : Descriptor) (settings : ContainerSettings) : Prop where
  parsed : l.Parsed dir id d
  supported : d.kind = .keyValue
  projected : d.settings? = .ok settings

/-- All conditions before the structure check are met, and the check crashes. -/
def Crashes : Prop :=
  ∃ d settings, l.Typed dir id d settings ∧
    l.check l.view d settings (.ofDirectory dir id) = .crashed

/-- The container that a descriptor describes in a directory. -/
def described (d : Descriptor) (settings : ContainerSettings) : Container where
  id := id
  layoutVersion := d.layoutVersion
  state := d.state
  metadata := d.metadata
  settings := settings
  paths := .ofDirectory dir id
  volume := l.volume

/-- **How an attempt to load a container ends**, by the first condition that fails, and the catalog
behind it. -/
inductive Decided (c : Catalog) : Attempt → Catalog → Prop
  | missingMetadata (h : l.view.isDirectory (dir / "metadata") = false) :
      Decided c (.skipped (.missingMetadata id (dir / "metadata"))) c
  | missingDescriptor (hm : l.view.isDirectory (dir / "metadata") = true)
      (h : l.view.isFile (dir / "metadata" / Layout.descriptorName id) = false) :
      Decided c (.skipped
        (.missingDescriptor id (dir / "metadata" / Layout.descriptorName id))) c
  | unreadable {e : Descriptor.Error} (hf : l.Found dir id)
      (h : Descriptor.load l.view (dir / "metadata" / Layout.descriptorName id) = .error e) :
      Decided c (.skipped (.descriptor id e)) c
  | foreign {d : Descriptor} (hf : l.Found dir id)
      (hl : Descriptor.load l.view (dir / "metadata" / Layout.descriptorName id) = .ok d)
      (h : d.id ≠ id) :
      Decided c (.skipped
        (.idMismatch id d.id (dir / "metadata" / Layout.descriptorName id))) c
  | unsupported {d : Descriptor} (hp : l.Parsed dir id d) (h : d.kind ≠ .keyValue) :
      Decided c (.skipped (.unsupportedKind id d.kind.tag)) c
  | payload {d : Descriptor} {m : Mismatch} (hp : l.Parsed dir id d)
      (hk : d.kind = .keyValue) (h : d.settings? = .error m) :
      Decided c (.skipped (.payloadMismatch id ContainerKind.keyValue.tag m)) c
  | structure {d : Descriptor} {settings : ContainerSettings} {fault : StructureFault}
      (ht : l.Typed dir id d settings)
      (h : l.check l.view d settings (.ofDirectory dir id) = .refused fault) :
      Decided c (.skipped (.badStructure id fault)) c
  | duplicate {d : Descriptor} {settings : ContainerSettings} {old : Container}
      (ht : l.Typed dir id d settings)
      (ha : l.check l.view d settings (.ofDirectory dir id) = .accepted)
      (h : c.get? id = some old) :
      Decided c (.skipped (.duplicate ⟨id, old.volume, l.volume⟩)) c
  | loaded {d : Descriptor} {settings : ContainerSettings} {c' : Catalog}
      (ht : l.Typed dir id d settings)
      (ha : l.check l.view d settings (.ofDirectory dir id) = .accepted)
      (h : c.Gains (l.described dir id d settings) c') :
      Decided c (.loaded (l.described dir id d settings)) c'

end

/-- The catalog gains the container that is loaded, and stays if none is. -/
theorem Decided.gains_or_eq {l : Loading} {dir : FilePath} {id : ContainerId} {c c' : Catalog}
    {a : Attempt} (h : l.Decided dir id c a c') :
    (∃ x, a = .loaded x ∧ x.id = id ∧ x.volume = l.volume ∧ c.Gains x c') ∨
      (∃ cause, a = .skipped cause ∧ c' = c) := by
  cases h with
  | loaded ht ha hg => exact .inl ⟨_, rfl, rfl, rfl, hg⟩
  | _ => exact .inr ⟨_, rfl, rfl⟩

/-- Other numbers keep what they have. -/
theorem Decided.get?_of_ne {l : Loading} {dir : FilePath} {id n : ContainerId} {c c' : Catalog}
    {a : Attempt} (h : l.Decided dir id c a c') (hne : n ≠ id) : c'.get? n = c.get? n := by
  rcases h.gains_or_eq with ⟨x, -, rfl, -, hg⟩ | ⟨-, -, rfl⟩
  · exact hg.get?_of_ne hne
  · rfl

/-! ## What an attempt is about -/

/-- **What an attempt under a number can come to**: a crash is one of the structure check, and what is
loaded has the number and is on the volume. -/
inductive Tried (l : Loading) (id : ContainerId) : Attempt → Prop
  | skipped (cause : LoadError) : Tried l id (.skipped cause)
  | crashed {d : Descriptor} {settings : ContainerSettings} {paths : ContainerPaths}
      (h : l.check l.view d settings paths = .crashed) : Tried l id .crashed
  | loaded {x : Container} (hid : x.id = id) (hvolume : x.volume = l.volume) :
      Tried l id (.loaded x)

theorem tried_validate (l : Loading) (d : Descriptor) (paths : ContainerPaths) :
    l.Tried d.id (l.validate d paths) := by
  unfold validate
  split
  · exact .skipped _
  split
  · exact .skipped _
  next settings _ =>
  split
  · exact .skipped _
  · next hcheck => exact .crashed hcheck
  · exact .loaded rfl rfl

theorem tried_examineFile (l : Loading) (id : ContainerId) (file : FilePath) :
    l.Tried id (l.examineFile id file) := by
  unfold examineFile
  split
  · exact .skipped _
  next d _ =>
  split
  · exact .skipped _
  next hown =>
  split
  · exact .skipped _
  · obtain rfl : d.id = id := Decidable.of_not_not hown
    exact tried_validate l d _

/-- An attempt from any directory comes to one of these. -/
theorem tried_examine (l : Loading) (id : ContainerId) (dir : FilePath) :
    l.Tried id (l.examine id dir) := by
  simp only [examine]
  split
  · exact .skipped _
  split
  · exact .skipped _
  · exact tried_examineFile l id _

/-- What is loaded has the number that it is loaded for, and is on the volume. -/
theorem loaded_of_examine {l : Loading} {id : ContainerId} {dir : FilePath} {x : Container}
    (h : l.examine id dir = .loaded x) : x.id = id ∧ x.volume = l.volume := by
  have htried := tried_examine l id dir
  rw [h] at htried
  cases htried with
  | loaded hid hvolume => exact ⟨hid, hvolume⟩

/-- A check that comes to a verdict crashes no attempt. -/
theorem examine_ne_crashed {l : Loading} (hcheck : l.check.NeverCrashes) (id : ContainerId)
    (dir : FilePath) : l.examine id dir ≠ .crashed := by
  intro h
  have htried := tried_examine l id dir
  rw [h] at htried
  cases htried with
  | crashed hcrash => exact hcheck _ _ _ _ hcrash

/-! ## What the steps of the reader come to -/

section

variable {l : Loading} {parent : FilePath} {name : String} {id : ContainerId}

/-- With both files there, the reader goes on to the descriptor. -/
theorem examine_of_found {dir : FilePath} (h : l.Found dir id) :
    l.examine id dir = l.examineFile id (dir / "metadata" / Layout.descriptorName id) := by
  simp [examine, ContainerPaths.ofDirectory, h.metadata, h.descriptor]

/-- With its own descriptor parsed, the container is validated at the paths of its directory: those
derived from the descriptor's file are the same, since the directory is found by its name. -/
theorem examine_of_parsed (hname : FilePath.IsName name) {d : Descriptor}
    (h : l.Parsed (parent / name) id d) :
    l.examine id (parent / name) = l.validate d (.ofDirectory (parent / name) id) := by
  have hpaths := ContainerPaths.ofDescriptor?_ofDirectory parent hname id
  rw [examine_of_found h.found]
  simp only [ContainerPaths.ofDirectory] at hpaths ⊢
  simp only [examineFile, h.load, h.own, ne_eq, not_true_eq_false, if_false, hpaths]

/-- With its settings projected, the structure check has the say. -/
theorem examine_of_typed (hname : FilePath.IsName name) {d : Descriptor}
    {settings : ContainerSettings} (h : l.Typed (parent / name) id d settings) :
    l.examine id (parent / name) =
      match l.check l.view d settings (.ofDirectory (parent / name) id) with
      | .refused fault => .skipped (.badStructure id fault)
      | .crashed => .crashed
      | .accepted => .loaded (l.described (parent / name) id d settings) := by
  obtain rfl := h.parsed.own
  rw [examine_of_parsed hname h.parsed]
  simp only [validate, ContainerKind.isSupported, h.supported, h.projected]
  rfl

/-! ## The reader decides by the first condition that fails -/

/-- An attempt to load the container with a number from a directory: its outcome, and the catalog
behind it. -/
def attempt (l : Loading) (c : Catalog) (id : ContainerId) (dir : FilePath) : Attempt × Catalog :=
  let (a, c', _) := c.admit (l.examine id dir)
  (a, c')

/-- With a check that comes to a verdict, no attempt crashes. -/
theorem attempt_ne_crashed (hcheck : l.check.NeverCrashes) (c : Catalog) (id : ContainerId)
    (dir : FilePath) : (l.attempt c id dir).1 ≠ .crashed :=
  Catalog.admit_ne_crashed (examine_ne_crashed hcheck id dir) rfl

/-- What is not loaded leaves the catalog alone. -/
theorem attempt_of_skipped {c : Catalog} {dir : FilePath} {cause : LoadError}
    (h : l.examine id dir = .skipped cause) : l.attempt c id dir = (.skipped cause, c) := by
  simp [attempt, h, Catalog.admit]

/-- An outcome that is decided is the one the reader comes to. -/
theorem attempt_of_decided (hname : FilePath.IsName name) {c c' : Catalog} {a : Attempt}
    (h : l.Decided (parent / name) id c a c') : l.attempt c id (parent / name) = (a, c') := by
  cases h with
  | missingMetadata h =>
      exact attempt_of_skipped (by simp [examine, ContainerPaths.ofDirectory, h])
  | missingDescriptor hm h =>
      exact attempt_of_skipped (by simp [examine, ContainerPaths.ofDirectory, hm, h])
  | unreadable hf h =>
      exact attempt_of_skipped (by simp [examine_of_found hf, examineFile, h])
  | foreign hf hl h =>
      exact attempt_of_skipped (by simp [examine_of_found hf, examineFile, hl, h])
  | unsupported hp h =>
      exact attempt_of_skipped (by
        simp [examine_of_parsed hname hp, validate, ContainerKind.isSupported, h, hp.own])
  | payload hp hk h =>
      exact attempt_of_skipped (by
        simp [examine_of_parsed hname hp, validate, ContainerKind.isSupported, hk, h, hp.own])
  | «structure» ht h => exact attempt_of_skipped (by rw [examine_of_typed hname ht, h])
  | @duplicate d settings _ ht ha h =>
      have hi := Catalog.admit_of_some (x := l.described (parent / name) id d settings) h
      simp only [attempt, examine_of_typed hname ht, ha, hi]
      rfl
  | loaded ht ha hg =>
      obtain ⟨c₁, hi, hg₁⟩ := Catalog.admit_of_none hg.vacant
      simp only [attempt, examine_of_typed hname ht, ha, hi, hg₁.unique hg]

/-- Where all conditions hold and the number is not taken, the container is loaded. -/
theorem Decided.eq_loaded (hname : FilePath.IsName name) {d : Descriptor}
    {settings : ContainerSettings} {c c' : Catalog} {a : Attempt}
    (ht : l.Typed (parent / name) id d settings)
    (ha : l.check l.view d settings (.ofDirectory (parent / name) id) = .accepted)
    (hc : c.get? id = none) (h : l.Decided (parent / name) id c a c') :
    a = .loaded (l.described (parent / name) id d settings) ∧
      c.Gains (l.described (parent / name) id d settings) c' := by
  obtain ⟨c₁, -, hg⟩ := Catalog.admit_of_none (x := l.described (parent / name) id d settings) hc
  obtain ⟨rfl, rfl⟩ := Prod.mk.inj
    ((attempt_of_decided hname h).symm.trans (attempt_of_decided hname (.loaded ht ha hg)))
  exact ⟨rfl, hg⟩

/-- Where the check crashes, so does the reader. -/
theorem examine_of_crashes (hname : FilePath.IsName name) (h : l.Crashes (parent / name) id) :
    l.examine id (parent / name) = .crashed := by
  obtain ⟨d, settings, ht, hc⟩ := h
  rw [examine_of_typed hname ht, hc]

/-- Behind the type, the outcome is that of the check, and of the catalog if the check accepts. -/
theorem decided_or_crashes_of_typed {dir : FilePath} {d : Descriptor} {settings : ContainerSettings}
    (ht : l.Typed dir id d settings) (c : Catalog) :
    (∃ a c', l.Decided dir id c a c') ∨ l.Crashes dir id := by
  cases hc : l.check l.view d settings (.ofDirectory dir id) with
  | crashed => exact .inr ⟨d, settings, ht, hc⟩
  | refused fault => exact .inl ⟨_, _, .structure ht hc⟩
  | accepted =>
      cases hold : c.get? id with
      | some old => exact .inl ⟨_, _, .duplicate ht hc hold⟩
      | none =>
          obtain ⟨c', -, hg⟩ := Catalog.admit_of_none (x := l.described dir id d settings) hold
          exact .inl ⟨_, c', .loaded ht hc hg⟩

/-- Some outcome is decided, whatever the disk holds, or the check crashes. -/
theorem decided_or_crashes (dir : FilePath) (id : ContainerId) (c : Catalog) :
    (∃ a c', l.Decided dir id c a c') ∨ l.Crashes dir id := by
  cases hm : l.view.isDirectory (dir / "metadata") with
  | false => exact .inl ⟨_, _, .missingMetadata hm⟩
  | true =>
  cases hd : l.view.isFile (dir / "metadata" / Layout.descriptorName id) with
  | false => exact .inl ⟨_, _, .missingDescriptor hm hd⟩
  | true =>
  have hf : l.Found dir id := ⟨hm, hd⟩
  cases hl : Descriptor.load l.view (dir / "metadata" / Layout.descriptorName id) with
  | error e => exact .inl ⟨_, _, .unreadable hf hl⟩
  | ok d =>
  by_cases hown : d.id = id
  case neg => exact .inl ⟨_, _, .foreign hf hl hown⟩
  have hp : l.Parsed dir id d := ⟨hf, hl, hown⟩
  by_cases hk : d.kind = .keyValue
  case neg => exact .inl ⟨_, _, .unsupported hp hk⟩
  cases hs : d.settings? with
  | error m => exact .inl ⟨_, _, .payload hp hk hs⟩
  | ok settings => exact decided_or_crashes_of_typed ⟨hp, hk, hs⟩ c

/-- With a check that comes to a verdict, some outcome is decided. -/
theorem exists_decided (hcheck : l.check.NeverCrashes) (dir : FilePath) (id : ContainerId)
    (c : Catalog) : ∃ a c', l.Decided dir id c a c' := by
  rcases decided_or_crashes (l := l) dir id c with hd | ⟨d, settings, -, hc⟩
  · exact hd
  · exact absurd hc (hcheck _ _ _ _)

/-- **The reader decides by the first condition that fails**: its outcome and the catalog behind it
are the ones decided, and no others are. -/
theorem decided_iff (hcheck : l.check.NeverCrashes) (hname : FilePath.IsName name)
    {c c' : Catalog} {a : Attempt} :
    l.Decided (parent / name) id c a c' ↔ l.attempt c id (parent / name) = (a, c') := by
  refine ⟨attempt_of_decided hname, fun h => ?_⟩
  obtain ⟨b, k, hd⟩ := exists_decided hcheck (parent / name) id c
  obtain ⟨rfl, rfl⟩ := Prod.mk.inj ((attempt_of_decided hname hd).symm.trans h)
  exact hd

end

end Loading

end StorageNode
