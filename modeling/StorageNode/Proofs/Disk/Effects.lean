import StorageNode.Proofs.Disk.Descent

/-!
# What tasks do to a disk

`DiskTask.Does R t d Q` says of a task on a disk that each change it makes is one that `R` allows, and
that its result, if it comes to one, satisfies `Q` on the disk it leaves. It says this of tasks that
fail half way, too: their changes are of the same kind. The rules follow the way tasks are put
together (`Does.bind`), and the specifications below are about paths that end in a name, on trees
without links.
-/

namespace StorageNode

namespace DiskTask

/-- The task makes changes of one kind only, and a result is as it should be. -/
structure Does {ε α : Type} (R : Disk → DiskChange → Prop) (t : DiskTask ε α) (d : Disk)
    (Q : α → Disk → Prop) : Prop where
  run : DiskChange.Run R d (t d).changes
  post : ∀ {a}, (t d).result = .ok a → Q a (t.after d)

section

variable {ε ε' α β : Type} {R : Disk → DiskChange → Prop} {d : Disk} {t : DiskTask ε α}
  {Q : α → Disk → Prop}

/-- What a task does to a disk is decided by what it makes of that disk. -/
theorem Does.of_eq {t' : DiskTask ε α} (h : t'.Does R d Q) (heq : t d = t' d) : t.Does R d Q where
  run := heq ▸ h.run
  post := fun {a} ha => by
    rw [DiskTask.after, heq]
    exact h.post (heq ▸ ha)

theorem Does.pure {a : α} (h : Q a d) : (DiskTask.pure a : DiskTask ε α).Does R d Q where
  run := .nil d
  post := by
    rintro _ ⟨⟩
    exact h

theorem Does.fail (e : ε) : (DiskTask.fail e : DiskTask ε α).Does R d Q where
  run := .nil d
  post := by
    rintro _ ⟨⟩

theorem Does.ask {f : Disk → Except ε α} (h : ∀ a, f d = .ok a → Q a d) :
    (DiskTask.ask f).Does R d Q where
  run := .nil d
  post := fun {a} ha => h a ha

theorem Does.change {c : DiskChange} {Q : Unit → Disk → Prop} (hc : R d c) (h : Q () (c.apply d)) :
    (DiskTask.change c : DiskTask ε Unit).Does R d Q where
  run := .cons hc (.nil _)
  post := fun _ => h

theorem bind_of_error {f : α → DiskTask ε β} {e : ε} (h : (t d).result = .error e) :
    (t >>= f) d = ⟨(t d).changes, .error e⟩ := by
  show t.bind f d = _
  rw [DiskTask.bind]
  rcases ht : t d with ⟨cs, r⟩
  rw [ht] at h
  obtain rfl : r = .error e := h
  rfl

theorem bind_of_ok {f : α → DiskTask ε β} {a : α} (h : (t d).result = .ok a) :
    (t >>= f) d = ⟨(t d).changes ++ (f a (t.after d)).changes, (f a (t.after d)).result⟩ := by
  show t.bind f d = _
  rw [DiskTask.bind, DiskTask.after]
  rcases ht : t d with ⟨cs, r⟩
  rw [ht] at h
  obtain rfl : r = .ok a := h
  rfl

/-- A task that has nothing to do may be passed over. -/
theorem bind_of_unchanged {f : α → DiskTask ε β} {a : α} (h : t d = ⟨[], .ok a⟩) :
    (t >>= f) d = f a d := by
  have hafter : t.after d = d := by rw [DiskTask.after, h]; rfl
  rw [bind_of_ok (a := a) (by rw [h]), hafter, h]
  simp only [List.nil_append]

/-- **One task after another**: the second starts where the first has left the disk. -/
theorem Does.bind {f : α → DiskTask ε β} {Q' : β → Disk → Prop} (ht : t.Does R d Q)
    (hf : ∀ a, Q a (t.after d) → (f a).Does R (t.after d) Q') : (t >>= f).Does R d Q' := by
  cases h : (t d).result with
  | error e =>
      have heq := bind_of_error (f := f) h
      constructor
      · rw [heq]
        exact ht.run
      · intro b hb
        simp [heq] at hb
  | ok a =>
      have heq := bind_of_ok (f := f) h
      have hnext := hf a (ht.post h)
      constructor
      · rw [heq]
        exact ht.run.append hnext.run
      · intro b hb
        rw [heq] at hb
        have hpost := hnext.post hb
        rw [DiskTask.after, heq]
        simpa [DiskChange.applyAll, DiskTask.after] using hpost

/-- Other words for an error change nothing. -/
theorem Does.mapError (f : ε → ε') (h : t.Does R d Q) : (t.mapError f).Does R d Q where
  run := h.run
  post := fun {a} ha => by
    refine h.post ?_
    cases hr : (t d).result with
    | error e => simp [DiskTask.mapError, hr, Except.mapError] at ha
    | ok b => simpa [DiskTask.mapError, hr, Except.mapError] using ha

/-- A result may be given in place of another one. -/
theorem Does.andPure (h : t.Does R d Q) (b : β) :
    (t >>= fun _ => DiskTask.pure b).Does R d fun _ _ => True :=
  h.bind fun _ _ => .pure trivial

/-- A kind of changes is one of a wider kind. -/
theorem Does.mono {S : Disk → DiskChange → Prop} (h : t.Does R d Q) (hRS : ∀ d c, R d c → S d c) :
    t.Does S d Q where
  run := h.run.mono hRS
  post := h.post

/-- What follows from a result on the disk behind the task may be said instead. -/
theorem Does.imp {Q' : α → Disk → Prop} (h : t.Does R d Q)
    (hQ : ∀ a, Q a (t.after d) → Q' a (t.after d)) : t.Does R d Q' where
  run := h.run
  post := fun ha => hQ _ (h.post ha)

end

end DiskTask

namespace Disk

section

variable {R : Disk → DiskChange → Prop} {d : Disk} {cs : List DiskChange}

/-- Sound changes keep plain disks plain. -/
theorem IsPlain.applyAll (hR : ∀ d c, R d c → d.Sound c) (hd : d.IsPlain)
    (h : DiskChange.Run R d cs) : IsPlain (DiskChange.applyAll d cs) :=
  h.keeps (fun _ _ hd hc => ⟨hd.tree.apply (hR _ _ hc), hd.linkFree.apply (hR _ _ hc)⟩) hd

theorem Sound.keeps {c : DiskChange} (h : d.Sound c) : d.Keeps (c.apply d) :=
  fun _ _ hl => h.entry?_of_directory hl

/-- Sound changes leave every directory in place. -/
theorem keeps_applyAll (hR : ∀ d c, R d c → d.Sound c) (h : DiskChange.Run R d cs) :
    d.Keeps (DiskChange.applyAll d cs) :=
  h.keeps (fun _ _ hk hc l r hl => (hR _ _ hc).entry?_of_directory (hk l r hl)) fun _ _ hl => hl

end

end Disk

/-- **One task after another, on a plain disk**: the second one starts on a plain disk, too, where
every directory is still in place. -/
theorem DiskTask.Does.andThen {ε α β : Type} {R : Disk → DiskChange → Prop} {d : Disk}
    {t : DiskTask ε α} {Q : α → Disk → Prop} {f : α → DiskTask ε β} {Q' : β → Disk → Prop}
    (hR : ∀ d c, R d c → d.Sound c) (hd : d.IsPlain) (ht : t.Does R d Q)
    (hf : ∀ a d', d'.IsPlain → d.Keeps d' → Q a d' → (f a).Does R d' Q') :
    (t >>= f).Does R d Q' :=
  ht.bind fun a ha => hf a _ (hd.applyAll hR ht.run) (Disk.keeps_applyAll hR ht.run) ha

/-- What no change is about stays as it is. -/
theorem DiskTask.Does.untouched {ε α : Type} {R : Disk → DiskChange → Prop} {d : Disk}
    {t : DiskTask ε α} {Q : α → Disk → Prop} (h : t.Does R d Q) (l : Location)
    (hl : ∀ d c, R d c → l ∉ c.places) :
    t.Does R d fun a d' => Q a d' ∧ d'.entry? l = d.entry? l where
  run := h.run
  post := fun ha => ⟨h.post ha, h.run.keeps (I := fun d' => d'.entry? l = d.entry? l)
    (fun d' c hd' hc => (Disk.entry?_apply_of_not_mem (hl d' c hc)).trans hd') rfl⟩

namespace Disk

/-! ## Directories -/

section

variable {d : Disk} {p : FilePath} {name : String} {k : Location}

/-- A path that ends in a name has a text to follow. -/
theorem fault?_join_ne_notFound (p : FilePath) (h : FilePath.IsName name) :
    fault? (p / name) ≠ some .notFound := by
  rw [fault?, if_neg (FilePath.text_join_ne_empty p h)]
  split
  · simp
  split <;> simp

/-- What a name is to be used for, it is looked for in the directory that its path leads to; where
that is not reached, or may not be searched, the cause is told. -/
theorem resolve_join_cases (hd : d.IsPlain) (aim : Aim) (p : FilePath) (h : FilePath.IsName name) :
    (∃ e, d.resolve aim (p / name) = .error e ∧
        (e = .notFound → d.reach p = .error .notFound)) ∨
      ∃ l, d.resolve aim (p / name) = .ok (.named l name false) ∧ d.reach p = .ok l ∧
        fault? (p / name) = none ∧ (d.rightsOn l).search = true := by
  rw [resolve_join hd.linkFree aim p h]
  cases hf : fault? (p / name) with
  | some e =>
      exact .inl ⟨e, rfl, fun he => absurd (he ▸ hf) (fault?_join_ne_notFound p h)⟩
  | none =>
      cases hr : d.reach p with
      | error e => exact .inl ⟨e, rfl, fun he => he ▸ rfl⟩
      | ok l =>
          cases hs : (d.rightsOn l).search with
          | false => exact .inl ⟨.denied, by simp [Except.bind, hs], by simp⟩
          | true => exact .inr ⟨l, by simp [Except.bind, hs], rfl, rfl, hs⟩

/-- A name in a directory that may be searched is a place for something new if nothing is there. -/
theorem vacant_of_search (h : FilePath.IsName name) {l : Location}
    (hs : (d.rightsOn l).search = true) (hn : d.entry? (name :: l) = none) : d.Vacant name l := by
  obtain ⟨r, hr, -⟩ := exists_of_search hs
  exact ⟨h, ⟨r, hr⟩, hn⟩

/-- Where a path names something in a directory, a directory can be made under a name that is not taken;
if it cannot, it is not that anything is not found. -/
theorem newDirectory_of_named {q : FilePath} {l : Location} {separator : Bool}
    (h : d.resolve .name q = .ok (.named l name separator)) :
    (newDirectory q d = .ok (name :: l) ∧ name.utf8ByteSize ≤ nameLimit ∧
      d.entry? (name :: l) = none) ∨ ∃ e, newDirectory q d = .error e ∧ e ≠ .notFound := by
  simp only [newDirectory, h, find]
  by_cases hlong : nameLimit < name.utf8ByteSize
  · exact .inr ⟨.nameTooLong, by simp [hlong], by simp⟩
  cases he : d.entry? (name :: l) with
  | some e => exact .inr ⟨.alreadyThere, by simp [hlong], by simp⟩
  | none =>
      cases hw : (d.rightsOn l).write with
      | true => exact .inl ⟨by simp [hlong], Nat.le_of_not_lt hlong, rfl⟩
      | false => exact .inr ⟨.denied, by simp [hlong], by simp⟩

/-- A new directory is made at a vacant place, in the directory that its path leads to. -/
theorem newDirectory_eq_ok (hd : d.IsPlain) (h : FilePath.IsName name)
    (hnew : newDirectory (p / name) d = .ok k) :
    ∃ l, d.reach p = .ok l ∧ k = name :: l ∧ d.Vacant name l ∧ fault? (p / name) = none ∧
      (d.rightsOn l).search = true ∧ name.utf8ByteSize ≤ nameLimit := by
  rcases resolve_join_cases hd .name p h with ⟨e, he, -⟩ | ⟨l, hl, hreach, hf, hs⟩
  · simp [newDirectory, he] at hnew
  · rcases newDirectory_of_named hl with ⟨hok, hshort, he⟩ | ⟨e, herror, -⟩
    · obtain rfl := Except.ok.inj (hok.symm.trans hnew)
      exact ⟨l, hreach, rfl, vacant_of_search h hs he, hf, hs, hshort⟩
    · simp [herror] at hnew

/-- It is for want of its parent that a directory cannot be made, if anything is not found. -/
theorem newDirectory_eq_notFound (hd : d.IsPlain) (h : FilePath.IsName name)
    (hnew : newDirectory (p / name) d = .error .notFound) : d.reach p = .error .notFound := by
  rcases resolve_join_cases hd .name p h with ⟨e, he, hcause⟩ | ⟨l, hl, -⟩
  · rw [newDirectory, he] at hnew
    exact hcause (Except.error.inj hnew)
  · rcases newDirectory_of_named hl with ⟨hok, -⟩ | ⟨e, herror, hne⟩
    · simp [hok] at hnew
    · exact absurd (Except.error.inj (herror.symm.trans hnew)) hne

theorem makeDirectory_of_ok {p : FilePath} (h : newDirectory p d = .ok k) :
    makeDirectory p d = ⟨[.makeDirectory k], .ok ()⟩ :=
  DiskTask.bind_of_ok (t := DiskTask.ask (newDirectory p)) h

theorem makeDirectory_of_error {p : FilePath} {e : DiskError} (h : newDirectory p d = .error e) :
    makeDirectory p d = ⟨[], .error e⟩ :=
  DiskTask.bind_of_error (t := DiskTask.ask (newDirectory p)) h

/-- Makes a directory whose parent is there; one that is there already is no error. -/
def settle (p : FilePath) : DiskTask DiskError Unit := fun d =>
  match newDirectory p d with
  | .ok k => ⟨[.makeDirectory k], .ok ()⟩
  | .error e => if d.isDirectory p then ⟨[], .ok ()⟩ else ⟨[], .error e⟩

theorem settle_of_ok {p : FilePath} (h : newDirectory p d = .ok k) :
    settle p d = ⟨[.makeDirectory k], .ok ()⟩ := by
  rw [settle, h]

theorem settle_of_error {p : FilePath} {e : DiskError} (h : newDirectory p d = .error e) :
    settle p d = if d.isDirectory p then ⟨[], .ok ()⟩ else ⟨[], .error e⟩ := by
  rw [settle, h]

/-- To settle a directory is to try to make it. -/
theorem settle_eq (p : FilePath) : settle p = fun d =>
    match makeDirectory p d with
    | ⟨_, .error e⟩ => if d.isDirectory p then ⟨[], .ok ()⟩ else ⟨[], .error e⟩
    | made => made := by
  funext d
  cases hn : newDirectory p d with
  | ok k => rw [settle_of_ok hn, makeDirectory_of_ok hn]
  | error e => rw [settle_of_error hn, makeDirectory_of_error hn]

/-- **Directories are made from above**: one is settled in its parent, which is made first if it is
missing. -/
theorem makeDirectories_cons (p : FilePath) (parents : List FilePath) (d : Disk)
    (h : p.text ≠ "") :
    makeDirectories (p :: parents) d =
      if newDirectory p d = .error .notFound then (makeDirectories parents >>= fun _ => settle p) d
      else settle p d := by
  simp only [makeDirectories, if_neg h, settle_eq]
  cases hn : newDirectory p d with
  | ok k => simp [makeDirectory_of_ok hn]
  | error e =>
      rw [makeDirectory_of_error hn]
      cases e <;> rfl

/-- A directory is made at a vacant place on the way to a location. -/
inductive PathStep (home : Location) (d : Disk) : DiskChange → Prop
  | makeDirectory {n : String} {l : Location} (hv : d.Vacant n l) (hon : n :: l <:+ home) :
      PathStep home d (.makeDirectory (n :: l))

theorem PathStep.sound {home : Location} {d : Disk} {c : DiskChange} :
    PathStep home d c → d.Sound c
  | .makeDirectory hv _ => .makeDirectory hv

/-- The way to a place goes on to the places below it. -/
theorem PathStep.mono {home home' : Location} (h : home <:+ home') {d : Disk} {c : DiskChange} :
    PathStep home d c → PathStep home' d c
  | .makeDirectory hv hon => .makeDirectory hv (hon.trans h)

/-- A directory is settled. -/
theorem settle_does (hd : d.IsPlain) (h : FilePath.IsName name) {home : Location}
    (hhome : ∀ l, d.reach p = .ok l → home = name :: l) :
    (settle (p / name)).Does (PathStep home) d fun _ d' => d'.isDirectory (p / name) = true := by
  cases hnew : newDirectory (p / name) d with
  | ok k =>
      obtain ⟨l, hreach, rfl, hvacant, hf, hs, hsize⟩ := newDirectory_eq_ok hd h hnew
      obtain rfl := hhome l hreach
      have heq := settle_of_ok hnew
      have hrun : DiskChange.Run (PathStep (name :: l)) d [.makeDirectory (name :: l)] :=
        .cons (.makeDirectory hvacant (List.suffix_refl _)) (.nil _)
      refine ⟨by rw [heq]; exact hrun, fun {_} _ => ?_⟩
      rw [DiskTask.after, heq]
      have hd' := hd.applyAll (fun _ _ => PathStep.sound) hrun
      have hkeeps := keeps_applyAll (fun _ _ => PathStep.sound) hrun
      obtain ⟨r, hr, hsearch⟩ := exists_of_search hs
      refine (isDirectory_join_iff hd'.linkFree p h).mpr ⟨hf, name :: l, ?_⟩
      rw [reach_join _ p h, reach_mono hkeeps hreach]
      refine enter_eq_ok_iff.mpr ⟨rfl, ?_, hsize, .ofDirectory, ?_⟩
      · rw [rightsOn_eq (hkeeps _ _ hr), hsearch]
      · simp [DiskChange.applyAll, DiskChange.apply]
  | error e =>
      by_cases hdir : d.isDirectory (p / name) = true
      · have heq := (settle_of_error hnew).trans (if_pos hdir)
        refine ⟨by rw [heq]; exact .nil d, fun {_} _ => ?_⟩
        rw [DiskTask.after, heq]
        exact hdir
      · have heq := (settle_of_error hnew).trans (if_neg hdir)
        exact ⟨by rw [heq]; exact .nil d, fun {_} ha => by simp [heq] at ha⟩

/-- Names lead down to where they say. -/
theorem reach_below {root : FilePath} {l : Location} (hroot : d.reach root = .ok l) :
    ∀ {ns : List String} {k : Location}, (∀ n ∈ ns, FilePath.IsName n) →
      d.reach (root.below ns) = .ok k → k = ns ++ l
  | [], k, _, h => (Except.ok.inj (hroot.symm.trans h)).symm
  | n :: ns, k, hnames, h => by
      obtain ⟨k', hk', rfl, -⟩ := exists_of_reach_join (hnames n List.mem_cons_self) h
      rw [reach_below hroot (fun m hm => hnames m (List.mem_cons_of_mem _ hm)) hk']
      rfl

/-- Names that lead down now have led down before, to a directory that was there before. -/
theorem reach_below_of_entry {d d' : Disk} {root : FilePath} {l : Location} (htree : d.IsTree)
    (hkeep : d.Keeps d') (hroot : d.reach root = .ok l) :
    ∀ {ns : List String}, (∀ n ∈ ns, FilePath.IsName n) →
      d'.reach (root.below ns) = .ok (ns ++ l) →
      (∃ r, d.entry? (ns ++ l) = some (.directory r)) → d.reach (root.below ns) = .ok (ns ++ l)
  | [], _, _, _ => hroot
  | n :: ns, hnames, h, ⟨r, hr⟩ => by
      have hn := hnames n List.mem_cons_self
      obtain ⟨k, hk, heq, henter⟩ := exists_of_reach_join hn h
      obtain rfl : ns ++ l = k := (List.cons.inj heq).2
      rw [List.cons_append] at hr
      obtain ⟨-, r', hr'⟩ := htree.parent hr
      have ih := reach_below_of_entry htree hkeep hroot
        (fun m hm => hnames m (List.mem_cons_of_mem _ hm)) hk ⟨r', hr'⟩
      obtain ⟨-, hs, hshort, -⟩ := enter_eq_ok_iff.mp henter
      rw [rightsOn_eq (hkeep _ _ hr')] at hs
      show d.reach (root.below ns / n) = _
      rw [reach_join d _ hn, ih]
      exact enter_eq_ok_iff.mpr ⟨rfl, by rw [rightsOn_eq hr', hs], hshort, r, hr⟩

/-- A directory is settled below another one. -/
theorem settle_below_does {root : FilePath} {l : Location} {n : String} {ns : List String}
    {d : Disk} (hnames : ∀ m ∈ n :: ns, FilePath.IsName m) (hd : d.IsPlain)
    (hroot : d.reach root = .ok l) :
    (settle (root.below (n :: ns))).Does (PathStep (n :: ns ++ l)) d fun _ d' =>
      d'.isDirectory (root.below (n :: ns)) = true := by
  refine settle_does hd (hnames n List.mem_cons_self) fun k hk => ?_
  rw [reach_below hroot (fun m hm => hnames m (List.mem_cons_of_mem _ hm)) hk]
  rfl

/-- **Making a path** makes directories on it only, and the directory is there if it succeeds. -/
theorem makePath_does {root : FilePath} {l : Location} {n : String} {ns : List String} {d : Disk}
    (hnames : ∀ m ∈ n :: ns, FilePath.IsName m) (hd : d.IsPlain) (hroot : d.reach root = .ok l) :
    (makePath (root.below (n :: ns))).Does (PathStep (n :: ns ++ l)) d fun _ d' =>
      d'.isDirectory (root.below (n :: ns)) = true := by
  have hn := hnames n List.mem_cons_self
  have hsettle := settle_below_does hnames hd hroot
  have htext : (root.below (n :: ns)).text ≠ "" := FilePath.text_join_ne_empty (root.below ns) hn
  rw [makePath]
  induction ns generalizing n with
  | nil =>
      -- the directory that everything lies below is there
      have hnot : newDirectory (root.below [n]) d ≠ .error .notFound := fun hnew => by
        simpa [FilePath.below, hroot] using newDirectory_eq_notFound hd hn hnew
      rw [show (root.below [n]).ancestors = root.below [n] :: _ from FilePath.ancestors_join root hn]
      refine hsettle.of_eq ?_
      rw [makeDirectories_cons _ _ d htext, if_neg hnot]
  | cons m ms ih =>
      have hms : ∀ m' ∈ m :: ms, FilePath.IsName m' := fun m' hm =>
        hnames m' (List.mem_cons_of_mem _ hm)
      have hm := hms m List.mem_cons_self
      rw [FilePath.ancestors_below root hm hn]
      by_cases hnew : newDirectory (root.below (n :: m :: ms)) d = .error .notFound
      · have hparents := (ih hms hm (settle_below_does hms hd hroot)
          (FilePath.text_join_ne_empty _ hm)).mono
            fun _ _ => PathStep.mono (List.suffix_cons n (m :: ms ++ l))
        have hsound : ∀ d c, PathStep (n :: (m :: ms ++ l)) d c → d.Sound c :=
          fun _ _ => PathStep.sound
        have hdo := hparents.andThen (f := fun _ => settle (root.below (n :: m :: ms))) hsound hd
          fun _ _ hd' hkeep _ => settle_below_does hnames hd' (reach_mono hkeep hroot)
        refine hdo.of_eq ?_
        rw [makeDirectories_cons _ _ d htext, if_pos hnew]
      · refine hsettle.of_eq ?_
        rw [makeDirectories_cons _ _ d htext, if_neg hnew]

end

/-! ## Files -/

/-- A file that can be found under a name: its path leads to the directory that holds it. -/
structure FileAt (d : Disk) (p : FilePath) (name : String) (l : Location) (r : Rights)
    (content : Bytes) : Prop where
  isName : FilePath.IsName name
  reach : d.reach p = .ok l
  usable : fault? (p / name) = none
  search : (d.rightsOn l).search = true
  short : name.utf8ByteSize ≤ nameLimit
  entry : d.entry? (name :: l) = some (.file r content)

section

variable {d d' : Disk} {p : FilePath} {name : String} {l : Location} {r : Rights} {content : Bytes}

/-- A file that comes to be where one could be made can be found. -/
theorem fileAt_of_entry (h : FilePath.IsName name) (hreach : d.reach p = .ok l)
    (hf : fault? (p / name) = none) (hs : (d.rightsOn l).search = true)
    (hshort : name.utf8ByteSize ≤ nameLimit) (hkeep : d.Keeps d')
    (hentry : d'.entry? (name :: l) = some (.file r content)) : d'.FileAt p name l r content where
  isName := h
  reach := reach_mono hkeep hreach
  usable := hf
  search := by
    obtain ⟨r, hr, hsearch⟩ := exists_of_search hs
    rw [rightsOn_eq (hkeep _ _ hr), hsearch]
  short := hshort
  entry := hentry

/-- What is found under the name is the file. -/
theorem FileAt.locate (hd : d.LinkFree) (h : d.FileAt p name l r content) :
    d.locate (p / name) = .ok (name :: l) := by
  rw [locate_join hd p h.isName, h.usable, h.reach]
  simp [Except.bind, lookUp, find, h.search, h.entry, Nat.not_lt.mpr h.short]

theorem FileAt.isFile (hd : d.LinkFree) (h : d.FileAt p name l r content) :
    d.isFile (p / name) = true := by
  rw [Disk.isFile, h.locate hd]
  simp [h.entry]

/-- A file is read by who may. -/
theorem FileAt.read_eq (hd : d.LinkFree) (h : d.FileAt p name l r content) :
    d.read (p / name) = if r.read then .ok content else .error .denied := by
  rw [Disk.read, h.locate hd]
  simp [h.entry]

/-- A file that stays can still be found. -/
theorem FileAt.mono (hkeep : d.Keeps d') (h : d.FileAt p name l r content) {r' : Rights}
    {content' : Bytes} (hentry : d'.entry? (name :: l) = some (.file r' content')) :
    d'.FileAt p name l r' content' where
  isName := h.isName
  reach := reach_mono hkeep h.reach
  usable := h.usable
  search := by
    obtain ⟨r, hr, hs⟩ := exists_of_search h.search
    rw [rightsOn_eq (hkeep _ _ hr), hs]
  short := h.short
  entry := hentry

/-- Where a path names something in a directory, what is opened for writing is a file of that name, or
there is nothing yet. -/
theorem writable_of_named {q : FilePath} (hq : d.resolve .write q = .ok (.named l name false))
    {k : Location} {isNew : Bool} (hw : writable q d = .ok (k, isNew)) :
    k = name :: l ∧ name.utf8ByteSize ≤ nameLimit ∧
      ((isNew = true ∧ d.entry? (name :: l) = none) ∨
        (isNew = false ∧ ∃ r content, d.entry? (name :: l) = some (.file r content))) := by
  simp only [writable, hq, find, Bool.false_eq_true, if_false] at hw
  by_cases hlong : nameLimit < name.utf8ByteSize
  · simp [hlong] at hw
  have hshort := Nat.le_of_not_lt hlong
  cases he : d.entry? (name :: l) with
  | none =>
      simp only [hlong, he, if_false] at hw
      split at hw
      · obtain ⟨rfl, rfl⟩ := Prod.mk.inj (Except.ok.inj hw)
        exact ⟨rfl, hshort, .inl ⟨rfl, rfl⟩⟩
      · simp at hw
  | some e =>
      cases e with
      | directory => simp [hlong, he] at hw
      | link => simp [hlong, he] at hw
      | file r content =>
          simp only [hlong, he, if_false] at hw
          split at hw
          · obtain ⟨rfl, rfl⟩ := Prod.mk.inj (Except.ok.inj hw)
            exact ⟨rfl, hshort, .inr ⟨rfl, r, content, rfl⟩⟩
          · simp at hw

/-- Where a file is opened for writing: at a vacant place, or where a file is. -/
theorem writable_eq_ok (hd : d.IsPlain) (h : FilePath.IsName name) (hreach : d.reach p = .ok l)
    {k : Location} {isNew : Bool} (hw : writable (p / name) d = .ok (k, isNew)) :
    k = name :: l ∧ fault? (p / name) = none ∧ (d.rightsOn l).search = true ∧
      name.utf8ByteSize ≤ nameLimit ∧
      ((isNew = true ∧ d.Vacant name l) ∨
        (isNew = false ∧ ∃ r content, d.entry? (name :: l) = some (.file r content))) := by
  rcases resolve_join_cases hd .write p h with ⟨e, he, -⟩ | ⟨l', hl, hreach', hf, hs⟩
  · simp [writable, he] at hw
  obtain rfl : l' = l := Except.ok.inj (hreach'.symm.trans hreach)
  obtain ⟨rfl, hshort, ⟨rfl, he⟩ | hfile⟩ := writable_of_named hl hw
  · exact ⟨rfl, hf, hs, hshort, .inl ⟨rfl, vacant_of_search h hs he⟩⟩
  · exact ⟨rfl, hf, hs, hshort, .inr hfile⟩

/-- A file is made at a vacant place. -/
inductive FileStep (l : Location) (name : String) (d : Disk) : DiskChange → Prop
  | makeFile (hv : d.Vacant name l) : FileStep l name d (.makeFile (name :: l))

theorem FileStep.sound {c : DiskChange} : FileStep l name d c → d.Sound c
  | .makeFile hv => .makeFile hv

/-- **Opening a file** makes it at most, and it is there if that succeeds. -/
theorem openFile_does (hd : d.IsPlain) (h : FilePath.IsName name) (hreach : d.reach p = .ok l) :
    (openFile (p / name)).Does (FileStep l name) d fun _ d' => ∃ r content,
      d'.FileAt p name l r content := by
  refine (DiskTask.Does.ask (Q := fun a d' => d' = d ∧ writable (p / name) d = .ok a)
    fun a ha => ⟨rfl, ha⟩).bind ?_
  rintro ⟨k, isNew⟩ ⟨hafter, hw⟩
  rw [hafter]
  obtain ⟨rfl, hf, hs, hshort, ⟨rfl, hv⟩ | ⟨rfl, r, content, he⟩⟩ := writable_eq_ok hd h hreach hw
  · show (DiskTask.change (.makeFile (name :: l)) >>= fun _ => DiskTask.pure (name :: l)).Does _ d _
    have hstep : FileStep l name d (.makeFile (name :: l)) := .makeFile hv
    refine (DiskTask.Does.change hstep (Q := fun _ d' => d'.FileAt p name l .ofFile []) ?_).bind
      fun _ hfile => .pure ⟨_, _, hfile⟩
    exact fileAt_of_entry h hreach hf hs hshort hstep.sound.keeps (by simp [DiskChange.apply])
  · show (DiskTask.pure (name :: l) : DiskTask DiskError Location).Does _ d _
    exact .pure ⟨r, content, h, hreach, hf, hs, hshort, he⟩

/-- What replacing a file may do: the temporary one is made or emptied, written, and moved over the
file. -/
inductive ReplaceStep (l : Location) (temporary name : String) (d : Disk) : DiskChange → Prop
  | makeFile (hv : d.Vacant temporary l) : ReplaceStep l temporary name d (.makeFile (temporary :: l))
  | truncate : ReplaceStep l temporary name d (.truncate (temporary :: l))
  | append (bytes : Bytes) : ReplaceStep l temporary name d (.append (temporary :: l) bytes)
  | sync : ReplaceStep l temporary name d (.sync (temporary :: l))
  | move {r : Rights} {content : Bytes} (hn : FilePath.IsName name)
      (hdir : ∃ r, d.entry? l = some (.directory r))
      (hsource : d.entry? (temporary :: l) = some (.file r content))
      (hold : ∀ r, d.entry? (name :: l) ≠ some (.directory r)) :
      ReplaceStep l temporary name d (.move (temporary :: l) (name :: l))

theorem ReplaceStep.sound {temporary : String} {c : DiskChange} :
    ReplaceStep l temporary name d c → d.Sound c
  | .makeFile hv => .makeFile hv
  | .truncate => .truncate _
  | .append bytes => .append _ bytes
  | .sync => .sync _
  | .move hn hdir hsource hold => .move hsource hn hdir hold

/-- Replacing a file is about two places. -/
theorem ReplaceStep.eq_or_eq {temporary : String} {c : DiskChange}
    (h : ReplaceStep l temporary name d c) {k : Location} (hk : k ∈ c.places) :
    k = temporary :: l ∨ k = name :: l := by
  cases h with
  | move => simpa [DiskChange.places] using hk
  | _ => exact .inl (List.mem_singleton.mp hk)

/-- The rights of a file that is created at a place: those of the file there, if there is one. -/
def rightsFor (d : Disk) (place : Location) : Rights :=
  match d.entry? place with
  | some (.file r _) => r
  | _ => .ofFile

/-- **Creating a file** makes it or empties it. -/
theorem createFile_does {temporary : String} (hd : d.IsPlain) (h : FilePath.IsName temporary)
    (hreach : d.reach p = .ok l) :
    (createFile (p / temporary)).Does (ReplaceStep l temporary name) d fun k d' =>
      k = temporary :: l ∧ d'.FileAt p temporary l (d.rightsFor (temporary :: l)) [] := by
  refine (DiskTask.Does.ask (Q := fun a d' => d' = d ∧ writable (p / temporary) d = .ok a)
    fun a ha => ⟨rfl, ha⟩).bind ?_
  rintro ⟨k, isNew⟩ ⟨hafter, hw⟩
  rw [hafter]
  obtain ⟨rfl, hf, hs, hshort, ⟨rfl, hv⟩ | ⟨rfl, r, content, he⟩⟩ := writable_eq_ok hd h hreach hw
  · show (DiskTask.change (.makeFile (temporary :: l)) >>=
      fun _ => DiskTask.pure (temporary :: l)).Does _ d _
    have hstep : ReplaceStep l temporary name d (.makeFile (temporary :: l)) := .makeFile hv
    refine (DiskTask.Does.change hstep (Q := fun _ d' => d'.FileAt p temporary l .ofFile []) ?_).bind
      fun _ hfile => .pure ⟨rfl, by rwa [rightsFor, hv.empty]⟩
    exact fileAt_of_entry h hreach hf hs hshort hstep.sound.keeps (by simp [DiskChange.apply])
  · show (DiskTask.change (.truncate (temporary :: l)) >>=
      fun _ => DiskTask.pure (temporary :: l)).Does _ d _
    have hstep : ReplaceStep l temporary name d (.truncate (temporary :: l)) := .truncate
    refine (DiskTask.Does.change hstep (Q := fun _ d' => d'.FileAt p temporary l r []) ?_).bind
      fun _ hfile => .pure ⟨rfl, by rwa [rightsFor, he]⟩
    exact fileAt_of_entry h hreach hf hs hshort hstep.sound.keeps (by simp [DiskChange.apply, he])

/-- What can be moved from one name to another in the same directory is moved over a file, or where
nothing is. -/
theorem movable_of_named {source target : FilePath} {temporary : String}
    (hsource : d.resolve .name source = .ok (.named l temporary false))
    (htarget : d.resolve .name target = .ok (.named l name false)) (hne : temporary ≠ name)
    {a : Option (Location × Location)} (hm : movable source target d = .ok a) :
    a = some (temporary :: l, name :: l) ∧ name.utf8ByteSize ≤ nameLimit ∧
      ∀ r, d.entry? (name :: l) ≠ some (.directory r) := by
  simp only [movable, hsource, htarget, find] at hm
  by_cases hlong : nameLimit < temporary.utf8ByteSize
  · simp [hlong] at hm
  by_cases hlong' : nameLimit < name.utf8ByteSize
  · cases he : d.entry? (temporary :: l) <;> simp [hlong, hlong', he] at hm
  cases he : d.entry? (temporary :: l) with
  | none => simp [hlong, he] at hm
  | some e =>
      simp only [hlong, hlong', he, if_false, Bool.or_false, Bool.false_eq_true] at hm
      rw [if_neg (by simpa using hne)] at hm
      split at hm
      · simp at hm
      split at hm
      · simp at hm
      next hold =>
      obtain rfl := Except.ok.inj hm
      exact ⟨rfl, Nat.le_of_not_lt hlong', hold⟩

/-- What can be moved to another name in the same directory. -/
theorem movable_eq_ok {temporary : String} (hd : d.IsPlain) (ht : FilePath.IsName temporary)
    (h : FilePath.IsName name) (hne : temporary ≠ name) (hreach : d.reach p = .ok l)
    {a : Option (Location × Location)} (hm : movable (p / temporary) (p / name) d = .ok a) :
    a = some (temporary :: l, name :: l) ∧ fault? (p / name) = none ∧
      (d.rightsOn l).search = true ∧ name.utf8ByteSize ≤ nameLimit ∧
      ∀ r, d.entry? (name :: l) ≠ some (.directory r) := by
  rcases resolve_join_cases hd .name p ht with ⟨e, he, -⟩ | ⟨l₁, hl₁, hreach₁, -, -⟩
  · simp [movable, he] at hm
  obtain rfl : l₁ = l := Except.ok.inj (hreach₁.symm.trans hreach)
  rcases resolve_join_cases hd .name p h with ⟨e, he, -⟩ | ⟨l₂, hl₂, hreach₂, hf, hs⟩
  · simp [movable, he, hl₁] at hm
  obtain rfl : l₂ = l₁ := Except.ok.inj (hreach₂.symm.trans hreach)
  obtain ⟨rfl, hshort, hold⟩ := movable_of_named hl₁ hl₂ hne hm
  exact ⟨rfl, hf, hs, hshort, hold⟩

/-- **Moving a file over another one** takes it away from its old name. -/
theorem move_does {temporary : String} (hd : d.IsPlain) (h : FilePath.IsName name)
    (hne : temporary ≠ name) (hfile : d.FileAt p temporary l r content) :
    (move (p / temporary) (p / name)).Does (ReplaceStep l temporary name) d fun _ d' =>
      d'.FileAt p name l r content ∧ d'.entry? (temporary :: l) = none := by
  refine (DiskTask.Does.ask
    (Q := fun a d' => d' = d ∧ movable (p / temporary) (p / name) d = .ok a)
    fun a ha => ⟨rfl, ha⟩).bind ?_
  rintro a ⟨hafter, hm⟩
  rw [hafter]
  obtain ⟨rfl, hf, hs, hshort, hold⟩ :=
    movable_eq_ok hd hfile.isName h hne hfile.reach hm
  have hstep : ReplaceStep l temporary name d (.move (temporary :: l) (name :: l)) := by
    obtain ⟨r, hr, -⟩ := exists_of_search hs
    exact .move h ⟨r, hr⟩ hfile.entry hold
  refine .change hstep ⟨fileAt_of_entry h hfile.reach hf hs hshort hstep.sound.keeps ?_, ?_⟩
  · simp [DiskChange.apply, hfile.entry]
  · simp [DiskChange.apply, hfile.entry, hne]

/-- **Writing** puts some of the bytes behind the content of the file, and all of them if it
succeeds. -/
theorem writeBytes_does {R : Disk → DiskChange → Prop} {Q : Unit → Disk → Prop} (device : Device)
    {bytes : Bytes} (hR : ∀ part, R d (.append l part))
    (hQ : Q () (DiskChange.apply d (.append l bytes))) : (writeBytes device l bytes).Does R d Q := by
  rw [writeBytes]
  cases device.writeFault l bytes with
  | none => exact .change (hR _) hQ
  | some fault =>
      obtain ⟨n, e⟩ := fault
      exact (DiskTask.Does.change (hR _) (Q := fun _ _ => True) trivial).bind fun _ _ => .fail e

/-- To make a file last changes nothing that is seen. -/
theorem syncFile_does {R : Disk → DiskChange → Prop} {Q : Unit → Disk → Prop} (device : Device)
    (hR : R d (.sync l)) (hQ : Q () d) : (syncFile device l).Does R d Q := by
  rw [syncFile]
  cases device.syncFault l with
  | none => exact .change hR hQ
  | some e => exact .fail e

/-- **Replacing a file**: the content is written under the temporary name, and moved. -/
theorem replaceFile_does {temporary : String} (device : Device) (hd : d.IsPlain)
    (ht : FilePath.IsName temporary) (h : FilePath.IsName name) (hne : temporary ≠ name)
    (hreach : d.reach p = .ok l) (bytes : Bytes) :
    (replaceFile device (p / temporary) (p / name) bytes).Does (ReplaceStep l temporary name) d fun _ d' =>
      d'.FileAt p name l (d.rightsFor (temporary :: l)) bytes ∧
        d'.entry? (temporary :: l) = none := by
  have hsound : ∀ d c, ReplaceStep l temporary name d c → d.Sound c := fun _ _ => ReplaceStep.sound
  refine DiskTask.Does.andThen hsound hd (createFile_does hd ht hreach) ?_
  rintro k d₁ hd₁ - ⟨rfl, hfile₁⟩
  have hwrite : (writeBytes device (temporary :: l) bytes).Does
      (ReplaceStep l temporary name) d₁ fun _ d' =>
        d'.FileAt p temporary l (d.rightsFor (temporary :: l)) bytes :=
    writeBytes_does device .append (hfile₁.mono (Sound.append _ _).keeps
      (by simp [DiskChange.apply, hfile₁.entry]))
  have hfinish : ∀ d₂ : Disk, d₂.IsPlain →
      d₂.FileAt p temporary l (d.rightsFor (temporary :: l)) bytes →
      (syncFile device (temporary :: l) >>= fun _ => move (p / temporary) (p / name)).Does
        (ReplaceStep l temporary name) d₂ fun _ d' =>
          d'.FileAt p name l (d.rightsFor (temporary :: l)) bytes ∧
            d'.entry? (temporary :: l) = none := fun d₂ hd₂ hfile₂ =>
    (syncFile_does device .sync (Q := fun _ d' => d' = d₂) rfl).bind fun _ hafter => by
      rw [hafter]
      exact move_does hd₂ h hne hfile₂
  by_cases hbytes : bytes = []
  · subst hbytes
    exact hfinish d₁ hd₁ hfile₁
  · simp only [ne_eq, hbytes, not_false_eq_true, if_true]
    exact DiskTask.Does.andThen hsound hd₁ hwrite fun _ d₂ hd₂ _ => hfinish d₂ hd₂

end

end Disk

end StorageNode
