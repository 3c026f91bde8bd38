import StorageNode.Proofs.Disk.Tree

/-!
# Going down a path

Where there are no links, what a path leads to is found by one walk down from where the path begins
(`Disk.descend`), each piece entering a directory. `Disk.reach` goes down a whole path. Behind a name
it goes down one directory more (`Disk.reach_join`), so everything a reader asks about `p / n` is
decided by one look into the directory that `p` leads to (`Disk.locate_join`,
`Disk.isDirectory_join_iff`), provided the text is one that may be used at all (`Disk.fault?`).

What can be reached stays within reach as long as directories stay (`Disk.reach_mono`).
-/

namespace StorageNode

namespace Disk

/-- Enters a directory by its name. -/
def enter (d : Disk) (cur : Location) (name : String) : Except DiskError Location :=
  if !(d.rightsOn cur).search then .error .denied
  else
    match d.find cur name with
    | .error e => .error e
    | .ok none => .error .notFound
    | .ok (some (.directory _)) => .ok (name :: cur)
    | .ok (some _) => .error .notDirectory

/-- Goes down from a directory, through directories only. -/
def descend (d : Disk) : Location → List String → Except DiskError Location
  | cur, [] => .ok cur
  | cur, p :: ps =>
    if p = "" then d.descend cur ps
    else if !(d.rightsOn cur).search then .error .denied
    else if p = "." then d.descend cur ps
    else if p = ".." then d.descend cur.tail ps
    else
      match d.enter cur p with
      | .error e => .error e
      | .ok l => d.descend l ps

/-- Where a path leads to through directories only. -/
def reach (d : Disk) (p : FilePath) : Except DiskError Location :=
  d.descend (start workplace p.text) (piecesOf p.text)

/-- What is wrong with the text of a path. -/
def fault? (p : FilePath) : Option DiskError :=
  if p.text.toList.contains '\x00' then some .zeroInPath
  else if p.text = "" then some .notFound
  else if pathLimit ≤ p.text.utf8ByteSize then some .nameTooLong
  else none

/-- Looks for a name in a directory. -/
def lookUp (d : Disk) (cur : Location) (name : String) : Except DiskError Location :=
  if !(d.rightsOn cur).search then .error .denied
  else
    match d.find cur name with
    | .error e => .error e
    | .ok none => .error .notFound
    | .ok (some _) => .ok (name :: cur)

/-! ## Descents -/

section

variable {d d' : Disk}

theorem descend_append (cur : Location) (ps qs : List String) :
    d.descend cur (ps ++ qs) = (d.descend cur ps).bind fun l => d.descend l qs := by
  induction ps generalizing cur with
  | nil => rfl
  | cons p ps ih =>
      rw [List.cons_append, descend, descend]
      split
      · exact ih cur
      split
      · rfl
      split
      · exact ih cur
      split
      · exact ih cur.tail
      cases d.enter cur p with
      | error e => rfl
      | ok l => exact ih l

/-- A name at the end enters one more directory. -/
theorem descend_name {name : String} (h : FilePath.IsName name) (cur : Location) :
    d.descend cur [name] = d.enter cur name := by
  rw [descend, if_neg h.ne_empty]
  cases hs : (d.rightsOn cur).search with
  | false => simp [enter, hs]
  | true =>
      simp only [Bool.not_true, Bool.false_eq_true, if_false, if_neg h.ne_dot, if_neg h.ne_dots]
      cases d.enter cur name <;> rfl

/-- An empty piece at the end is no step. -/
theorem descend_append_empty (cur : Location) (ps : List String) :
    d.descend cur (ps ++ [""]) = d.descend cur ps := by
  rw [descend_append]
  cases d.descend cur ps <;> rfl

/-- Nor are empty pieces alone. -/
theorem descend_empty (cur : Location) {ps : List String} (h : ∀ p ∈ ps, p = "") :
    d.descend cur ps = .ok cur := by
  induction ps with
  | nil => rfl
  | cons p ps ih =>
      rw [descend, if_pos (h p List.mem_cons_self)]
      exact ih fun q hq => h q (List.mem_cons_of_mem _ hq)

/-- A directory with the right to search it. -/
theorem exists_of_search {l : Location} (h : (d.rightsOn l).search = true) :
    ∃ r, d.entry? l = some (.directory r) ∧ r.search = true := by
  unfold rightsOn at h
  split at h
  · next r hr => exact ⟨r, hr, h⟩
  · simp at h

theorem rightsOn_eq {l : Location} {r : Rights} (h : d.entry? l = some (.directory r)) :
    d.rightsOn l = r := by
  rw [rightsOn, h]

/-- To enter a directory is to be allowed to, and to find it there. -/
theorem enter_eq_ok_iff {cur l : Location} {name : String} :
    d.enter cur name = .ok l ↔ l = name :: cur ∧ (d.rightsOn cur).search = true ∧
      name.utf8ByteSize ≤ nameLimit ∧ ∃ r, d.entry? (name :: cur) = some (.directory r) := by
  unfold enter find
  by_cases hs : (d.rightsOn cur).search = true
  · by_cases hn : nameLimit < name.utf8ByteSize
    · simp [hs, hn, Nat.not_le.mpr hn]
    · cases he : d.entry? (name :: cur) with
      | none => simp [hs, hn]
      | some e => cases e <;> simp [hs, hn, eq_comm, Nat.le_of_not_lt]
  · simp [hs]

/-- What is found is the entry there. -/
theorem entry?_of_find {cur : Location} {name : String} {o : Option DiskEntry}
    (h : d.find cur name = .ok o) : d.entry? (name :: cur) = o := by
  unfold find at h
  split at h
  · simp at h
  · exact Except.ok.inj h

/-! ## Without links a path is a descent -/

theorem find_ne_link (hd : d.LinkFree) (cur : Location) (name target : String) :
    d.find cur name ≠ .ok (some (.link target)) := by
  unfold find
  split
  · simp
  · exact fun h => hd _ target (Except.ok.inj h)

/-- **A path that ends in a name** leads down to the directory that holds the name. -/
theorem advance_append_name (hd : d.LinkFree) {name : String} (h : FilePath.IsName name) :
    ∀ (ps : List String) (cur : Location), d.advance cur (ps ++ [name]) =
      (d.descend cur ps).bind fun l =>
        if (d.rightsOn l).search then .ok (.goal (.named l name false)) else .error .denied
  | [], cur => by
      rw [List.nil_append, advance, if_neg h.ne_empty]
      cases hs : (d.rightsOn cur).search <;>
        simp [descend, Except.bind, hs, h.ne_dot, h.ne_dots]
  | p :: ps, cur => by
      have ih := advance_append_name hd h ps
      have hnot : ((ps ++ [name]).all (· = "")) = false := by simp [h.ne_empty]
      rw [List.cons_append, advance, descend]
      split
      · exact ih cur
      split
      · rfl
      next hs =>
      split
      · exact ih cur
      split
      · exact ih cur.tail
      rw [hnot, enter, if_neg hs]
      simp only [Bool.false_eq_true, if_false]
      cases hf : d.find cur p with
      | error e => rfl
      | ok o =>
          cases o with
          | none => rfl
          | some e =>
              cases e with
              | file => rfl
              | directory => exact ih (p :: cur)
              | link target => exact absurd hf (find_ne_link hd _ _ _)

/-- A path that is followed to an end without meeting a link. -/
theorem follow_of_goal (hd : d.LinkFree) {aim : Aim} {cur : Location} {ps : List String} {g : Goal}
    (links : Nat) (h : d.advance cur ps = .ok (.goal g)) : d.follow aim links cur ps = .ok g := by
  have hfor : d.advanceFor aim cur ps = .ok (.goal g) := by
    rw [advanceFor, h]
    cases g with
    | directory l => rfl
    | named dir name separator =>
        cases he : d.entry? (name :: dir) with
        | none => simp [he]
        | some e =>
            cases e with
            | link target => exact absurd he (hd _ target)
            | _ => simp [he]
  unfold follow
  rw [hfor]

theorem follow_of_error {aim : Aim} {cur : Location} {ps : List String} {e : DiskError}
    (links : Nat) (h : d.advance cur ps = .error e) : d.follow aim links cur ps = .error e := by
  have hfor : d.advanceFor aim cur ps = .error e := by rw [advanceFor, h]
  unfold follow
  rw [hfor]

end

/-! ## Behind a name -/

section

variable {d d' : Disk} {p : FilePath} {name : String} {l : Location}

/-- A path with a fault is not followed. -/
theorem resolve_of_fault {e : DiskError} (h : fault? p = some e) (d : Disk) (aim : Aim) :
    d.resolve aim p = .error e := by
  unfold fault? at h
  unfold resolve
  split at h
  · next hc => rw [if_pos hc, Option.some.inj h]
  next hc =>
  rw [if_neg hc]
  split at h
  · next hc => rw [if_pos hc, Option.some.inj h]
  next hc =>
  rw [if_neg hc]
  split at h
  · next hc => rw [if_pos hc, Option.some.inj h]
  · simp at h

/-- A path without a fault is followed from where it begins. -/
theorem resolve_of_no_fault (h : fault? p = none) (d : Disk) (aim : Aim) :
    d.resolve aim p = d.follow aim linkLimit (start workplace p.text) (piecesOf p.text) := by
  unfold fault? at h
  unfold resolve
  split at h
  · simp at h
  next hc =>
  rw [if_neg hc]
  split at h
  · simp at h
  next hc =>
  rw [if_neg hc]
  split at h
  · simp at h
  · next hc => rw [if_neg hc]

/-- The pieces of a path with a name behind it: the name is the last, and an empty piece in front of
it, which a separator at the end of the path leaves, is lost. -/
theorem exists_piecesOf_join (p : FilePath) (h : FilePath.IsName name) :
    ∃ ps, piecesOf (p / name).text = ps ++ [name] ∧
      (piecesOf p.text = ps ∨ piecesOf p.text = ps ++ [""]) := by
  have hjoin := FilePath.splitPieces_appendName p.text.toList h.no_separator
  rw [← FilePath.toList_join p h] at hjoin
  rw [piecesOf, hjoin]
  split
  · next hlast =>
      obtain ⟨qs, hqs⟩ := List.getLast?_eq_some_iff.mp hlast
      refine ⟨qs.map String.ofList, by simp [hqs], .inr ?_⟩
      rw [piecesOf, hqs, List.map_append]
      rfl
  · exact ⟨(FilePath.splitPieces p.text.toList).map String.ofList, by simp, .inl rfl⟩

theorem start_join (p : FilePath) (h : FilePath.IsName name) (cur : Location) :
    start cur (p / name).text = start cur p.text := by
  have habs : (⟨(p / name).text⟩ : FilePath).isAbsolute = (⟨p.text⟩ : FilePath).isAbsolute :=
    FilePath.isAbsolute_join p h
  rw [start, start, habs]

/-- **Behind a name there is one directory more to enter.** -/
theorem reach_join (d : Disk) (p : FilePath) (h : FilePath.IsName name) :
    d.reach (p / name) = (d.reach p).bind fun l => d.enter l name := by
  obtain ⟨ps, hjoin, hps⟩ := exists_piecesOf_join p h
  have hsame : d.descend (start workplace p.text) (piecesOf p.text) =
      d.descend (start workplace p.text) ps := by
    rcases hps with hps | hps
    · rw [hps]
    · rw [hps, descend_append_empty]
  rw [reach, reach, start_join p h, hjoin, descend_append, hsame]
  exact congrArg _ (funext fun l => descend_name h l)

/-- A name is looked for in the directory that its path leads to. -/
theorem resolve_join (hd : d.LinkFree) (aim : Aim) (p : FilePath) (h : FilePath.IsName name) :
    d.resolve aim (p / name) =
      match fault? (p / name) with
      | some e => .error e
      | none => (d.reach p).bind fun l =>
          if (d.rightsOn l).search then .ok (.named l name false) else .error .denied := by
  obtain ⟨ps, hjoin, hps⟩ := exists_piecesOf_join p h
  have hreach : d.reach p = d.descend (start workplace p.text) ps := by
    rcases hps with hps | hps
    · rw [reach, hps]
    · rw [reach, hps, descend_append_empty]
  have hadvance := advance_append_name hd h ps (start workplace p.text)
  rw [← hjoin, ← hreach] at hadvance
  cases hf : fault? (p / name) with
  | some e => exact resolve_of_fault hf d aim
  | none =>
  rw [resolve_of_no_fault hf, start_join p h]
  cases hr : d.reach p with
  | error e =>
      rw [hr] at hadvance
      exact follow_of_error linkLimit hadvance
  | ok l =>
      rw [hr] at hadvance
      simp only [Except.bind] at hadvance ⊢
      cases hs : (d.rightsOn l).search with
      | true =>
          rw [hs] at hadvance
          exact follow_of_goal hd linkLimit hadvance
      | false =>
          rw [hs] at hadvance
          exact follow_of_error linkLimit hadvance

/-- Where a path that ends in a name leads to. -/
theorem locate_join (hd : d.LinkFree) (p : FilePath) (h : FilePath.IsName name) :
    d.locate (p / name) =
      match fault? (p / name) with
      | some e => .error e
      | none => (d.reach p).bind fun l => d.lookUp l name := by
  rw [locate, resolve_join hd .use p h]
  cases fault? (p / name) with
  | some e => rfl
  | none =>
      cases d.reach p with
      | error e => rfl
      | ok l =>
          simp only [Except.bind, lookUp]
          cases hs : (d.rightsOn l).search with
          | false => rfl
          | true =>
              simp only [if_true, Bool.not_true, Bool.false_eq_true, if_false]
              cases d.find l name with
              | error e => rfl
              | ok o =>
                  cases o with
                  | none => rfl
                  | some e => cases e <;> rfl

/-- What a name leads to bears the name in the directory that its path leads to. -/
theorem exists_of_locate_join (hd : d.LinkFree) (h : FilePath.IsName name)
    (hl : d.locate (p / name) = .ok l) : ∃ k, d.reach p = .ok k ∧ l = name :: k := by
  rw [locate_join hd p h] at hl
  cases hf : fault? (p / name) with
  | some e => simp [hf] at hl
  | none =>
      cases hr : d.reach p with
      | error e => simp [hf, hr, Except.bind] at hl
      | ok k =>
          simp only [hf, hr, Except.bind, lookUp] at hl
          split at hl
          · simp at hl
          split at hl
          · simp at hl
          · simp at hl
          · exact ⟨k, rfl, (Except.ok.inj hl).symm⟩

/-! ## Any path -/

/-- Where a path that names something gets to through directories only. -/
def land (d : Disk) : Goal → Except DiskError Location
  | .directory l => .ok l
  | .named l n _ => d.enter l n

/-- A path that is followed is a descent: both stop for the same reason, or the descent gets to what
is named, in a directory that may be searched. -/
theorem exists_goal (hd : d.LinkFree) : ∀ (ps : List String) (cur : Location),
    ∃ r : Except DiskError Goal, d.advance cur ps = r.map Stop.goal ∧
      d.descend cur ps = r.bind d.land ∧
      ∀ {dir n s}, r = .ok (.named dir n s) → (d.rightsOn dir).search = true
  | [], cur => ⟨.ok (.directory cur), rfl, rfl, by simp⟩
  | p :: ps, cur => by
      have ih := exists_goal hd ps
      rw [advance, descend]
      split
      · exact ih cur
      split
      · exact ⟨.error .denied, rfl, rfl, by simp⟩
      next hs =>
      split
      · exact ih cur
      split
      · exact ih cur.tail
      split
      · next hall =>
          -- the last name: what is behind it are separators only
          have hrest : ∀ q ∈ ps, q = "" := by simpa using hall
          refine ⟨.ok (.named cur p (decide (ps ≠ []))), rfl, ?_, fun heq => ?_⟩
          · simp only [Except.bind, land]
            cases d.enter cur p with
            | error e => rfl
            | ok l => exact descend_empty l hrest
          · obtain ⟨rfl, -, -⟩ := Goal.named.inj (Except.ok.inj heq)
            simpa using hs
      · rw [enter, if_neg hs]
        cases hf : d.find cur p with
        | error e => exact ⟨.error e, rfl, rfl, by simp⟩
        | ok o =>
            cases o with
            | none => exact ⟨.error .notFound, rfl, rfl, by simp⟩
            | some e =>
                cases e with
                | file => exact ⟨.error .notDirectory, rfl, rfl, by simp⟩
                | directory => exact ih (p :: cur)
                | link target => exact absurd hf (find_ne_link hd _ _ _)

/-- What a path names is where the descent gets to. -/
theorem exists_resolve (hd : d.LinkFree) (aim : Aim) {p : FilePath} (hp : fault? p = none) :
    ∃ r : Except DiskError Goal, d.resolve aim p = r ∧ d.reach p = r.bind d.land ∧
      ∀ {dir n s}, r = .ok (.named dir n s) → (d.rightsOn dir).search = true := by
  obtain ⟨r, hadvance, hreach, hsearch⟩ := exists_goal hd (piecesOf p.text) (start workplace p.text)
  refine ⟨r, ?_, hreach, hsearch⟩
  rw [resolve_of_no_fault hp]
  cases r with
  | error e => exact follow_of_error linkLimit hadvance
  | ok g => exact follow_of_goal hd linkLimit hadvance

/-- A path with a fault leads nowhere. -/
theorem fault?_of_locate {l : Location} (h : d.locate p = .ok l) : fault? p = none := by
  cases hf : fault? p with
  | none => rfl
  | some e => simp [locate, resolve_of_fault hf] at h

/-- A path that leads to a directory goes down to it. -/
theorem reach_of_locate (hd : d.LinkFree) {r : Rights} (h : d.locate p = .ok l)
    (hdir : d.entry? l = some (.directory r)) : d.reach p = .ok l := by
  obtain ⟨g, hresolve, hreach, hsearch⟩ := exists_resolve hd .use (fault?_of_locate h)
  rw [locate, hresolve] at h
  rw [hreach]
  cases g with
  | error e => simp at h
  | ok g =>
      cases g with
      | directory k => exact h
      | named dir n s =>
          have hs := hsearch rfl
          simp only [Except.bind, land] at h ⊢
          rw [enter, hs]
          cases hf : d.find dir n with
          | error e => simp [hf] at h
          | ok o =>
              cases o with
              | none => simp [hf] at h
              | some e =>
                  cases e with
                  | directory => simpa [hf] using h
                  | link target => exact absurd hf (find_ne_link hd _ _ _)
                  | file r' content =>
                      cases s with
                      | true => simp [hf] at h
                      | false =>
                          obtain rfl : n :: dir = l := by simpa [hf] using h
                          simpa [hdir] using entry?_of_find hf

/-- What is gone down to is what the path leads to. -/
theorem locate_of_reach (hd : d.LinkFree) (hp : fault? p = none) (h : d.reach p = .ok l) :
    d.locate p = .ok l := by
  obtain ⟨g, hresolve, hreach, -⟩ := exists_resolve hd .use hp
  rw [hreach] at h
  rw [locate, hresolve]
  cases g with
  | error e => simp [Except.bind] at h
  | ok g =>
      cases g with
      | directory k => exact h
      | named dir n s =>
          obtain ⟨rfl, -, hn, r, hr⟩ := enter_eq_ok_iff.mp h
          simp [find, Nat.not_lt.mpr hn, hr]

/-! ## What readers see -/

@[simp] theorem view_isDirectory (d : Disk) (p : FilePath) :
    d.view.isDirectory p = d.isDirectory p := rfl

@[simp] theorem view_isFile (d : Disk) (p : FilePath) : d.view.isFile p = d.isFile p := rfl

@[simp] theorem view_read (d : Disk) (p : FilePath) : d.view.read p = d.read p := rfl

/-- A path that leads to a directory. -/
theorem isDirectory_iff : d.isDirectory p = true ↔
    ∃ l r, d.locate p = .ok l ∧ d.entry? l = some (.directory r) := by
  unfold isDirectory
  cases d.locate p with
  | error e => simp
  | ok l =>
      cases he : d.entry? l with
      | none => simp [he]
      | some e => cases e <;> simp [he]

/-- **A path that ends in a name leads to a directory if the descent gets there.** -/
theorem isDirectory_join_iff (hd : d.LinkFree) (p : FilePath) (h : FilePath.IsName name) :
    d.isDirectory (p / name) = true ↔
      fault? (p / name) = none ∧ ∃ l, d.reach (p / name) = .ok l := by
  rw [isDirectory_iff]
  constructor
  · rintro ⟨l, r, hl, hr⟩
    exact ⟨fault?_of_locate hl, l, reach_of_locate hd hl hr⟩
  · rintro ⟨hp, l, hl⟩
    have hlocate := locate_of_reach hd hp hl
    rw [reach_join d p h] at hl
    cases hr : d.reach p with
    | error e => simp [hr, Except.bind] at hl
    | ok k =>
        rw [hr] at hl
        obtain ⟨rfl, -, -, r, hr⟩ := enter_eq_ok_iff.mp hl
        exact ⟨_, r, hlocate, hr⟩

/-- What is wrong with a text stays wrong when the text goes on. -/
theorem fault?_of_append {q : FilePath} {s : String} (hq : q.text = p.text ++ s) (hp : p.text ≠ "")
    (hf : fault? q = none) : fault? p = none := by
  rw [fault?, hq] at hf
  rw [fault?]
  by_cases hzero : p.text.toList.contains '\x00' = true
  · rw [String.toList_append, List.contains_append, hzero] at hf
    simp at hf
  by_cases hlong : pathLimit ≤ p.text.utf8ByteSize
  · have hlonger : pathLimit ≤ (p.text ++ s).utf8ByteSize := by
      rw [String.utf8ByteSize_append]
      omega
    rw [if_pos hlonger] at hf
    split at hf
    · simp at hf
    split at hf <;> simp at hf
  rw [if_neg hzero, if_neg hp, if_neg hlong]

/-- What is wrong with a path stays wrong behind a name. -/
theorem fault?_of_join (h : FilePath.IsName name) (hp : p.text ≠ "")
    (hf : fault? (p / name) = none) : fault? p = none := by
  obtain ⟨s, hs⟩ : ∃ s, (p / name).text = p.text ++ s := by
    show ∃ s, (p.join ⟨name⟩).text = _
    rw [FilePath.join, if_neg (by simp [FilePath.not_isAbsolute_of_isName h])]
    dsimp only
    split
    · exact ⟨name, rfl⟩
    · exact ⟨"/" ++ name, String.append_assoc⟩
  exact fault?_of_append hs hp hf

/-- A name that is reached is that of a directory in the one that its path leads to. -/
theorem exists_of_reach_join (h : FilePath.IsName name) (hl : d.reach (p / name) = .ok l) :
    ∃ k, d.reach p = .ok k ∧ l = name :: k ∧ d.enter k name = .ok l := by
  rw [reach_join d p h] at hl
  cases hr : d.reach p with
  | error e => simp [hr, Except.bind] at hl
  | ok k =>
      rw [hr] at hl
      exact ⟨k, rfl, (enter_eq_ok_iff.mp hl).1, hl⟩

/-- What leads to a directory by two names leads to one by the first of them. -/
theorem isDirectory_of_join (hd : d.LinkFree) {m : String} (hm : FilePath.IsName m)
    (h : FilePath.IsName name) (hdir : d.isDirectory (p / m / name) = true) :
    d.isDirectory (p / m) = true := by
  obtain ⟨hf, l, hl⟩ := (isDirectory_join_iff hd _ h).mp hdir
  obtain ⟨k, hk, -⟩ := exists_of_reach_join h hl
  exact (isDirectory_join_iff hd p hm).mpr
    ⟨fault?_of_join h (FilePath.text_join_ne_empty p hm) hf, k, hk⟩

/-! ## Other disks -/

/-- Every directory of the one disk is there in the other, with the same rights. -/
def Keeps (d d' : Disk) : Prop :=
  ∀ l r, d.entry? l = some (.directory r) → d'.entry? l = some (.directory r)

theorem search_mono (hkeep : d.Keeps d') {l : Location} (h : (d.rightsOn l).search = true) :
    (d'.rightsOn l).search = true := by
  obtain ⟨r, hr, hsearch⟩ := exists_of_search h
  rw [rightsOn_eq (hkeep _ _ hr), hsearch]

theorem enter_mono (hkeep : d.Keeps d') {cur l : Location} (h : d.enter cur name = .ok l) :
    d'.enter cur name = .ok l := by
  obtain ⟨rfl, hs, hn, r, hr⟩ := enter_eq_ok_iff.mp h
  exact enter_eq_ok_iff.mpr ⟨rfl, search_mono hkeep hs, hn, r, hkeep _ _ hr⟩

theorem descend_mono (hkeep : d.Keeps d') {ps : List String} {cur : Location}
    (h : d.descend cur ps = .ok l) : d'.descend cur ps = .ok l := by
  induction ps generalizing cur with
  | nil => exact h
  | cons p ps ih =>
      rw [descend] at h ⊢
      by_cases hempty : p = ""
      · rw [if_pos hempty] at h ⊢
        exact ih h
      rw [if_neg hempty] at h ⊢
      cases hs : (d.rightsOn cur).search with
      | false => simp [hs] at h
      | true =>
          rw [hs] at h
          rw [search_mono hkeep hs]
          simp only [Bool.not_true, Bool.false_eq_true, if_false] at h ⊢
          by_cases hdot : p = "."
          · rw [if_pos hdot] at h ⊢
            exact ih h
          rw [if_neg hdot] at h ⊢
          by_cases hdots : p = ".."
          · rw [if_pos hdots] at h ⊢
            exact ih h
          rw [if_neg hdots] at h ⊢
          cases he : d.enter cur p with
          | error e => simp [he] at h
          | ok k =>
              rw [he] at h
              rw [enter_mono hkeep he]
              exact ih h

/-- **What is reached stays within reach** as long as directories stay. -/
theorem reach_mono (hkeep : d.Keeps d') (h : d.reach p = .ok l) : d'.reach p = .ok l :=
  descend_mono hkeep h

/-- What leads to a directory goes on to do so as long as directories stay. -/
theorem isDirectory_join_mono (hd : d.LinkFree) (hd' : d'.LinkFree) (hkeep : d.Keeps d')
    (h : FilePath.IsName name) (hdir : d.isDirectory (p / name) = true) :
    d'.isDirectory (p / name) = true := by
  obtain ⟨hf, l, hl⟩ := (isDirectory_join_iff hd p h).mp hdir
  exact (isDirectory_join_iff hd' p h).mpr ⟨hf, l, reach_mono hkeep hl⟩

/-- A path leads to the same directory of both disks, which is the same there and holds the same under a
name. -/
structure SameAt (d d' : Disk) (p : FilePath) (name : String) : Prop where
  reach : d'.reach p = d.reach p
  directory : ∀ {k}, d.reach p = .ok k → d'.entry? k = d.entry? k
  entry : ∀ {k}, d.reach p = .ok k → d'.entry? (name :: k) = d.entry? (name :: k)

/-- Behind such a name there is the same directory to enter. -/
theorem SameAt.reach_join (hat : d.SameAt d' p name) (h : FilePath.IsName name) :
    d'.reach (p / name) = d.reach (p / name) := by
  rw [Disk.reach_join d p h, Disk.reach_join d' p h, hat.reach]
  cases hr : d.reach p with
  | error e => rfl
  | ok k =>
      have hrights : d'.rightsOn k = d.rightsOn k := by rw [rightsOn, rightsOn, hat.directory hr]
      simp only [Except.bind, enter, find, hrights, hat.entry hr]

/-- Such a name leads to the same place, where the same is. -/
theorem SameAt.locate_join (hat : d.SameAt d' p name) (hd : d.LinkFree) (hd' : d'.LinkFree)
    (h : FilePath.IsName name) :
    d'.locate (p / name) = d.locate (p / name) ∧
      ∀ k, d.locate (p / name) = .ok k → d'.entry? k = d.entry? k := by
  rw [Disk.locate_join hd p h, Disk.locate_join hd' p h, hat.reach]
  cases fault? (p / name) with
  | some e => exact ⟨rfl, by simp⟩
  | none =>
      cases hr : d.reach p with
      | error e => exact ⟨rfl, by simp [Except.bind]⟩
      | ok k =>
          have hname := hat.entry hr
          have hrights : d'.rightsOn k = d.rightsOn k := by rw [rightsOn, rightsOn, hat.directory hr]
          simp only [Except.bind, lookUp, find, hname, hrights]
          refine ⟨trivial, fun m hm => ?_⟩
          split at hm
          · simp at hm
          split at hm
          · simp at hm
          · simp at hm
          · obtain rfl := Except.ok.inj hm
            exact hname

/-- **Readers get the same answers** about a path that leads to the same place, if the same is there. -/
theorem answers_of_locate (hlocate : d'.locate p = d.locate p)
    (hsame : ∀ k, d.locate p = .ok k → d'.entry? k = d.entry? k) :
    d.view.isDirectory p = d'.view.isDirectory p ∧ d.view.isFile p = d'.view.isFile p ∧
      d.view.read p = d'.view.read p := by
  simp only [view_isDirectory, view_isFile, view_read]
  unfold isDirectory isFile read
  rw [hlocate]
  cases hl : d.locate p with
  | error e => exact ⟨rfl, rfl, rfl⟩
  | ok k =>
      simp only [hsame k hl]
      exact ⟨trivial, trivial, trivial⟩

/-- A path leads to the same directory of both disks, and there they hold the same. -/
structure SameFrom (d d' : Disk) (p : FilePath) : Prop where
  reach : d'.reach p = d.reach p
  entry : ∀ {k m}, d.reach p = .ok k → k <:+ m → d'.entry? m = d.entry? m

theorem SameFrom.sameAt (hfrom : d.SameFrom d' p) (name : String) : d.SameAt d' p name where
  reach := hfrom.reach
  directory hr := hfrom.entry hr (List.suffix_refl _)
  entry hr := hfrom.entry hr (List.suffix_cons name _)

/-- Below such a directory both disks are the same. -/
theorem SameFrom.join (hfrom : d.SameFrom d' p) (h : FilePath.IsName name) :
    d.SameFrom d' (p / name) where
  reach := (hfrom.sameAt name).reach_join h
  entry := by
    intro l m hl hm
    obtain ⟨k, hk, rfl, -⟩ := exists_of_reach_join h hl
    exact hfrom.entry hk ((List.suffix_cons name k).trans hm)

/-- Readers get the same answers about a name in a directory that is the same on both disks. -/
theorem SameFrom.answers (hfrom : d.SameFrom d' p) (hd : d.LinkFree) (hd' : d'.LinkFree)
    (h : FilePath.IsName name) :
    d.view.isDirectory (p / name) = d'.view.isDirectory (p / name) ∧
      d.view.isFile (p / name) = d'.view.isFile (p / name) ∧
      d.view.read (p / name) = d'.view.read (p / name) := by
  obtain ⟨hlocate, hsame⟩ := (hfrom.sameAt name).locate_join hd hd' h
  exact answers_of_locate hlocate hsame

end

end Disk

end StorageNode
