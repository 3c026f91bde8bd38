import StorageNode.Proofs.Disk.Interruption
import StorageNode.Proofs.Disk.Passage

/-!
# Directories made on the way

Making a path makes its missing ancestors, from above. A directory that has been made last is empty,
and what it lies above is still missing: so as long as directories are being made, the path itself
leads nowhere (`Disk.Built.fresh`), and nothing is changed but that ancestors come to be
(`Disk.Built.grown`). One step keeps this (`Built.apply`), and so a whole task does, wherever it is cut
off (`makePath_survives`).

There is one condition. If two dots stand behind a directory that is missing, making that directory
can bring to light what has been there all along: `x/..` leads nowhere without `x`, and with it to
where `x` is. `Disk.Steady` says that no ancestor of a path ends in two dots and is not found.
-/

namespace StorageNode

namespace Disk

open FilePath (Behind IsName)

/-! ## The last piece of a path -/

section

variable {d : Disk} {aim : Aim} {cur l k : Location} {ps : List String} {p q : FilePath}
  {x : List Char} {name : String}

theorem follow_of_advanceFor {g : Goal} (h : d.advanceFor aim cur ps = .ok (.goal g)) (links : Nat) :
    d.follow aim links cur ps = .ok g := by
  unfold follow
  rw [h]

theorem follow_of_advanceFor_error {e : DiskError} (h : d.advanceFor aim cur ps = .error e)
    (links : Nat) : d.follow aim links cur ps = .error e := by
  unfold follow
  rw [h]

/-- A piece of a path is one of the two dots, or a name. -/
theorem isName_of_behind (h : p.Behind q x) (hdot : x ≠ ['.']) (hdots : x ≠ ['.', '.']) :
    IsName (String.ofList x) := by
  obtain ⟨ps, js, hpieces, -⟩ := h.pieces
  have hmem : x ∈ p.pieces.2 := by simp [hpieces]
  refine ⟨ofList_ne_empty h, by simpa using FilePath.not_mem_of_mem_pieces hmem, fun heq => ?_,
    fun heq => ?_⟩
  · exact hdot (by simpa using congrArg String.toList heq)
  · exact hdots (by simpa using congrArg String.toList heq)

/-- What is wrong with the text of a path that has one is not that nothing is found. -/
theorem fault?_ne_notFound (h : p.text ≠ "") : fault? p ≠ some .notFound := by
  rw [fault?, if_neg h]
  split
  · simp
  split <;> simp

/-- A path with an ancestor that has a text is no shorter than it. -/
theorem fault?_of_behind (h : p.Behind q x) (hq : q.text ≠ "") (hf : fault? p = none) :
    fault? q = none := by
  obtain ⟨s, hs⟩ := h.text
  exact fault?_of_append hs hq hf

/-- The last piece of a path is followed from where its parent arrives. -/
theorem resolve_of_passage {n : Nat} (h : p.Behind q x) (hf : fault? p = none)
    (hp : d.passage q = .ok (l, n)) (aim : Aim) :
    d.resolve aim p = d.follow aim n l [String.ofList x] := by
  rw [resolve_behind h, hf, hp]
  rfl

/-- A last piece of dots leads to a directory, whatever it is followed for. -/
theorem resolve_of_advance {n : Nat} (h : p.Behind q x) (hf : fault? p = none)
    (hp : d.passage q = .ok (l, n)) (ha : d.advance l [String.ofList x] = .ok (.goal (.directory k)))
    (aim : Aim) : d.resolve aim p = .ok (.directory k) := by
  rw [resolve_of_passage h hf hp, follow_of_advanceFor (by rw [advanceFor, ha])]

/-- A name is looked for in the directory that the parent arrives in. -/
theorem resolve_name (aim : Aim) {n : Nat} (h : p.Behind q x) (hf : fault? p = none)
    (hp : d.passage q = .ok (l, n)) (hname : IsName (String.ofList x))
    (hs : (d.rightsOn l).search = true)
    (haim : ∀ target, d.entry? (String.ofList x :: l) = some (.link target) →
      aim.follows false = false) : d.resolve aim p = .ok (.named l (String.ofList x) false) := by
  have hadvance : d.advance l [String.ofList x] =
      .ok (.goal (.named l (String.ofList x) false)) := by
    simp [advance, hs, hname.ne_empty, hname.ne_dot, hname.ne_dots]
  rw [resolve_of_passage h hf hp]
  refine follow_of_advanceFor ?_ n
  rw [advanceFor, hadvance]
  cases he : d.entry? (String.ofList x :: l) with
  | none => simp [he]
  | some e =>
      cases e with
      | link target => simp [he, haim target he]
      | _ => simp [he]

/-- **What a path names, in the directory that its parent arrives in**: the directory itself or the
one above, or a name, unless that is a link and followed. -/
inductive Named (d : Disk) (p q : FilePath) (x : List Char) : Prop
  | error {e : DiskError} (h : ∀ aim, d.resolve aim p = .error e)
      (hcause : e = .notFound → d.passage q = .error .notFound)
  | dots {k : Location} (hx : x = ['.'] ∨ x = ['.', '.'])
      (h : ∀ aim, d.resolve aim p = .ok (.directory k))
  | name {l : Location} (usable : fault? p = none) (arrives : ∃ n, d.passage q = .ok (l, n))
      (isName : IsName (String.ofList x)) (search : (d.rightsOn l).search = true)
      (h : ∀ aim : Aim, (∀ target, d.entry? (String.ofList x :: l) = some (.link target) →
        aim.follows false = false) → d.resolve aim p = .ok (.named l (String.ofList x) false))

theorem named_of_behind (d : Disk) (h : p.Behind q x) : d.Named p q x := by
  have hx := ofList_ne_empty h
  cases hf : fault? p with
  | some e =>
      exact .error (fun aim => resolve_of_fault hf d aim) fun he =>
        absurd (he ▸ hf) (fault?_ne_notFound h.text_ne_empty)
  | none =>
  cases hp : d.passage q with
  | error e =>
      refine .error (e := e) (fun aim => ?_) fun he => he ▸ hp
      rw [resolve_behind h, hf, hp]
      rfl
  | ok a =>
  obtain ⟨l, n⟩ := a
  cases hs : (d.rightsOn l).search with
  | false =>
      have hadvance : d.advance l [String.ofList x] = .error .denied := by
        rw [advance, if_neg hx, hs]
        rfl
      refine .error (e := .denied) (fun aim => ?_) (by simp)
      rw [resolve_of_passage h hf hp, follow_of_advanceFor_error (by rw [advanceFor, hadvance])]
  | true =>
  have hsearch : ¬ (!(d.rightsOn l).search) = true := by simp [hs]
  by_cases hdot : x = ['.']
  · refine .dots (.inl hdot) (resolve_of_advance (k := l) h hf hp ?_)
    rw [advance, if_neg hx, if_neg hsearch, if_pos (by rw [hdot])]
    rfl
  by_cases hdots : x = ['.', '.']
  · refine .dots (.inr hdots) (resolve_of_advance (k := l.tail) h hf hp ?_)
    rw [advance, if_neg hx, if_neg hsearch, if_neg (by rw [hdots]; decide), if_pos (by rw [hdots])]
    rfl
  have hname := isName_of_behind h hdot hdots
  exact .name hf ⟨n, hp⟩ hname hs fun aim haim => resolve_name aim h hf hp hname hs haim

/-- **A place for a new directory**: a name that is not taken, in the directory that the parent
arrives in. -/
structure NewAt (d : Disk) (p q : FilePath) (name : String) (l : Location) : Prop where
  usable : fault? p = none
  arrives : ∃ n, d.passage q = .ok (l, n)
  isName : IsName name
  search : (d.rightsOn l).search = true
  short : name.utf8ByteSize ≤ nameLimit
  empty : d.entry? (name :: l) = none

theorem newAt_of_ok (h : p.Behind q x) (hnew : newDirectory p d = .ok k) :
    ∃ l, k = String.ofList x :: l ∧ d.NewAt p q (String.ofList x) l := by
  cases named_of_behind d h with
  | error h _ => simp [newDirectory, h] at hnew
  | dots _ h => simp [newDirectory, h] at hnew
  | @name l hf hp hname hs h =>
      rcases newDirectory_of_named (h .name fun _ _ => rfl) with ⟨hok, hshort, he⟩ | ⟨e, herror, -⟩
      · exact ⟨l, Except.ok.inj (hnew.symm.trans hok), hf, hp, hname, hs, hshort, he⟩
      · simp [herror] at hnew

/-- A directory is passed by its name. -/
theorem arrive_directory (h : IsName name) (links : Nat) (hs : (d.rightsOn l).search = true)
    (hshort : name.utf8ByteSize ≤ nameLimit) {r : Rights}
    (he : d.entry? (name :: l) = some (.directory r)) :
    d.arrive links l [name] = .ok (name :: l, links) := by
  have hpass : d.pass l [name] = .ok (.inside (name :: l)) := by
    simp [pass, find, h.ne_empty, h.ne_dot, h.ne_dots, hs, Nat.not_lt.mpr hshort, he]
  unfold arrive
  rw [hpass]

/-- What is not there is not passed. -/
theorem arrive_missing (h : IsName name) (links : Nat) (he : d.entry? (name :: l) = none) :
    ∃ e, d.arrive links l [name] = .error e ∧
      ((d.rightsOn l).search = true → name.utf8ByteSize ≤ nameLimit → e = .notFound) := by
  obtain ⟨e, hpass, hcause⟩ : ∃ e, d.pass l [name] = .error e ∧
      ((d.rightsOn l).search = true → name.utf8ByteSize ≤ nameLimit → e = .notFound) := by
    cases hs : (d.rightsOn l).search with
    | false => exact ⟨.denied, by simp [pass, h.ne_empty, hs], by simp⟩
    | true =>
        by_cases hlong : nameLimit < name.utf8ByteSize
        · refine ⟨.nameTooLong, ?_, fun _ hshort => absurd hlong (Nat.not_lt.mpr hshort)⟩
          simp [pass, find, h.ne_empty, h.ne_dot, h.ne_dots, hs, hlong]
        · refine ⟨.notFound, ?_, fun _ _ => rfl⟩
          simp [pass, find, h.ne_empty, h.ne_dot, h.ne_dots, hs, hlong, he]
  refine ⟨e, ?_, hcause⟩
  unfold arrive
  rw [hpass]

/-- Where a directory is to be made, nothing arrives yet. -/
theorem NewAt.passage_eq (hb : p.Behind q x) (h : d.NewAt p q (String.ofList x) l) :
    d.passage p = .error .notFound := by
  obtain ⟨n, hn⟩ := h.arrives
  obtain ⟨e, he, hcause⟩ := arrive_missing h.isName n h.empty
  rw [passage_behind hb, hn]
  exact he.trans (by rw [hcause h.search h.short])

end

/-! ## The way to a path -/

/-- The paths on the way to one, from it upwards. -/
inductive OnWay (q : FilePath) : FilePath → Prop
  | last : OnWay q q
  | up {c a : FilePath} {y : List Char} (h : OnWay q c) (hb : c.Behind a y) : OnWay q a

/-- **No two dots come behind what is missing.** -/
def Steady (d : Disk) (p : FilePath) : Prop :=
  ∀ q ∈ p.ancestors, q.components.getLast? = some .up → d.locate q ≠ .error .notFound

section

variable {d d' : Disk} {p q a b : FilePath} {x : List Char} {l : Location}

theorem Steady.of_behind (h : d.Steady p) (hb : p.Behind q x) : d.Steady q := by
  intro a ha
  refine h a ?_
  rw [hb.ancestors]
  exact List.mem_cons_of_mem _ ha

namespace OnWay

theorem ancestors (h : OnWay q a) : a.ancestors <:+ q.ancestors := by
  induction h with
  | last => exact List.suffix_refl _
  | up _ hb ih =>
      rw [hb.ancestors] at ih
      exact (List.suffix_cons _ _).trans ih

theorem mem (h : OnWay q a) : a ∈ q.ancestors :=
  h.ancestors.subset (by rw [FilePath.ancestors, FilePath.ancestorsWithin]; exact List.mem_cons_self)

theorem start_eq (h : OnWay q a) (cur : Location) : start cur a.text = start cur q.text := by
  induction h with
  | last => rfl
  | up _ hb ih => exact (start_behind hb cur).symm.trans ih

theorem usable (h : OnWay q a) (hf : fault? q = none) (ha : a.text ≠ "") : fault? a = none := by
  induction h with
  | last => exact hf
  | up _ hb ih =>
      obtain ⟨s, hs⟩ := hb.text
      refine fault?_of_behind hb ha (ih fun hc => ha ?_)
      rw [hs] at hc
      exact (String.append_eq_empty_iff.mp hc).1

/-- What is not passed on the way is not passed at its end. -/
theorem passage_error {e : DiskError} (h : OnWay q a) (he : d.passage a = .error e) :
    d.passage q = .error e := by
  induction h with
  | last => exact he
  | up _ hb ih => exact ih (by rw [passage_behind hb, he]; rfl)

end OnWay

/-- Where new directories have come to be, the path led nowhere before, and now it leads nowhere or
to a directory that is empty. -/
structure Fresh (d : Disk) (q : FilePath) (d' : Disk) : Prop where
  start : ∃ r, d.entry? (start workplace q.text) = some (.directory r)
  missing : ∀ a, d.passage q ≠ .ok a
  empty : ∀ {l n}, d'.passage q = .ok (l, n) → ∀ name, d'.entry? (name :: l) = none

/-- **What making directories on the way to a path leaves**: a tree with some new directories, each
where an ancestor of the path leads. -/
structure Built (d : Disk) (q : FilePath) (d' : Disk) : Prop where
  tree : d'.IsTree
  grown : ∀ l, d'.entry? l = d.entry? l ∨
    (d.entry? l = none ∧ d'.entry? l = some (.directory .ofDirectory) ∧
      ∃ a, OnWay q a ∧ fault? a = none ∧ ∃ n, d'.passage a = .ok (l, n))
  fresh : d' = d ∨ Fresh d q d'

/-- A directory is made on the way to a path. -/
inductive WayStep (q : FilePath) (d : Disk) : DiskChange → Prop
  | makeDirectory {a b : FilePath} {x : List Char} {l : Location} (hf : fault? q = none)
      (hway : OnWay q a) (hb : a.Behind b x) (h : d.NewAt a b (String.ofList x) l) :
      WayStep q d (.makeDirectory (String.ofList x :: l))

theorem NewAt.vacant {name : String} (h : d.NewAt a b name l) : d.Vacant name l :=
  vacant_of_search h.isName h.search h.empty

theorem WayStep.sound {c : DiskChange} : WayStep q d c → d.Sound c
  | .makeDirectory _ _ _ h => .makeDirectory h.vacant

theorem Built.refl (hd : d.IsTree) (q : FilePath) : d.Built q d where
  tree := hd
  grown := fun _ => .inl rfl
  fresh := .inl rfl

/-- A new directory changes nothing but that something is found that was not. -/
theorem NewAt.alike {name : String} (h : d.NewAt a b name l) :
    d.Alike (· = .notFound) (DiskChange.apply d (.makeDirectory (name :: l))) := by
  intro m
  by_cases hm : m = name :: l
  · exact .inr (.inl ⟨hm ▸ h.empty, rfl⟩)
  · exact .inl (by simp [DiskChange.apply, hm])

/-- Where there were no links, there are none. -/
theorem Built.isPlain (hd : d.IsPlain) (h : d.Built q d') : d'.IsPlain where
  tree := h.tree
  linkFree := by
    intro l target hl
    rcases h.grown l with heq | ⟨-, hdir, -⟩
    · exact hd.linkFree l target (heq.symm.trans hl)
    · simp [hdir] at hl

theorem Built.alike (h : d.Built q d') : d.Alike (· = .notFound) d' := by
  intro l
  rcases h.grown l with heq | ⟨hnone, -⟩
  · exact .inl heq
  · exact .inr (.inl ⟨hnone, rfl⟩)

/-- A new directory is arrived in. -/
theorem NewAt.arrives_behind (hd : d.IsTree) (hb : a.Behind b x)
    (h : d.NewAt a b (String.ofList x) l) :
    ∃ n, passage (DiskChange.apply d (.makeDirectory (String.ofList x :: l))) a =
      .ok (String.ofList x :: l, n) := by
  obtain ⟨n, hn⟩ := h.arrives
  obtain ⟨r, hr, hs⟩ := exists_of_search h.search
  have hsound : d.Sound (.makeDirectory (String.ofList x :: l)) := .makeDirectory h.vacant
  have hl := hsound.entry?_of_directory hr
  refine ⟨n, ?_⟩
  rw [passage_behind hb, passage_mono hd h.alike hn]
  exact arrive_directory h.isName n (by rw [rightsOn_eq hl, hs]) h.short (r := .ofDirectory)
    (by simp [DiskChange.apply])

/-- A way begins in a directory if anything is made on it. -/
theorem NewAt.start (hd : d.IsTree) (hb : a.Behind b x) {name : String} (h : d.NewAt a b name l) :
    ∃ r, d.entry? (Disk.start workplace a.text) = some (.directory r) := by
  obtain ⟨n, hn⟩ := h.arrives
  rw [start_behind hb]
  by_cases htext : b.text = ""
  · have hps : ∀ r ∈ piecesOf b.text, r = "" := by rw [htext]; decide
    rw [passage, arrive_empty _ _ hps] at hn
    obtain ⟨heq, -⟩ := Prod.mk.inj (Except.ok.inj hn)
    obtain ⟨r, hr, -⟩ := exists_of_search h.search
    exact ⟨r, heq ▸ hr⟩
  · exact directory_of_passage hd htext hn

/-- Two dots do not come behind a directory that is missing on the way to a steady path. -/
theorem Steady.not_dots {c : FilePath} (h : d.Steady q) (hf : fault? q = none) (hway : OnWay q c)
    (hb : c.Behind a ['.', '.']) : d.passage a ≠ .error .notFound := by
  intro hmissing
  have hlast : c.components.getLast? = some .up := by
    rw [hb.components, List.getLast?_concat]
    rfl
  refine h c hway.mem hlast ?_
  rw [locate_eq, resolve_behind hb, hway.usable hf hb.text_ne_empty, hmissing]
  rfl

/-- **A directory that is made last is empty, and what it lies above is missing.** -/
theorem NewAt.empty_behind (hd : d.IsTree) (hway : OnWay q a) (hb : a.Behind b x)
    (h : d.NewAt a b (String.ofList x) l) (hdots : ∀ c, OnWay q c → ¬ c.Behind a ['.', '.'])
    {k : Location} {n : Nat}
    (hk : passage (DiskChange.apply d (.makeDirectory (String.ofList x :: l))) q = .ok (k, n))
    (name : String) :
    entry? (DiskChange.apply d (.makeDirectory (String.ofList x :: l))) (name :: k) = none := by
  have hvacant := h.vacant
  -- nothing lies in the new directory
  have hempty : ∀ m, entry? (DiskChange.apply d (.makeDirectory (String.ofList x :: l)))
      (m :: String.ofList x :: l) = none := by
    intro m
    rw [entry?_apply_of_not_mem (by simp [DiskChange.places])]
    cases he : d.entry? (m :: String.ofList x :: l) with
    | none => rfl
    | some e =>
        obtain ⟨-, r, hr⟩ := hd.parent he
        simp [h.empty] at hr
  obtain ⟨na, ha⟩ := h.arrives_behind hd hb
  cases hway with
  | last =>
      obtain ⟨rfl, -⟩ := Prod.mk.inj (Except.ok.inj (ha.symm.trans hk))
      exact hempty name
  | @up c _ y hc hby =>
      -- the path below it is not passed
      exfalso
      by_cases hdot : y = ['.']
      · exact hb.text_ne_empty (hby.dot hdot)
      by_cases hdd : y = ['.', '.']
      · exact hdots c hc (hdd ▸ hby)
      obtain ⟨e, he, -⟩ := arrive_missing (isName_of_behind hby hdot hdd) na (hempty _)
      have hcerror : passage (DiskChange.apply d (.makeDirectory (String.ofList x :: l))) c =
          .error e := by
        rw [passage_behind hby, ha]
        exact he
      rw [hc.passage_error hcerror] at hk
      simp at hk

/-- **Making one more directory on the way keeps what has been built.** -/
theorem Built.apply {c : DiskChange} (hd : d.IsTree) (hsteady : d.Steady q) (h : d.Built q d')
    (hc : WayStep q d' c) : d.Built q (c.apply d') := by
  obtain @⟨a, b, x, l, hf, hway, hb, hnew⟩ := hc
  have hmissing := hnew.passage_eq hb
  have hstart : ∃ r, d.entry? (start workplace q.text) = some (.directory r) := by
    rcases h.fresh with rfl | hfresh
    · rw [← hway.start_eq]
      exact hnew.start h.tree hb
    · exact hfresh.start
  -- it was missing in the beginning, too
  have hbefore : d.passage a = .error .notFound := by
    rcases passage_alike (p := a) hd h.alike (by rwa [hway.start_eq]) with heq | ⟨e, rfl, he⟩
    · exact heq.symm.trans hmissing
    · exact he
  have halike := hnew.alike
  refine ⟨h.tree.apply (.makeDirectory hnew.vacant), fun m => ?_, .inr ⟨hstart, fun y hy => ?_,
    fun hk name => ?_⟩⟩
  · by_cases hm : m = String.ofList x :: l
    · subst hm
      have hnone : d.entry? (String.ofList x :: l) = none := by
        rcases h.grown (String.ofList x :: l) with heq | ⟨hnone, -⟩
        · exact heq.symm.trans hnew.empty
        · exact hnone
      exact .inr ⟨hnone, by simp [DiskChange.apply], a, hway, hnew.usable,
        hnew.arrives_behind h.tree hb⟩
    · rw [entry?_apply_of_not_mem (by simpa [DiskChange.places] using hm)]
      rcases h.grown m with heq | ⟨hnone, hdir, a', ha', hf', n, hn⟩
      · exact .inl heq
      · exact .inr ⟨hnone, hdir, a', ha', hf', n, passage_mono h.tree halike hn⟩
  · simp [hway.passage_error hbefore] at hy
  · refine hnew.empty_behind h.tree hway hb (fun c hc hdots => ?_) hk name
    exact hsteady.not_dots hf hc hdots hbefore

end

/-! ## Making a path -/

section

variable {d : Disk} {q c : FilePath}

/-- Where there is no path to follow, no directory is made. -/
theorem newDirectory_of_root (d : Disk) : newDirectory ⟨"/"⟩ d = .error .alreadyThere := by
  have hf : fault? ⟨"/"⟩ = none := by decide
  have hresolve : d.resolve .name ⟨"/"⟩ = .ok (.directory []) := by
    rw [resolve_of_no_fault hf]
    exact follow_of_advanceFor (by rfl) linkLimit
  rw [newDirectory, hresolve]

/-- Nothing is made where no directory can be. -/
theorem settle_changes_of_error {e : DiskError} (h : newDirectory c d = .error e) :
    (settle c d).changes = [] := by
  rw [settle_of_error h]
  split <;> rfl

theorem settle_does_way (hf : fault? q = none) (hway : OnWay q c) (hc : c.Trim) (d : Disk) :
    (settle c).Does (WayStep q) d fun _ _ => True := by
  obtain ⟨b, y, hb, -⟩ := hc.exists_behind
  cases hnew : newDirectory c d with
  | ok k =>
      obtain ⟨l, rfl, hat⟩ := newAt_of_ok hb hnew
      refine ⟨?_, fun _ => trivial⟩
      rw [settle_of_ok hnew]
      exact .cons (.makeDirectory hf hway hb hat) (.nil _)
  | error e => exact ⟨by rw [settle_changes_of_error hnew]; exact .nil d, fun _ => trivial⟩

/-- Where nothing is left of a path, nothing is made. -/
theorem makeDirectories_of_empty (h : c.text = "") (d : Disk) :
    makeDirectories c.ancestors d = ⟨[], .ok ()⟩ := by
  simp only [FilePath.ancestors, FilePath.ancestorsWithin, makeDirectories, if_pos h]

/-- The root is settled, and has no parent. -/
theorem makeDirectories_of_root (h : c.text = "/") (d : Disk) :
    makeDirectories c.ancestors d = settle c d ∧ newDirectory c d = .error .alreadyThere := by
  obtain ⟨text⟩ := c
  obtain rfl : text = "/" := h
  have hnew := newDirectory_of_root d
  refine ⟨?_, hnew⟩
  rw [FilePath.ancestors, FilePath.ancestorsWithin, makeDirectories_cons _ _ d (by decide), hnew,
    if_neg (by decide)]

/-- **Making the ancestors of a path** makes directories on the way only. -/
theorem makeDirectories_does_way (hf : fault? q = none) (hway : OnWay q c)
    (hc : c.Trim ∨ c.text = "" ∨ c.text = "/") (d : Disk) :
    (makeDirectories c.ancestors).Does (WayStep q) d fun _ _ => True := by
  induction FilePath.climbs hc generalizing d with
  | @up c b x htrim hb hkind _ ih =>
      have hsettle := settle_does_way hf hway htrim
      rw [hb.ancestors]
      by_cases hnew : newDirectory c d = .error .notFound
      · refine ((ih (hway.up hb) hkind d).bind fun _ _ => hsettle _).of_eq ?_
        rw [makeDirectories_cons _ _ d hb.text_ne_empty, if_pos hnew]
      · refine (hsettle d).of_eq ?_
        rw [makeDirectories_cons _ _ d hb.text_ne_empty, if_neg hnew]
  | empty htext =>
      exact (DiskTask.Does.pure (a := ()) trivial).of_eq (makeDirectories_of_empty htext d)
  | root htext =>
      obtain ⟨heq, hnew⟩ := makeDirectories_of_root htext d
      exact ⟨by rw [heq, settle_changes_of_error hnew]; exact .nil d, fun _ => trivial⟩

/-- A path that cannot be used is not made. -/
theorem makePath_of_fault {e : DiskError} (hf : fault? q = some e) (d : Disk) :
    (makePath q d).changes = [] := by
  rw [makePath, FilePath.ancestors, FilePath.ancestorsWithin]
  by_cases htext : q.text = ""
  · simp only [makeDirectories, if_pos htext]
  · have hne : e ≠ .notFound := by
      rintro rfl
      exact fault?_ne_notFound htext hf
    have hnew : newDirectory q d = .error e := by rw [newDirectory, resolve_of_fault hf]
    rw [makeDirectories_cons _ _ d htext, hnew, if_neg (by simpa using hne)]
    exact settle_changes_of_error hnew

/-- **Wherever the making of a path is cut off**, some directories on the way have been built. -/
theorem makePath_survives (hd : d.IsTree) (hsteady : d.Steady q)
    (hq : q.Trim ∨ q.text = "" ∨ q.text = "/") :
    (makePath q).Survives (d.Built q) d fun _ d' => d.Built q d' := by
  cases hf : fault? q with
  | none =>
      refine ((makeDirectories_does_way hf .last hq d).survives (.refl hd q) ?_
        fun _ _ hbuilt hc => hbuilt.apply hd hsteady hc).imp (fun _ h => h) fun _ _ h => h.2
      intro d l part rest h
      cases h
  | some e =>
      have hnone := makePath_of_fault hf d
      refine ⟨fun hds => ?_, fun _ => ?_⟩
      · rw [hnone] at hds
        rw [DiskChange.CutOff.eq_nil hds]
        exact .refl hd q
      · rw [DiskTask.after, hnone]
        exact .refl hd q

end

end Disk

end StorageNode
