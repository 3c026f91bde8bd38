import StorageNode.Proofs.Disk.Effects
import StorageNode.Proofs.FilePath.Parent

/-!
# Passing through directories and links

Where there are links, a path is no single walk down. `Disk.pass` goes through directories up to the
next link, and `Disk.arrive` goes on from where the link leads, until all pieces are behind it.
Whatever a path is followed for, the pieces in front of its last ones are passed in this way
(`follow_append`), so a path is resolved in the directory that its parent arrives in
(`resolve_behind`), and a path that arrives leads to a directory (`isDirectory_of_passage`).

Passing depends on the directories and links on the way only. On a disk that differs in what is not
there, or in files, a path arrives at the same place, or was stopped by one of the errors that the
difference accounts for (`passage_alike`).
-/

namespace StorageNode

namespace Disk

/-- Where passing through directories stops. -/
inductive Halt where
  /-- In a directory, all pieces behind. -/
  | inside (l : Location)
  /-- At a link in a directory, with the pieces behind it. -/
  | link (dir : Location) (target : String) (rest : List String)

/-- Goes through directories, up to the next link. -/
def pass (d : Disk) : Location → List String → Except DiskError Halt
  | cur, [] => .ok (.inside cur)
  | cur, p :: ps =>
    if p = "" then d.pass cur ps
    else if !(d.rightsOn cur).search then .error .denied
    else if p = "." then d.pass cur ps
    else if p = ".." then d.pass cur.tail ps
    else
      match d.find cur p with
      | .error e => .error e
      | .ok none => .error .notFound
      | .ok (some (.file ..)) => .error .notDirectory
      | .ok (some (.directory _)) => d.pass (p :: cur) ps
      | .ok (some (.link target)) => .ok (.link cur target ps)

/-- Goes through directories and links to the end of the pieces, and tells how many links may still
be followed. -/
def arrive (d : Disk) : Nat → Location → List String → Except DiskError (Location × Nat)
  | links, cur, ps =>
    match d.pass cur ps with
    | .error e => .error e
    | .ok (.inside l) => .ok (l, links)
    | .ok (.link dir target rest) =>
      match links with
      | 0 => .error .tooManyLinks
      | links + 1 => d.arrive links (start dir target) (piecesOf target ++ rest)

/-- Where a path arrives as a directory. -/
def passage (d : Disk) (p : FilePath) : Except DiskError (Location × Nat) :=
  d.arrive linkLimit (start workplace p.text) (piecesOf p.text)

/-! ## Pieces in front of others -/

section

variable {d : Disk}

theorem pass_append (ps qs : List String) (cur : Location) :
    d.pass cur (ps ++ qs) =
      match d.pass cur ps with
      | .error e => .error e
      | .ok (.inside l) => d.pass l qs
      | .ok (.link dir target rest) => .ok (.link dir target (rest ++ qs)) := by
  induction ps generalizing cur with
  | nil => rfl
  | cons p ps ih =>
      rw [List.cons_append, pass, pass]
      split
      · exact ih cur
      split
      · rfl
      split
      · exact ih cur
      split
      · exact ih cur.tail
      cases d.find cur p with
      | error e => rfl
      | ok o =>
          cases o with
          | none => rfl
          | some e =>
              cases e with
              | directory => exact ih (p :: cur)
              | _ => rfl

/-- Pieces are passed if there is a name behind them, whatever the path is followed for. -/
theorem advance_append {qs : List String} (hqs : qs.all (· = "") = false) (ps : List String)
    (cur : Location) :
    d.advance cur (ps ++ qs) =
      match d.pass cur ps with
      | .error e => .error e
      | .ok (.inside l) => d.advance l qs
      | .ok (.link dir target rest) => .ok (.link dir target (rest ++ qs)) := by
  induction ps generalizing cur with
  | nil => rfl
  | cons p ps ih =>
      have hmore : (ps ++ qs).all (· = "") = false := by
        rw [List.all_append, hqs, Bool.and_false]
      rw [List.cons_append, advance, pass, hmore]
      split
      · exact ih cur
      split
      · rfl
      split
      · exact ih cur
      split
      · exact ih cur.tail
      rw [if_neg Bool.false_ne_true]
      cases d.find cur p with
      | error e => rfl
      | ok o =>
          cases o with
          | none => rfl
          | some e =>
              cases e with
              | directory => exact ih (p :: cur)
              | _ => rfl

theorem advanceFor_append {qs : List String} (hqs : qs.all (· = "") = false) (aim : Aim)
    (ps : List String) (cur : Location) :
    d.advanceFor aim cur (ps ++ qs) =
      match d.pass cur ps with
      | .error e => .error e
      | .ok (.inside l) => d.advanceFor aim l qs
      | .ok (.link dir target rest) => .ok (.link dir target (rest ++ qs)) := by
  rw [advanceFor, advance_append hqs]
  rcases d.pass cur ps with e | ⟨l⟩ | ⟨dir, target, rest⟩ <;> rfl

/-- **What stands in front of a name is passed**, whatever the name is looked for. -/
theorem follow_append {qs : List String} (hqs : qs.all (· = "") = false) (aim : Aim) (links : Nat)
    (ps : List String) (cur : Location) :
    d.follow aim links cur (ps ++ qs) =
      (d.arrive links cur ps).bind fun a => d.follow aim a.2 a.1 qs := by
  induction links generalizing cur ps with
  | zero =>
      rw [follow, arrive, advanceFor_append hqs]
      rcases d.pass cur ps with e | ⟨l⟩ | ⟨dir, target, rest⟩
      · rfl
      · simp only [Except.bind]
        rw [follow]
      · rfl
  | succ links ih =>
      rw [follow, arrive, advanceFor_append hqs]
      rcases d.pass cur ps with e | ⟨l⟩ | ⟨dir, target, rest⟩
      · rfl
      · simp only [Except.bind]
        rw [follow]
      · simp only
        rw [← List.append_assoc]
        exact ih _ _

/-- Pieces are passed one after another. -/
theorem arrive_append (links : Nat) (ps qs : List String) (cur : Location) :
    d.arrive links cur (ps ++ qs) =
      (d.arrive links cur ps).bind fun a => d.arrive a.2 a.1 qs := by
  induction links generalizing cur ps with
  | zero =>
      rw [arrive, arrive, pass_append]
      rcases d.pass cur ps with e | ⟨l⟩ | ⟨dir, target, rest⟩
      · rfl
      · simp only [Except.bind]
        rw [arrive]
      · rfl
  | succ links ih =>
      rw [arrive, arrive, pass_append]
      rcases d.pass cur ps with e | ⟨l⟩ | ⟨dir, target, rest⟩
      · rfl
      · simp only [Except.bind]
        rw [arrive]
      · simp only
        rw [← List.append_assoc]
        exact ih _ _

/-! ## Pieces that stand for nothing -/

/-- Empty pieces are no steps. -/
theorem pass_empty (cur : Location) {ps : List String} (h : ∀ p ∈ ps, p = "") :
    d.pass cur ps = .ok (.inside cur) := by
  induction ps with
  | nil => rfl
  | cons p ps ih =>
      rw [pass, if_pos (h p List.mem_cons_self)]
      exact ih fun q hq => h q (List.mem_cons_of_mem _ hq)

theorem arrive_empty (links : Nat) (cur : Location) {ps : List String} (h : ∀ p ∈ ps, p = "") :
    d.arrive links cur ps = .ok (cur, links) := by
  rw [arrive, pass_empty cur h]

/-- A piece that asks for no step, or for no more than the right to search. -/
def Idle (piece : String) : Prop := piece = "" ∨ piece = "."

theorem advance_idle {x : String} (hx : x ≠ "") {js : List String} (hjs : ∀ j ∈ js, Idle j)
    (cur : Location) : d.advance cur (js ++ [x]) = d.advance cur [x] := by
  induction js with
  | nil => rfl
  | cons j js ih =>
      have ih := ih fun i hi => hjs i (List.mem_cons_of_mem _ hi)
      rw [List.cons_append, advance, ih]
      rcases hjs j List.mem_cons_self with rfl | rfl
      · rfl
      · -- a dot asks for the right that the last piece asks for, too
        rw [advance, if_neg hx, if_neg (by decide)]
        split
        · rfl
        · exact if_pos rfl

theorem pass_idle {x : String} (hx : x ≠ "") {js : List String} (hjs : ∀ j ∈ js, Idle j)
    (cur : Location) : d.pass cur (js ++ [x]) = d.pass cur [x] := by
  induction js with
  | nil => rfl
  | cons j js ih =>
      have ih := ih fun i hi => hjs i (List.mem_cons_of_mem _ hi)
      rw [List.cons_append, pass, ih]
      rcases hjs j List.mem_cons_self with rfl | rfl
      · rfl
      · rw [pass, if_neg hx, if_neg (by decide)]
        split
        · rfl
        · exact if_pos rfl

theorem follow_idle (aim : Aim) (links : Nat) {x : String} (hx : x ≠ "") {js : List String}
    (hjs : ∀ j ∈ js, Idle j) (cur : Location) :
    d.follow aim links cur (js ++ [x]) = d.follow aim links cur [x] := by
  unfold follow
  rw [advanceFor, advanceFor, advance_idle hx hjs]

theorem arrive_idle (links : Nat) {x : String} (hx : x ≠ "") {js : List String}
    (hjs : ∀ j ∈ js, Idle j) (cur : Location) :
    d.arrive links cur (js ++ [x]) = d.arrive links cur [x] := by
  unfold arrive
  rw [pass_idle hx hjs]

end

/-! ## A path and its parent -/

/-- The pieces that a path is followed by: an absolute one has an empty piece in front. -/
theorem piecesOf_eq (p : FilePath) :
    piecesOf p.text = (if p.pieces.1 then [""] else []) ++ p.pieces.2.map String.ofList := by
  rw [piecesOf]
  by_cases habs : p.text.toList.head? = some '/'
  · obtain ⟨cs, hcs⟩ := List.head?_eq_some_iff.mp habs
    rw [FilePath.pieces_of_absolute hcs, hcs, FilePath.splitPieces_separator]
    rfl
  · rw [FilePath.pieces_of_relative habs]
    rfl

section

variable {d : Disk} {p q : FilePath} {x : List Char}

theorem start_behind (h : q.Behind p x) (cur : Location) : start cur q.text = start cur p.text := by
  have habs : (⟨q.text⟩ : FilePath).isAbsolute = (⟨p.text⟩ : FilePath).isAbsolute := by
    rw [FilePath.isAbsolute_eq, FilePath.isAbsolute_eq]
    exact h.absolute
  rw [start, start, habs]

/-- The pieces of a path are those of its parent, the last one, and in between pieces that stand for
nothing. -/
theorem exists_piecesOf_behind (h : q.Behind p x) : ∃ ps js,
    piecesOf q.text = ps ++ (js ++ [String.ofList x]) ∧ (∀ j ∈ js, Idle j) ∧
      (piecesOf p.text = ps ∨ (∀ r ∈ ps, r = "") ∧ ∀ r ∈ piecesOf p.text, r = "") := by
  obtain ⟨ps, js, hpieces, hidle, hparent⟩ := h.pieces
  have hidle' : ∀ j ∈ js.map String.ofList, Idle j := by
    intro j hj
    obtain ⟨i, hi, rfl⟩ := List.mem_map.mp hj
    rcases hidle i hi with rfl | rfl
    · exact .inl rfl
    · exact .inr rfl
  refine ⟨(if q.pieces.1 then [""] else []) ++ ps.map String.ofList, js.map String.ofList, ?_,
    hidle', ?_⟩
  · rw [piecesOf_eq, hpieces]
    simp
  · rcases hparent with hps | ⟨rfl, hnil⟩
    · exact .inl (by rw [piecesOf_eq, hps, h.absolute])
    · refine .inr ⟨fun r hr => ?_, fun r hr => ?_⟩
      · cases hq : q.pieces.1 <;> simp [hq] at hr
        exact hr
      · rw [piecesOf_eq, hnil] at hr
        cases hp : p.pieces.1 <;> simp [hp] at hr
        · exact hr
        · exact hr

theorem ofList_ne_empty (h : q.Behind p x) : String.ofList x ≠ "" := fun hx =>
  h.ne_nil (by simpa using congrArg String.toList hx)

/-- The pieces of the parent lead where the parent leads. -/
theorem arrive_eq_passage {ps : List String}
    (h : piecesOf p.text = ps ∨ (∀ r ∈ ps, r = "") ∧ ∀ r ∈ piecesOf p.text, r = "") :
    d.arrive linkLimit (start workplace p.text) ps = d.passage p := by
  rcases h with rfl | ⟨hps, hp⟩
  · rfl
  · rw [passage, arrive_empty _ _ hps, arrive_empty _ _ hp]

/-- **A path is followed from where its parent arrives.** -/
theorem resolve_behind (h : q.Behind p x) (aim : Aim) :
    d.resolve aim q =
      match fault? q with
      | some e => .error e
      | none => (d.passage p).bind fun a => d.follow aim a.2 a.1 [String.ofList x] := by
  obtain ⟨ps, js, hpieces, hjs, hparent⟩ := exists_piecesOf_behind h
  have hx := ofList_ne_empty h
  cases hf : fault? q with
  | some e => exact resolve_of_fault hf d aim
  | none =>
      have hall : (js ++ [String.ofList x]).all (· = "") = false := by simp [hx]
      rw [resolve_of_no_fault hf, hpieces, follow_append hall, start_behind h,
        arrive_eq_passage hparent]
      simp only [follow_idle aim _ hx hjs]

/-- A path arrives where its last piece leads from where its parent arrives. -/
theorem passage_behind (h : q.Behind p x) :
    d.passage q = (d.passage p).bind fun a => d.arrive a.2 a.1 [String.ofList x] := by
  obtain ⟨ps, js, hpieces, hjs, hparent⟩ := exists_piecesOf_behind h
  have hx := ofList_ne_empty h
  rw [passage, hpieces, arrive_append, start_behind h, arrive_eq_passage hparent]
  simp only [arrive_idle _ hx hjs]

end

/-! ## Trails -/

/-- Where it is that passing stops. -/
def Halt.place : Halt → Location
  | inside l => l
  | link dir _ _ => dir

/-- A piece that is looked up in a directory, as no step, one dot and two dots are not. -/
structure LookedUp (piece : String) : Prop where
  ne_empty : piece ≠ ""
  ne_dot : piece ≠ "."
  ne_dots : piece ≠ ".."

/-- The trail on which pieces are passed, up to where it comes to a halt. -/
inductive Trail (d : Disk) : Location → List String → Halt → Prop
  | nil (cur : Location) : Trail d cur [] (.inside cur)
  | empty {cur : Location} {ps : List String} {halt : Halt} (h : Trail d cur ps halt) :
      Trail d cur ("" :: ps) halt
  | dot {cur : Location} {ps : List String} {halt : Halt} (hs : (d.rightsOn cur).search = true)
      (h : Trail d cur ps halt) : Trail d cur ("." :: ps) halt
  | dots {cur : Location} {ps : List String} {halt : Halt} (hs : (d.rightsOn cur).search = true)
      (h : Trail d cur.tail ps halt) : Trail d cur (".." :: ps) halt
  | enter {cur : Location} {p : String} {ps : List String} {halt : Halt} {r : Rights}
      (hs : (d.rightsOn cur).search = true) (hp : LookedUp p)
      (hf : d.find cur p = .ok (some (.directory r))) (h : Trail d (p :: cur) ps halt) :
      Trail d cur (p :: ps) halt
  | link {cur : Location} {p : String} {ps : List String} {target : String}
      (hs : (d.rightsOn cur).search = true) (hp : LookedUp p)
      (hf : d.find cur p = .ok (some (.link target))) : Trail d cur (p :: ps) (.link cur target ps)

section

variable {d : Disk} {cur l : Location} {ps : List String}

/-- What is passed is passed on a trail. -/
theorem trail_of_pass {halt : Halt} : ∀ {ps : List String} {cur : Location},
    d.pass cur ps = .ok halt → d.Trail cur ps halt
  | [], cur, h => by
      obtain rfl : Halt.inside cur = halt := Except.ok.inj h
      exact .nil cur
  | p :: ps, cur, h => by
      rw [pass] at h
      split at h
      · next hempty =>
          subst hempty
          exact .empty (trail_of_pass h)
      next hempty =>
      split at h
      · simp at h
      next hsearch =>
      have hs : (d.rightsOn cur).search = true := by simpa using hsearch
      split at h
      · next hdot =>
          subst hdot
          exact .dot hs (trail_of_pass h)
      next hdot =>
      split at h
      · next hdots =>
          subst hdots
          exact .dots hs (trail_of_pass h)
      next hdots =>
      split at h
      · simp at h
      · simp at h
      · simp at h
      · next hf => exact .enter hs ⟨hempty, hdot, hdots⟩ hf (trail_of_pass h)
      · next hf =>
          obtain rfl := Except.ok.inj h
          exact .link hs ⟨hempty, hdot, hdots⟩ hf

/-- What arrives is inside at the end of its trail, or at a link from which it goes on. -/
theorem arrive_cases {links n : Nat} (h : d.arrive links cur ps = .ok (l, n)) :
    d.Trail cur ps (.inside l) ∨
      ∃ m dir target rest, links = m + 1 ∧ d.Trail cur ps (.link dir target rest) ∧
        d.arrive m (start dir target) (piecesOf target ++ rest) = .ok (l, n) := by
  unfold arrive at h
  split at h
  · simp at h
  · next k hp =>
      obtain ⟨rfl, -⟩ := Prod.mk.inj (Except.ok.inj h)
      exact .inl (trail_of_pass hp)
  · next dir target rest hp =>
      cases links with
      | zero => simp at h
      | succ m => exact .inr ⟨m, dir, target, rest, rfl, trail_of_pass hp, h⟩

theorem Trail.eq_inside {halt : Halt} (h : d.Trail cur ps halt) (hps : ∀ p ∈ ps, p = "") :
    halt = .inside cur := by
  induction h with
  | nil => rfl
  | empty _ ih => exact ih fun q hq => hps q (List.mem_cons_of_mem _ hq)
  | dot | dots => exact absurd (hps _ List.mem_cons_self) (by decide)
  | enter _ hp | link _ hp => exact absurd (hps _ List.mem_cons_self) hp.ne_empty

/-! ## What is arrived in is a directory -/

theorem directory_tail (hd : d.IsTree) (hcur : ∃ r, d.entry? cur = some (.directory r)) :
    ∃ r, d.entry? cur.tail = some (.directory r) := by
  obtain ⟨r, hr⟩ := hcur
  cases cur with
  | nil => exact ⟨r, hr⟩
  | cons n l => exact (hd.parent hr).2

theorem directory_start (hd : d.IsTree) (hcur : ∃ r, d.entry? cur = some (.directory r))
    (path : String) : ∃ r, d.entry? (start cur path) = some (.directory r) := by
  unfold start
  split
  · exact hd.root
  · exact hcur

theorem Trail.directory {halt : Halt} (h : d.Trail cur ps halt) (hd : d.IsTree)
    (hcur : ∃ r, d.entry? cur = some (.directory r)) :
    ∃ r, d.entry? halt.place = some (.directory r) := by
  induction h with
  | nil => exact hcur
  | empty _ ih => exact ih hcur
  | dot _ _ ih => exact ih hcur
  | dots _ _ ih => exact ih (directory_tail hd hcur)
  | @enter _ _ _ _ r _ _ hf _ ih => exact ih ⟨r, entry?_of_find hf⟩
  | link => exact hcur

/-- **What is arrived in is a directory.** -/
theorem directory_of_arrive (hd : d.IsTree) {links n : Nat}
    (hcur : ∃ r, d.entry? cur = some (.directory r)) (h : d.arrive links cur ps = .ok (l, n)) :
    ∃ r, d.entry? l = some (.directory r) := by
  induction links using Nat.strongRecOn generalizing cur ps with
  | _ links ih =>
      obtain ht | ⟨m, dir, target, rest, rfl, ht, h⟩ := arrive_cases h
      · exact ht.directory hd hcur
      · exact ih m (Nat.lt_succ_self m) (directory_start hd (ht.directory hd hcur) target) h

/-- A trail with any step on it begins in a directory. -/
theorem Trail.begins {halt : Halt} (h : d.Trail cur ps halt) (hps : ∃ p ∈ ps, p ≠ "") :
    ∃ r, d.entry? cur = some (.directory r) := by
  induction h with
  | nil => simp at hps
  | empty _ ih =>
      refine ih ?_
      obtain ⟨q, hq, hne⟩ := hps
      exact ⟨q, (List.mem_cons.mp hq).resolve_left hne, hne⟩
  | dot hs | dots hs | enter hs | link hs =>
      obtain ⟨r, hr, -⟩ := exists_of_search hs
      exact ⟨r, hr⟩

/-- A path with a text that arrives anywhere begins in a directory. -/
theorem directory_of_passage {p : FilePath} {a : Location × Nat} (hd : d.IsTree) (hp : p.text ≠ "")
    (h : d.passage p = .ok a) :
    ∃ r, d.entry? (start workplace p.text) = some (.directory r) := by
  by_cases habs : p.pieces.1 = true
  · have hstart : start workplace p.text = [] := by
      rw [start, if_pos]
      exact (FilePath.isAbsolute_eq p).trans habs
    rw [hstart]
    exact hd.root
  · have hrel : p.pieces.1 = false := by simpa using habs
    -- a relative path with a text has a piece that is not empty
    have hstep : ∃ r ∈ piecesOf p.text, r ≠ "" := by
      obtain ⟨q, qs, hq⟩ : ∃ q qs, p.pieces.2 = q :: qs := by
        refine List.exists_cons_of_ne_nil ?_
        unfold FilePath.pieces
        split <;> exact FilePath.splitPieces_ne_nil _
      refine ⟨String.ofList q, by simp [piecesOf_eq, hq], fun hnil => hp ?_⟩
      have hnil' : q = [] := by simpa using congrArg String.toList hnil
      have hall := FilePath.pieces_of_head_nil hrel (by rw [hq, hnil']; rfl)
      have htext := FilePath.ofPieces_pieces p
      rw [hrel, hall] at htext
      rw [← htext]
      rfl
    rw [passage] at h
    unfold arrive at h
    cases hpass : d.pass (start workplace p.text) (piecesOf p.text) with
    | error e => simp [hpass] at h
    | ok halt => exact (trail_of_pass hpass).begins hstep

/-! ## What arrives is led to -/

/-- Where the entry is that is named. -/
def place (d : Disk) : Goal → Except DiskError Location
  | .directory l => .ok l
  | .named dir name separator =>
    match d.find dir name with
    | .error e => .error e
    | .ok none => .error .notFound
    | .ok (some (.directory _)) => .ok (name :: dir)
    | .ok (some _) => if separator then .error .notDirectory else .ok (name :: dir)

/-- A path leads to the entry that it names. -/
theorem locate_eq (d : Disk) (p : FilePath) : d.locate p = (d.resolve .use p).bind d.place := by
  unfold locate place
  cases d.resolve .use p with
  | error e => rfl
  | ok g => cases g <;> rfl

/-- What following pieces comes to, up to the next link, where passing them comes to a halt: to the
same directory or the same link, behind which the number of separators does not matter. -/
inductive Meets (d : Disk) (cur : Location) (ps : List String) : Halt → Prop
  | inside {g : Goal} {l : Location} (ha : d.advanceFor .use cur ps = .ok (.goal g))
      (hg : d.place g = .ok l) : Meets d cur ps (.inside l)
  | link {dir : Location} {target : String} {rest rest' : List String}
      (ha : d.advanceFor .use cur ps = .ok (.link dir target rest'))
      (hrest : rest' = rest ∨ (∀ r ∈ rest, r = "") ∧ ∀ r ∈ rest', r = "") :
      Meets d cur ps (.link dir target rest)

theorem Meets.congr {cur' : Location} {ps' : List String} {halt : Halt} (h : d.Meets cur ps halt)
    (ha : d.advance cur' ps' = d.advance cur ps) : d.Meets cur' ps' halt := by
  have hfor : d.advanceFor .use cur' ps' = d.advanceFor .use cur ps := by
    rw [advanceFor, advanceFor, ha]
  cases h with
  | inside ha' hg => exact .inside (hfor.trans ha') hg
  | link ha' hrest => exact .link (hfor.trans ha') hrest

/-- A name is what pieces lead to if none but empty ones follow it, and is entered otherwise. -/
theorem advance_lookedUp {p : String} (hp : LookedUp p) (hs : (d.rightsOn cur).search = true)
    (ps : List String) :
    d.advance cur (p :: ps) =
      if ps.all (· = "") then .ok (.goal (.named cur p (ps ≠ [])))
      else
        match d.find cur p with
        | .error e => .error e
        | .ok none => .error .notFound
        | .ok (some (.file ..)) => .error .notDirectory
        | .ok (some (.directory _)) => d.advance (p :: cur) ps
        | .ok (some (.link target)) => .ok (.link cur target ps) := by
  have hsearch : ¬(!(d.rightsOn cur).search) = true := by simp [hs]
  rw [advance]
  exact (if_neg hp.ne_empty).trans
    ((if_neg hsearch).trans ((if_neg hp.ne_dot).trans (if_neg hp.ne_dots)))

/-- The last name is a directory: nothing but separators is behind it. -/
theorem Meets.last_directory {p : String} {r : Rights}
    (ha : d.advance cur (p :: ps) = .ok (.goal (.named cur p (ps ≠ []))))
    (hf : d.find cur p = .ok (some (.directory r))) :
    d.Meets cur (p :: ps) (.inside (p :: cur)) := by
  refine .inside (g := .named cur p (ps ≠ [])) ?_ (by simp [place, hf])
  rw [advanceFor, ha]
  simp [entry?_of_find hf]

/-- The last name is a link: what is behind it are separators, of which one is kept. -/
theorem Meets.last_link {p target : String} (hps : ∀ q ∈ ps, q = "")
    (ha : d.advance cur (p :: ps) = .ok (.goal (.named cur p (ps ≠ []))))
    (hf : d.find cur p = .ok (some (.link target))) :
    d.Meets cur (p :: ps) (.link cur target ps) := by
  have hfor : d.advanceFor .use cur (p :: ps) =
      .ok (.link cur target (if decide (ps ≠ []) then [""] else [])) := by
    rw [advanceFor, ha]
    simp [entry?_of_find hf, Aim.follows]
  refine .link hfor (.inr ⟨hps, fun r hr => ?_⟩)
  split at hr <;> simp at hr
  exact hr

/-- A trail leads to where it comes to a halt. -/
theorem Trail.meets {halt : Halt} (h : d.Trail cur ps halt) : d.Meets cur ps halt := by
  induction h with
  | nil cur => exact .inside (g := .directory cur) rfl rfl
  | empty _ ih => exact ih.congr (by rw [advance, if_pos rfl])
  | dot hs _ ih => exact ih.congr (by rw [advance]; simp [hs])
  | dots hs _ ih => exact ih.congr (by rw [advance]; simp [hs])
  | @enter cur p ps halt r hs hp hf h ih =>
      have ha := advance_lookedUp hp hs ps
      by_cases hlast : ps.all (· = "") = true
      · rw [if_pos hlast] at ha
        obtain rfl := h.eq_inside (by simpa using hlast)
        exact .last_directory ha hf
      · rw [if_neg hlast, hf] at ha
        exact ih.congr ha
  | @link cur p ps target hs hp hf =>
      have ha := advance_lookedUp hp hs ps
      by_cases hlast : ps.all (· = "") = true
      · rw [if_pos hlast] at ha
        exact .last_link (by simpa using hlast) ha hf
      · rw [if_neg hlast, hf] at ha
        exact .link (by rw [advanceFor, ha]) (.inl rfl)

/-- **Pieces that arrive lead to the directory that they arrive in.** -/
theorem place_of_arrive {links n : Nat} (h : d.arrive links cur ps = .ok (l, n)) :
    (d.follow .use links cur ps).bind d.place = .ok l := by
  induction links using Nat.strongRecOn generalizing cur ps with
  | _ links ih =>
      obtain ht | ⟨m, dir, target, rest, rfl, ht, h⟩ := arrive_cases h
      · cases ht.meets with
        | inside ha hg =>
            unfold follow
            rw [ha]
            exact hg
      · cases ht.meets with
        | @link _ _ _ rest' ha hrest =>
            rw [follow, ha]
            refine ih m (Nat.lt_succ_self m) ?_
            rcases hrest with rfl | ⟨hrest, hrest'⟩
            · exact h
            · simp only [arrive_append, arrive_empty _ _ hrest] at h
              simp only [arrive_append, arrive_empty _ _ hrest']
              exact h

/-- **A path that arrives leads to a directory.** -/
theorem locate_of_passage {p : FilePath} {n : Nat} (hd : d.IsTree) (hf : fault? p = none)
    (h : d.passage p = .ok (l, n)) : d.locate p = .ok l ∧ ∃ r, d.entry? l = some (.directory r) := by
  have htext : p.text ≠ "" := by
    intro htext
    unfold fault? at hf
    rw [if_pos htext] at hf
    split at hf <;> simp at hf
  refine ⟨?_, directory_of_arrive hd (directory_of_passage hd htext h) h⟩
  rw [locate_eq, resolve_of_no_fault hf]
  exact place_of_arrive h

end

/-! ## Other disks -/

/-- **Disks that differ only in what is not there, or in files.** The difference may cost some
errors: a name may be found that was missing, or a file may be out of the way. -/
def Alike (lost : DiskError → Prop) (d d' : Disk) : Prop := ∀ l,
  d'.entry? l = d.entry? l ∨ (d.entry? l = none ∧ lost .notFound) ∨
    ((∃ r content, d.entry? l = some (.file r content)) ∧ lost .notDirectory)

section

variable {d d' : Disk} {lost : DiskError → Prop} {cur l : Location} {ps : List String}

theorem Alike.directory (h : d.Alike lost d') {r : Rights}
    (hl : d.entry? l = some (.directory r)) : d'.entry? l = some (.directory r) := by
  rcases h l with heq | ⟨hnone, -⟩ | ⟨⟨r', content, hfile⟩, -⟩
  · exact heq.trans hl
  · simp [hl] at hnone
  · simp [hl] at hfile

/-- Where anything may be lost, differences add up. -/
theorem Alike.trans {d'' : Disk} (h : d.Alike (fun _ => True) d')
    (h' : d'.Alike (fun _ => True) d'') : d.Alike (fun _ => True) d'' := by
  intro l
  rcases h l with heq | ⟨hnone, -⟩ | ⟨hfile, -⟩
  · have hl := h' l
    rw [heq] at hl
    exact hl
  · exact .inr (.inl ⟨hnone, trivial⟩)
  · exact .inr (.inr ⟨hfile, trivial⟩)

theorem pass_alike (hd : d.IsTree) (h : d.Alike lost d') :
    ∀ (ps : List String) {cur : Location}, (∃ r, d.entry? cur = some (.directory r)) →
      d'.pass cur ps = d.pass cur ps ∨ ∃ e, lost e ∧ d.pass cur ps = .error e
  | [], _, _ => .inl rfl
  | p :: ps, cur, hcur => by
      have hrights : d'.rightsOn cur = d.rightsOn cur := by
        obtain ⟨r, hr⟩ := hcur
        rw [rightsOn_eq hr, rightsOn_eq (h.directory hr)]
      rw [pass, pass, hrights]
      split
      · exact pass_alike hd h ps hcur
      split
      · exact .inl rfl
      split
      · exact pass_alike hd h ps hcur
      split
      · exact pass_alike hd h ps (directory_tail hd hcur)
      unfold find
      by_cases hlong : nameLimit < p.utf8ByteSize
      · simp [hlong]
      rw [if_neg hlong, if_neg hlong]
      rcases h (p :: cur) with heq | ⟨hnone, hlost⟩ | ⟨⟨r, content, hfile⟩, hlost⟩
      · rw [heq]
        cases he : d.entry? (p :: cur) with
        | none => exact .inl rfl
        | some e =>
            cases e with
            | directory r => exact pass_alike hd h ps ⟨r, he⟩
            | _ => exact .inl rfl
      · exact .inr ⟨.notFound, hlost, by rw [hnone]⟩
      · exact .inr ⟨.notDirectory, hlost, by rw [hfile]⟩

theorem arrive_alike (hd : d.IsTree) (h : d.Alike lost d') {links : Nat}
    (hcur : ∃ r, d.entry? cur = some (.directory r)) :
    d'.arrive links cur ps = d.arrive links cur ps ∨
      ∃ e, lost e ∧ d.arrive links cur ps = .error e := by
  induction links generalizing cur ps with
  | zero =>
      rw [arrive, arrive]
      rcases pass_alike hd h ps hcur with heq | ⟨e, he, herror⟩
      · exact .inl (by rw [heq])
      · exact .inr ⟨e, he, by rw [herror]⟩
  | succ links ih =>
      rw [arrive, arrive]
      rcases pass_alike hd h ps hcur with heq | ⟨e, he, herror⟩
      · rw [heq]
        rcases hp : d.pass cur ps with e | ⟨k⟩ | ⟨dir, target, rest⟩
        · exact .inl rfl
        · exact .inl rfl
        · exact ih (directory_start hd ((trail_of_pass hp).directory hd hcur) target)
      · exact .inr ⟨e, he, by rw [herror]⟩

/-- **A path arrives at the same place**, or was stopped by an error that the difference of the disks
accounts for. -/
theorem passage_alike {p : FilePath} (hd : d.IsTree) (h : d.Alike lost d')
    (hstart : ∃ r, d.entry? (start workplace p.text) = some (.directory r)) :
    d'.passage p = d.passage p ∨ ∃ e, lost e ∧ d.passage p = .error e :=
  arrive_alike hd h hstart

/-- A path that arrives goes on to do so. -/
theorem passage_mono {p : FilePath} {a : Location × Nat} (hd : d.IsTree) (h : d.Alike lost d')
    (ha : d.passage p = .ok a) : d'.passage p = .ok a := by
  by_cases htext : p.text = ""
  · have hps : ∀ r ∈ piecesOf p.text, r = "" := by rw [htext]; decide
    rw [passage, arrive_empty _ _ hps] at ha ⊢
    exact ha
  · rcases passage_alike hd h (directory_of_passage hd htext ha) with heq | ⟨e, -, herror⟩
    · exact heq.trans ha
    · simp [ha] at herror

end

end Disk

end StorageNode
