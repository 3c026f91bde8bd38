import StorageNode.FilePath

/-!
# Names below a path

A directory entry has a *name* (`FilePath.IsName`): a text that is not empty, holds no separator and
is neither `.` nor `..`. Behind a name a path behaves as a stack. `components_join` says that
joining a name pushes one component, `parent?_join_join` that the parent pops it again with the
spelling of what stays untouched, and `join_inj` that different names below one path lead to
different paths.

All of it rests on `pieces_join`, which computes the pieces of a joined path: joining writes a
separator unless the path is empty or ends in one, and in both of these cases the last piece of the
path is empty and gives way to the name.
-/

namespace StorageNode

namespace FilePath

/-- What a directory may call an entry: one component that is neither of the two dots. -/
structure IsName (name : String) : Prop where
  ne_empty : name ≠ ""
  no_separator : '/' ∉ name.toList
  ne_dot : name ≠ "."
  ne_dots : name ≠ ".."

/-! ## Pieces -/

/-- A separator ends a piece. -/
theorem splitPieces_separator (cs : List Char) : splitPieces ('/' :: cs) = [] :: splitPieces cs := by
  simp [splitPieces]

/-- Any other character belongs to the first piece. -/
theorem splitPieces_cons {c : Char} (hc : c ≠ '/') {cs : List Char} {q : List Char}
    {qs : List (List Char)} (hs : splitPieces cs = q :: qs) :
    splitPieces (c :: cs) = (c :: q) :: qs := by
  simp [splitPieces, hc, hs]

/-- A text without a separator is one piece. -/
theorem splitPieces_of_not_mem : ∀ {cs : List Char}, '/' ∉ cs → splitPieces cs = [cs]
  | [], _ => rfl
  | c :: cs, h => by
      have hc : c ≠ '/' := fun hc => h (by simp [hc])
      exact splitPieces_cons hc (splitPieces_of_not_mem fun hcs => h (List.mem_cons_of_mem _ hcs))

/-- The pieces on both sides of a separator are split apart from each other. -/
theorem splitPieces_append (xs ys : List Char) :
    splitPieces (xs ++ '/' :: ys) = splitPieces xs ++ splitPieces ys := by
  induction xs with
  | nil => simp [splitPieces]
  | cons c xs ih =>
      by_cases hc : c = '/'
      · simp [splitPieces, hc, ih]
      · obtain ⟨q, qs, hs⟩ := List.exists_cons_of_ne_nil (splitPieces_ne_nil xs)
        rw [List.cons_append, splitPieces_cons hc hs, List.cons_append]
        exact splitPieces_cons hc (by rw [ih, hs, List.cons_append])

/-- A text that is more than separators has a first piece that is not empty, or several. -/
theorem splitPieces_eq_singleton_nil {cs : List Char} (h : splitPieces cs = [[]]) : cs = [] := by
  have := joinPieces_splitPieces cs
  rw [h] at this
  exact this.symm

/-- The last piece is empty exactly where the text is empty or ends in a separator. -/
theorem getLast?_splitPieces (cs : List Char) :
    (splitPieces cs).getLast? = some [] ↔ cs.getLast?.all (· = '/') = true := by
  induction cs with
  | nil => simp [splitPieces]
  | cons c cs ih =>
      obtain ⟨q, qs, hs⟩ := List.exists_cons_of_ne_nil (splitPieces_ne_nil cs)
      cases cs with
      | nil => by_cases hc : c = '/' <;> simp [splitPieces, hc]
      | cons d ds =>
          rw [List.getLast?_cons_cons, ← ih]
          by_cases hc : c = '/'
          · rw [hc, splitPieces_separator, hs, List.getLast?_cons_cons]
          · rw [splitPieces_cons hc hs, hs]
            cases qs with
            | nil =>
                have hq : q ≠ [] := by
                  rintro rfl
                  exact absurd (splitPieces_eq_singleton_nil hs) (List.cons_ne_nil _ _)
                simp [hq]
            | cons r rs => rw [List.getLast?_cons_cons, List.getLast?_cons_cons]

/-- A path is its pieces put together. -/
theorem ofPieces_pieces (p : FilePath) : ofPieces p.pieces.1 p.pieces.2 = p := by
  obtain ⟨text⟩ := p
  unfold pieces ofPieces
  split
  · next cs h => simp [joinPieces_splitPieces, ← h]
  · next cs h => simp [joinPieces_splitPieces]

/-- The pieces of a path in front of an entry below it: an empty last piece, which a trailing
separator leaves, gives way to the entry's name. -/
def stump (p : FilePath) : List (List Char) :=
  if p.pieces.2.getLast? = some [] then p.pieces.2.dropLast else p.pieces.2

theorem not_isAbsolute_of_isName {name : String} (h : IsName name) :
    (⟨name⟩ : FilePath).isAbsolute = false := by
  unfold isAbsolute
  split
  · next cs heq =>
      have : '/' ∈ name.toList := by simp [heq]
      exact absurd this h.no_separator
  · rfl

/-- A text with a name behind it: one separator in between, unless there is one already. -/
def appendName (cs name : List Char) : List Char :=
  if cs.getLast?.all (· = '/') then cs ++ name else cs ++ '/' :: name

theorem toList_join (p : FilePath) {name : String} (h : IsName name) :
    (p / name).text.toList = appendName p.text.toList name.toList := by
  show (p.join ⟨name⟩).text.toList = _
  by_cases hp : p.text.toList.getLast?.all (· = '/') = true
  · simp [join, not_isAbsolute_of_isName h, appendName, hp]
  · simp [join, not_isAbsolute_of_isName h, appendName, hp]

/-- A path that ends in a name has a text. -/
theorem text_join_ne_empty (p : FilePath) {name : String} (h : IsName name) :
    (p / name).text ≠ "" := by
  intro hempty
  have happend := toList_join p h
  rw [hempty] at happend
  unfold appendName at happend
  split at happend <;> simp at happend
  exact h.ne_empty happend.2

theorem appendName_separator (cs name : List Char) :
    appendName ('/' :: cs) name = '/' :: appendName cs name := by
  cases cs with
  | nil => simp [appendName]
  | cons d ds =>
      unfold appendName
      rw [List.getLast?_cons_cons]
      split <;> rfl

/-- Splitting behind a text that is empty or ends in a separator replaces its last piece, which is
empty. -/
theorem splitPieces_appendName (cs : List Char) {name : List Char} (h : '/' ∉ name) :
    splitPieces (appendName cs name) =
      (if (splitPieces cs).getLast? = some [] then (splitPieces cs).dropLast else splitPieces cs)
        ++ [name] := by
  have hname := splitPieces_of_not_mem h
  unfold appendName
  by_cases hcs : cs.getLast?.all (· = '/') = true
  · rw [if_pos hcs, if_pos ((getLast?_splitPieces cs).mpr hcs)]
    rcases List.eq_nil_or_concat cs with rfl | ⟨ds, d, rfl⟩
    · simp [splitPieces, hname]
    · obtain rfl : d = '/' := by simpa using hcs
      rw [List.concat_eq_append, List.append_assoc, List.singleton_append, splitPieces_append,
        splitPieces_append, hname]
      simp [splitPieces]
  · rw [if_neg hcs, if_neg (fun hl => hcs ((getLast?_splitPieces cs).mp hl)), splitPieces_append,
      hname]

theorem pieces_of_absolute {p : FilePath} {cs : List Char} (h : p.text.toList = '/' :: cs) :
    p.pieces = (true, splitPieces cs) := by
  simp [pieces, h]

theorem pieces_of_relative {p : FilePath} (h : p.text.toList.head? ≠ some '/') :
    p.pieces = (false, splitPieces p.text.toList) := by
  unfold pieces
  split
  · next cs heq => simp [heq] at h
  · rfl

/-- **The pieces of a joined path** are those of the path, with the name behind them. -/
theorem pieces_join (p : FilePath) {name : String} (h : IsName name) :
    (p / name).pieces = (p.pieces.1, p.stump ++ [name.toList]) := by
  have hjoin := toList_join p h
  have hsplit := fun cs => splitPieces_appendName cs h.no_separator
  by_cases habs : p.text.toList.head? = some '/'
  · obtain ⟨cs, hcs⟩ := List.head?_eq_some_iff.mp habs
    rw [hcs, appendName_separator] at hjoin
    rw [pieces_of_absolute hjoin, hsplit, stump, pieces_of_absolute hcs]
  · have hrel : (p / name).text.toList.head? ≠ some '/' := by
      rw [hjoin]
      cases hcs : p.text.toList with
      | nil =>
          intro hhead
          obtain ⟨ns, hns⟩ := List.head?_eq_some_iff.mp hhead
          have hmem : '/' ∈ appendName [] name.toList := by rw [hns]; exact List.mem_cons_self
          exact h.no_separator (by simpa [appendName] using hmem)
      | cons c cs =>
          rw [hcs] at habs
          unfold appendName
          split <;> simpa using habs
    rw [pieces_of_relative hrel, hjoin, hsplit, stump, pieces_of_relative habs]

/-- A path is absolute if it begins with a separator. -/
theorem isAbsolute_eq (p : FilePath) : p.isAbsolute = p.pieces.1 := by
  unfold isAbsolute pieces
  split <;> rfl

/-- What is joined to a path does not change where it begins. -/
theorem isAbsolute_join (p : FilePath) {name : String} (h : IsName name) :
    (p / name).isAbsolute = p.isAbsolute := by
  rw [isAbsolute_eq, isAbsolute_eq, pieces_join p h]

/-! ## Components -/

/-- A name counts wherever it stands. -/
theorem counts_of_isName {name : String} (h : IsName name) (leading : Bool) :
    counts leading name.toList = true := by
  have hempty : name.toList ≠ [] := fun hn => h.ne_empty (String.toList_eq_nil_iff.mp hn)
  have hdot : name.toList ≠ ['.'] := fun hn => h.ne_dot (String.toList_inj.mp hn)
  simp [counts, hempty, hdot]

/-- A name stands for an entry. -/
theorem ofPiece_of_isName {name : String} (h : IsName name) :
    Component.ofPiece name.toList = .name name := by
  have hdot : name.toList ≠ ['.'] := fun hn => h.ne_dot (String.toList_inj.mp hn)
  have hdots : name.toList ≠ ['.', '.'] := fun hn => h.ne_dots (String.toList_inj.mp hn)
  simp [Component.ofPiece, hdot, hdots]

/-- The components that pieces stand for, behind a root or without one. -/
def componentsOf : Bool → List (List Char) → List Component
  | true, ps => .root :: (ps.filter (counts false)).map Component.ofPiece
  | false, [] => []
  | false, q :: ps =>
    ((if counts true q then [q] else []) ++ ps.filter (counts false)).map Component.ofPiece

theorem components_eq (p : FilePath) : p.components = componentsOf p.pieces.1 p.pieces.2 := by
  unfold components componentsOf
  rcases p.pieces with ⟨_ | _, _ | _⟩ <;> rfl

/-- An empty piece at the end stands for nothing. -/
theorem componentsOf_append_nil (absolute : Bool) (ps : List (List Char)) :
    componentsOf absolute (ps ++ [[]]) = componentsOf absolute ps := by
  cases absolute with
  | true => simp [componentsOf, counts]
  | false => cases ps <;> simp [componentsOf, counts]

/-- A name at the end stands for one more component. -/
theorem componentsOf_append_name (absolute : Bool) (ps : List (List Char)) {name : String}
    (h : IsName name) :
    componentsOf absolute (ps ++ [name.toList]) = componentsOf absolute ps ++ [.name name] := by
  have hcounts := counts_of_isName h
  cases absolute with
  | true => simp [componentsOf, hcounts, ofPiece_of_isName h]
  | false => cases ps <;> simp [componentsOf, hcounts, ofPiece_of_isName h]

/-- The piece that a name replaces stands for nothing. -/
theorem componentsOf_stump (p : FilePath) : componentsOf p.pieces.1 p.stump = p.components := by
  rw [components_eq]
  unfold stump
  split
  · next hl =>
      obtain ⟨qs, hqs⟩ := List.getLast?_eq_some_iff.mp hl
      rw [hqs, List.dropLast_concat, componentsOf_append_nil]
  · rfl

/-- **Joining a name pushes one component.** -/
theorem components_join (p : FilePath) {name : String} (h : IsName name) :
    (p / name).components = p.components ++ [.name name] := by
  rw [components_eq (p / name), pieces_join p h, componentsOf_append_name _ _ h,
    componentsOf_stump]

/-- A name joined to the same place leads to the same place. -/
theorem components_join_congr {p q : FilePath} (h : p.components = q.components) {name : String}
    (hname : IsName name) : (p / name).components = (q / name).components := by
  rw [components_join p hname, components_join q hname, h]

/-- The name of an entry can be read off its path. -/
theorem fileName?_join (p : FilePath) {name : String} (h : IsName name) :
    (p / name).fileName? = some name := by
  simp [fileName?, components_join p h]

/-- Different names below one path lead to different paths. -/
theorem join_inj {p : FilePath} {m n : String} (hm : IsName m) (hn : IsName n)
    (h : p / m = p / n) : m = n := by
  have := fileName?_join p hn
  rw [← h, fileName?_join p hm] at this
  exact Option.some.inj this

/-! ## The way back up -/

/-- The path in the spelling it has as the parent of an entry: without trailing separators and
dots. -/
def trimmed (p : FilePath) : FilePath :=
  ofPieces p.pieces.1 (trimPieces (!p.pieces.1) p.pieces.2)

/-- Nothing is trimmed off behind a piece that counts. -/
theorem trimPieces_append_singleton {piece : List Char} (h : ∀ l, counts l piece = true) :
    ∀ (leading : Bool) (ps : List (List Char)),
      trimPieces leading (ps ++ [piece]) = ps ++ [piece]
  | leading, [] => by simp [trimPieces, h leading]
  | leading, q :: qs => by
      have ih := trimPieces_append_singleton h false qs
      rw [List.cons_append, trimPieces]
      cases qs with
      | nil => rw [List.nil_append] at ih ⊢; rw [ih]
      | cons r rs => rw [List.cons_append] at ih ⊢; rw [ih]

/-- An empty piece at the end is trimmed off. -/
theorem trimPieces_append_nil :
    ∀ (leading : Bool) (ps : List (List Char)),
      trimPieces leading (ps ++ [[]]) = trimPieces leading ps
  | leading, [] => by simp [trimPieces, counts]
  | leading, q :: qs => by
      rw [List.cons_append, trimPieces, trimPieces_append_nil false qs, trimPieces]

theorem trimPieces_stump (p : FilePath) (leading : Bool) :
    trimPieces leading p.stump = trimPieces leading p.pieces.2 := by
  unfold stump
  split
  · next hl =>
      obtain ⟨qs, hqs⟩ := List.getLast?_eq_some_iff.mp hl
      rw [hqs, trimPieces_append_nil, List.dropLast_concat]
  · rfl

/-- The path of an entry is trimmed. -/
theorem trimmed_join (p : FilePath) {name : String} (h : IsName name) :
    (p / name).trimmed = p / name := by
  have hpieces := ofPieces_pieces (p / name)
  rw [pieces_join p h] at hpieces
  rw [trimmed, pieces_join p h, trimPieces_append_singleton (counts_of_isName h), hpieces]

/-- The parent of an entry is the path it was joined to, trimmed. -/
theorem parent?_join (p : FilePath) {name : String} (h : IsName name) :
    (p / name).parent? = some p.trimmed := by
  unfold parent?
  rw [pieces_join p h]
  simp only [trimPieces_append_singleton (counts_of_isName h)]
  cases hps : p.stump ++ [name.toList] with
  | nil => simp at hps
  | cons q qs => simp [← hps, trimPieces_stump, trimmed]

/-- **The parent pops the name again**, and keeps the spelling of a path that ends in a name. -/
theorem parent?_join_join (p : FilePath) {m n : String} (hm : IsName m) (hn : IsName n) :
    (p / m / n).parent? = some (p / m) := by
  rw [parent?_join _ hn, trimmed_join p hm]

/-- A path and its parents: behind a name they are those of the path in front of it. -/
theorem ancestors_join (p : FilePath) {name : String} (h : IsName name) :
    (p / name).ancestors = p / name :: ancestorsWithin (p.components.length + 1) p.trimmed := by
  rw [ancestors, components_join p h, List.length_append, List.length_singleton, ancestorsWithin,
    parent?_join p h]

/-! ## Extensions -/

/-- A name is cut at its last dot. -/
theorem stem_append {xs ys : List Char} (hxs : xs ≠ []) (hys : '.' ∉ ys) :
    stem (xs ++ '.' :: ys) = xs := by
  have hdot : '.' ∈ (xs ++ '.' :: ys).drop 1 := by
    cases xs with
    | nil => exact absurd rfl hxs
    | cons x xs => simp
  have hbehind : ∀ c ∈ ys.reverse, decide (c ≠ '.') = true := fun c hc => by
    simpa using fun heq : c = '.' => hys (heq ▸ List.mem_reverse.mp hc)
  rw [stem, if_pos hdot, List.reverse_append, List.reverse_cons, List.append_assoc,
    List.dropWhile_append_of_pos hbehind]
  simp

/-- **Another extension is another name in the same place.** -/
theorem withExtension_join (p : FilePath) {name name' extension : String} (h : IsName name)
    (h' : IsName name') (hstem : name'.toList = stem name.toList ++ '.' :: extension.toList) :
    (p / name).withExtension extension = p / name' := by
  have hpieces := ofPieces_pieces (p / name')
  rw [pieces_join p h', hstem] at hpieces
  simp only [withExtension, fileName?_join p h, pieces_join p h,
    trimPieces_append_singleton (counts_of_isName h), List.dropLast_concat]
  exact hpieces

/-! ## Names below names -/

/-- The path to which some names lead down, the innermost name first. -/
def below (p : FilePath) : List String → FilePath
  | [] => p
  | n :: ns => p.below ns / n

/-- The path is another one with names behind it, any number of them. -/
def IsBelow (p root : FilePath) : Prop := ∃ ns, (∀ n ∈ ns, IsName n) ∧ p = root.below ns

theorem IsBelow.refl (p : FilePath) : p.IsBelow p := ⟨[], by simp, rfl⟩

theorem IsBelow.join {p root : FilePath} (h : p.IsBelow root) {name : String} (hname : IsName name) :
    (p / name).IsBelow root := by
  obtain ⟨ns, hns, rfl⟩ := h
  exact ⟨name :: ns, List.forall_mem_cons.mpr ⟨hname, hns⟩, rfl⟩

/-- **Names push a component each.** -/
theorem components_below (p : FilePath) {ns : List String} (h : ∀ n ∈ ns, IsName n) :
    (p.below ns).components = p.components ++ (ns.map Component.name).reverse := by
  induction ns with
  | nil => simp [below]
  | cons n ns ih =>
      obtain ⟨hn, hns⟩ := List.forall_mem_cons.mp h
      rw [below, components_join _ hn, ih hns]
      simp

/-- With more names in front, the path leads on from the same place. -/
theorem components_below_prefix (p : FilePath) {ms ns : List String} (hms : ∀ n ∈ ms, IsName n)
    (hns : ∀ n ∈ ns, IsName n) (h : ms <:+ ns) :
    (p.below ms).components <+: (p.below ns).components := by
  rw [components_below p hms, components_below p hns, List.prefix_append_right_inj,
    List.reverse_prefix]
  exact List.IsSuffix.map _ h

theorem ancestors_below (p : FilePath) {m n : String} {ns : List String} (hm : IsName m)
    (hn : IsName n) :
    (p.below (n :: m :: ns)).ancestors = p.below (n :: m :: ns) :: (p.below (m :: ns)).ancestors := by
  rw [below, ancestors_join _ hn, below, trimmed_join _ hm, ancestors]

end FilePath

end StorageNode
