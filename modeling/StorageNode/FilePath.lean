/-!
# File paths

A path is a text, kept exactly as it was written; `FilePath.components` is what it means. Joining,
taking the parent and changing the extension work on the pieces between separators, so that the
spelling of what stays is untouched. Two paths are the same place by name (`FilePath.same`) if their
components agree: doubled and trailing separators and inner dots do not count.
-/

namespace StorageNode

/-- A path, by its exact text. -/
structure FilePath where
  /-- The text as it was written. -/
  text : String
deriving DecidableEq, Inhabited, Repr

namespace FilePath

/-! ## Pieces -/

/-- The pieces between separators; there is always at least one, possibly empty. -/
def splitPieces : List Char → List (List Char)
  | [] => [[]]
  | c :: cs =>
    if c = '/' then [] :: splitPieces cs
    else
      match splitPieces cs with
      | [] => [[c]]
      | p :: ps => (c :: p) :: ps

/-- The pieces with separators between them. -/
def joinPieces : List (List Char) → List Char
  | [] => []
  | [p] => p
  | p :: q :: ps => p ++ '/' :: joinPieces (q :: ps)

theorem splitPieces_ne_nil (cs : List Char) : splitPieces cs ≠ [] := by
  cases cs with
  | nil => simp [splitPieces]
  | cons c cs => unfold splitPieces; split <;> (try split) <;> simp

/-- Splitting loses nothing. -/
theorem joinPieces_splitPieces (cs : List Char) : joinPieces (splitPieces cs) = cs := by
  induction cs with
  | nil => rfl
  | cons c cs ih =>
    obtain ⟨p, ps, hs⟩ := List.exists_cons_of_ne_nil (splitPieces_ne_nil cs)
    rw [hs] at ih
    by_cases h : c = '/'
    · simp [splitPieces, h, hs, joinPieces, ih]
    · cases ps with
      | nil => simpa [splitPieces, h, hs, joinPieces] using ih
      | cons q qs => simpa [splitPieces, h, hs, joinPieces] using ih

/-- A leading separator, and the pieces behind it. -/
def pieces (p : FilePath) : Bool × List (List Char) :=
  match p.text.toList with
  | '/' :: cs => (true, splitPieces cs)
  | cs => (false, splitPieces cs)

/-- The path of a leading separator and the pieces behind it. -/
def ofPieces (absolute : Bool) (ps : List (List Char)) : FilePath :=
  ⟨String.ofList (if absolute then '/' :: joinPieces ps else joinPieces ps)⟩

/-- A piece that names something. An empty piece never does, and a dot only as the very first piece
of a relative path (`leading`). -/
def counts (leading : Bool) (piece : List Char) : Bool :=
  piece ≠ [] && (leading || piece ≠ ['.'])

/-- The pieces up to the last one that counts. -/
def trimPieces : Bool → List (List Char) → List (List Char)
  | _, [] => []
  | leading, p :: ps =>
    match trimPieces false ps with
    | [] => if counts leading p then [p] else []
    | qs => p :: qs

/-! ## Components -/

/-- One step of a path. -/
inductive Component where
  /-- The root directory. -/
  | root
  /-- The current directory; only at the head of a relative path. -/
  | here
  /-- The directory above. -/
  | up
  /-- An entry of the directory reached so far. -/
  | name (s : String)
deriving DecidableEq, Repr

/-- What a piece that counts stands for. -/
def Component.ofPiece (piece : List Char) : Component :=
  if piece = ['.'] then .here else if piece = ['.', '.'] then .up else .name (String.ofList piece)

/-- The steps of a path. -/
def components (p : FilePath) : List Component :=
  match p.pieces with
  | (true, ps) => .root :: (ps.filter (counts false)).map Component.ofPiece
  | (false, []) => []
  | (false, p :: ps) =>
    ((if counts true p then [p] else []) ++ ps.filter (counts false)).map Component.ofPiece

/-- The two paths have the same components. -/
def same (p q : FilePath) : Bool := p.components = q.components

/-! ## Operations -/

/-- The path begins at the root. -/
def isAbsolute (p : FilePath) : Bool :=
  match p.text.toList with
  | '/' :: _ => true
  | _ => false

/-- The path `q` taken from `p`: an absolute `q` stands alone, any other is appended behind one
separator, which is not written if `p` is empty or ends in one. -/
def join (p q : FilePath) : FilePath :=
  if q.isAbsolute then q
  else
    let ps := p.text.toList
    if ps.getLast?.all (· = '/') then ⟨p.text ++ q.text⟩ else ⟨p.text ++ "/" ++ q.text⟩

instance : HDiv FilePath String FilePath := ⟨fun p s => p.join ⟨s⟩⟩

/-- The path without its last component, and without the separators and dots that trail what is
left. The root and the empty path have no parent. -/
def parent? (p : FilePath) : Option FilePath :=
  let (absolute, ps) := p.pieces
  match trimPieces (!absolute) ps with
  | [] => none
  | qs => some (ofPieces absolute (trimPieces (!absolute) qs.dropLast))

/-- At most so many paths: this one, its parent, and so on. -/
def ancestorsWithin : Nat → FilePath → List FilePath
  | 0, _ => []
  | n + 1, p =>
    p :: match p.parent? with
      | none => []
      | some q => ancestorsWithin n q

/-- The path, its parent, the parent of that, and so on. -/
def ancestors (p : FilePath) : List FilePath := ancestorsWithin (p.components.length + 1) p

/-- The last component, if it is a name. -/
def fileName? (p : FilePath) : Option String :=
  match p.components.getLast? with
  | some (.name s) => some s
  | _ => none

/-- A name up to its last dot; a dot at the head does not count. -/
def stem (name : List Char) : List Char :=
  if '.' ∈ name.drop 1 then ((name.reverse.dropWhile (· ≠ '.')).drop 1).reverse else name

/-- The path with the extension of its last name replaced, or with one added, and nothing behind it;
unchanged if the last component is no name. -/
def withExtension (p : FilePath) (extension : String) : FilePath :=
  match p.fileName? with
  | none => p
  | some name =>
    let (absolute, ps) := p.pieces
    let qs := trimPieces (!absolute) ps
    ofPieces absolute (qs.dropLast ++ [stem name.toList ++ '.' :: extension.toList])

end FilePath

end StorageNode
