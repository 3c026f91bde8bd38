import StorageNode.Proofs.FilePath

/-!
# Paths and their parents

A parent loses the last piece of a path and the pieces in front of it that stand for nothing
(`FilePath.Idle`): empty ones, which doubled separators leave, and dots. `FilePath.Behind` is this
relation between a path and its parent, piece by piece. Every path that ends in a piece that counts
(`FilePath.Trim`) is behind its parent (`Trim.behind`), and the parent ends in such a piece again, or
is the root, or empty. So the ancestors of a path are a chain in which each path is behind the next one
(`Behind.ancestors`).
-/

namespace StorageNode

namespace FilePath

/-- A piece that stands for nothing where a path leads on. -/
def Idle (piece : List Char) : Prop := piece = [] ∨ piece = ['.']

/-! ## Pieces, once more -/

/-- No separator is in a piece. -/
theorem not_mem_of_mem_splitPieces : ∀ {cs piece : List Char}, piece ∈ splitPieces cs → '/' ∉ piece
  | [], piece, h => by
      obtain rfl : piece = [] := List.mem_singleton.mp h
      exact List.not_mem_nil
  | c :: cs, piece, h => by
      obtain ⟨q, qs, hs⟩ := List.exists_cons_of_ne_nil (splitPieces_ne_nil cs)
      have ih : ∀ r ∈ q :: qs, '/' ∉ r := fun r hr => not_mem_of_mem_splitPieces (hs ▸ hr)
      by_cases hc : c = '/'
      · rw [hc, splitPieces_separator, hs] at h
        rcases List.mem_cons.mp h with rfl | h
        · exact List.not_mem_nil
        · exact ih piece h
      · rw [splitPieces_cons hc hs] at h
        rcases List.mem_cons.mp h with rfl | h
        · simpa [eq_comm, hc] using ih q List.mem_cons_self
        · exact ih piece (List.mem_cons_of_mem _ h)

/-- Splitting undoes joining. -/
theorem splitPieces_joinPieces : ∀ {ps : List (List Char)}, ps ≠ [] → (∀ p ∈ ps, '/' ∉ p) →
    splitPieces (joinPieces ps) = ps
  | [p], _, h => splitPieces_of_not_mem (h p List.mem_cons_self)
  | p :: q :: ps, _, h => by
      rw [joinPieces, splitPieces_append, splitPieces_of_not_mem (h p List.mem_cons_self),
        splitPieces_joinPieces (List.cons_ne_nil q ps) fun r hr => h r (List.mem_cons_of_mem _ hr)]
      rfl

/-- Pieces in front of others are the text in front of it. -/
theorem joinPieces_append : ∀ {ps qs : List (List Char)}, ps ≠ [] → qs ≠ [] →
    joinPieces (ps ++ qs) = joinPieces ps ++ '/' :: joinPieces qs
  | [p], q :: qs, _, _ => rfl
  | p :: p' :: ps, qs, _, hqs => by
      have ih := joinPieces_append (List.cons_ne_nil p' ps) hqs
      rw [List.cons_append, List.cons_append, joinPieces, ← List.cons_append, ih, joinPieces]
      simp

/-- The pieces of a path, none of which holds a separator. -/
theorem not_mem_of_mem_pieces {p : FilePath} {piece : List Char} (h : piece ∈ p.pieces.2) :
    '/' ∉ piece := by
  unfold pieces at h
  split at h <;> exact not_mem_of_mem_splitPieces h

/-- A relative path begins with a piece that is not empty, unless it is empty altogether. -/
theorem pieces_of_head_nil {p : FilePath} (h : p.pieces.1 = false)
    (hhead : p.pieces.2.head? = some []) : p.pieces.2 = [[]] := by
  unfold pieces at h hhead ⊢
  split at h
  · simp at h
  next hcs =>
  split at hhead
  · next cs heq => exact absurd heq (hcs cs)
  next =>
  cases hp : p.text.toList with
  | nil => rfl
  | cons c cs =>
      have hc : c ≠ '/' := by
        rintro rfl
        exact hcs _ hp
      obtain ⟨q, qs, hs⟩ := List.exists_cons_of_ne_nil (splitPieces_ne_nil cs)
      rw [hp, splitPieces_cons hc hs] at hhead
      simp at hhead

/-- Pieces that are put together to a path are its pieces. -/
theorem pieces_ofPieces {absolute : Bool} {ps : List (List Char)} (hne : ps ≠ [])
    (hps : ∀ p ∈ ps, '/' ∉ p) (hhead : absolute = false → ps.head? ≠ some []) :
    (ofPieces absolute ps).pieces = (absolute, ps) := by
  have hsplit := splitPieces_joinPieces hne hps
  cases absolute with
  | true => simp [ofPieces, pieces, hsplit]
  | false =>
      have hrel : (ofPieces false ps).text.toList.head? ≠ some '/' := by
        intro heq
        have hjoin : (joinPieces ps).head? = some '/' := by simpa [ofPieces] using heq
        obtain ⟨cs, hcs⟩ := List.head?_eq_some_iff.mp hjoin
        rw [hcs, splitPieces_separator] at hsplit
        have hnil : ps.head? = some [] := by rw [← hsplit]; rfl
        exact hhead rfl hnil
      rw [pieces_of_relative hrel]
      simp [ofPieces, hsplit]

/-! ## Trimming -/

theorem idle_of_not_counts {leading : Bool} {piece : List Char} (h : counts leading piece = false) :
    Idle piece := by
  by_cases hnil : piece = []
  · exact .inl hnil
  · have hdot : leading = false ∧ piece = ['.'] := by simpa [counts, hnil] using h
    exact .inr hdot.2

theorem not_counts_of_idle {piece : List Char} (h : Idle piece) : counts false piece = false := by
  rcases h with rfl | rfl <;> rfl

/-- **What is trimmed off stands for nothing**, and what is left, if anything, ends in a piece that
counts. -/
theorem trimPieces_spec : ∀ (leading : Bool) (ps : List (List Char)),
    (∃ js, ps = trimPieces leading ps ++ js ∧ ∀ j ∈ js, Idle j) ∧
      (trimPieces leading ps = [] ∨
        ∃ init x, trimPieces leading ps = init ++ [x] ∧ counts (leading && init.isEmpty) x = true)
  | leading, [] => ⟨⟨[], rfl, by simp⟩, .inl rfl⟩
  | leading, p :: ps => by
      obtain ⟨⟨js, hjs, hidle⟩, hend⟩ := trimPieces_spec false ps
      rw [trimPieces]
      rcases hend with hnil | ⟨init, x, hx, hcounts⟩
      · rw [hnil] at hjs ⊢
        by_cases hp : counts leading p = true
        · rw [if_pos hp]
          exact ⟨⟨js, by simpa using hjs, hidle⟩, .inr ⟨[], p, rfl, by simpa using hp⟩⟩
        · rw [if_neg hp]
          refine ⟨⟨p :: ps, rfl, fun j hj => ?_⟩, .inl rfl⟩
          rcases List.mem_cons.mp hj with rfl | hj
          · exact idle_of_not_counts (by simpa using hp)
          · exact hidle j (by rwa [hjs] at hj)
      · have hne : trimPieces false ps ≠ [] := by simp [hx]
        obtain ⟨q, qs, hqs⟩ := List.exists_cons_of_ne_nil hne
        simp only [hqs]
        refine ⟨⟨js, by rw [List.cons_append, ← hqs, ← hjs], hidle⟩, .inr ⟨p :: init, x, ?_, ?_⟩⟩
        · rw [← hqs, hx, List.cons_append]
        · simpa using hcounts

/-- Nothing is trimmed off behind a piece that counts where it stands. -/
theorem trimPieces_append_last : ∀ {leading : Bool} {init : List (List Char)} {x : List Char},
    counts (leading && init.isEmpty) x = true → trimPieces leading (init ++ [x]) = init ++ [x]
  | leading, [], x, h => by simpa [trimPieces] using h
  | leading, p :: init, x, h => by
      have h' : counts (false && init.isEmpty) x = true := by simpa using h
      have ih := trimPieces_append_last h'
      obtain ⟨q, qs, hqs⟩ : ∃ q qs, init ++ [x] = q :: qs :=
        List.exists_cons_of_ne_nil (by simp)
      rw [List.cons_append, trimPieces, ih, hqs]

/-- The last piece counts. -/
structure Trim (p : FilePath) : Prop where
  trimmed : trimPieces (!p.pieces.1) p.pieces.2 = p.pieces.2
  ne_nil : p.pieces.2 ≠ []

/-- A path with an entry's name behind it ends in the name. -/
theorem trim_join (p : FilePath) {name : String} (h : IsName name) : (p / name).Trim where
  trimmed := by
    rw [pieces_join p h]
    exact trimPieces_append_singleton (counts_of_isName h) _ _
  ne_nil := by simp [pieces_join p h]

/-! ## A path behind its parent -/

/-- **A path is its parent and one piece more**, with pieces in between that stand for nothing. The
parent that is left when there are no pieces any more is the root or the empty path. -/
structure Behind (q p : FilePath) (x : List Char) : Prop where
  parent : q.parent? = some p
  absolute : q.pieces.1 = p.pieces.1
  pieces : ∃ ps js, q.pieces.2 = ps ++ js ++ [x] ∧ (∀ j ∈ js, Idle j) ∧
    (p.pieces.2 = ps ∨ (ps = [] ∧ p.pieces.2 = [[]]))
  ne_nil : x ≠ []
  /-- A dot counts only at the head of a relative path. -/
  dot : x = ['.'] → p.text = ""
  components : q.components = p.components ++ [Component.ofPiece x]
  /-- The text of the parent stands in front. -/
  text : ∃ s, q.text = p.text ++ s

/-- Pieces that stand for nothing, and one that counts behind them, are one component more. -/
theorem componentsOf_append {absolute : Bool} {ps js : List (List Char)} {x : List Char}
    (hjs : ∀ j ∈ js, Idle j) (hrel : absolute = false → ps = [] → js = [])
    (hx : counts (!absolute && (ps ++ js).isEmpty) x = true) :
    componentsOf absolute (ps ++ js ++ [x]) = componentsOf absolute ps ++ [Component.ofPiece x] := by
  have hfilter : js.filter (counts false) = [] :=
    List.filter_eq_nil_iff.mpr fun j hj => by simp [not_counts_of_idle (hjs j hj)]
  cases absolute with
  | true =>
      have hx' : counts false x = true := by simpa using hx
      simp [componentsOf, hfilter, hx']
  | false =>
      cases ps with
      | nil =>
          obtain rfl := hrel rfl rfl
          have hx' : counts true x = true := by simpa using hx
          simp [componentsOf, hx']
      | cons p ps =>
          have hx' : counts false x = true := by simpa using hx
          simp [componentsOf, hfilter, hx']

/-- Only where a relative path begins with nothing, nothing is left of it. -/
theorem head_of_trimPieces_nil {ps : List (List Char)} (h : trimPieces true ps = []) :
    ps = [] ∨ ps.head? = some [] := by
  cases ps with
  | nil => exact .inl rfl
  | cons p ps =>
      rw [trimPieces] at h
      split at h
      · next hnil =>
          by_cases hp : counts true p = true
          · simp [hp] at h
          · exact .inr (by simpa [counts] using hp)
      · simp at h

/-- Where there are no pieces any more, the root or nothing is left. -/
theorem text_ofPieces_nil (absolute : Bool) :
    (ofPieces absolute []).text = "" ∨ (ofPieces absolute []).text = "/" := by
  cases absolute
  · exact .inl rfl
  · exact .inr rfl

theorem pieces_ofPieces_nil (absolute : Bool) : (ofPieces absolute []).pieces = (absolute, [[]]) := by
  cases absolute <;> rfl

/-- A path that ends in a piece that counts, taken apart: the pieces of its parent, those in between
that stand for nothing, and the last one. -/
theorem Trim.exists_pieces {q : FilePath} (hq : q.Trim) : ∃ ps js x,
    q.pieces.2 = ps ++ js ++ [x] ∧ (∀ j ∈ js, Idle j) ∧
      (q.pieces.1 = false → ps = [] → js = []) ∧ x ≠ [] ∧
      counts (!q.pieces.1 && (ps ++ js).isEmpty) x = true ∧
      q.parent? = some (ofPieces q.pieces.1 ps) ∧
      (ps = [] ∨ trimPieces (!q.pieces.1) ps = ps) := by
  obtain ⟨-, hnil | ⟨init, x, hinit, hx⟩⟩ := trimPieces_spec (!q.pieces.1) q.pieces.2
  · exact absurd (hq.trimmed.symm.trans hnil) hq.ne_nil
  have hpieces : q.pieces.2 = init ++ [x] := hq.trimmed.symm.trans hinit
  have hxnil : x ≠ [] := by
    rintro rfl
    simp [counts] at hx
  have hparent : q.parent? = some (ofPieces q.pieces.1 (trimPieces (!q.pieces.1) init)) := by
    obtain ⟨y, ys, hys⟩ : ∃ y ys, init ++ [x] = y :: ys := List.exists_cons_of_ne_nil (by simp)
    have hdrop : (y :: ys).dropLast = init := by rw [← hys, List.dropLast_concat]
    unfold parent?
    simp only [hinit, hys, hdrop]
  obtain ⟨⟨js, hjs, hidle⟩, hend⟩ := trimPieces_spec (!q.pieces.1) init
  refine ⟨trimPieces (!q.pieces.1) init, js, x, by rw [← hjs, hpieces], hidle, ?_, hxnil,
    by rwa [← hjs], hparent, ?_⟩
  · intro habs hps
    rw [habs] at hps
    rcases head_of_trimPieces_nil hps with rfl | hhead
    · exact (List.append_eq_nil_iff.mp hjs.symm).2
    · -- a relative path does not begin with an empty piece
      have hall : q.pieces.2 = [[]] := by
        refine pieces_of_head_nil habs ?_
        obtain ⟨ys, hys⟩ := List.head?_eq_some_iff.mp hhead
        rw [hpieces, hys]
        rfl
      rw [hpieces] at hall
      exact absurd (List.append_eq_singleton_iff.mp hall) (by simpa using fun _ => hxnil)
  · rcases hend with hnil | ⟨init', y, hy, hcounts⟩
    · exact .inl hnil
    · exact .inr (by rw [hy]; exact trimPieces_append_last hcounts)

/-- **A path that ends in a piece that counts is behind its parent**, which is such a path, too, or
the root, or empty. -/
theorem Trim.behind {q p : FilePath} (hq : q.Trim) (h : q.parent? = some p) :
    (∃ x, q.Behind p x) ∧ (p.Trim ∨ p.text = "" ∨ p.text = "/") := by
  obtain ⟨ps, js, x, hpieces, hidle, hrel, hxnil, hx, hparent, htrim⟩ := hq.exists_pieces
  obtain rfl : ofPieces q.pieces.1 ps = p := Option.some.inj (hparent.symm.trans h)
  have hcomponents : q.components = componentsOf q.pieces.1 ps ++ [Component.ofPiece x] := by
    rw [components_eq, hpieces, componentsOf_append hidle hrel hx]
  have hdot : x = ['.'] → (ofPieces q.pieces.1 ps).text = "" := by
    rintro rfl
    have hhead : q.pieces.1 = false ∧ ps = [] ∧ js = [] := by simpa [counts] using hx
    rw [hhead.1, hhead.2.1]
    rfl
  have hq' : q = ofPieces q.pieces.1 (ps ++ (js ++ [x])) := by
    rw [← List.append_assoc, ← hpieces, ofPieces_pieces]
  by_cases hps : ps = []
  · -- nothing is left but a root, or nothing at all
    subst hps
    have hnil := pieces_ofPieces_nil q.pieces.1
    refine ⟨⟨x, h, by rw [hnil], ⟨[], js, hpieces, hidle, .inr ⟨rfl, by rw [hnil]⟩⟩, hxnil, hdot,
      ?_, ?_⟩, .inr (text_ofPieces_nil _)⟩
    · rw [hcomponents, components_eq (ofPieces _ _), hnil]
      cases q.pieces.1 <;> rfl
    · refine ⟨String.ofList (joinPieces (js ++ [x])), ?_⟩
      rw [congrArg FilePath.text hq']
      cases q.pieces.1 <;> simp [ofPieces, joinPieces]
  · have hp : (ofPieces q.pieces.1 ps).pieces = (q.pieces.1, ps) := by
      refine pieces_ofPieces hps (fun r hr => ?_) fun habs hhead => ?_
      · exact not_mem_of_mem_pieces (p := q) (by simp [hpieces, hr])
      · obtain ⟨ys, rfl⟩ := List.head?_eq_some_iff.mp hhead
        have hall := pieces_of_head_nil habs (by rw [hpieces]; rfl)
        rw [hpieces] at hall
        simp at hall
    refine ⟨⟨x, h, by rw [hp], ⟨ps, js, hpieces, hidle, .inl (by rw [hp])⟩, hxnil, hdot,
      ?_, ?_⟩, .inl ⟨by rw [hp]; exact htrim.resolve_left hps, by rw [hp]; exact hps⟩⟩
    · rw [hcomponents, components_eq (ofPieces _ _), hp]
    · refine ⟨String.ofList ('/' :: joinPieces (js ++ [x])), ?_⟩
      rw [congrArg FilePath.text hq', ofPieces, joinPieces_append hps (by simp)]
      cases q.pieces.1 <;> simp [ofPieces, String.append_assoc]

theorem Trim.exists_behind {q : FilePath} (hq : q.Trim) :
    ∃ p x, q.Behind p x ∧ (p.Trim ∨ p.text = "" ∨ p.text = "/") := by
  obtain ⟨ps, js, x, -, -, -, -, -, hparent, -⟩ := hq.exists_pieces
  obtain ⟨⟨x, hb⟩, hkind⟩ := hq.behind hparent
  exact ⟨_, x, hb, hkind⟩

/-- Going up from a path, parent by parent, ends at the root, or where nothing is left. -/
inductive Climbs : FilePath → Prop
  | empty {q : FilePath} (h : q.text = "") : Climbs q
  | root {q : FilePath} (h : q.text = "/") : Climbs q
  | up {q p : FilePath} {x : List Char} (hq : q.Trim) (hb : q.Behind p x)
      (hkind : p.Trim ∨ p.text = "" ∨ p.text = "/") (h : Climbs p) : Climbs q

theorem climbs {q : FilePath} (hq : q.Trim ∨ q.text = "" ∨ q.text = "/") : q.Climbs := by
  -- by induction on the number of components: a parent has one less
  induction hlength : q.components.length using Nat.strongRecOn generalizing q with
  | ind length ih =>
      rcases hq with htrim | htext | htext
      · obtain ⟨p, x, hb, hkind⟩ := htrim.exists_behind
        have hless : p.components.length < length := by
          rw [← hlength, hb.components, List.length_append]
          exact Nat.lt_succ_self _
        exact .up htrim hb hkind (ih _ hless hkind rfl)
      · exact .empty htext
      · exact .root htext

/-- An entry is behind the path it was joined to. -/
theorem behind_join (p : FilePath) {name : String} (h : IsName name) :
    (p / name).Behind p.trimmed name.toList := by
  obtain ⟨⟨x, hx⟩, -⟩ := (trim_join p h).behind (parent?_join p h)
  obtain ⟨ps, js, hpieces, -⟩ := hx.pieces
  rw [pieces_join p h] at hpieces
  have hlast := congrArg List.getLast? hpieces
  rw [List.getLast?_concat, List.getLast?_concat] at hlast
  rwa [← Option.some.inj hlast] at hx

/-- **Trimming does not change where a path leads.** -/
theorem components_trimmed (p : FilePath) : p.trimmed.components = p.components := by
  -- any entry has the path in front of it, and the trimmed path as the parent it is behind
  have hname : IsName "a" := ⟨by decide, by decide, by decide, by decide⟩
  have hbehind := (behind_join p hname).components
  rw [components_join p hname, ofPiece_of_isName hname] at hbehind
  exact (List.append_cancel_right hbehind).symm

/-- A name in a directory that is joined itself. -/
theorem behind_join_join (p : FilePath) {m n : String} (hm : IsName m) (hn : IsName n) :
    (p / m / n).Behind (p / m) n.toList := by
  have hb := behind_join (p / m) hn
  rwa [trimmed_join p hm] at hb

/-- A path that is behind another one has a text. -/
theorem Behind.text_ne_empty {q p : FilePath} {x : List Char} (h : q.Behind p x) : q.text ≠ "" := by
  intro htext
  have hcomponents : (⟨q.text⟩ : FilePath).components = p.components ++ [Component.ofPiece x] :=
    h.components
  rw [htext, show (⟨""⟩ : FilePath).components = [] from rfl] at hcomponents
  simp at hcomponents

/-- **The ancestors of a path** are the path and the ancestors of its parent. -/
theorem Behind.ancestors {q p : FilePath} {x : List Char} (h : q.Behind p x) :
    q.ancestors = q :: p.ancestors := by
  rw [FilePath.ancestors, ancestorsWithin, h.parent, h.components, List.length_append]
  rfl

end FilePath

end StorageNode
