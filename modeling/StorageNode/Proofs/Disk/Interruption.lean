import StorageNode.Proofs.Disk.Effects

/-!
# Tasks that are cut off

A crash may come between any two changes of a task, and in the middle of writing. What has been done
then is an initial part of the changes, the last of which may be a part of an append
(`DiskChange.CutOff`). `DiskTask.Survives E t d Q` says of a task that every disk it can be cut off at
satisfies `E`, and that its result satisfies `Q`. `DiskTask.Commits E t d Q` allows for one exception:
a task that has succeeded and whose last change was a move has got to `Q` at once. The rules follow
`DiskTask.Does`: a task that commits may be prepared by one that survives (`Commits.bind`).
-/

namespace StorageNode

namespace DiskChange

/-- **What may have been done of some changes** when they are cut off. -/
inductive CutOff : List DiskChange → List DiskChange → Prop
  | stop (cs : List DiskChange) : CutOff cs []
  /-- In the middle of an append. -/
  | within (l : Location) (part rest : Bytes) (cs : List DiskChange) :
      CutOff (.append l (part ++ rest) :: cs) [.append l part]
  | next (c : DiskChange) {cs ds : List DiskChange} (h : CutOff cs ds) : CutOff (c :: cs) (c :: ds)

namespace CutOff

variable {cs cs' ds : List DiskChange}

/-- All changes may have been made. -/
theorem self : ∀ cs : List DiskChange, CutOff cs cs
  | [] => .stop []
  | c :: cs => .next c (self cs)

/-- Only the first changes may have been made. -/
theorem take (n : Nat) (cs : List DiskChange) : CutOff cs (cs.take n) := by
  induction n generalizing cs with
  | zero => exact .stop cs
  | succ n ih =>
      cases cs with
      | nil => exact .stop []
      | cons c cs => exact .next c (ih cs)

theorem eq_nil (h : CutOff [] ds) : ds = [] := by
  cases h
  rfl

/-- One change is made, or not, or in part. -/
theorem of_singleton {c : DiskChange} (h : CutOff [c] ds) :
    ds = [] ∨ ds = [c] ∨ ∃ l part rest, c = .append l (part ++ rest) ∧ ds = [.append l part] := by
  cases h with
  | stop => exact .inl rfl
  | within l part rest => exact .inr (.inr ⟨l, part, rest, rfl, rfl⟩)
  | next _ h =>
      obtain rfl := eq_nil h
      exact .inr (.inl rfl)

/-- Changes one after another are cut off in the first ones, or behind them. -/
theorem of_append : ∀ {cs ds : List DiskChange}, CutOff (cs ++ cs') ds →
    CutOff cs ds ∨ ∃ ds', ds = cs ++ ds' ∧ CutOff cs' ds'
  | [], ds, h => .inr ⟨ds, rfl, h⟩
  | c :: cs, ds, h => by
      cases h with
      | stop => exact .inl (.stop _)
      | within l part rest => exact .inl (.within l part rest cs)
      | next _ h =>
          rcases of_append h with hfirst | ⟨ds', rfl, hsecond⟩
          · exact .inl (.next c hfirst)
          · exact .inr ⟨ds', rfl, hsecond⟩

/-- What may be done of changes of one kind is of that kind, if a part of an append is. -/
theorem run {R : Disk → DiskChange → Prop}
    (hpart : ∀ d l part rest, R d (.append l (part ++ rest)) → R d (.append l part)) :
    ∀ {cs ds : List DiskChange} {d : Disk}, Run R d cs → CutOff cs ds → Run R d ds
  | [], ds, d, _, h => by
      obtain rfl := eq_nil h
      exact .nil d
  | c :: cs, ds, d, .cons hc hcs, h => by
      cases h with
      | stop => exact .nil d
      | within l part rest => exact .cons (hpart d l part rest hc) (.nil _)
      | next _ h => exact .cons hc (run hpart hcs h)

end CutOff

end DiskChange

namespace DiskTask

open DiskChange (CutOff applyAll)

variable {ε ε' α β : Type} {E : Disk → Prop} {t : DiskTask ε α} {d : Disk} {Q : α → Disk → Prop}

/-- **The task can be cut off anywhere**, and a result is as it should be. -/
structure Survives (E : Disk → Prop) (t : DiskTask ε α) (d : Disk) (Q : α → Disk → Prop) : Prop where
  cut : ∀ {ds}, CutOff (t d).changes ds → E (applyAll d ds)
  post : ∀ {a}, (t d).result = .ok a → Q a (t.after d)

/-- There is no move among the changes. -/
def Unmoved (ds : List DiskChange) : Prop := ∀ source target, DiskChange.move source target ∉ ds

/-- **The task can be cut off anywhere before its last change**, which is a move. Behind it, all is
done. -/
structure Commits (E : Disk → Prop) (t : DiskTask ε α) (d : Disk) (Q : α → Disk → Prop) : Prop where
  cut : ∀ {ds}, CutOff (t d).changes ds → E (applyAll d ds) ∨
    (ds = (t d).changes ∧ (∃ source target, .move source target ∈ ds) ∧ ∃ a, (t d).result = .ok a)
  post : ∀ {a}, (t d).result = .ok a → Q a (t.after d)

/-- A result that is got in spite of other words for errors is got without them. -/
theorem result_of_mapError {f : ε → ε'} {a : α} (h : (t.mapError f d).result = .ok a) :
    (t d).result = .ok a := by
  cases hr : (t d).result with
  | error e => simp [DiskTask.mapError, hr, Except.mapError] at h
  | ok b => simpa [DiskTask.mapError, hr, Except.mapError] using h

/-- Disks that no step leaves are not left by any initial part of the steps. -/
theorem Does.survives {R : Disk → DiskChange → Prop} (h : t.Does R d Q) (hd : E d)
    (hpart : ∀ d l part rest, R d (.append l (part ++ rest)) → R d (.append l part))
    (hstep : ∀ d c, E d → R d c → E (c.apply d)) :
    t.Survives E d fun a d' => Q a d' ∧ E d' where
  cut := fun hds => (CutOff.run hpart h.run hds).keeps hstep hd
  post := fun ha => ⟨h.post ha, h.run.keeps hstep hd⟩

/-- Wherever sound steps are cut off, a plain disk is left on which every directory is in place. -/
theorem Does.plain_of_cutOff {R : Disk → DiskChange → Prop} (h : t.Does R d Q)
    (hR : ∀ d c, R d c → d.Sound c)
    (hpart : ∀ d l part rest, R d (.append l (part ++ rest)) → R d (.append l part))
    (hd : d.IsPlain) {ds : List DiskChange} (hds : CutOff (t d).changes ds) :
    Disk.IsPlain (applyAll d ds) ∧ d.Keeps (applyAll d ds) :=
  have hrun := CutOff.run hpart h.run hds
  ⟨hd.applyAll hR hrun, Disk.keeps_applyAll hR hrun⟩

theorem Survives.imp {E' : Disk → Prop} {Q' : α → Disk → Prop} (h : t.Survives E d Q)
    (hE : ∀ d', E d' → E' d') (hQ : ∀ a d', Q a d' → Q' a d') : t.Survives E' d Q' where
  cut := fun hds => hE _ (h.cut hds)
  post := fun ha => hQ _ _ (h.post ha)

theorem Survives.of_eq {t' : DiskTask ε α} (h : t'.Survives E d Q) (heq : t d = t' d) :
    t.Survives E d Q where
  cut := fun hds => h.cut (heq ▸ hds)
  post := fun ha => by
    rw [DiskTask.after, heq]
    exact h.post (heq ▸ ha)

theorem Survives.pure {a : α} (hd : E d) (h : Q a d) :
    (DiskTask.pure a : DiskTask ε α).Survives E d Q where
  cut := fun hds => by
    obtain rfl := CutOff.eq_nil hds
    exact hd
  post := by
    rintro _ ⟨⟩
    exact h

/-- A task that survives commits. -/
theorem Survives.commits (h : t.Survives E d Q) : t.Commits E d Q where
  cut := fun hds => .inl (h.cut hds)
  post := h.post

/-- A task that fails without a change. -/
theorem Survives.of_error {e : ε} (hd : E d) (h : t d = ⟨[], .error e⟩) : t.Survives E d Q where
  cut := fun hds => by
    rw [h] at hds
    obtain rfl := CutOff.eq_nil hds
    exact hd
  post := fun ha => by simp [h] at ha

/-- Behind a task comes another one, unless it fails. -/
theorem Survives.bind {f : α → DiskTask ε β} {Q' : β → Disk → Prop} (ht : t.Survives E d Q)
    (hf : ∀ a, Q a (t.after d) → (f a).Survives E (t.after d) Q') : (t >>= f).Survives E d Q' := by
  cases h : (t d).result with
  | error e =>
      have heq := bind_of_error (f := f) h
      exact ⟨fun hds => ht.cut (by rwa [heq] at hds), fun hb => by simp [heq] at hb⟩
  | ok a =>
      have heq := bind_of_ok (f := f) h
      have hnext := hf a (ht.post h)
      refine ⟨fun {ds} hds => ?_, fun {b} hb => ?_⟩
      · rw [heq] at hds
        rcases CutOff.of_append hds with hfirst | ⟨ds', rfl, hsecond⟩
        · exact ht.cut hfirst
        · simpa [applyAll, DiskTask.after] using hnext.cut hsecond
      · rw [heq] at hb
        simpa [DiskTask.after, heq, applyAll] using hnext.post hb

/-- **What commits may be prepared** by a task that survives. -/
theorem Commits.bind {f : α → DiskTask ε β} {Q' : β → Disk → Prop} (ht : t.Survives E d Q)
    (hf : ∀ a, Q a (t.after d) → (f a).Commits E (t.after d) Q') : (t >>= f).Commits E d Q' := by
  cases h : (t d).result with
  | error e =>
      have heq := bind_of_error (f := f) h
      exact ⟨fun hds => .inl (ht.cut (by rwa [heq] at hds)), fun hb => by simp [heq] at hb⟩
  | ok a =>
      have heq := bind_of_ok (f := f) h
      have hnext := hf a (ht.post h)
      refine ⟨fun {ds} hds => ?_, fun {b} hb => ?_⟩
      · rw [heq] at hds ⊢
        rcases CutOff.of_append hds with hfirst | ⟨ds', rfl, hsecond⟩
        · exact .inl (ht.cut hfirst)
        · rcases hnext.cut hsecond with hE | ⟨rfl, ⟨source, target, hmove⟩, hok⟩
          · exact .inl (by simpa [applyAll, DiskTask.after] using hE)
          · exact .inr ⟨rfl, ⟨source, target, List.mem_append_right _ hmove⟩, hok⟩
      · rw [heq] at hb
        simpa [DiskTask.after, heq, applyAll] using hnext.post hb

theorem Commits.imp {E' : Disk → Prop} {Q' : α → Disk → Prop} (h : t.Commits E d Q)
    (hE : ∀ d', E d' → E' d') (hQ : ∀ a d', Q a d' → Q' a d') : t.Commits E' d Q' where
  cut := fun hds => (h.cut hds).imp_left (hE _)
  post := fun ha => hQ _ _ (h.post ha)

theorem Commits.of_eq {t' : DiskTask ε α} (h : t'.Commits E d Q) (heq : t d = t' d) :
    t.Commits E d Q where
  cut := fun hds => by
    rw [heq] at hds ⊢
    exact h.cut hds
  post := fun ha => by
    rw [DiskTask.after, heq]
    exact h.post (heq ▸ ha)

/-- A move commits. -/
theorem Commits.move {source target : Location} {Q : Unit → Disk → Prop} (hd : E d)
    (h : Q () (DiskChange.apply d (.move source target))) :
    (DiskTask.change (.move source target) : DiskTask ε Unit).Commits E d Q where
  cut := fun hds => by
    rcases CutOff.of_singleton hds with rfl | rfl | ⟨l, part, rest, hc, rfl⟩
    · exact .inl hd
    · exact .inr ⟨rfl, ⟨source, target, List.mem_singleton.mpr rfl⟩, (), rfl⟩
    · cases hc
  post := fun _ => h

/-- Other words for an error change nothing. -/
theorem Commits.mapError (f : ε → ε') (h : t.Commits E d Q) : (t.mapError f).Commits E d Q where
  cut := fun hds => by
    rcases h.cut hds with hE | ⟨rfl, hmove, a, ha⟩
    · exact .inl hE
    · exact .inr ⟨rfl, hmove, a, by simp [DiskTask.mapError, ha, Except.mapError]⟩
  post := fun ha => h.post (result_of_mapError ha)

theorem changes_mapError (f : ε → ε') : (t.mapError f d).changes = (t d).changes := rfl

theorem Survives.mapError (f : ε → ε') (h : t.Survives E d Q) : (t.mapError f).Survives E d Q where
  cut := h.cut
  post := fun ha => h.post (result_of_mapError ha)

/-- A task that makes no change may come behind the one that commits. -/
theorem Commits.andPure (h : t.Commits E d Q) (b : β) :
    (t >>= fun _ => DiskTask.pure b).Commits E d fun b' d' => b' = b ∧ ∃ a, Q a d' := by
  cases hr : (t d).result with
  | error e =>
      have heq := bind_of_error (f := fun _ => DiskTask.pure (ε := ε) b) hr
      exact ⟨fun hds => (h.cut (by rwa [heq] at hds)).elim .inl fun ⟨_, _, a, ha⟩ => by
        simp [hr] at ha, fun hb => by simp [heq] at hb⟩
  | ok a =>
      have heq := bind_of_ok (f := fun _ => DiskTask.pure (ε := ε) b) hr
      simp only [DiskTask.pure, List.append_nil] at heq
      refine ⟨fun hds => ?_, fun hb => ?_⟩
      · rw [heq] at hds ⊢
        rcases h.cut hds with hE | ⟨rfl, hmove, -⟩
        · exact .inl hE
        · exact .inr ⟨rfl, hmove, b, rfl⟩
      · rw [heq] at hb
        refine ⟨(Except.ok.inj hb).symm, a, ?_⟩
        rw [DiskTask.after, heq]
        exact h.post hr

/-- A task that commits and fails has not got to its move. -/
theorem Commits.of_error {e : ε} (h : t.Commits E d Q) (he : (t d).result = .error e) :
    E (t.after d) := by
  rcases h.cut (CutOff.self _) with hE | ⟨-, -, a, ha⟩
  · exact hE
  · simp [he] at ha

end DiskTask

end StorageNode
