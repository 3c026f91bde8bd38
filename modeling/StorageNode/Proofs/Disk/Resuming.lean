import StorageNode.Proofs.Disk.Ways

/-!
# Running a task again

A task that has been cut off can be run again, on the disk that is left. It *resumes*
(`DiskTask.Resumes`) if it ends there as it would have ended without the interruption. One task after
another resumes if both do, and if the first one has nothing to do any more wherever the second one is
cut off (`Resumes.bind`).

Making a path resumes (`Disk.makePath_resumes`). The loop that makes missing parents first comes to the
same as making all of the ancestors, from above, each if it is missing
(`Disk.makeDirectories_endsAlike`), and what has been made stays.
-/

namespace StorageNode

namespace DiskTask

open DiskChange (CutOff applyAll)

/-- **Two outcomes come to the same**: the same disk is left, and the same result, if there is one. -/
structure EndsAlike {ε α : Type} (t : DiskTask ε α) (d' d : Disk) : Prop where
  after : t.after d' = t.after d
  result : (t d').result.toOption = (t d).result.toOption

/-- **The task may be cut off before it moves anything, and run again.** -/
def Resumes {ε α : Type} (t : DiskTask ε α) (d : Disk) : Prop :=
  ∀ ds, CutOff (t d).changes ds → Unmoved ds → t.EndsAlike (applyAll d ds) d

section

variable {ε ε' α β : Type} {t : DiskTask ε α} {d d' : Disk}

theorem EndsAlike.refl (t : DiskTask ε α) (d : Disk) : t.EndsAlike d d := ⟨rfl, rfl⟩

/-- A result is read off what there is without the error. -/
theorem eq_ok_of_toOption {r : Except ε α} {a : α}
    (h : r.toOption = (.ok a : Except ε α).toOption) : r = .ok a := by
  cases r with
  | error e => cases h
  | ok b => exact congrArg Except.ok (Option.some.inj h)

/-- Without an error both results are the same. -/
theorem EndsAlike.result_eq_ok (h : t.EndsAlike d' d) {a : α} (ha : (t d').result = .ok a) :
    (t d).result = .ok a :=
  eq_ok_of_toOption (h.result.symm.trans (congrArg Except.toOption ha))

/-- An error stays one. -/
theorem EndsAlike.result_eq_error (h : t.EndsAlike d' d) {e : ε} (he : (t d').result = .error e) :
    ∃ e', (t d).result = .error e' := by
  have hresult := h.result
  rw [he] at hresult
  cases hr : (t d).result with
  | error e' => exact ⟨e', rfl⟩
  | ok b => simp [hr, Except.toOption] at hresult

theorem after_of_error {f : α → DiskTask ε β} {e : ε} (h : (t d).result = .error e) :
    (t >>= f).after d = t.after d ∧ ((t >>= f) d).result = .error e := by
  have heq := bind_of_error (f := f) h
  exact ⟨by rw [DiskTask.after, heq]; rfl, by rw [heq]⟩

theorem after_of_ok {f : α → DiskTask ε β} {a : α} (h : (t d).result = .ok a) :
    (t >>= f).after d = (f a).after (t.after d) ∧
      ((t >>= f) d).result = (f a (t.after d)).result := by
  have heq := bind_of_ok (f := f) h
  exact ⟨by rw [DiskTask.after, heq]; simp [applyAll, DiskTask.after], by rw [heq]⟩

/-- Two tasks one after another succeed if both do. -/
theorem exists_of_bind_ok {f : α → DiskTask ε β} {b : β} (h : ((t >>= f) d).result = .ok b) :
    ∃ a, (t d).result = .ok a ∧ (f a (t.after d)).result = .ok b ∧
      (t >>= f).after d = (f a).after (t.after d) := by
  cases hr : (t d).result with
  | error e => simp [(after_of_error (f := f) hr).2] at h
  | ok a =>
      obtain ⟨hafter, hresult⟩ := after_of_ok (f := f) hr
      exact ⟨a, rfl, hresult.symm.trans h, hafter⟩

/-- What comes behind tasks that end alike ends alike. -/
theorem EndsAlike.bind (h : t.EndsAlike d' d) (f : α → DiskTask ε β) :
    (t >>= f).EndsAlike d' d := by
  cases hr : (t d').result with
  | error e =>
      obtain ⟨e', he'⟩ := h.result_eq_error hr
      obtain ⟨hafter, hresult⟩ := after_of_error (f := f) hr
      obtain ⟨hafter', hresult'⟩ := after_of_error (f := f) he'
      exact ⟨by rw [hafter, hafter', h.after], by rw [hresult, hresult']; rfl⟩
  | ok a =>
      obtain ⟨hafter, hresult⟩ := after_of_ok (f := f) hr
      obtain ⟨hafter', hresult'⟩ := after_of_ok (f := f) (h.result_eq_ok hr)
      exact ⟨by rw [hafter, hafter', h.after], by rw [hresult, hresult', h.after]⟩

theorem EndsAlike.mapError (f : ε → ε') (h : t.EndsAlike d' d) :
    (t.mapError f).EndsAlike d' d where
  after := h.after
  result := by
    have hresult : ∀ d, ((t.mapError f) d).result.toOption = (t d).result.toOption := by
      intro d
      show ((t d).result.mapError f).toOption = _
      cases (t d).result <;> rfl
    rw [hresult, hresult, h.result]

theorem Resumes.mapError (f : ε → ε') (h : t.Resumes d) : (t.mapError f).Resumes d :=
  fun ds hds hmove => (h ds hds hmove).mapError f

/-- **One task after another resumes** if both do, and the first one is done for good. -/
theorem Resumes.bind {f : α → DiskTask ε β} (ht : t.Resumes d)
    (hf : ∀ a, (t d).result = .ok a → (f a).Resumes (t.after d))
    (hdone : ∀ a, (t d).result = .ok a → ∀ ds, CutOff (f a (t.after d)).changes ds → Unmoved ds →
      t (applyAll (t.after d) ds) = ⟨[], .ok a⟩) : (t >>= f).Resumes d := by
  intro ds hds hmove
  cases hr : (t d).result with
  | error e =>
      rw [bind_of_error hr] at hds
      exact (ht ds hds hmove).bind f
  | ok a =>
      rw [bind_of_ok hr] at hds
      rcases CutOff.of_append hds with hfirst | ⟨ds', rfl, hsecond⟩
      · exact (ht ds hfirst hmove).bind f
      · have hmove' : Unmoved ds' := fun source target hmem =>
          hmove source target (List.mem_append_right _ hmem)
        have hdisk : applyAll d ((t d).changes ++ ds') = applyAll (t.after d) ds' := by
          simp [applyAll, DiskTask.after]
        have hagain := hdone a hr ds' hsecond hmove'
        obtain ⟨hafter, hresult⟩ := after_of_ok (f := f) (t := t)
          (d := applyAll (t.after d) ds') (a := a) (by rw [hagain])
        obtain ⟨hafter', hresult'⟩ := after_of_ok (f := f) hr
        have hsame : t.after (applyAll (t.after d) ds') = applyAll (t.after d) ds' := by
          rw [DiskTask.after, hagain]
          rfl
        have hsecond := hf a hr ds' hsecond hmove'
        rw [hdisk]
        exact ⟨by rw [hafter, hafter', hsame, hsecond.after],
          by rw [hresult, hresult', hsame, hsecond.result]⟩

/-- What ends alike for one task ends alike for another that comes to the same. -/
theorem EndsAlike.congr {u : DiskTask ε α} (h : u.EndsAlike d' d)
    (heq : (t d).changes = (u d).changes ∧ (t d).result.toOption = (u d).result.toOption)
    (heq' : (t d').changes = (u d').changes ∧ (t d').result.toOption = (u d').result.toOption) :
    t.EndsAlike d' d where
  after := by
    have hafter := h.after
    rw [DiskTask.after, DiskTask.after] at hafter ⊢
    rw [heq.1, heq'.1, hafter]
  result := by rw [heq.2, heq'.2, h.result]

/-- A result that is given in place of another one makes no change. -/
theorem cutOff_of_andPure {b : β} {ds : List DiskChange}
    (h : CutOff ((t >>= fun _ => DiskTask.pure b) d).changes ds) : CutOff (t d).changes ds := by
  cases hr : (t d).result with
  | error e => rwa [bind_of_error hr] at h
  | ok a =>
      rw [bind_of_ok hr] at h
      simpa [DiskTask.pure] using h

/-- A result may be given in place of another one. -/
theorem Resumes.andPure (h : t.Resumes d) (b : β) : (t >>= fun _ => DiskTask.pure b).Resumes d :=
  fun ds hds hmove => (h ds (cutOff_of_andPure hds) hmove).bind _

theorem mapError_of_unchanged (f : ε → ε') {a : α} (h : t d = ⟨[], .ok a⟩) :
    t.mapError f d = ⟨[], .ok a⟩ := by
  rw [DiskTask.mapError, h]
  rfl

/-- What makes no change resumes. -/
theorem Resumes.of_unchanged (h : (t d).changes = []) : t.Resumes d := by
  intro ds hds _
  rw [h] at hds
  rw [CutOff.eq_nil hds]
  exact .refl t d

end

end DiskTask

namespace Disk

open FilePath (Behind IsName)

section

variable {d d' : Disk} {p q b c : FilePath} {x : List Char}

/-! ## Why a directory cannot be made -/

/-- Without links, passing is going down. -/
theorem pass_of_linkFree (hd : d.LinkFree) (ps : List String) (cur : Location) :
    d.pass cur ps = (d.descend cur ps).map Halt.inside := by
  induction ps generalizing cur with
  | nil => rfl
  | cons p ps ih =>
      rw [pass, descend]
      split
      · exact ih cur
      split
      · rfl
      next hs =>
      split
      · exact ih cur
      split
      · exact ih cur.tail
      rw [enter, if_neg hs]
      cases hf : d.find cur p with
      | error e => rfl
      | ok o =>
          cases o with
          | none => rfl
          | some e =>
              cases e with
              | file => rfl
              | directory => exact ih (p :: cur)
              | link target => exact absurd hf (find_ne_link hd _ _ _)

theorem passage_of_linkFree (hd : d.LinkFree) (p : FilePath) :
    d.passage p = (d.reach p).map fun l => (l, linkLimit) := by
  unfold passage arrive reach
  rw [pass_of_linkFree hd]
  cases d.descend (start workplace p.text) (piecesOf p.text) <;> rfl

/-- What leads to a directory arrives there. -/
theorem passage_of_isDirectory (hd : d.LinkFree) (h : d.isDirectory p = true) :
    ∃ a, d.passage p = .ok a := by
  obtain ⟨l, r, hl, hr⟩ := isDirectory_iff.mp h
  exact ⟨_, by rw [passage_of_linkFree hd, reach_of_locate hd hl hr]; rfl⟩

theorem isDirectory_of_passage (hd : d.IsTree) (hf : fault? p = none) {a : Location × Nat}
    (h : d.passage p = .ok a) : d.isDirectory p = true := by
  obtain ⟨hl, r, hr⟩ := locate_of_passage hd hf h
  exact isDirectory_iff.mpr ⟨_, r, hl, hr⟩

/-- Where a path arrives its parent arrives. -/
theorem passage_parent (hb : c.Behind b x) {a : Location × Nat} (h : d.passage c = .ok a) :
    ∃ a', d.passage b = .ok a' := by
  cases hp : d.passage b with
  | ok a' => exact ⟨a', rfl⟩
  | error e => simp [passage_behind hb, hp, Except.bind] at h

/-- If anything is not found when a directory is to be made, it is the parent. -/
theorem passage_of_newDirectory_notFound (hb : c.Behind b x)
    (h : newDirectory c d = .error .notFound) : d.passage b = .error .notFound := by
  cases named_of_behind d hb with
  | error he hcause =>
      rw [newDirectory, he .name] at h
      exact hcause (Except.error.inj h)
  | dots _ hk => simp [newDirectory, hk .name] at h
  | name _ _ _ _ hk =>
      rcases newDirectory_of_named (hk .name fun _ _ => rfl) with ⟨hok, -⟩ | ⟨e, herror, hne⟩
      · simp [hok] at h
      · exact absurd (Except.error.inj (herror.symm.trans h)) hne

/-- Without the parent no directory can be made, for the same reason. -/
theorem newDirectory_of_passage_error (hb : c.Behind b x) (hf : fault? c = none) {e : DiskError}
    (h : d.passage b = .error e) : newDirectory c d = .error e := by
  rw [newDirectory, resolve_behind hb, hf, h]
  rfl

/-- Where a path arrives, or is stopped by anything but that something is missing, no directory is
made. -/
theorem newDirectory_error (hb : c.Behind b x) (h : d.passage c ≠ .error .notFound) :
    ∃ e, newDirectory c d = .error e ∧ e ≠ .notFound := by
  cases hnew : newDirectory c d with
  | ok k =>
      obtain ⟨l, -, hat⟩ := newAt_of_ok hb hnew
      exact absurd (hat.passage_eq hb) h
  | error e =>
      refine ⟨e, rfl, ?_⟩
      rintro rfl
      have hparent := passage_of_newDirectory_notFound hb hnew
      exact h (by rw [passage_behind hb, hparent]; rfl)

/-! ## Making a path again -/

/-- A directory is there once it is settled. -/
theorem isDirectory_settle (hd : d.IsTree) (hc : c.Trim) (h : (settle c d).result = .ok ()) :
    ((settle c).after d).isDirectory c = true := by
  obtain ⟨b, x, hb, -⟩ := hc.exists_behind
  cases hnew : newDirectory c d with
  | ok k =>
      obtain ⟨l, rfl, hat⟩ := newAt_of_ok hb hnew
      rw [DiskTask.after, settle_of_ok hnew]
      obtain ⟨n, hn⟩ := hat.arrives_behind hd hb
      exact isDirectory_of_passage (hd.apply (.makeDirectory hat.vacant)) hat.usable hn
  | error e =>
      rw [DiskTask.after, settle_changes_of_error hnew]
      rw [settle_of_error hnew] at h
      by_cases hdir : d.isDirectory c = true
      · exact hdir
      · simp [hdir] at h

/-- What is there is not made. -/
theorem settle_of_isDirectory (hd : d.IsPlain) (hb : c.Behind b x) (h : d.isDirectory c = true) :
    settle c d = ⟨[], .ok ()⟩ := by
  obtain ⟨a, ha⟩ := passage_of_isDirectory hd.linkFree h
  obtain ⟨e, hnew, -⟩ := newDirectory_error (d := d) hb (by simp [ha])
  exact (settle_of_error hnew).trans (if_pos h)

/-- Where a path arrives, it and its ancestors are there. -/
theorem makeDirectories_of_passage (hd : d.IsPlain) (hc : c.Trim ∨ c.text = "" ∨ c.text = "/")
    (hf : c.text ≠ "" → fault? c = none) {a : Location × Nat} (h : d.passage c = .ok a) :
    makeDirectories c.ancestors d = ⟨[], .ok ()⟩ := by
  rcases hc with htrim | htext | htext
  · obtain ⟨b, x, hb, -⟩ := htrim.exists_behind
    have hdir := isDirectory_of_passage hd.tree (hf hb.text_ne_empty) h
    obtain ⟨e, hnew, hne⟩ := newDirectory_error (d := d) hb (by simp [h])
    rw [hb.ancestors, makeDirectories_cons _ _ d hb.text_ne_empty, hnew,
      if_neg (by simpa using hne), settle_of_isDirectory hd hb hdir]
  · exact makeDirectories_of_empty htext d
  · obtain ⟨heq, hnew⟩ := makeDirectories_of_root htext d
    have hdir := isDirectory_of_passage hd.tree (hf (by rw [htext]; decide)) h
    exact heq.trans ((settle_of_error hnew).trans (if_pos hdir))

/-- Where a path is stopped by anything but that something is missing, none of its ancestors is
made. -/
theorem makeDirectories_of_passage_error (hd : d.IsPlain)
    (hc : c.Trim ∨ c.text = "" ∨ c.text = "/") {e : DiskError} (h : d.passage c = .error e)
    (hne : e ≠ .notFound) : ∃ e', makeDirectories c.ancestors d = ⟨[], .error e'⟩ := by
  rcases hc with htrim | htext | htext
  · obtain ⟨b, x, hb, -⟩ := htrim.exists_behind
    obtain ⟨e', hnew, hne'⟩ := newDirectory_error (d := d) hb (by simpa [h] using hne)
    have hdir : ¬ d.isDirectory c = true := fun hdir => by
      obtain ⟨a, ha⟩ := passage_of_isDirectory hd.linkFree hdir
      simp [h] at ha
    refine ⟨e', ?_⟩
    rw [hb.ancestors, makeDirectories_cons _ _ d hb.text_ne_empty, hnew,
      if_neg (by simpa using hne'), settle_of_error hnew]
    exact if_neg hdir
  · have hps : ∀ r ∈ piecesOf c.text, r = "" := by rw [htext]; decide
    simp [passage, arrive_empty _ _ hps] at h
  · have hps : ∀ r ∈ piecesOf c.text, r = "" := by rw [htext]; decide
    simp [passage, arrive_empty _ _ hps] at h

/-- **Making missing parents first comes to the same as making all of them**, each if it is missing. -/
theorem makeDirectories_eq (hd : d.IsPlain) (hb : c.Behind b x) (hf : fault? c = none)
    (hbkind : b.Trim ∨ b.text = "" ∨ b.text = "/") :
    (makeDirectories c.ancestors d).changes =
        ((makeDirectories b.ancestors >>= fun _ => settle c) d).changes ∧
      (makeDirectories c.ancestors d).result.toOption =
        ((makeDirectories b.ancestors >>= fun _ => settle c) d).result.toOption := by
  rw [hb.ancestors, makeDirectories_cons _ _ d hb.text_ne_empty]
  cases hp : d.passage b with
  | ok a =>
      -- the parent is there
      have hnew : newDirectory c d ≠ .error .notFound := fun hnew => by
        simp [passage_of_newDirectory_notFound hb hnew] at hp
      have hparents := makeDirectories_of_passage hd hbkind
        (fun htext => fault?_of_behind hb htext hf) hp
      rw [if_neg hnew, DiskTask.bind_of_ok (a := ()) (by rw [hparents]), DiskTask.after, hparents]
      exact ⟨rfl, rfl⟩
  | error e =>
      have hnew := newDirectory_of_passage_error hb hf hp
      by_cases hmissing : e = .notFound
      · rw [if_pos (by rw [hnew, hmissing])]
        exact ⟨rfl, rfl⟩
      · -- nothing can be made at all
        obtain ⟨e', hparents⟩ := makeDirectories_of_passage_error hd hbkind hp hmissing
        have hdir : ¬ d.isDirectory c = true := fun hdir => by
          obtain ⟨a, ha⟩ := passage_of_isDirectory hd.linkFree hdir
          obtain ⟨a', ha'⟩ := passage_parent hb ha
          simp [hp] at ha'
        rw [if_neg (by simpa [hnew] using hmissing),
          DiskTask.bind_of_error (e := e') (by rw [hparents]), hparents, settle_of_error hnew]
        simp [hdir, Except.toOption]

/-- Making directories on the way keeps plain disks plain. -/
theorem IsPlain.after_way {ε α : Type} {t : DiskTask ε α} {Q : α → Disk → Prop} (hd : d.IsPlain)
    (h : t.Does (WayStep q) d Q) : (t.after d).IsPlain :=
  hd.applyAll (fun _ _ => WayStep.sound) h.run

/-- Empty pieces arrive where they begin. -/
theorem passage_of_empty (hps : ∀ r ∈ piecesOf p.text, r = "") (d : Disk) :
    ∃ a, d.passage p = .ok a :=
  ⟨_, arrive_empty _ _ hps⟩

/-- What has been made as a path arrives. -/
theorem passage_of_makeDirectories (hd : d.IsPlain) (hf : fault? q = none) (hway : OnWay q c)
    (hc : c.Trim ∨ c.text = "" ∨ c.text = "/")
    (h : (makeDirectories c.ancestors d).result = .ok ()) :
    ∃ a, ((makeDirectories c.ancestors).after d).passage c = .ok a := by
  rcases hc with htrim | htext | htext
  · obtain ⟨b, x, hb, hkind⟩ := htrim.exists_behind
    obtain ⟨hchanges, hresult⟩ := makeDirectories_eq hd hb (hway.usable hf hb.text_ne_empty) hkind
    rw [h] at hresult
    have hplain := hd.after_way (makeDirectories_does_way hf hway (.inl htrim) d)
    have hplain₁ := hd.after_way (makeDirectories_does_way hf (hway.up hb) hkind d)
    obtain ⟨a, -, hsettle, hafter⟩ := DiskTask.exists_of_bind_ok
      (DiskTask.eq_ok_of_toOption hresult.symm)
    refine passage_of_isDirectory hplain.linkFree ?_
    rw [DiskTask.after, hchanges, ← DiskTask.after, hafter]
    exact isDirectory_settle hplain₁.tree htrim hsettle
  · exact passage_of_empty (by rw [htext]; decide) _
  · exact passage_of_empty (by rw [htext]; decide) _

/-- A directory is settled again. -/
theorem settle_resumes (hd : d.IsPlain) (hb : c.Behind b x) (hc : c.Trim) (hf : fault? c = none) :
    (settle c).Resumes d := by
  intro ds hds _
  cases hnew : newDirectory c d with
  | error e =>
      rw [settle_changes_of_error hnew] at hds
      rw [DiskChange.CutOff.eq_nil hds]
      exact .refl _ _
  | ok k =>
      have hsettle := settle_of_ok hnew
      rw [hsettle] at hds
      rcases hds.of_singleton with rfl | rfl | ⟨l, part, rest, hpart, -⟩
      · exact .refl _ _
      · have hafter : DiskChange.applyAll d [.makeDirectory k] = (settle c).after d := by
          rw [DiskTask.after, hsettle]
        have hdir := isDirectory_settle hd.tree hc (by rw [hsettle])
        have hagain := settle_of_isDirectory (hd.after_way (settle_does_way hf .last hc d)) hb hdir
        rw [hafter]
        exact ⟨by rw [DiskTask.after, hagain]; rfl, by rw [hagain, hsettle]⟩
      · cases hpart

/-- Making a path after its parents resumes if making the parents does. -/
theorem parents_resumes (hd : d.IsPlain) (hf : fault? q = none) (hway : OnWay q c) (hc : c.Trim)
    (hb : c.Behind b x) (hbkind : b.Trim ∨ b.text = "" ∨ b.text = "/")
    (h : (makeDirectories b.ancestors).Resumes d) :
    (makeDirectories b.ancestors >>= fun _ => settle c).Resumes d := by
  have hfc := hway.usable hf hb.text_ne_empty
  have hplain₁ := hd.after_way (makeDirectories_does_way hf (hway.up hb) hbkind d)
  refine h.bind (fun _ _ => settle_resumes hplain₁ hb hc hfc) fun _ hr ds hds _ => ?_
  -- what leads to the parent still does when the path itself is made
  obtain ⟨a, ha⟩ := passage_of_makeDirectories hd hf (hway.up hb) hbkind hr
  have hstays := (settle_does_way hf hway hc _).survives
    (E := fun d' => d'.IsPlain ∧ d'.passage b = .ok a)
    ⟨hplain₁, ha⟩ (by rintro _ _ _ _ ⟨⟩) fun d' _ hd' hstep => by
      have hsound := hstep.sound
      obtain ⟨-, -, -, hnew⟩ := hstep
      exact ⟨⟨hd'.1.tree.apply hsound, hd'.1.linkFree.apply hsound⟩,
        passage_mono hd'.1.tree hnew.alike hd'.2⟩
  obtain ⟨hplain', ha'⟩ := hstays.cut hds
  exact makeDirectories_of_passage hplain' hbkind (fun htext => fault?_of_behind hb htext hfc) ha'

/-- **Making the ancestors of a path resumes.** -/
theorem makeDirectories_resumes (hd : d.IsPlain) (hf : fault? q = none) (hway : OnWay q c)
    (hc : c.Trim ∨ c.text = "" ∨ c.text = "/") : (makeDirectories c.ancestors).Resumes d := by
  induction FilePath.climbs hc with
  | @up c b x htrim hb hkind _ ih =>
      have hresumes := parents_resumes hd hf hway htrim hb hkind (ih (hway.up hb) hkind)
      have hfc := hway.usable hf hb.text_ne_empty
      intro ds hds hmove
      have hcut := hds.run (by rintro _ _ _ _ ⟨⟩)
        (makeDirectories_does_way hf hway (.inl htrim) d).run
      have hplain' := hd.applyAll (fun _ _ => WayStep.sound) hcut
      have heq := makeDirectories_eq hd hb hfc hkind
      rw [heq.1] at hds
      exact (hresumes ds hds hmove).congr heq (makeDirectories_eq hplain' hb hfc hkind)
  | empty htext => exact .of_unchanged (by rw [makeDirectories_of_empty htext])
  | root htext =>
      obtain ⟨heq, hnew⟩ := makeDirectories_of_root htext d
      exact .of_unchanged (by rw [heq, settle_changes_of_error hnew])

/-- **Making a path resumes.** -/
theorem makePath_resumes (hd : d.IsPlain) (hq : q.Trim ∨ q.text = "" ∨ q.text = "/") :
    (makePath q).Resumes d := by
  cases hf : fault? q with
  | none => exact makeDirectories_resumes hd hf .last hq
  | some e => exact .of_unchanged (makePath_of_fault hf d)

/-- A plain disk is plain behind it. -/
theorem IsPlain.after_makePath (hd : d.IsPlain) (hq : q.Trim ∨ q.text = "" ∨ q.text = "/") :
    ((makePath q).after d).IsPlain := by
  cases hf : fault? q with
  | none => exact hd.after_way (makeDirectories_does_way hf .last hq d)
  | some e =>
      rw [DiskTask.after, makePath_of_fault hf]
      exact hd

/-- A path that has been made is a directory. -/
theorem isDirectory_makePath (hd : d.IsPlain) (hq : q.Trim) (h : (makePath q d).result = .ok ()) :
    ((makePath q).after d).isDirectory q = true := by
  cases hf : fault? q with
  | none =>
      obtain ⟨a, ha⟩ := passage_of_makeDirectories hd hf .last (.inl hq) h
      have hplain := hd.after_way (makeDirectories_does_way hf .last (.inl hq) d)
      exact isDirectory_of_passage hplain.tree hf ha
  | some e =>
      -- a path that cannot be used is not made
      obtain ⟨b, x, hb, -⟩ := hq.exists_behind
      have hnew : newDirectory q d = .error e := by rw [newDirectory, resolve_of_fault hf]
      have hne : e ≠ .notFound := by
        rintro rfl
        exact fault?_ne_notFound hb.text_ne_empty hf
      have hdir : ¬ d.isDirectory q = true := by
        intro hdir
        obtain ⟨l, r, hl, -⟩ := isDirectory_iff.mp hdir
        simp [fault?_of_locate hl] at hf
      rw [makePath, hb.ancestors, makeDirectories_cons _ _ d hb.text_ne_empty, hnew,
        if_neg (by simpa using hne), settle_of_error hnew] at h
      simp [hdir] at h

end

/-! ## Files -/

section

variable {d : Disk} {p : FilePath} {name : String} {l : Location}

/-- A file that may be written can be opened, and is not made. -/
theorem FileAt.writable (hd : d.LinkFree) {r : Rights} {content : Bytes}
    (h : d.FileAt p name l r content) (hw : r.write = true) :
    Disk.writable (p / name) d = .ok (name :: l, false) := by
  have hresolve : d.resolve .write (p / name) = .ok (.named l name false) := by
    rw [resolve_join hd .write p h.isName, h.usable, h.reach]
    simp [Except.bind, h.search]
  simp [Disk.writable, hresolve, find, Nat.not_lt.mpr h.short, h.entry, hw]

/-- What is there may be written if it is opened for writing. -/
theorem write_of_writable {k : Location} (h : Disk.writable p d = .ok (k, false)) {r : Rights}
    {content : Bytes} (he : d.entry? k = some (.file r content)) : r.write = true := by
  unfold Disk.writable at h
  cases hresolve : d.resolve .write p with
  | error e => simp [hresolve] at h
  | ok g =>
      cases g with
      | directory => simp [hresolve] at h
      | named dir n separator =>
          cases separator with
          | true => simp [hresolve] at h
          | false =>
              simp only [hresolve, Bool.false_eq_true, if_false, find] at h
              by_cases hlong : nameLimit < n.utf8ByteSize
              · simp [hlong] at h
              cases hn : d.entry? (n :: dir) with
              | none =>
                  simp only [hlong, hn, if_false] at h
                  split at h <;> simp at h
              | some e =>
                  cases e with
                  | directory => simp [hlong, hn] at h
                  | link => simp [hlong, hn] at h
                  | file r' content' =>
                      by_cases hw : r'.write = true
                      · obtain rfl : n :: dir = k := by simpa [hlong, hn, hw] using h
                        obtain ⟨rfl, -⟩ : r' = r ∧ content' = content := by simpa [hn] using he
                        exact hw
                      · simp [hlong, hn, hw] at h

theorem openFile_of_ok {k : Location} {isNew : Bool} (h : Disk.writable p d = .ok (k, isNew)) :
    openFile p d = ⟨if isNew then [.makeFile k] else [], .ok k⟩ := by
  have hask := DiskTask.bind_of_ok (t := DiskTask.ask (Disk.writable p)) (a := (k, isNew))
    (f := fun x => do
      if x.2 then DiskTask.change (.makeFile x.1)
      return x.1) h
  refine Eq.trans hask ?_
  cases isNew <;> rfl

theorem openFile_of_error {e : DiskError} (h : Disk.writable p d = .error e) :
    openFile p d = ⟨[], .error e⟩ :=
  DiskTask.bind_of_error (t := DiskTask.ask (Disk.writable p)) h

theorem createFile_of_ok {k : Location} {isNew : Bool} (h : Disk.writable p d = .ok (k, isNew)) :
    createFile p d = ⟨[if isNew then .makeFile k else .truncate k], .ok k⟩ :=
  DiskTask.bind_of_ok (t := DiskTask.ask (Disk.writable p)) (a := (k, isNew))
    (f := fun x => do
      DiskTask.change (if x.2 then .makeFile x.1 else .truncate x.1)
      return x.1) h

/-- **A file that has been opened for writing is there**, and may be opened again. -/
theorem fileAt_openFile (hd : d.IsPlain) (h : IsName name) (hreach : d.reach p = .ok l)
    {k : Location} (hok : (openFile (p / name) d).result = .ok k) :
    k = name :: l ∧ ∃ r content, ((openFile (p / name)).after d).FileAt p name l r content ∧
      r.write = true := by
  cases hw : Disk.writable (p / name) d with
  | error e => simp [openFile_of_error hw] at hok
  | ok a =>
      obtain ⟨k', isNew⟩ := a
      have hopen := openFile_of_ok hw
      obtain rfl : k' = k := by simpa [hopen] using hok
      rw [DiskTask.after, hopen]
      obtain ⟨rfl, hf, hs, hshort, ⟨rfl, hv⟩ | ⟨rfl, r, content, he⟩⟩ :=
        writable_eq_ok hd h hreach hw
      · have hsound : d.Sound (.makeFile (name :: l)) := .makeFile hv
        exact ⟨rfl, .ofFile, [], fileAt_of_entry h hreach hf hs hshort hsound.keeps
          (by simp [DiskChange.applyAll, DiskChange.apply]), rfl⟩
      · exact ⟨rfl, r, content, ⟨h, hreach, hf, hs, hshort, he⟩, write_of_writable hw he⟩

/-- **Opening a file resumes.** -/
theorem openFile_resumes (hd : d.IsPlain) (h : IsName name) (hreach : d.reach p = .ok l) :
    (openFile (p / name)).Resumes d := by
  intro ds hds _
  cases hw : Disk.writable (p / name) d with
  | error e =>
      rw [openFile_of_error hw] at hds
      rw [DiskChange.CutOff.eq_nil hds]
      exact .refl _ _
  | ok a =>
      obtain ⟨k, isNew⟩ := a
      have hopen := openFile_of_ok hw
      rw [hopen] at hds
      cases isNew with
      | false =>
          rw [DiskChange.CutOff.eq_nil hds]
          exact .refl _ _
      | true =>
          rcases hds.of_singleton with rfl | rfl | ⟨_, _, _, hpart, -⟩
          · exact .refl _ _
          · obtain ⟨rfl, r, content, hfile, hwrite⟩ :=
              fileAt_openFile hd h hreach (k := k) (by rw [hopen])
            have hlinkFree : ((openFile (p / name)).after d).LinkFree :=
              (hd.applyAll (fun _ _ => FileStep.sound) (openFile_does hd h hreach).run).linkFree
            have hafter : DiskChange.applyAll d [.makeFile (name :: l)] =
                (openFile (p / name)).after d := by
              rw [DiskTask.after, hopen]
              rfl
            have hagain := openFile_of_ok (hfile.writable hlinkFree hwrite)
            rw [hafter]
            exact ⟨by rw [DiskTask.after, hagain]; rfl, by rw [hagain, hopen]⟩
          · cases hpart

end

end Disk

end StorageNode
