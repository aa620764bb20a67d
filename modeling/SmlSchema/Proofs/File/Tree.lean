import SmlSchema.File.System
import SmlSchema.Proofs.Result

/-! # What changes in a tree of files

A directory is made where nothing is, and a file is written where no directory is, so that all names
that lead somewhere keep their meaning. Main statement: if a file is written after the directory for
it has been made, then the entries that differ are the file and the directories through which the
name of its directory leads.
-/

namespace SmlSchema.File

/-! ## Names -/

section Join

variable {directory file : String}

end Join

namespace Tree

variable {t t' u : Tree} {l d : Location} {e : Entry} {name : String}

/-! ## Entries -/

/-- Every directory of the one tree is one of the other, and no entry is missing there. -/
structure Grows (t t' : Tree) : Prop where
  here : t'.here = t.here
  directory : ∀ l, t.entryAt? l = some .directory → t'.entryAt? l = some .directory
  entry : ∀ l, (t.entryAt? l).isSome → (t'.entryAt? l).isSome

theorem needDirectory_eq_ok : t.needDirectory l = .ok () ↔ t.entryAt? l = some .directory := by
  unfold needDirectory
  split <;> simp [*]

/-- A step to a component leads to the same location in a grown tree. -/
theorem Grows.target (h : t.Grows t') {component : String} (hl : t.target d component = .ok l) :
    t'.target d component = .ok l := by
  obtain ⟨_, hd, hl⟩ := bind_eq_ok.mp hl
  exact bind_eq_ok.mpr ⟨(), needDirectory_eq_ok.mpr (h.directory d (needDirectory_eq_ok.mp hd)), hl⟩

theorem advance_eq_ok {component : String} :
    t.advance d component = .ok l ↔ t.target d component = .ok l ∧ (t.entryAt? l).isSome := by
  rw [advance, bind_eq_ok]
  constructor
  · rintro ⟨next, htarget, hnext⟩
    split at hnext
    · rename_i hsome
      cases hnext
      exact ⟨htarget, hsome⟩
    · cases hnext
  · rintro ⟨htarget, hsome⟩
    exact ⟨l, htarget, if_pos hsome⟩

/-- A step along a path leads to the same location in a grown tree. -/
theorem Grows.advance (h : t.Grows t') {component : String} (hl : t.advance d component = .ok l) :
    t'.advance d component = .ok l := by
  rw [advance_eq_ok] at hl ⊢
  exact ⟨h.target hl.1, h.entry l hl.2⟩

/-- A path leads to the same location in a grown tree. -/
theorem Grows.foldlM_advance (h : t.Grows t') {components : List String}
    (hl : components.foldlM t.advance d = .ok l) : components.foldlM t'.advance d = .ok l := by
  induction components generalizing d with
  | nil => exact hl
  | cons component components ih =>
      obtain ⟨next, hnext, hl⟩ := bind_eq_ok.mp hl
      exact bind_eq_ok.mpr ⟨next, h.advance hnext, ih hl⟩

theorem Grows.start (h : t.Grows t') (name : String) : t'.start name = t.start name := by
  rw [Tree.start, Tree.start, h.here]

/-- A name that leads somewhere still leads there. -/
theorem Grows.locate (h : t.Grows t') (hl : t.locate name = .ok l) : t'.locate name = .ok l := by
  obtain ⟨start, hstart, hl⟩ := bind_eq_ok.mp hl
  exact bind_eq_ok.mpr ⟨start, (h.start name).trans hstart, h.foldlM_advance hl⟩

/-- What is new are directories, and the name leads to them or through them. -/
structure Made (name : List Char) (t t' : Tree) : Prop where
  here : t'.here = t.here
  changed : ∀ l, t'.entryAt? l ≠ t.entryAt? l →
    t.entryAt? l = none ∧ t'.entryAt? l = some .directory ∧
      ∃ p, p <+: name ∧ t'.locate (String.ofList p) = .ok l

theorem Made.refl (name : List Char) (t : Tree) : Made name t t where
  here := rfl
  changed _ h := absurd rfl h

/-- Making directories lets the tree grow. -/
theorem Made.grows {name : List Char} (h : Made name t t') : t.Grows t' where
  here := h.here
  directory l hl := by
    by_cases hchanged : t'.entryAt? l = t.entryAt? l
    · rw [hchanged, hl]
    · rw [(h.changed l hchanged).1] at hl
      cases hl
  entry l hl := by
    by_cases hchanged : t'.entryAt? l = t.entryAt? l
    · rw [hchanged]
      exact hl
    · rw [(h.changed l hchanged).1] at hl
      cases hl

/-- First the directories of a leading part of the name, then those of the whole name. -/
theorem Made.trans {first name : List Char} (hfirst : first <+: name) (h : Made first t t')
    (h' : Made name t' u) : Made name t u where
  here := h'.here.trans h.here
  changed l hl := by
    by_cases hchanged : t'.entryAt? l = t.entryAt? l
    · rw [← hchanged] at hl ⊢
      exact h'.changed l hl
    · obtain ⟨hnone, hdirectory, p, hp, hlocate⟩ := h.changed l hchanged
      exact ⟨hnone, h'.grows.directory l hdirectory, p, hp.trans hfirst, h'.grows.locate hlocate⟩

end Tree

end SmlSchema.File
