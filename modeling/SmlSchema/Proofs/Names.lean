import Mathlib.Data.List.Nodup
import Mathlib.Data.List.Perm.Subperm
import SmlSchema.Names
import SmlSchema.Proofs.Attempt
import SmlSchema.Proofs.Result
import SmlSchema.Proofs.Scalar.Digits

/-! # Names that were given

A name is refused only if its base is empty or if as many names are in use as there are candidates
for it. An entity that has a name keeps it when further entities get theirs.
-/

namespace SmlSchema

/-- Why names cannot be made from the bases, when that would bring their number up to `count`. -/
inductive NameFlaw.Blocks (bases : List String) (count : Nat) : NameFlaw → Prop where
  | empty (h : "" ∈ bases) : Blocks bases count .empty
  | exhausted (name : String) (h : Names.maxSuffix < count) : Blocks bases count (.exhausted name)

/-- What blocks some names blocks more names. -/
theorem NameFlaw.Blocks.mono {bases more : List String} {count larger : Nat} {f : NameFlaw}
    (h : f.Blocks bases count) (hbases : bases ⊆ more) (hcount : count ≤ larger) :
    f.Blocks more larger := by
  cases h with
  | empty h => exact .empty (hbases h)
  | exhausted name h => exact .exhausted name (Nat.lt_of_lt_of_le h hcount)

namespace Names

variable {ε κ : Type} {n : Names ε κ} {base : String}

/-! ## Candidates -/

theorem toString_nat_injective : Function.Injective (toString : Nat → String) := by
  intro i j h
  have hdigits : Scalar.natDigits i = Scalar.natDigits j := by
    rw [← Scalar.toList_toString, ← Scalar.toList_toString, h]
  rw [← Scalar.natOfDigits_natDigits i, hdigits, Scalar.natOfDigits_natDigits]

/-- All candidates for a name are different. -/
theorem nodup_candidates (name : String) : (candidates name).Nodup := by
  refine List.nodup_cons.mpr ⟨fun hmem => ?_, ?_⟩
  · obtain ⟨i, -, hi⟩ := List.mem_map.mp hmem
    have hlist := congrArg String.toList hi
    rw [String.toList_append, Scalar.toList_toString] at hlist
    exact Scalar.natDigits_ne_nil i (List.append_right_eq_self.mp hlist)
  · refine List.Nodup.map (fun i j h => toString_nat_injective ?_) List.nodup_range'
    have hlist := congrArg String.toList h
    rw [String.toList_append, String.toList_append] at hlist
    exact String.toList_inj.mp (List.append_cancel_left hlist)

/-- A candidate is the name with digits behind it, or without any. -/
theorem toList_candidate {name candidate : String} (h : candidate ∈ candidates name) :
    ∃ ds, candidate.toList = name.toList ++ ds ∧ ∀ d ∈ ds, Scalar.isDecimal d := by
  rcases List.mem_cons.mp h with rfl | h
  · exact ⟨[], (List.append_nil _).symm, List.forall_mem_nil _⟩
  · obtain ⟨i, -, rfl⟩ := List.mem_map.mp h
    refine ⟨Scalar.natDigits i, ?_, fun d hd => Scalar.isDecimal_of_mem_natDigits hd⟩
    rw [String.toList_append, Scalar.toList_toString]

theorem length_candidates (name : String) : (candidates name).length = maxSuffix := by
  simp [candidates, maxSuffix]

/-- A name that is given is not in use. -/
theorem generate_ends (n : Names ε κ) (base : String) :
    Ends (NameFlaw.Blocks [base] (n.used.length + 1)) (· ∉ n.used) (n.generate base) := by
  unfold generate
  split
  · rename_i hbase
    exact .empty (by simp [hbase])
  · dsimp only
    split
    · rename_i c hc
      have hfree := List.find?_some hc
      change c ∉ n.used
      simpa [isUsed] using hfree
    · rename_i hnone
      refine .exhausted _ ?_
      have hsub : candidates (n.normalize base) ⊆ n.used := by
        intro c hc
        simpa [isUsed] using List.find?_eq_none.mp hnone c hc
      have hlength := (List.subperm_of_subset (nodup_candidates _) hsub).length_le
      rw [length_candidates] at hlength
      exact Nat.lt_succ_of_le hlength

/-- A generated name is a candidate for its base name. -/
theorem mem_candidates_of_generate {name : String} (h : n.generate base = .ok name) :
    name ∈ candidates (n.normalize base) := by
  unfold generate at h
  split at h
  · cases h
  · dsimp only at h
    split at h
    · rename_i c hc
      cases h
      exact List.mem_of_find?_eq_some hc
    · cases h

/-! ## Names that are taken -/

@[simp] theorem used_take (n : Names ε κ) (name : String) : (n.take name).used = n.used ++ [name] :=
  rfl

@[simp] theorem bindings_take (n : Names ε κ) (name : String) :
    (n.take name).bindings = n.bindings := rfl

@[simp] theorem normalize_take (n : Names ε κ) (name : String) :
    (n.take name).normalize = n.normalize := rfl

theorem on_generate (n : Names ε κ) (base : String) :
    (Naming.generate base).on n = (n.generate base, n) := rfl

theorem on_reserve_of_ok {name : String} (h : n.generate base = .ok name) :
    (Naming.reserve base).on n = (.ok name, n.take name) :=
  Attempt.on_bind_of_ok (by rw [on_generate, h])

theorem on_reserve_of_error {f : NameFlaw} (h : n.generate base = .error f) :
    (Naming.reserve base).on n = (.error f, n) :=
  Attempt.on_bind_of_error (by rw [on_generate, h])

/-- Reserving is generating a name and taking it. -/
theorem reserve_eq (n : Names ε κ) (base : String) :
    n.reserve base = (n.generate base).map fun name => (name, n.take name) := by
  rw [reserve, Attempt.result]
  cases h : n.generate base with
  | ok name => rw [on_reserve_of_ok h]; rfl
  | error f => rw [on_reserve_of_error h]; rfl

theorem reserve_eq_ok {name : String} {m : Names ε κ} (h : n.reserve base = .ok (name, m)) :
    name ∈ candidates (n.normalize base) ∧ m.normalize = n.normalize := by
  rw [reserve_eq] at h
  obtain ⟨name, hname, h⟩ := map_eq_ok.mp h
  cases h
  exact ⟨mem_candidates_of_generate hname, rfl⟩

/-- A name is reserved that was not in use, or it is blocked. -/
theorem reserve_ends (n : Names ε κ) (base : String) :
    Ends (NameFlaw.Blocks [base] (n.used.length + 1))
      (fun r => r.1 ∉ n.used ∧ r.2 = n.take r.1) (n.reserve base) := by
  rw [reserve_eq]
  exact (n.generate_ends base).map fun _ hfree => ⟨hfree, rfl⟩

/-- Names are reserved that are all different and were not in use, or one of them is blocked. -/
theorem reserveAll_ends (n : Names ε κ) (bases : List String) :
    Ends (NameFlaw.Blocks bases (n.used.length + bases.length))
      (fun names => names.length = bases.length ∧ names.Nodup ∧ ∀ name ∈ names, name ∉ n.used)
      (n.reserveAll bases).2 := by
  induction bases generalizing n with
  | nil => exact ⟨rfl, .nil, nofun⟩
  | cons base bases ih =>
      have hfirst := n.reserve_ends base
      rw [reserveAll]
      cases hreserve : n.reserve base with
      | error f =>
          rw [hreserve] at hfirst
          refine NameFlaw.Blocks.mono hfirst (by simp) ?_
          rw [List.length_cons]
          omega
      | ok r =>
          obtain ⟨name, m⟩ := r
          rw [hreserve] at hfirst
          dsimp only [Ends] at hfirst
          obtain ⟨hfree, rfl⟩ := hfirst
          refine ((ih _).mono (fun f hf => ?_) fun _ _ h => h).map ?_
          · refine hf.mono (List.subset_cons_self _ _) ?_
            rw [used_take, List.length_append, List.length_singleton, List.length_cons]
            omega
          · rintro names ⟨hlength, hnodup, hapart⟩
            refine ⟨congrArg Nat.succ hlength, List.nodup_cons.mpr ⟨fun hmem => ?_, hnodup⟩, ?_⟩
            · exact hapart name hmem (List.mem_append_right _ List.mem_cons_self)
            · intro other hother
              rcases List.mem_cons.mp hother with rfl | hother
              · exact hfree
              · exact fun hused => hapart other hother (List.mem_append_left _ hused)

/-! ## Entities -/

/-- The names after further entities have got theirs. -/
def extend (n : Names ε κ) (bs : List (NameBinding ε κ)) : Names ε κ :=
  { n with used := n.used ++ bs.map (·.name), bindings := n.bindings ++ bs }

@[simp] theorem used_extend (n : Names ε κ) (bs : List (NameBinding ε κ)) :
    (n.extend bs).used = n.used ++ bs.map (·.name) := rfl

@[simp] theorem bindings_extend (n : Names ε κ) (bs : List (NameBinding ε κ)) :
    (n.extend bs).bindings = n.bindings ++ bs := rfl

@[simp] theorem normalize_extend (n : Names ε κ) (bs : List (NameBinding ε κ)) :
    (n.extend bs).normalize = n.normalize := rfl

@[simp] theorem extend_nil (n : Names ε κ) : n.extend [] = n := by
  simp [extend]

/-- Bindings may be added one part after the other. -/
@[simp] theorem extend_extend (n : Names ε κ) (bs cs : List (NameBinding ε κ)) :
    (n.extend bs).extend cs = n.extend (bs ++ cs) := by
  simp [extend]

/-- Every entity that has a name still has it. -/
def Keeps (n m : Names ε κ) : Prop := n.bindings <+: m.bindings

theorem Keeps.refl (n : Names ε κ) : n.Keeps n := List.prefix_refl _

theorem Keeps.trans {n m l : Names ε κ} (h : n.Keeps m) (h' : m.Keeps l) : n.Keeps l :=
  List.IsPrefix.trans h h'

theorem keeps_extend (n : Names ε κ) (bs : List (NameBinding ε κ)) : n.Keeps (n.extend bs) :=
  List.prefix_append _ _

variable [DecidableEq ε] {entity : ε}

/-- A binding that is kept is found again. -/
theorem Keeps.binding? {n m : Names ε κ} (h : n.Keeps m) {b : NameBinding ε κ}
    (hb : n.binding? entity = some b) : m.binding? entity = some b := by
  obtain ⟨bs, hbs⟩ := h
  rw [Names.binding?] at hb
  rw [Names.binding?, ← hbs, List.find?_append, hb, Option.some_or]

/-- The name of an entity is that of its binding. -/
theorem nameOf_eq_ok {name : String} :
    n.nameOf entity = .ok name ↔ ∃ b, n.binding? entity = some b ∧ b.name = name := by
  unfold nameOf
  cases n.binding? entity <;> simp

/-- What was made for an entity is kept in its binding. -/
theorem constructOf_eq_ok {construct : κ} :
    n.constructOf entity = .ok construct ↔
      ∃ b, n.binding? entity = some b ∧ b.construct = construct := by
  unfold constructOf
  cases n.binding? entity <;> simp

theorem mem_of_binding? {b : NameBinding ε κ} (h : n.binding? entity = some b) :
    b ∈ n.bindings ∧ b.entity = entity := by
  have hentity := List.find?_some h
  exact ⟨List.mem_of_find?_eq_some h, of_decide_eq_true hentity⟩

theorem exists_binding? (h : entity ∈ n.bindings.map (·.entity)) :
    ∃ b, n.binding? entity = some b := by
  obtain ⟨b, hb, heq⟩ := List.mem_map.mp h
  exact Option.isSome_iff_exists.mp (List.find?_isSome.mpr ⟨b, hb, decide_eq_true heq⟩)

theorem binding?_eq_none : n.binding? entity = none ↔ entity ∉ n.bindings.map (·.entity) := by
  simp [binding?, List.find?_eq_none]

/-- A new entity can have any name that is free. -/
theorem on_add {name : String} (hname : name ∉ n.used)
    (hentity : entity ∉ n.bindings.map (·.entity)) (construct : κ) :
    (Naming.add entity name construct).on n = (.ok (), n.extend [⟨entity, name, construct⟩]) := by
  have hused : n.isUsed name = false := by simpa [isUsed] using hname
  rw [Naming.add, Attempt.on_bind_of_ok (Attempt.on_get n), hused, binding?_eq_none.mpr hentity]
  rfl

/-- A free name can be bound to a new entity. -/
theorem add_eq_ok {name : String} (hname : name ∉ n.used)
    (hentity : entity ∉ n.bindings.map (·.entity)) (construct : κ) :
    n.add entity name construct = .ok (n.extend [⟨entity, name, construct⟩]) := by
  rw [add, Attempt.result, on_add hname hentity]
  rfl

end Names

end SmlSchema
