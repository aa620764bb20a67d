import SmlSchema.Proofs.Names

/-! # Names after any calls

Calls for names come in any order, and some of them fail. A call changes nothing, takes one name
that is free, or gives a free name to an entity that has none. From this it follows for every run
that no name is in use twice, that no entity has two names and no name two entities, and that an
entity keeps its name.
-/

namespace SmlSchema

namespace Names

variable {ε κ : Type} {n m : Names ε κ} {base name form : String}

/-! ## The first free form of a name -/

/-- All forms of the name are in use: the name alone, and with each of the numbers from 2 to 99. -/
def Exhausted (n : Names ε κ) (name : String) : Prop :=
  name ∈ n.used ∧ ∀ i, 2 ≤ i → i ≤ 99 → name ++ toString i ∈ n.used

/-- The form of the name is free, and the forms before it are in use. The name alone comes first,
then the name with the numbers from 2 to 99. -/
def FirstFree (n : Names ε κ) (name form : String) : Prop :=
  form ∉ n.used ∧ (form = name ∨ name ∈ n.used ∧ ∃ i, 2 ≤ i ∧ i ≤ 99 ∧ name ++ toString i = form ∧
    ∀ j, 2 ≤ j → j < i → name ++ toString j ∈ n.used)

/-- No candidate is found exactly if all are in use. -/
theorem find?_candidates_eq_none :
    (candidates name).find? (fun c => !n.isUsed c) = none ↔ n.Exhausted name := by
  simp only [candidates, Exhausted, isUsed, maxSuffix, List.find?_eq_none, List.forall_mem_cons,
    List.forall_mem_map, List.mem_range'_1, Bool.not_eq_true, Bool.not_eq_false',
    List.contains_iff_mem]
  refine and_congr_right fun _ => forall_congr' fun i => ?_
  constructor
  · exact fun h hlow hhigh => h ⟨hlow, by omega⟩
  · exact fun h hi => h hi.1 (by omega)

/-- The candidate that is found is the first one that is free. -/
theorem find?_candidates_eq_some :
    (candidates name).find? (fun c => !n.isUsed c) = some form ↔ n.FirstFree name form := by
  have hused : ∀ c, (!n.isUsed c) = true ↔ c ∉ n.used := by simp [isUsed]
  rw [candidates, FirstFree]
  by_cases hname : name ∈ n.used
  · rw [List.find?_cons_of_neg (p := fun c => !n.isUsed c) (mt (hused name).mp (not_not.mpr hname)),
      List.find?_map, Option.map_eq_some_iff]
    constructor
    · rintro ⟨i, hi, rfl⟩
      obtain ⟨hfree, hmem, hbefore⟩ := List.find?_range'_eq_some.mp hi
      obtain ⟨hlow, hhigh⟩ := List.mem_range'_1.mp hmem
      refine ⟨(hused _).mp hfree, .inr ⟨hname, i, hlow, ?_, rfl, fun j hj hji => ?_⟩⟩
      · rw [maxSuffix] at hhigh
        omega
      · simpa [isUsed] using hbefore j hj hji
    · rintro ⟨hfree, rfl | ⟨-, i, hlow, hhigh, rfl, hbefore⟩⟩
      · exact absurd hname hfree
      · refine ⟨i, List.find?_range'_eq_some.mpr ⟨(hused _).mpr hfree, ?_, fun j hj hji => ?_⟩, rfl⟩
        · rw [List.mem_range'_1, maxSuffix]
          omega
        · simpa [isUsed] using hbefore j hj hji
  · rw [List.find?_cons_of_pos (p := fun c => !n.isUsed c) ((hused name).mpr hname),
      Option.some.injEq]
    constructor
    · rintro rfl
      exact ⟨hname, .inl rfl⟩
    · rintro ⟨-, rfl | ⟨hmem, -⟩⟩
      · rfl
      · exact absurd hmem hname

/-- A name is refused exactly if it is empty or all its candidates are in use. -/
theorem generate_eq_error :
    (∃ f, n.generate base = .error f) ↔ base = "" ∨ n.Exhausted (n.normalize base) := by
  by_cases hbase : base = ""
  · simp [generate, hbase]
  · rw [← find?_candidates_eq_none]
    cases hfound : (candidates (n.normalize base)).find? fun c => !n.isUsed c <;>
      simp [generate, hbase, hfound]

/-- A name is generated exactly if it is the first that is free. -/
theorem generate_eq_ok :
    n.generate base = .ok form ↔ base ≠ "" ∧ n.FirstFree (n.normalize base) form := by
  by_cases hbase : base = ""
  · simp [generate, hbase]
  · rw [← find?_candidates_eq_some]
    cases hfound : (candidates (n.normalize base)).find? fun c => !n.isUsed c <;>
      simp [generate, hbase, hfound]

/-! ## One call -/

/-- What a call can do: nothing, take a free name, or give a free name to an entity that has
none. -/
inductive Grows (n : Names ε κ) : Names ε κ → Prop where
  | same : Grows n n
  | take {name : String} (hname : name ∉ n.used) : Grows n (n.take name)
  | extend {b : NameBinding ε κ} (hname : b.name ∉ n.used)
      (hentity : b.entity ∉ n.bindings.map (·.entity)) : Grows n (n.extend [b])

theorem Grows.normalize (h : n.Grows m) : m.normalize = n.normalize := by
  cases h <;> rfl

/-- Growing names keep all bindings. -/
theorem Grows.keeps (h : n.Grows m) : n.Keeps m := by
  cases h with
  | same => exact .refl n
  | take => exact .refl n
  | extend => exact n.keeps_extend _

/-- No name is in use twice, no entity is there twice, and the names of the entities are in use, in
the order in which they were given. -/
structure Sound (n : Names ε κ) : Prop where
  used : n.used.Nodup
  entities : (n.bindings.map (·.entity)).Nodup
  names : (n.bindings.map (·.name)).Sublist n.used

/-- Sound names stay sound when they grow. -/
theorem Sound.grows (hn : n.Sound) (h : n.Grows m) : m.Sound := by
  cases h with
  | same => exact hn
  | take hname =>
      refine ⟨?_, hn.entities, hn.names.trans (List.sublist_append_left _ _)⟩
      rw [used_take, List.nodup_append_comm]
      exact List.nodup_cons.mpr ⟨hname, hn.used⟩
  | @extend b hname hentity =>
      refine ⟨?_, ?_, ?_⟩
      · rw [used_extend, List.nodup_append_comm]
        exact List.nodup_cons.mpr ⟨hname, hn.used⟩
      · rw [bindings_extend, List.map_append, List.nodup_append_comm]
        exact List.nodup_cons.mpr ⟨hentity, hn.entities⟩
      · rw [bindings_extend, List.map_append, used_extend]
        exact hn.names.append (List.Sublist.refl _)

variable [DecidableEq ε]

/-- The name of an entity is in use. -/
theorem Sound.used_of_named (hn : n.Sound) {a : ε} (ha : n.nameOf a = .ok name) :
    name ∈ n.used := by
  obtain ⟨b, hb, rfl⟩ := nameOf_eq_ok.mp ha
  exact hn.names.subset (List.mem_map_of_mem (mem_of_binding? hb).1)

/-- No two entities have the same name. -/
theorem Sound.one_entity (hn : n.Sound) {a b : ε} (ha : n.nameOf a = .ok name)
    (hb : n.nameOf b = .ok name) : a = b := by
  obtain ⟨x, hx, rfl⟩ := nameOf_eq_ok.mp ha
  obtain ⟨y, hy, hname⟩ := nameOf_eq_ok.mp hb
  obtain ⟨hxmem, rfl⟩ := mem_of_binding? hx
  obtain ⟨hymem, rfl⟩ := mem_of_binding? hy
  have hnames : (n.bindings.map (·.name)).Nodup := hn.used.sublist hn.names
  rw [List.inj_on_of_nodup_map hnames hymem hxmem hname]

theorem Keeps.nameOf (h : n.Keeps m) {a : ε} (ha : n.nameOf a = .ok name) :
    m.nameOf a = .ok name := by
  obtain ⟨b, hb, hname⟩ := nameOf_eq_ok.mp ha
  exact nameOf_eq_ok.mpr ⟨b, h.binding? hb, hname⟩

/-- An entity gets a name at once or not at all: both tables are written after all checks. -/
theorem on_add_cases (n : Names ε κ) (entity : ε) (name : String) (construct : κ) :
    (∃ f, (Naming.add entity name construct).on n = (.error f, n)) ∨
      (Naming.add entity name construct).on n = (.ok (), n.extend [⟨entity, name, construct⟩]) ∧
        n.Grows (n.extend [⟨entity, name, construct⟩]) := by
  by_cases hname : name ∈ n.used
  · have hused : n.isUsed name = true := by simpa [isUsed] using hname
    refine .inl ⟨.taken name, ?_⟩
    rw [Naming.add, Attempt.on_bind_of_ok (Attempt.on_get n), if_pos hused, Attempt.on_throw]
  · cases hentity : n.binding? entity with
    | some b =>
        have hused : ¬ n.isUsed name = true := by simpa [isUsed] using hname
        refine .inl ⟨.alreadyNamed (n.describe entity) b.name, ?_⟩
        rw [Naming.add, Attempt.on_bind_of_ok (Attempt.on_get n), if_neg hused, hentity]
        rfl
    | none =>
        have hentity := binding?_eq_none.mp hentity
        exact .inr ⟨on_add hname hentity construct, .extend hname hentity⟩

end Names

namespace NameCall

open Names Attempt

variable {ε κ : Type}

/-- The names after the call has given a name. -/
def after (c : NameCall ε κ) (name : String) (n : Names ε κ) : Names ε κ :=
  match c with
  | .generate _ => n
  | .reserve _ => n.take name
  | .add entity _ construct | .allocate entity _ construct => n.extend [⟨entity, name, construct⟩]

variable [DecidableEq ε]

/-- A call fails and leaves the names as they are, or it gives a name and lets them grow. -/
theorem on_cases (c : NameCall ε κ) (n : Names ε κ) :
    (∃ f, c.perform.on n = (.error f, n)) ∨
      ∃ name, c.perform.on n = (.ok name, c.after name n) ∧ n.Grows (c.after name n) := by
  have hmade : ∀ base, (∃ f, n.generate base = .error f) ∨
      ∃ name, n.generate base = .ok name ∧ name ∉ n.used := by
    intro base
    cases h : n.generate base with
    | error f => exact .inl ⟨f, rfl⟩
    | ok name => exact .inr ⟨name, rfl, (generate_eq_ok.mp h).2.1⟩
  cases c with
  | generate base =>
      rcases hmade base with ⟨f, hf⟩ | ⟨name, hname, -⟩
      · exact .inl ⟨f, by rw [perform, on_generate, hf]⟩
      · exact .inr ⟨name, by rw [perform, on_generate, hname, after], .same⟩
  | reserve base =>
      rcases hmade base with ⟨f, hf⟩ | ⟨name, hname, hfree⟩
      · exact .inl ⟨f, on_reserve_of_error hf⟩
      · exact .inr ⟨name, on_reserve_of_ok hname, .take hfree⟩
  | add entity name construct =>
      rcases on_add_cases n entity name construct with ⟨f, hf⟩ | ⟨hadd, hgrows⟩
      · exact .inl ⟨f, on_bind_of_error hf⟩
      · exact .inr ⟨name, on_bind_of_ok hadd, hgrows⟩
  | allocate entity base construct =>
      rcases hmade base with ⟨f, hf⟩ | ⟨name, hname, -⟩
      · exact .inl ⟨f, on_bind_of_error (by rw [on_generate, hf])⟩
      · have hgenerate : (Naming.generate base).on n = (.ok name, n) := by rw [on_generate, hname]
        rw [perform, Naming.allocate, on_bind_of_ok hgenerate]
        rcases on_add_cases n entity name construct with ⟨f, hf⟩ | ⟨hadd, hgrows⟩
        · exact .inl ⟨f, on_bind_of_error hf⟩
        · exact .inr ⟨name, on_bind_of_ok hadd, hgrows⟩

/-- A call that fails changes nothing. -/
theorem atomic (c : NameCall ε κ) (n : Names ε κ) : c.perform.Atomic n := by
  intro f m h
  rcases c.on_cases n with ⟨g, hg⟩ | ⟨name, hname, -⟩
  · rw [hg] at h
    exact (Prod.mk.inj h).2.symm
  · rw [hname] at h
    cases h

/-- A call that succeeds takes its name and, if it has an entity, binds it. -/
theorem eq_after (c : NameCall ε κ) {n m : Names ε κ} {name : String}
    (h : c.perform.on n = (.ok name, m)) : m = c.after name n := by
  rcases c.on_cases n with ⟨f, hf⟩ | ⟨other, hother, -⟩
  · rw [hf] at h
    cases h
  · rw [hother] at h
    cases h
    rfl

/-- Every call lets the names grow or leaves them as they are. -/
theorem grows (c : NameCall ε κ) (n : Names ε κ) : n.Grows (c.perform.on n).2 := by
  rcases c.on_cases n with ⟨f, hf⟩ | ⟨name, hname, hgrows⟩
  · rw [hf]
    exact .same
  · rw [hname]
    exact hgrows

end NameCall

/-! ## Runs -/

namespace Names

variable {ε κ : Type} [DecidableEq ε] {n : Names ε κ}

/-- What holds at first and whenever names grow holds after every run. -/
theorem runAll_invariant {P : Names ε κ → Prop} (step : ∀ n m, P n → n.Grows m → P m) (hn : P n)
    (cs : List (NameCall ε κ)) : P (n.runAll cs) := by
  induction cs generalizing n with
  | nil => exact hn
  | cons c cs ih => exact ih (step n _ hn (c.grows n))

/-- After every run names are sound. -/
theorem sound_runAll (hn : n.Sound) (cs : List (NameCall ε κ)) : (n.runAll cs).Sound :=
  runAll_invariant (fun _ _ h => h.grows) hn cs

theorem normalize_runAll (n : Names ε κ) (cs : List (NameCall ε κ)) :
    (n.runAll cs).normalize = n.normalize :=
  runAll_invariant (P := fun m => m.normalize = n.normalize)
    (fun _ _ h hgrows => hgrows.normalize.trans h) rfl cs

/-- A run keeps all bindings. -/
theorem keeps_runAll (n : Names ε κ) (cs : List (NameCall ε κ)) : n.Keeps (n.runAll cs) :=
  runAll_invariant (P := n.Keeps) (fun _ _ h hgrows => h.trans hgrows.keeps) (.refl n) cs

/-- What can be relied on when names are asked for in any order: names never collide, entities keep
theirs, a new name is the first one that is free, and a call has no effect unless it gives a
name. -/
structure Safe (normalize : String → String) (n : Names ε κ) : Prop where
  nodup_used : n.used.Nodup
  one_name : ∀ b ∈ n.bindings, ∀ c ∈ n.bindings, b.entity = c.entity → b = c
  one_entity : ∀ a b name, n.nameOf a = .ok name → n.nameOf b = .ok name → a = b
  used_of_named : ∀ a name, n.nameOf a = .ok name → name ∈ n.used
  name_kept : ∀ a name, n.nameOf a = .ok name → ∀ cs, (n.runAll cs).nameOf a = .ok name
  generate_fails : ∀ base, (∃ f, ((NameCall.generate base).perform.on n).1 = .error f) ↔
    base = "" ∨ n.Exhausted (normalize base)
  generate_gives : ∀ base form, ((NameCall.generate base).perform.on n).1 = .ok form ↔
    base ≠ "" ∧ n.FirstFree (normalize base) form
  generate_looks : ∀ base, ((NameCall.generate base).perform.on n).2 = n
  failed : ∀ (c : NameCall ε κ) f m, c.perform.on n = (.error f, m) → m = n
  given : ∀ (c : NameCall ε κ) name m, c.perform.on n = (.ok name, m) → m = c.after name n

/-- Whatever is called for after a fresh start leaves the names safe. -/
theorem runAll_safe (normalize : String → String) (describe : ε → String)
    (cs : List (NameCall ε κ)) : Safe normalize (runAll { normalize, describe } cs) := by
  have hsound := sound_runAll (n := { normalize, describe }) ⟨.nil, .nil, .refl _⟩ cs
  have hnormalize := normalize_runAll { normalize, describe } cs
  generalize runAll { normalize, describe } cs = n at hsound hnormalize ⊢
  obtain rfl : n.normalize = normalize := hnormalize
  exact {
    nodup_used := hsound.used
    one_name := fun b hb c hc => List.inj_on_of_nodup_map hsound.entities hb hc
    one_entity := fun a b name ha hb => hsound.one_entity ha hb
    used_of_named := fun a name ha => hsound.used_of_named ha
    name_kept := fun a name ha cs => (n.keeps_runAll cs).nameOf ha
    generate_fails := fun base => generate_eq_error
    generate_gives := fun base form => generate_eq_ok
    generate_looks := fun base => rfl
    failed := fun c f m => c.atomic n f m
    given := fun c name m => c.eq_after }

end Names

end SmlSchema
