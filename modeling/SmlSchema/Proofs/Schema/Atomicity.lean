import SmlSchema.Proofs.Attempt
import SmlSchema.Proofs.Result
import SmlSchema.Proofs.Schema.Build
import SmlSchema.Schema.Command

/-! # A command that fails changes nothing

Every action looks and checks first and changes the schema once; the steps after the change show
what was found before it and cannot fail.
-/

namespace SmlSchema

namespace Building

variable {α β : Type} {f : α → Building β} {s t : Schema}

@[simp] theorem on_lift_range (r : Except RangeFlaw α) (s : Schema) :
    (liftM r : Building α).on s = ((liftM r : Except Error α), s) := rfl

@[simp] theorem on_put (p : Place) (d : Scope) (s : Schema) :
    (p.put d).on s = (.ok (), s.replace p d) := rfl

theorem on_lift_range_bind_eq_ok {r : Except RangeFlaw α} {b : β} :
    ((liftM r : Building α) >>= f).on s = (.ok b, t) ↔
      ∃ a, r = .ok a ∧ (f a).on s = (.ok b, t) := by
  rw [← exists_congr fun a => and_congr_left' (lift_range_eq_ok (x := r) (a := a))]
  exact Attempt.on_lift_bind_eq_ok

theorem looks_lift_range (r : Except RangeFlaw α) : (liftM r : Building α).Looks := fun _ => rfl

end Building

/-! ## Actions -/

open Attempt Building

namespace Place

variable {p : Place} {s t : Schema} {part : String}

/-- The element that owns a scope is changed last. -/
theorem changeOwner_atomic (p : Place) (part : String)
    (change : ElementDef → Except Error ElementDef) (s : Schema) :
    (p.changeOwner part change).Atomic s := by
  cases p with
  | top d => exact Looks.atomic (fun _ => rfl) s
  | within outer name d =>
      refine .look (looks_lift _) fun r _ => ?_
      exact .look (looks_lift _) fun changed _ => .of_ok (on_put _ _ s)

/-- The owner was found and changed, and stands in the scope around. -/
theorem changeOwner_on_eq_ok {change : ElementDef → Except Error ElementDef} {u : Unit} :
    (p.changeOwner part change).on s = (.ok u, t) ↔
      ∃ outer name d q e f, p = .within outer name d ∧ outer.getElement name = .ok (q, e) ∧
        change e = .ok f ∧ t = s.replace outer (outer.scope.modifyElement name fun _ => f) := by
  cases p with
  | top d => simp [changeOwner]
  | within outer name d =>
      simp only [changeOwner, on_bind_eq_ok, on_lift, on_put, Prod.mk.injEq, within.injEq]
      constructor
      · rintro ⟨⟨q, e⟩, _, ⟨hfound, rfl⟩, f, _, ⟨hchange, rfl⟩, -, rfl⟩
        exact ⟨outer, name, d, q, e, f, ⟨rfl, rfl, rfl⟩, hfound, hchange, rfl⟩
      · rintro ⟨_, _, _, q, e, f, ⟨rfl, rfl, rfl⟩, hfound, hchange, rfl⟩
        exact ⟨(q, e), s, ⟨hfound, rfl⟩, f, s, ⟨hchange, rfl⟩, trivial, rfl⟩

/-- The content of the owner was changed. -/
theorem changeContent_on_eq_ok {change : String → Content → Except Error Content} {u : Unit} :
    (p.changeContent part change).on s = (.ok u, t) ↔
      ∃ outer name d q e c c', p = .within outer name d ∧ outer.getElement name = .ok (q, e) ∧
        e.content = some c ∧ change e.name c = .ok c' ∧
        t = s.replace outer
          (outer.scope.modifyElement name fun _ => { e with content := some c' }) := by
  rw [changeContent, changeOwner_on_eq_ok]
  constructor
  · rintro ⟨outer, name, d, q, e, f, hp, hfound, hchange, ht⟩
    split at hchange
    · cases hchange
    · rename_i c hc
      obtain ⟨c', hc', hf⟩ := bind_eq_ok.mp hchange
      cases hf
      exact ⟨outer, name, d, q, e, c, c', hp, hfound, hc, hc', ht⟩
  · rintro ⟨outer, name, d, q, e, c, c', hp, hfound, hc, hc', ht⟩
    refine ⟨outer, name, d, q, e, _, hp, hfound, ?_, ht⟩
    simp only [hc, hc', ok_bind, pure_eq_ok]

end Place

/-- Adding a defined attribute shows that its name stands for one. -/
theorem Content.attribute?_of_addAttribute {p : Place} {owner name : String} {o : Occurrence}
    {c c' : Content} (h : c.addAttribute p owner name o = .ok c') :
    ∃ r, p.attribute? name = some r := by
  cases c with
  | reserved kind => cases h
  | unordered attributes elements =>
      obtain ⟨-, q, a, hfound, -⟩ := addAttribute_eq_ok.mp h
      exact ⟨(q, a), hfound⟩

/-- After the default root has been set, there is a root to show. -/
theorem Schema.exists_rootName_of_setDefaultRoot {s t : Schema} (h : s.setDefaultRoot = .ok t) :
    ∃ name, t.rootName = .ok name := by
  unfold setDefaultRoot at h
  split at h
  · cases h
  · cases h
    exact ⟨_, rfl⟩
  · cases h

/-- An action looks first and changes last. -/
theorem Action.atomic (p : Place) (a : Action) (s : Schema) : (a.perform p).Atomic s := by
  cases a with
  | addEnum name labels => exact .look (looks_lift _) fun _ _ => .of_ok rfl
  | addReserved name kind => exact .look (looks_lift _) fun _ _ => .of_ok rfl
  | add category name => exact .look (looks_lift _) fun _ _ => .of_ok rfl
  | addStructValue struct name optional base nullable =>
      refine .look (looks_lift _) fun _ _ => .look (looks_lift _) fun _ _ => ?_
      exact .look (looks_lift _) fun _ _ => .of_ok rfl
  | setType name base nullable range arrayNullable =>
      refine .look (looks_lift _) fun _ _ => .look (looks_lift_range _) fun _ _ => ?_
      refine .look (looks_lift _) fun _ _ => .look (looks_lift _) fun _ _ => ?_
      exact .look (looks_lift _) fun _ _ => .of_ok rfl
  | readType text => exact .look (looks_lift _) fun _ _ => .of_ok rfl
  | setContent kind =>
      exact .settle (p.changeOwner_atomic _ _ s) fun _ _ _ => ⟨_, _, rfl⟩
  | addElementEntry name range =>
      refine .look (looks_lift_range _) fun o _ => ?_
      exact .settle (p.changeOwner_atomic _ _ s) fun _ _ _ => ⟨_, _, rfl⟩
  | addAttributeEntry name range =>
      refine .look (looks_lift_range _) fun o _ => .settle (p.changeOwner_atomic _ _ s) ?_
      -- The entry was added, so that its attribute is found once more.
      intro _ t hadded
      obtain ⟨_, _, _, _, e, c, c', -, -, -, hentry, -⟩ := Place.changeContent_on_eq_ok.mp hadded
      obtain ⟨⟨q, a⟩, hfound⟩ := Content.attribute?_of_addAttribute hentry
      refine ⟨.attributeEntry a o false, t, on_bind_eq_ok.mpr ⟨(q, a), t, ?_, rfl⟩⟩
      rw [on_lift, Place.getAttribute, hfound]
      rfl
  | addInlineEntry name type range =>
      refine .look (looks_lift _) fun _ _ => .look (looks_lift_range _) fun o _ => ?_
      exact .settle (p.changeOwner_atomic _ _ s) fun _ _ _ => ⟨_, _, rfl⟩
  | setRoot name =>
      exact .look looks_get fun _ _ => .look (looks_lift _) fun _ _ => .of_ok rfl
  | setDefaultRoot =>
      refine .look looks_get fun _ hget => ?_
      cases hget
      refine .look (looks_lift _) fun t ht => .settle (.of_ok (on_set t s)) fun _ u hu => ?_
      cases hu
      -- The root was set just now.
      obtain ⟨name, hname⟩ := Schema.exists_rootName_of_setDefaultRoot (Prod.mk.inj ht).1
      refine ⟨.name name, t, on_bind_eq_ok.mpr ⟨t, t, on_get t, ?_⟩⟩
      exact on_bind_eq_ok.mpr ⟨name, t, by rw [on_lift, hname], rfl⟩

/-- A command that fails changes nothing. -/
theorem Command.atomic (c : Command) (s : Schema) : c.perform.Atomic s := by
  refine .look looks_get fun t ht => ?_
  cases ht
  exact .look (looks_lift _) fun p _ => Action.atomic p c.action s

/-! ## Runs -/

namespace Schema

/-- A run goes on where an earlier one has stopped. -/
theorem runAll_append (s : Schema) (cs ds : List Command) :
    s.runAll (cs ++ ds) = (s.runAll cs).runAll ds := List.foldl_append

theorem runAll_cons (s : Schema) (c : Command) (cs : List Command) :
    s.runAll (c :: cs) = (c.perform.on s).2.runAll cs := rfl

end Schema

end SmlSchema
