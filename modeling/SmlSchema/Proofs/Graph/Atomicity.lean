import SmlSchema.Graph.Call
import SmlSchema.Proofs.Attempt

/-! # A call that fails changes nothing

Every call looks and checks first and changes the graph last; the steps after the first change
cannot fail.
-/

namespace SmlSchema.Graph

open Attempt

/-! ## The parts of calls -/

@[simp] theorem on_modifyGet {α : Type} (f : Graph → α × Graph) (g : Graph) :
    Attempt.on (modifyGet f : Work α) g = (.ok (f g).1, (f g).2) := rfl

@[simp] theorem on_register (n : Nat) (category : Category) (key : String) (x : Nat) (g : Graph) :
    Attempt.on (register n category key x) g = (.ok (), g.withItem n category key x) := rfl

/-- The scope for a new element is looked up before the element is made. -/
theorem newElement_atomic (name : String) (outer : Option Nat) (g : Graph) :
    Attempt.Atomic (newElement name outer) g :=
  .look looks_get fun _ _ => .look (looks_lift _) fun _ _ => .of_ok (on_modifyGet _ g)

/-- Making an empty definition fails before anything is made. -/
theorem newEmpty_atomic (n : Nat) (name : String) (category : Category) (g : Graph) :
    Attempt.Atomic (newEmpty n name category) g := by
  cases category with
  | valueType => exact Looks.atomic (fun _ => rfl) g
  | struct => exact .of_ok (on_modifyGet _ g)
  | «attribute» => exact .of_ok (on_modifyGet _ g)
  | element => exact newElement_atomic name (some n) g

/-- The content of an element is changed last. -/
theorem changeContent_atomic (e : Nat) (part : String)
    (change : Graph → ElementNode → ContentNode → Except Error ContentNode) (g : Graph) :
    Attempt.Atomic (changeContent e part change) g := by
  refine .look looks_get fun _ _ => .look (looks_lift _) fun _ _ => ?_
  refine .look (looks_lift _) fun _ _ => .look (looks_lift _) fun _ _ => ?_
  exact .of_ok (on_set _ g)

/-- A call looks first and changes last. -/
theorem Call.atomic (c : Call) (g : Graph) : c.perform.Atomic g := by
  cases c with
  | newEnum name labels =>
      refine .look (looks_lift _) fun _ _ => ?_
      exact .settle (.of_ok (on_modifyGet _ g)) fun _ _ _ => ⟨_, _, rfl⟩
  | newReserved name kind =>
      exact .settle (.of_ok (on_modifyGet _ g)) fun _ _ _ => ⟨_, _, rfl⟩
  | newStruct name => exact .settle (.of_ok (on_modifyGet _ g)) fun _ _ _ => ⟨_, _, rfl⟩
  | newAttribute name => exact .settle (.of_ok (on_modifyGet _ g)) fun _ _ _ => ⟨_, _, rfl⟩
  | newElement name outer =>
      exact .settle (newElement_atomic name outer g) fun _ _ _ => ⟨_, _, rfl⟩
  | add n category name =>
      refine .settle ?_ fun _ _ _ => ⟨_, _, rfl⟩
      refine .look looks_get fun _ _ => .look (looks_lift _) fun _ _ => ?_
      exact .settle (newEmpty_atomic n name category g) fun _ _ _ => ⟨_, _, rfl⟩
  | addExisting n category key x =>
      refine .settle ?_ fun _ _ _ => ⟨_, _, rfl⟩
      refine .look looks_get fun _ _ => .look (looks_lift _) fun _ _ => ?_
      refine .look looks_get fun _ _ => .look (looks_lift _) fun _ _ => ?_
      exact .of_ok (on_bind_of_ok (on_register n category key x g))
  | addEnum n name labels =>
      refine .settle ?_ fun _ _ _ => ⟨_, _, rfl⟩
      refine .look (looks_lift _) fun _ _ => ?_
      refine .look looks_get fun _ _ => .look (looks_lift _) fun _ _ => ?_
      exact .settle (.of_ok (on_modifyGet _ g)) fun _ _ _ => ⟨_, _, rfl⟩
  | addValue d name optional base nullable =>
      refine .settle ?_ fun _ _ _ => ⟨_, _, rfl⟩
      refine .look looks_get fun _ _ => .look (looks_lift _) fun _ _ => ?_
      refine .look (looks_lift _) fun _ _ => .look (looks_lift _) fun _ _ => ?_
      exact .of_ok (on_set _ g)
  | buildType base nullable range arrayNullable =>
      refine .settle ?_ fun _ _ _ => ⟨_, _, rfl⟩
      refine .look looks_get fun _ _ => .look (looks_lift _) fun _ _ => ?_
      exact .look (looks_lift _) fun _ _ => .of_ok (on_modifyGet _ g)
  | buildTypeOf n text =>
      refine .settle ?_ fun _ _ _ => ⟨_, _, rfl⟩
      refine .look looks_get fun _ _ => .look (looks_lift _) fun _ _ => ?_
      exact .of_ok (on_modifyGet _ g)
  | assignType a t =>
      refine .settle ?_ fun _ _ _ => ⟨_, _, rfl⟩
      refine .look looks_get fun _ _ => .look (looks_lift _) fun _ _ => ?_
      refine .look (looks_lift _) fun _ _ => .look (looks_lift _) fun _ _ => ?_
      exact .of_ok (on_set _ g)
  | setContent e kind =>
      refine .settle ?_ fun _ _ _ => ⟨_, _, rfl⟩
      refine .look looks_get fun _ _ => .look (looks_lift _) fun _ _ => ?_
      exact .look (looks_lift _) fun _ _ => .of_ok (on_set _ g)
  | addElement e name o =>
      exact .settle (changeContent_atomic _ _ _ g) fun _ _ _ => ⟨_, _, rfl⟩
  | addAttribute e name o =>
      exact .settle (changeContent_atomic _ _ _ g) fun _ _ _ => ⟨_, _, rfl⟩
  | addInline e a o =>
      refine .settle ?_ fun _ _ _ => ⟨_, _, rfl⟩
      refine .look looks_get fun _ _ => .look (looks_lift _) fun _ _ => ?_
      exact changeContent_atomic _ _ _ g
  | setRoot name =>
      refine .settle ?_ fun _ _ _ => ⟨_, _, rfl⟩
      refine .look looks_get fun _ _ => .look (looks_lift _) fun _ _ => ?_
      exact .of_ok (on_set _ g)
  | setDefaultRoot =>
      refine .settle ?_ fun _ _ _ => ⟨_, _, rfl⟩
      refine .look looks_get fun _ _ => .look (looks_lift _) fun _ _ => ?_
      exact .of_ok (on_set _ g)

/-! ## Runs -/

/-- A run goes on where an earlier one has stopped. -/
theorem runAll_append (g : Graph) (cs ds : List Call) :
    g.runAll (cs ++ ds) = (g.runAll cs).runAll ds := List.foldl_append

theorem runAll_cons (g : Graph) (c : Call) (cs : List Call) :
    g.runAll (c :: cs) = Graph.runAll (c.perform.on g).2 cs := rfl

/-- A call that fails after a run leaves the whole graph as the run has made it, and the calls after
it do what they would have done without it. -/
theorem runAll_failed (g : Graph) (front back : List Call) (c : Call) {e : Error} {t : Graph}
    (h : c.perform.on (g.runAll front) = (.error e, t)) :
    t = g.runAll front ∧ g.runAll (front ++ c :: back) = g.runAll (front ++ back) := by
  have hkept : t = g.runAll front := c.atomic (g.runAll front) e t h
  refine ⟨hkept, ?_⟩
  calc g.runAll (front ++ c :: back)
      = Graph.runAll (c.perform.on (g.runAll front)).2 back := by rw [runAll_append, runAll_cons]
    _ = (g.runAll front).runAll back := by rw [h, hkept]
    _ = g.runAll (front ++ back) := (runAll_append g front back).symm

/-- The attribute of an element is registered under another key, a type of it is built and
assigned, and it is added on the spot. A second attribute of its name is refused. -/
theorem runAll_failed_entry :
    let front : List Call := [.add 0 .element "R", .setContent 0 none, .add 1 .attribute "a",
      .addExisting 0 .attribute "b" 0, .buildTypeOf 1 "Int[2]", .assignType 0 0,
      .addInline 0 0 .optional, .newAttribute "a"]
    let c : Call := .addInline 0 1 .required
    c.perform.on (runAll {} front) =
        (.error (.duplicate (.entry "R" .attribute "a")), runAll {} front) ∧
      runAll {} (front ++ c :: [.setRoot "R"]) = runAll {} (front ++ [.setRoot "R"]) := by
  intro front c
  have h : (c.perform.on (runAll {} front)).1 =
      .error (.duplicate (.entry "R" .attribute "a")) := rfl
  obtain ⟨hkept, hrun⟩ := runAll_failed {} front [.setRoot "R"] c (Prod.ext h rfl)
  exact ⟨Prod.ext h hkept, hrun⟩

end SmlSchema.Graph
