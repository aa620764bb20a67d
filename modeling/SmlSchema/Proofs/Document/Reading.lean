import Mathlib.Data.List.Forall2
import SmlSchema.Document.Element
import SmlSchema.Proofs.Result

/-! # What reading operations accept

Each operation on attributes and elements succeeds under one condition. Later proofs use the
condition and do not look into the operation again.
-/

namespace SmlSchema

/-- A row of computations succeeds if each of them does. -/
theorem mapM_eq_ok {ε α β : Type} {f : α → Except ε β} {xs : List α} {ys : List β} :
    xs.mapM f = .ok ys ↔ List.Forall₂ (fun x y => f x = .ok y) xs ys := by
  induction xs generalizing ys with
  | nil => simp [eq_comm]
  | cons x xs ih =>
      rw [List.mapM_cons, bind_eq_ok]
      constructor
      · rintro ⟨y, hy, hrest⟩
        obtain ⟨zs, hzs, heq⟩ := bind_eq_ok.mp hrest
        cases heq
        exact .cons hy (ih.mp hzs)
      · intro h
        cases h with
        | cons hy hrest => exact ⟨_, hy, bind_eq_ok.mpr ⟨_, ih.mpr hrest, rfl⟩⟩

theorem bind_ne_error {ε α β : Type} {e : ε} {x : Except ε α} {f : α → Except ε β}
    (hx : x ≠ .error e) (hf : ∀ a, f a ≠ .error e) : x >>= f ≠ .error e := by
  cases x with
  | ok a => exact hf a
  | error e' => exact fun h => hx (by cases h; rfl)

/-- A row of computations fails only in a way in which one of them does. -/
theorem mapM_ne_error {ε α β : Type} {e : ε} {f : α → Except ε β} {xs : List α}
    (hf : ∀ x ∈ xs, f x ≠ .error e) : xs.mapM f ≠ .error e := by
  induction xs with
  | nil => simp
  | cons x xs ih =>
      obtain ⟨hx, hxs⟩ := List.forall_mem_cons.mp hf
      rw [List.mapM_cons]
      exact bind_ne_error hx fun _ => bind_ne_error (ih hxs) fun _ => by simp

/-- What each member has, all have in a row. -/
theorem exists_forall₂ {α β : Type} {R : α → β → Prop} {xs : List α} (h : ∀ x ∈ xs, ∃ y, R x y) :
    ∃ ys, List.Forall₂ R xs ys := by
  induction xs with
  | nil => exact ⟨[], .nil⟩
  | cons x xs ih =>
      obtain ⟨y, hy⟩ := h x (by simp)
      obtain ⟨ys, hys⟩ := ih fun x hx => h x (by simp [hx])
      exact ⟨y :: ys, .cons hy hys⟩

theorem forall_of_forall₂ {α β : Type} {R : α → β → Prop} {P : β → Prop} {xs : List α}
    {ys : List β} (h : List.Forall₂ R xs ys) (hP : ∀ x y, R x y → P y) : ∀ y ∈ ys, P y := by
  induction h with
  | nil => nofun
  | cons hxy _ ih =>
      intro z hz
      rcases List.mem_cons.mp hz with rfl | hz
      · exact hP _ _ hxy
      · exact ih z hz

/-- A run that puts one member after the other gives back the whole row. -/
theorem foldlM_rebuild {ε α β γ : Type} {R : α → γ → Prop} {f : β → γ → Except ε β}
    {g : List α → β} {xs : List α} {ys : List γ} (h : List.Forall₂ R xs ys)
    (step : ∀ done x y, R x y → done ++ [x] <+: xs → f (g done) y = .ok (g (done ++ [x]))) :
    ys.foldlM f (g []) = .ok (g xs) := by
  have hrun : ∀ done rest ys, List.Forall₂ R rest ys → done ++ rest = xs →
      ys.foldlM f (g done) = .ok (g xs) := by
    intro done rest ys hrest heq
    induction hrest generalizing done with
    | nil =>
        rw [List.append_nil] at heq
        rw [heq]
        rfl
    | cons hxy _ ih =>
        rename_i x y rest ys _
        rw [List.append_cons] at heq
        rw [List.foldlM_cons, step done x y hxy ⟨rest, heq⟩, ok_bind]
        exact ih (done ++ [x]) heq
  exact hrun [] xs ys h rfl

namespace Attribute

open Line (Cell)

variable {a : Attribute}

theorem cell_eq_ok {index : Nat} {c : Cell} :
    a.cell index = .ok c ↔ a.values[index]? = some c := by
  have hindex : ¬ ((index : Int) < 0) := by omega
  rw [cell, if_neg hindex, Int.toNat_natCast]
  cases a.values[index]? <;> simp

/-- The value at a position is a text. -/
theorem string_eq_ok {index : Nat} {s : String} :
    a.string index = .ok s ↔ a.values[index]? = some (some s) := by
  rw [string, bind_eq_ok]
  constructor
  · rintro ⟨c, hc, hs⟩
    cases c with
    | none => cases hs
    | some t =>
        cases hs
        exact cell_eq_ok.mp hc
  · intro h
    exact ⟨some s, cell_eq_ok.mpr h, rfl⟩

/-- The check of the number of values. -/
theorem assureValueCount_eq_ok {count : Nat} {u : Unit} :
    a.assureValueCount count = .ok u ↔ a.values.length = count := by
  rw [assureValueCount, valueCount]
  by_cases h : a.values.length = count
  · simp [h]
  · have hne : ¬ ((a.values.length : Int) = count) := by omega
    simp [h, hne]

theorem assureValueBounds_eq_ok {min : Int} {max : Option Int} {u : Unit} :
    a.assureValueBounds min max = .ok u ↔ withinBounds a.values.length min max := by
  rw [assureValueBounds, valueCount]
  cases withinBounds a.values.length min max <;> simp

/-- The only value is a text. -/
theorem onlyString_eq_ok {s : String} : a.onlyString = .ok s ↔ a.values = [some s] := by
  rw [onlyString, bind_eq_ok]
  constructor
  · rintro ⟨u, hcount, hs⟩
    have hlen : a.values.length = 1 := assureValueCount_eq_ok.mp hcount
    have hfirst : a.values[0]? = some (some s) := string_eq_ok.mp hs
    obtain ⟨c, hc⟩ := List.length_eq_one_iff.mp hlen
    rw [hc, List.getElem?_cons_zero, Option.some.injEq] at hfirst
    rw [hc, hfirst]
  · intro h
    have hlen : a.values.length = 1 := by rw [h]; rfl
    have hfirst : a.values[0]? = some (some s) := by rw [h]; rfl
    exact ⟨(), assureValueCount_eq_ok.mpr hlen, string_eq_ok.mpr hfirst⟩

/-- All values are texts. -/
theorem strings_eq_ok {ls : List String} : a.strings = .ok ls ↔ a.values = ls.map some := by
  rw [strings, mapM_eq_ok, List.forall₂_iff_get]
  simp only [List.length_range, List.get_eq_getElem, List.getElem_range, valueCount, string_eq_ok]
  constructor
  · rintro ⟨hlen, hall⟩
    refine List.ext_getElem (by simp [hlen]) fun i hi hj => ?_
    have hstring := hall i hi (hlen ▸ hi)
    rw [List.getElem?_eq_getElem hi, Option.some.injEq] at hstring
    rw [hstring, List.getElem_map]
  · intro h
    refine ⟨by simp [h], fun i hi hj => ?_⟩
    simp [h, hj]

/-- The value at a position is a text, or it is missing where it may be. -/
theorem stringOrNull_eq_ok {index : Nat} {nullable : Bool} {c : Cell} :
    a.stringOrNull index nullable = .ok c ↔
      a.values[index]? = some c ∧ (c = none → nullable) := by
  rw [stringOrNull, bind_eq_ok]
  constructor
  · rintro ⟨d, hd, hc⟩
    rw [cell_eq_ok] at hd
    cases d with
    | some s =>
        cases hc
        exact ⟨hd, nofun⟩
    | none =>
        cases nullable with
        | true =>
            cases hc
            exact ⟨hd, fun _ => rfl⟩
        | false => cases hc
  · rintro ⟨hvalue, hnull⟩
    refine ⟨c, cell_eq_ok.mpr hvalue, ?_⟩
    cases c with
    | some s => rfl
    | none => rw [hnull rfl]; rfl

section Labels

variable {labels : List String} {nullable : Bool}

/-- A label is known by its text. -/
theorem label_eq_some {index : Int} {p : Nat} :
    label labels a index nullable = .ok (some p) ↔
      ∃ text, a.cell index = .ok (some text) ∧ labels.idxOf? text = some p := by
  rw [label, stringOrNull]
  rcases a.cell index with v | _ | text
  · simp
  · cases nullable <;> simp
  · cases h : labels.idxOf? text <;> simp [h]

/-- A label is missing exactly if the value is missing and may be. -/
theorem label_eq_none {index : Int} :
    label labels a index nullable = .ok none ↔ a.cell index = .ok none ∧ nullable = true := by
  rw [label, stringOrNull]
  rcases a.cell index with v | _ | text
  · simp
  · cases nullable <;> simp
  · cases h : labels.idxOf? text <;> simp [h]

/-- There is no value at the index, a null that is not allowed, or a text that is no label. -/
theorem label_eq_error {index : Int} {v : Violation} :
    label labels a index nullable = .error v ↔
      a.cell index = .error v ∨
      a.cell index = .ok none ∧ nullable = false ∧ v = .nullAt a.name index ∨
      ∃ text, a.cell index = .ok (some text) ∧ text ∉ labels ∧
        v = .notALabel a.name text labels := by
  rw [label, stringOrNull]
  rcases a.cell index with w | _ | text
  · simp
  · cases nullable <;> simp [eq_comm]
  · cases h : labels.idxOf? text with
    | none => simp [h, List.idxOf?_eq_none_iff.mp h, eq_comm]
    | some p =>
        have hmem : text ∈ labels := List.isSome_idxOf?.mp (h ▸ rfl)
        simp [h, hmem]

/-- A label is the position of the value among the labels. -/
theorem label_eq_ok {index : Nat} {r : Option Nat} :
    label labels a index nullable = .ok r ↔
      (a.values[index]? = some none ∧ nullable ∧ r = none) ∨
      ∃ s i, a.values[index]? = some (some s) ∧ labels.idxOf? s = some i ∧ r = some i := by
  cases r with
  | none => simp [label_eq_none, cell_eq_ok]
  | some p => simp [label_eq_some, cell_eq_ok]

end Labels

end Attribute

namespace Element

variable {e : Element} {name : String}

theorem mem_children {c : Element} : c ∈ e.children ↔ c.toNode ∈ e.nodes := by
  rw [children, List.mem_filterMap]
  constructor
  · rintro ⟨n, hn, hc⟩
    match n with
    | .element _ _ =>
        cases hc
        exact hn
    | .attribute _ => cases hc
  · intro h
    exact ⟨_, h, rfl⟩

theorem mem_ownAttributes {a : Attribute} : a ∈ e.ownAttributes ↔ Node.attribute a ∈ e.nodes := by
  rw [ownAttributes, List.mem_filterMap]
  constructor
  · rintro ⟨n, hn, ha⟩
    match n with
    | .element _ _ => cases ha
    | .attribute _ =>
        cases ha
        exact hn
  · intro h
    exact ⟨_, h, rfl⟩

section

variable (tag : String) (ns ms : List Node)

@[simp] theorem children_append :
    children ⟨tag, ns ++ ms⟩ = children ⟨tag, ns⟩ ++ children ⟨tag, ms⟩ :=
  List.filterMap_append

@[simp] theorem ownAttributes_append :
    ownAttributes ⟨tag, ns ++ ms⟩ = ownAttributes ⟨tag, ns⟩ ++ ownAttributes ⟨tag, ms⟩ :=
  List.filterMap_append

/-- The elements of a name are found in the order of the nodes. -/
@[simp] theorem elements_append :
    elements ⟨tag, ns ++ ms⟩ name = elements ⟨tag, ns⟩ name ++ elements ⟨tag, ms⟩ name := by
  simp [elements]

/-- The attributes of a name are found in the order of the nodes. -/
@[simp] theorem attributes_append :
    attributes ⟨tag, ns ++ ms⟩ name = attributes ⟨tag, ns⟩ name ++ attributes ⟨tag, ms⟩ name := by
  simp [attributes]

theorem elements_singleton (t : String) :
    elements ⟨tag, [.element t ns]⟩ name = if Text.sameName t name then [⟨t, ns⟩] else [] := by
  simp only [elements, children, List.filterMap_cons, Node.element?, List.filterMap_nil,
    List.filter_cons, List.filter_nil]

theorem elements_singleton_eq_nil {tag t : String} {ns : List Node} :
    elements ⟨tag, [.element t ns]⟩ name = [] ↔ Text.sameName t name = false := by
  rw [elements_singleton]
  cases Text.sameName t name <;> simp

theorem attributes_singleton (a : Attribute) :
    attributes ⟨tag, [.attribute a]⟩ name = if Text.sameName a.name name then [a] else [] := by
  simp only [attributes, ownAttributes, List.filterMap_cons, Node.attribute?, List.filterMap_nil,
    List.filter_cons, List.filter_nil]

end

/-! ### Elements made of elements or of attributes alone -/

@[simp] theorem children_map_toNode (tag : String) (es : List Element) :
    children ⟨tag, es.map toNode⟩ = es := by
  simp [children, List.filterMap_map, Function.comp_def]

@[simp] theorem ownAttributes_map_toNode (tag : String) (es : List Element) :
    ownAttributes ⟨tag, es.map toNode⟩ = [] := by
  simp [ownAttributes, toNode, Node.attribute?]

@[simp] theorem children_map_attribute (tag : String) (as : List Attribute) :
    children ⟨tag, as.map Node.attribute⟩ = [] := by
  simp [children, Node.element?]

@[simp] theorem ownAttributes_map_attribute (tag : String) (as : List Attribute) :
    ownAttributes ⟨tag, as.map Node.attribute⟩ = as := by
  simp [ownAttributes, List.filterMap_map, Function.comp_def, Node.attribute?]

/-- Elements of one name are found by it, all or none. -/
theorem elements_map_toNode {t : String} (tag : String) {es : List Element}
    (h : ∀ c ∈ es, c.name = t) :
    elements ⟨tag, es.map toNode⟩ name = if Text.sameName t name then es else [] := by
  have hname : ∀ c ∈ es, Text.sameName c.name name = Text.sameName t name := fun c hc => by
    rw [h c hc]
  rw [elements, children_map_toNode, List.filter_congr hname]
  cases Text.sameName t name <;> simp

/-- Attributes of one name are found by it, all or none. -/
theorem attributes_map_attribute {t : String} (tag : String) {as : List Attribute}
    (h : ∀ a ∈ as, a.name = t) :
    attributes ⟨tag, as.map Node.attribute⟩ name = if Text.sameName t name then as else [] := by
  have hname : ∀ a ∈ as, Text.sameName a.name name = Text.sameName t name := fun a ha => by
    rw [h a ha]
  rw [attributes, ownAttributes_map_attribute, List.filter_congr hname]
  cases Text.sameName t name <;> simp

/-- What is found under a name is a child that has it up to letter case. -/
theorem mem_elements {c : Element} :
    c ∈ e.elements name ↔ c ∈ e.children ∧ Text.sameName c.name name := List.mem_filter

/-- What is found under a name is an attribute that has it up to letter case. -/
theorem mem_attributes {a : Attribute} :
    a ∈ e.attributes name ↔ a ∈ e.ownAttributes ∧ Text.sameName a.name name := List.mem_filter

/-- There is exactly one node. -/
theorem one_eq_ok {α : Type} {kind : NodeKind} {xs : List α} {x : α} :
    e.one kind name xs = .ok x ↔ xs = [x] := by
  match xs with
  | [] => simp [one]
  | [y] => simp [one]
  | y :: z :: ys => simp [one]

/-- There is at most one node. -/
theorem atMostOne_eq_ok {α : Type} {kind : NodeKind} {xs : List α} {r : Option α} :
    e.atMostOne kind name xs = .ok r ↔ xs = r.toList := by
  match xs with
  | [] => cases r <;> simp [atMostOne]
  | [y] => cases r <;> simp [atMostOne]
  | y :: z :: ys => cases r <;> simp [atMostOne]

/-- There is at least one node. -/
theorem oneOrMore_eq_ok {α : Type} {kind : NodeKind} {xs ys : List α} :
    e.oneOrMore kind name xs = .ok ys ↔ xs ≠ [] ∧ ys = xs := by
  cases xs with
  | nil => simp [oneOrMore]
  | cons x xs => simp [oneOrMore, eq_comm]

theorem assureName_eq_ok {u : Unit} :
    e.assureName name = .ok u ↔ Text.sameName e.name name := by
  unfold assureName
  cases Text.sameName e.name name <;> simp

theorem hasName_of_mem {names : List String} (h : name ∈ names) : hasName names name :=
  List.any_eq_true.mpr ⟨name, h, beq_self_eq_true _⟩

/-- The check of names passes if every name found is allowed. -/
theorem assureNames_eq_ok {kind : NodeKind} {allowed found : List String} {u : Unit} :
    e.assureNames kind allowed found = .ok u ↔ ∀ n ∈ found, hasName allowed n := by
  unfold assureNames
  cases h : found.find? fun n => !hasName allowed n with
  | none => simpa using h
  | some n =>
      have hn := List.find?_some h
      have hmem := List.mem_of_find?_eq_some h
      simp only [reduceCtorEq, false_iff, not_forall]
      exact ⟨n, hmem, by simpa using hn⟩

/-- The check passes if the names of all children are allowed. -/
theorem assureElementNames_eq_ok {names : List String} {u : Unit} :
    e.assureElementNames names = .ok u ↔ ∀ c ∈ e.children, hasName names c.name := by
  rw [assureElementNames, assureNames_eq_ok, List.forall_mem_map]

/-- The check passes if the names of all attributes are allowed. -/
theorem assureAttributeNames_eq_ok {names : List String} {u : Unit} :
    e.assureAttributeNames names = .ok u ↔ ∀ a ∈ e.ownAttributes, hasName names a.name := by
  rw [assureAttributeNames, assureNames_eq_ok, List.forall_mem_map]

theorem assureNoElements_eq_ok {u : Unit} : e.assureNoElements = .ok u ↔ e.children = [] := by
  unfold assureNoElements
  cases e.children <;> simp

theorem assureNoAttributes_eq_ok {u : Unit} :
    e.assureNoAttributes = .ok u ↔ e.ownAttributes = [] := by
  unfold assureNoAttributes
  cases e.ownAttributes <;> simp

/-- The check passes if one child has one of the names, or none where that is allowed. -/
theorem assureChoice_eq_ok {names : List String} {canBeNone : Bool} {u : Unit} :
    e.assureChoice names canBeNone = .ok u ↔
      ((e.children.filter fun c => hasName names c.name).length = 0 ∧ canBeNone) ∨
        (e.children.filter fun c => hasName names c.name).length = 1 := by
  unfold assureChoice
  split
  · rename_i hcount
    rw [hcount]
    cases canBeNone <;> simp
  · rename_i hcount
    simp [hcount]
  · rename_i hzero hone
    simp only [reduceCtorEq, false_iff, not_or, not_and]
    exact ⟨fun h => absurd h hzero, hone⟩

end Element

end SmlSchema
