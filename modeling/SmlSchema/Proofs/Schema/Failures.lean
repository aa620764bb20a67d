import SmlSchema.Proofs.Schema.Loading

/-! # How loading fails

Loading asks the document questions, looks names up, reads the texts of types and adds definitions,
and each of these can fail. All of these failures say what is wrong with the schema, and become one
error that holds the cause. The bounds of an array are the exception: a number with too many digits
is not converted, and this error leaves the loader as it is.
-/

namespace SmlSchema

/-- The error says what is wrong with a schema or a document. A row without values, a part that is
not there, a module that is built wrongly and a number that is too long are no faults of either. -/
def Error.OfSchema : Error → Prop
  | .violation .emptyRows => False
  | .lacking _ => False
  | .misbuilt _ => False
  | .tooManyDigits _ => False
  | _ => True

/-- How a step of the loader ends: with a result, with a fault of the schema, or at a bound that is
too long. -/
inductive Outcome (bound : List Char → Prop) (P : α → Prop) : Except Error α → Prop
  | ok {a : α} (h : P a) : Outcome bound P (.ok a)
  | flaw {e : Error} (h : e.OfSchema) : Outcome bound P (.error e)
  | digits {ds : List Char} (h : bound ds) (long : 4300 < ds.length) :
      Outcome bound P (.error (.tooManyDigits ⟨ds.length⟩))

namespace Outcome

variable {α β : Type} {bound : List Char → Prop} {P : α → Prop} {Q : β → Prop}

/-- Steps with good outcomes have a good outcome. -/
theorem bind {x : Except Error α} {f : α → Except Error β} (hx : Outcome bound P x)
    (hf : ∀ a, x = .ok a → P a → Outcome bound Q (f a)) : Outcome bound Q (x >>= f) := by
  cases hx with
  | ok h => exact hf _ rfl h
  | flaw h => exact .flaw h
  | digits h long => exact .digits h long

/-- A fold has a good outcome if each of its steps has one. -/
theorem foldlM {f : β → α → Except Error β} {xs : List α}
    (h : ∀ x ∈ xs, ∀ b, Q b → Outcome bound Q (f b x)) {b : β} (hb : Q b) :
    Outcome bound Q (xs.foldlM f b) := by
  induction xs generalizing b with
  | nil => exact .ok hb
  | cons x xs ih =>
      rw [List.foldlM_cons]
      refine (h x List.mem_cons_self b hb).bind fun c _ hc => ?_
      exact ih (fun y hy => h y (List.mem_cons_of_mem _ hy)) hc

/-- A question to the document comes first. -/
theorem ask {x : Except Violation α} {f : α → Except Error β} (hx : x ≠ .error .emptyRows)
    (hf : ∀ a, x = .ok a → Outcome bound Q (f a)) :
    Outcome bound Q ((liftM x : Except Error α) >>= f) := by
  cases x with
  | ok a => exact hf a rfl
  | error v =>
      refine .flaw ?_
      cases v with
      | emptyRows => exact absurd rfl hx
      | _ => trivial

end Outcome

/-! ## Questions to a document -/

namespace Attribute

variable (a : Attribute)

/-- Values are read one by one, so that there are no rows to be empty. -/
theorem cell_ne_emptyRows (index : Int) : a.cell index ≠ .error .emptyRows := by
  unfold cell
  split
  · simp
  · split <;> simp

theorem string_ne_emptyRows (index : Int) : a.string index ≠ .error .emptyRows := by
  refine bind_ne_error (a.cell_ne_emptyRows index) fun c => ?_
  cases c <;> simp

theorem strings_ne_emptyRows : a.strings ≠ .error .emptyRows :=
  mapM_ne_error fun i _ => a.string_ne_emptyRows i

theorem assureValueCount_ne_emptyRows (count : Int) :
    a.assureValueCount count ≠ .error .emptyRows := by
  unfold assureValueCount
  split <;> simp

theorem assureValueBounds_ne_emptyRows (min : Int) (max : Option Int) :
    a.assureValueBounds min max ≠ .error .emptyRows := by
  unfold assureValueBounds
  split <;> simp

theorem onlyString_ne_emptyRows : a.onlyString ≠ .error .emptyRows :=
  bind_ne_error (a.assureValueCount_ne_emptyRows 1) fun _ => a.string_ne_emptyRows 0

theorem label_ne_emptyRows (labels : List String) (index : Int) :
    label labels a index false ≠ .error .emptyRows := by
  have htext : a.stringOrNull index false ≠ .error .emptyRows := by
    refine bind_ne_error (a.cell_ne_emptyRows index) fun c => ?_
    cases c <;> simp
  refine bind_ne_error htext fun c => ?_
  cases c with
  | none => simp
  | some s =>
      dsimp only
      split <;> simp

end Attribute

namespace Element

variable {α : Type} (e : Element)

theorem one_ne_emptyRows (kind : NodeKind) (name : String) (xs : List α) :
    e.one kind name xs ≠ .error .emptyRows := by
  unfold one
  split <;> simp

theorem atMostOne_ne_emptyRows (kind : NodeKind) (name : String) (xs : List α) :
    e.atMostOne kind name xs ≠ .error .emptyRows := by
  unfold atMostOne
  split <;> simp

theorem assureName_ne_emptyRows (name : String) : e.assureName name ≠ .error .emptyRows := by
  unfold assureName
  split <;> simp

theorem assureNames_ne_emptyRows (kind : NodeKind) (allowed found : List String) :
    e.assureNames kind allowed found ≠ .error .emptyRows := by
  unfold assureNames
  split <;> simp

theorem assureNoElements_ne_emptyRows : e.assureNoElements ≠ .error .emptyRows := by
  unfold assureNoElements
  split <;> simp

theorem assureNoAttributes_ne_emptyRows : e.assureNoAttributes ≠ .error .emptyRows := by
  unfold assureNoAttributes
  split <;> simp

theorem assureChoice_ne_emptyRows (names : List String) :
    e.assureChoice names ≠ .error .emptyRows := by
  unfold assureChoice
  split <;> simp

end Element

theorem Loader.nameOf_ne_emptyRows (e : Element) : nameOf e ≠ .error .emptyRows :=
  bind_ne_error (e.one_ne_emptyRows _ _ _) fun a => a.onlyString_ne_emptyRows

/-! ## Bounds of arrays -/

namespace DataType

/-- What is read as a bound: all that stands in the brackets, or what stands before or after two
dots. -/
inductive BoundPart (sizes : List Char) : List Char → Prop
  | whole : BoundPart sizes sizes
  | low {low high : List Char} (h : sizes = low ++ '.' :: '.' :: high) : BoundPart sizes low
  | high {low high : List Char} (h : sizes = low ++ '.' :: '.' :: high) : BoundPart sizes high

/-- The digits are a bound in the brackets at the end of the text, maybe with blanks around them. -/
def HoldsBound (text : String) (ds : List Char) : Prop :=
  ∃ base sizes arrayNullable part,
    text.toList = base ++ '[' :: sizes ++ [']'] ++ markText arrayNullable ∧
      BoundPart sizes part ∧ Text.trimChars part = ds ∧ Scalar.isDigitRun ds

variable {bound : List Char → Prop}

theorem splitDots?_eq_some {cs low high : List Char} (h : splitDots? cs = some (low, high)) :
    cs = low ++ '.' :: '.' :: high := by
  fun_induction splitDots? cs generalizing low with
  | case1 cs =>
      cases h
      rfl
  | case2 c cs _ ih =>
      obtain ⟨⟨l, r⟩, hl, heq⟩ := Option.map_eq_some_iff.mp h
      cases heq
      exact congrArg (c :: ·) (ih hl)
  | case3 => cases h

/-- A bound is read, unless it has too many digits. -/
theorem outcome_readBound (whole : String) {cs : List Char}
    (h : Scalar.isDigitRun (Text.trimChars cs) → bound (Text.trimChars cs)) :
    Outcome bound (fun _ => True) (readBound whole cs) := by
  rw [readBound]
  split
  · rename_i hrun
    rw [Scalar.natOfText]
    split
    · rename_i hlong
      exact .digits (h hrun) hlong
    · exact .ok trivial
  · exact .flaw trivial

theorem outcome_make_range (min max : Option Int) :
    Outcome bound (fun _ => True) (liftM (Occurrence.make min max) : Except Error Occurrence) := by
  cases Occurrence.make min max with
  | ok o => exact .ok trivial
  | error f => exact .flaw trivial

/-- The bounds of an array are read, unless one has too many digits. -/
theorem outcome_readBounds (whole : String) {sizes : List Char}
    (h : ∀ part, BoundPart sizes part →
      Scalar.isDigitRun (Text.trimChars part) → bound (Text.trimChars part)) :
    Outcome bound (fun _ => True) (readBounds whole sizes) := by
  rw [readBounds]
  split
  · exact (outcome_readBound whole (h sizes .whole)).bind fun _ _ _ => .ok trivial
  · rename_i low high hsplit
    have hsizes := splitDots?_eq_some hsplit
    refine (outcome_readBound whole (h low (.low hsizes))).bind fun min _ _ => ?_
    dsimp only
    split
    · exact outcome_make_range _ _
    · have hhigh : Outcome bound (fun _ => True) (some <$> readBound whole high) :=
        (outcome_readBound whole (h high (.high hsizes))).bind fun _ _ _ => .ok trivial
      exact hhigh.bind fun max _ _ => outcome_make_range _ _

/-- The sizes stand behind the first opening bracket. -/
theorem outcome_cutSizes (whole : String) {cs : List Char}
    (h : ∀ base sizes part, cs = base ++ '[' :: sizes ++ [']'] → BoundPart sizes part →
      Scalar.isDigitRun (Text.trimChars part) → bound (Text.trimChars part)) :
    Outcome bound (fun _ => True) (cutSizes whole cs) := by
  rw [cutSizes]
  split
  · exact .ok trivial
  · rename_i rest hcut
    split
    · exact .flaw trivial
    · rename_i c sizes hdrop
      obtain rfl : c = '[' := by
        have hhead := List.head?_dropWhile_not (· != '[') rest
        rw [hdrop] at hhead
        simpa using hhead
      have hrest : rest = rest.takeWhile (· != '[') ++ '[' :: sizes := by
        rw [← hdrop, List.takeWhile_append_dropWhile]
      have hcs : cs = rest.takeWhile (· != '[') ++ '[' :: sizes ++ [']'] := by
        rw [← hrest]
        exact dropTail?_eq_some.mp hcut
      exact (outcome_readBounds whole fun part => h _ sizes part hcs).bind
        fun _ _ _ => .ok trivial

/-- Nothing but the mark is cut off. -/
theorem cutArrayMark_snd_append (cs : List Char) :
    cs = (cutArrayMark cs).2 ++ markText (cutArrayMark cs).1 := by
  unfold cutArrayMark
  split
  · rename_i rest hcut
    rw [dropTail?_eq_some.mp hcut]
    simp [markText]
  · simp [markText]

/-- The parts of a type text are read, unless a bound has too many digits. -/
theorem outcome_readParts {whole : String} (h : ∀ ds, HoldsBound whole ds → bound ds) :
    Outcome bound (fun _ => True) (readParts whole) := by
  have hmark := cutArrayMark_snd_append whole.toList
  rw [readParts]
  generalize cutArrayMark whole.toList = cut at hmark
  obtain ⟨arrayNullable, cs⟩ := cut
  have hsizes : Outcome bound (fun _ => True) (cutSizes whole cs) := by
    refine outcome_cutSizes whole ?_
    rintro base sizes part rfl hpart hrun
    exact h _ ⟨base, sizes, arrayNullable, part, hmark, hpart, rfl, hrun⟩
  refine hsizes.bind fun r _ _ => ?_
  dsimp only
  split
  · exact .flaw trivial
  · exact .ok trivial

/-- Building a type fails with a reason of the schema only. -/
theorem outcome_make (c : Candidate) (nullable : Bool) (range : Option Occurrence)
    (arrayNullable : Bool) :
    Outcome bound (fun _ => True) (make c nullable range arrayNullable) := by
  cases c with
  | foreign shown => exact .flaw trivial
  | value b =>
      cases range with
      | none =>
          cases arrayNullable with
          | true => exact .flaw trivial
          | false => exact .ok trivial
      | some o => exact .ok trivial
  | struct scope d =>
      cases range with
      | none =>
          cases arrayNullable with
          | true => exact .flaw trivial
          | false => exact .ok trivial
      | some o =>
          change Outcome bound _ (if d.hasOptional then _ else _)
          split
          · exact .flaw trivial
          · exact .ok trivial

/-- A type is read from its text, unless a bound has too many digits. -/
theorem outcome_read (p : Place) {text : String} (h : ∀ ds, HoldsBound text ds → bound ds) :
    Outcome bound (fun _ => True) (read p text) := by
  refine (outcome_readParts h).bind fun parts _ _ => ?_
  dsimp only
  split
  · exact .flaw trivial
  · exact outcome_make _ _ _ _

end DataType

/-! ## Definitions -/

variable {bound : List Char → Prop}

theorem Place.outcome_found {α : Type} (p : Place) (category : Category) (name : String)
    (r : Option α) : Outcome bound (fun _ => True) (p.found category name r) := by
  cases r with
  | none => exact .flaw trivial
  | some a => exact .ok trivial

namespace Scope

theorem outcome_checkFree (s : Scope) (path : Path) (category : Category) (name : String) :
    Outcome bound (fun _ => True) (s.checkFree path category name) := by
  unfold checkFree
  split
  · exact .flaw trivial
  · exact .ok trivial

theorem outcome_addEnum (s : Scope) (path : Path) (name : String) (labels : List String) :
    Outcome bound (fun _ => True) (s.addEnum path name labels) := by
  have hmake : Outcome bound (fun _ => True) (ValueType.makeEnum name labels) := by
    unfold ValueType.makeEnum
    split
    · exact .flaw trivial
    · split
      · exact .flaw trivial
      · exact .ok trivial
  refine hmake.bind fun v _ _ => ?_
  exact (s.outcome_checkFree path .valueType v.name).bind fun _ _ _ => .ok trivial

theorem outcome_add (s : Scope) (path : Path) (category : Category) (name : String) :
    Outcome bound (fun _ => True) (s.add path category name) := by
  refine (s.outcome_checkFree path category name).bind fun _ _ _ => ?_
  cases category with
  | valueType => exact .flaw trivial
  | _ => exact .ok trivial

end Scope

theorem Struct.outcome_newValue (s : Struct) (name : String) (optional : Bool) (c : Candidate)
    (nullable : Bool) :
    Outcome bound (fun _ => True) (s.newValue name optional c nullable) := by
  unfold newValue
  split
  · exact .flaw trivial
  · split
    · exact .flaw trivial
    · cases c with
      | value base => exact .ok trivial
      | struct scope d => exact .flaw trivial
      | foreign shown => exact .flaw trivial

/-- The content has entries. -/
def Content.IsUnordered : Content → Prop
  | .unordered _ _ => True
  | .reserved _ => False

namespace Content

variable {c : Content}

/-- Adding a child element leaves the content unordered. -/
theorem outcome_addElement (p : Place) (owner name : String) (o : Occurrence)
    (hc : c.IsUnordered) : Outcome bound IsUnordered (c.addElement p owner name o) := by
  cases c with
  | reserved kind => exact hc.elim
  | unordered attributes elements =>
      dsimp only [addElement]
      split
      · exact .flaw trivial
      · exact (p.outcome_found .element name _).bind fun _ _ _ => .ok trivial

/-- Adding an attribute leaves the content unordered. -/
theorem outcome_addEntry (part owner name : String) {entry : Except Error AttributeEntry}
    (hentry : Outcome bound (fun _ => True) entry) (hc : c.IsUnordered) :
    Outcome bound IsUnordered (c.addEntry part owner name entry) := by
  cases c with
  | reserved kind => exact hc.elim
  | unordered attributes elements =>
      dsimp only [addEntry]
      split
      · exact .flaw trivial
      · exact hentry.bind fun _ _ _ => .ok trivial

end Content

/-! ## Loading -/

/-- The element is a scope in which the text is the type of an attribute: of one that is defined, or
of one in the content of an element, or in a scope inside. -/
inductive Element.WritesType : Element → String → Prop
  | defined {e d : Element} {a : Attribute} {text : String} (hd : d ∈ e.elements "Attribute")
      (ha : a ∈ d.attributes "DataType") (htext : a.values = [some text]) : WritesType e text
  | entry {e d c : Element} {a : Attribute} {text : String} (hd : d ∈ e.elements "Element")
      (hc : c ∈ d.elements "UnorderedContent") (ha : a ∈ c.attributes "Attribute")
      (htext : a.values[2]? = some (some text)) : WritesType e text
  | inner {e d f : Element} {text : String} (hd : d ∈ e.elements "Element")
      (hf : f ∈ d.elements "Definitions") (h : WritesType f text) : WritesType e text

namespace Loader

variable {e : Element}

/-- Loading an enumeration has a good outcome. -/
theorem outcome_loadEnum (p : Place) (e : Element) :
    Outcome bound (fun _ => True) (loadEnum p e).result := by
  simp only [loadEnum, report, Traced.result_bind, Traced.result_lift, Traced.result_lift_violation,
    Traced.result_report, Traced.result_pure, ok_bind]
  refine .ask e.assureNoElements_ne_emptyRows fun _ _ => ?_
  refine .ask (e.assureNames_ne_emptyRows _ _ _) fun _ _ => ?_
  refine .ask (nameOf_ne_emptyRows e) fun name _ => ?_
  refine .ask (e.one_ne_emptyRows _ _ _) fun a _ => ?_
  refine .ask a.strings_ne_emptyRows fun labels _ => ?_
  exact (p.scope.outcome_addEnum _ _ _).bind fun _ _ _ => .ok trivial

theorem outcome_readValueType (p : Place) (text : String) :
    Outcome bound (fun _ => True) (readValueType p text) := by
  rw [readValueType]
  generalize DataType.cutMark text.toList = cut
  obtain ⟨nullable, cs⟩ := cut
  exact (p.outcome_found _ _ _).bind fun _ _ _ => .ok trivial

theorem outcome_loadStructValue (p : Place) (s : Struct) (a : Attribute) :
    Outcome bound (fun _ => True) (loadStructValue p s a) := by
  refine .ask (a.assureValueCount_ne_emptyRows 3) fun _ _ => ?_
  refine .ask (a.string_ne_emptyRows 0) fun name _ => ?_
  refine .ask (a.label_ne_emptyRows _ 1) fun occurrence _ => ?_
  refine .ask (a.string_ne_emptyRows 2) fun text _ => ?_
  refine (outcome_readValueType p text).bind fun t _ _ => ?_
  obtain ⟨base, nullable⟩ := t
  exact (s.outcome_newValue _ _ _ _).bind fun _ _ _ => .ok trivial

/-- Loading a struct has a good outcome. -/
theorem outcome_loadStruct (p : Place) (e : Element) :
    Outcome bound (fun _ => True) (loadStruct p e).result := by
  simp only [loadStruct, report, Traced.result_bind, Traced.result_lift,
    Traced.result_lift_violation, Traced.result_report, Traced.result_pure, ok_bind]
  refine .ask e.assureNoElements_ne_emptyRows fun _ _ => ?_
  refine .ask (e.assureNames_ne_emptyRows _ _ _) fun _ _ => ?_
  refine .ask (nameOf_ne_emptyRows e) fun name _ => ?_
  refine (p.scope.outcome_add _ _ _).bind fun scope _ _ => ?_
  have hvalues : Outcome bound (fun _ => True)
      (loadStructValues p { name } (e.attributes "Value")) :=
    .foldlM (fun a _ s _ => outcome_loadStructValue p s a) trivial
  exact hvalues.bind fun _ _ _ => .ok trivial

/-- The type of an attribute is read from its text. -/
theorem outcome_loadAttribute (p : Place) {e : Element}
    (he : ∀ a ∈ e.attributes "DataType", ∀ text, a.values = [some text] →
      ∀ ds, DataType.HoldsBound text ds → bound ds) :
    Outcome bound (fun _ => True) (loadAttribute p e) := by
  refine .ask e.assureNoElements_ne_emptyRows fun _ _ => ?_
  refine .ask (e.assureNames_ne_emptyRows _ _ _) fun _ _ => ?_
  refine .ask (nameOf_ne_emptyRows e) fun name _ => ?_
  refine (p.scope.outcome_add _ _ _).bind fun scope _ _ => ?_
  refine .ask (e.one_ne_emptyRows _ _ _) fun a ha => ?_
  refine .ask a.onlyString_ne_emptyRows fun text htext => ?_
  have hmem : a ∈ e.attributes "DataType" := by
    rw [Element.one_eq_ok.mp ha]
    exact List.mem_singleton_self a
  have hbound := he a hmem text (Attribute.onlyString_eq_ok.mp htext)
  exact (DataType.outcome_read p hbound).bind fun _ _ _ => .ok trivial

/-- The bounds in the types that the scope writes. -/
def Covers (bound : List Char → Prop) (e : Element) : Prop :=
  ∀ text, e.WritesType text → ∀ ds, DataType.HoldsBound text ds → bound ds

/-- Loading the definitions of a scope, elements apart, has a good outcome. -/
theorem outcome_loadLeaves (p : Place) (he : Covers bound e) :
    Outcome bound (fun _ => True) (loadLeaves p e).result := by
  simp only [loadLeaves, Traced.result_bind, Traced.result_foldlM, Traced.result_lift]
  refine (Outcome.foldlM (fun d _ p _ => outcome_loadEnum p d) trivial).bind fun p _ _ => ?_
  refine (Outcome.foldlM (fun d _ p _ => outcome_loadStruct p d) trivial).bind fun p _ _ => ?_
  refine .foldlM (fun d hd p _ => outcome_loadAttribute p ?_) trivial
  exact fun a ha text htext => he text (.defined hd ha htext)

theorem outcome_loadOccurrence (a : Attribute) (index : Int) :
    Outcome bound (fun _ => True) (loadOccurrence a index) := by
  refine .ask (a.label_ne_emptyRows _ index) fun position _ => ?_
  split
  · exact .ok trivial
  · exact .flaw trivial

/-- Loading a child element has a good outcome. -/
theorem outcome_loadElementEntry (p : Place) (owner : String) {c : Content} (hc : c.IsUnordered)
    (a : Attribute) : Outcome bound Content.IsUnordered (loadElementEntry p owner c a) := by
  refine .ask (a.assureValueCount_ne_emptyRows 2) fun _ _ => ?_
  refine .ask (a.string_ne_emptyRows 0) fun name _ => ?_
  refine (outcome_loadOccurrence a 1).bind fun o _ _ => ?_
  exact Content.outcome_addElement p owner name o hc

/-- Loading an attribute has a good outcome if its type has. -/
theorem outcome_loadAttributeEntry (p : Place) (owner : String) {c : Content} (hc : c.IsUnordered)
    {a : Attribute} (ha : ∀ text, a.values[2]? = some (some text) →
      ∀ ds, DataType.HoldsBound text ds → bound ds) :
    Outcome bound Content.IsUnordered (loadAttributeEntry p owner c a) := by
  refine .ask (a.assureValueBounds_ne_emptyRows 2 (some 3)) fun _ _ => ?_
  refine .ask (a.string_ne_emptyRows 0) fun name _ => ?_
  refine (outcome_loadOccurrence a 1).bind fun o _ _ => ?_
  split
  · refine Content.outcome_addEntry _ owner name ?_ hc
    exact (p.outcome_found .attribute name _).bind fun _ _ _ => .ok trivial
  · refine .ask (a.string_ne_emptyRows 2) fun text htext => ?_
    have hbound := ha text (Attribute.string_eq_ok.mp htext)
    refine (DataType.outcome_read p hbound).bind fun t _ _ => ?_
    exact Content.outcome_addEntry _ owner name (.ok trivial) hc

/-- The bounds in the types that the element writes: in its content and in its own scope. -/
structure CoversOwn (bound : List Char → Prop) (e : Element) : Prop where
  content : ∀ c ∈ e.elements "UnorderedContent", ∀ a ∈ c.attributes "Attribute",
    ∀ text, a.values[2]? = some (some text) → ∀ ds, DataType.HoldsBound text ds → bound ds
  scope : ∀ f ∈ e.elements "Definitions", Covers bound f

/-- The bounds in an element are bounds in the schema. -/
theorem Covers.element {d : Element} (he : Covers bound e) (hd : d ∈ e.elements "Element") :
    CoversOwn bound d where
  content := fun _ hc _ ha text htext => he text (.entry hd hc ha htext)
  scope := fun _ hf text h => he text (.inner hd hf h)

/-- Loading the content of an element has a good outcome. -/
theorem outcome_loadContent (p : Place) (owner : String) (he : CoversOwn bound e) :
    Outcome bound Content.IsUnordered (loadContent p owner e) := by
  refine .ask (e.assureChoice_ne_emptyRows _) fun _ _ => ?_
  dsimp only
  split
  · exact .flaw trivial
  · refine .ask (e.one_ne_emptyRows _ _ _) fun content hcontent => ?_
    refine .ask content.assureNoElements_ne_emptyRows fun _ _ => ?_
    refine .ask (content.assureNames_ne_emptyRows _ _ _) fun _ _ => ?_
    have hmem : content ∈ e.elements "UnorderedContent" := by
      rw [Element.one_eq_ok.mp hcontent]
      exact List.mem_singleton_self content
    have helements : Outcome bound Content.IsUnordered
        ((content.attributes "Element").foldlM (loadElementEntry p owner) (.unordered [] [])) :=
      .foldlM (fun a _ c hc => outcome_loadElementEntry p owner hc a) trivial
    refine helements.bind fun c _ hc => ?_
    exact .foldlM (fun a ha c hc =>
      outcome_loadAttributeEntry p owner hc (he.content content hmem a ha)) hc

mutual

/-- Loading all elements of a scope has a good outcome. -/
theorem outcome_loadElements (p : Place) : ∀ ns : List Node,
    (∀ tag nodes, .element tag nodes ∈ ns → Text.sameName tag "Element" →
      CoversOwn bound ⟨tag, nodes⟩) → Outcome bound (fun _ => True) (loadElements p ns).result
  | [], _ => .ok trivial
  | n :: ns, h => by
      simp only [loadElements, Traced.result_bind]
      refine (outcome_loadElement p n fun tag nodes hn =>
        h tag nodes (hn ▸ List.mem_cons_self)).bind fun q _ _ => ?_
      exact outcome_loadElements q ns fun tag nodes hn => h tag nodes (List.mem_cons_of_mem _ hn)
termination_by structural ns => ns

/-- Loading an element with all that is inside it has a good outcome. -/
theorem outcome_loadElement (p : Place) : ∀ n : Node,
    (∀ tag nodes, n = .element tag nodes → Text.sameName tag "Element" →
      CoversOwn bound ⟨tag, nodes⟩) → Outcome bound (fun _ => True) (loadElement p n).result
  | .attribute _, _ => .ok trivial
  | .element tag nodes, h => by
      rw [loadElement]
      split
      · exact .ok trivial
      · rename_i htag
        have he := h tag nodes rfl (by simpa using htag)
        simp only [report, Traced.result_bind, Traced.result_lift, Traced.result_lift_violation,
          Traced.result_report, Traced.result_pure, ok_bind]
        refine .ask (nameOf_ne_emptyRows _) fun name _ => ?_
        refine (p.scope.outcome_add _ _ _).bind fun scope _ _ => ?_
        refine .ask (Element.assureNames_ne_emptyRows _ _ _ _) fun _ _ => ?_
        refine .ask (Element.assureNames_ne_emptyRows _ _ _ _) fun _ _ => ?_
        refine .ask (Element.atMostOne_ne_emptyRows _ _ _ _) fun _ _ => ?_
        refine (outcome_loadInner _ nodes fun t ms hn ht => he.scope ⟨t, ms⟩ ?_).bind
          fun inner _ _ => ?_
        · exact Element.mem_elements.mpr ⟨Element.mem_children.mpr hn, ht⟩
        · exact (outcome_loadContent inner name he).bind fun _ _ _ => .ok trivial
termination_by structural n => n

theorem outcome_loadInner (p : Place) : ∀ ns : List Node,
    (∀ tag nodes, .element tag nodes ∈ ns → Text.sameName tag "Definitions" →
      Covers bound ⟨tag, nodes⟩) → Outcome bound (fun _ => True) (loadInner p ns).result
  | [], _ => .ok trivial
  | n :: ns, h => by
      simp only [loadInner, Traced.result_bind]
      refine (outcome_loadDefinitions p n fun tag nodes hn =>
        h tag nodes (hn ▸ List.mem_cons_self)).bind fun q _ _ => ?_
      exact outcome_loadInner q ns fun tag nodes hn => h tag nodes (List.mem_cons_of_mem _ hn)
termination_by structural ns => ns

/-- Loading a scope has a good outcome. -/
theorem outcome_loadDefinitions (p : Place) : ∀ n : Node,
    (∀ tag nodes, n = .element tag nodes → Text.sameName tag "Definitions" →
      Covers bound ⟨tag, nodes⟩) → Outcome bound (fun _ => True) (loadDefinitions p n).result
  | .attribute _, _ => .ok trivial
  | .element tag nodes, h => by
      rw [loadDefinitions]
      split
      · exact .ok trivial
      · rename_i htag
        have he := h tag nodes rfl (by simpa using htag)
        simp only [Traced.result_bind, Traced.result_lift_violation]
        refine .ask (Element.assureNames_ne_emptyRows _ _ _ _) fun _ _ => ?_
        refine .ask (Element.assureNoAttributes_ne_emptyRows _) fun _ _ => ?_
        refine (outcome_loadLeaves p he).bind fun q _ _ => ?_
        refine outcome_loadElements q nodes fun t ms hn ht => he.element (d := ⟨t, ms⟩) ?_
        exact Element.mem_elements.mpr ⟨Element.mem_children.mpr hn, ht⟩
termination_by structural n => n

end

/-- Setting the root has a good outcome. -/
theorem outcome_loadRoot (e : Element) (s : Schema) :
    Outcome bound (fun _ => True) (loadRoot e s) := by
  refine .ask (e.atMostOne_ne_emptyRows _ _ _) fun found _ => ?_
  cases found with
  | none =>
      change Outcome bound _ s.setDefaultRoot
      unfold Schema.setDefaultRoot
      split
      · exact .flaw trivial
      · exact .ok trivial
      · exact .flaw trivial
  | some a =>
      refine .ask a.onlyString_ne_emptyRows fun name _ => ?_
      split
      · exact (Place.outcome_found _ _ _ _).bind fun _ _ _ => .ok trivial
      · exact .flaw trivial

/-- A loaded schema has one of its outermost elements as its root. -/
theorem outcome_loadSchema (he : Covers bound e) :
    Outcome bound (fun s => ∃ name ∈ s.definitions.names .element, s.root = some name)
      (loadSchema e).result := by
  simp only [loadSchema, report, Traced.result_bind, Traced.result_lift,
    Traced.result_lift_violation, Traced.result_report, Traced.result_pure, ok_bind]
  refine .ask (e.assureName_ne_emptyRows _) fun _ _ => ?_
  refine .ask (e.assureNames_ne_emptyRows _ _ _) fun _ _ => ?_
  refine .ask (e.assureNames_ne_emptyRows _ _ _) fun _ _ => ?_
  refine (outcome_loadLeaves _ he).bind fun p _ _ => ?_
  have helements : Outcome bound (fun _ => True) (loadElements p e.nodes).result := by
    refine outcome_loadElements p e.nodes fun tag nodes hn ht => he.element (d := ⟨tag, nodes⟩) ?_
    exact Element.mem_elements.mpr ⟨Element.mem_children.mpr hn, ht⟩
  refine helements.bind fun q _ _ => ?_
  refine (outcome_loadRoot e _).bind fun s hs _ => ?_
  obtain ⟨name, hname, rfl⟩ := loadRoot_eq_ok hs
  exact .ok ⟨name, hname, rfl⟩

/-- A fault of the schema is wrapped once, and too long a bound is passed on. -/
theorem wrap_outcome {P : Schema → Prop} {t : Traced Error Schema} (h : Outcome bound P t.result) :
    (∃ s, (wrap t).result = .ok s ∧ P s) ∨
    (∃ cause, (wrap t).result = .error (.rejected cause) ∧ cause.OfSchema) ∨
    ∃ ds, bound ds ∧ 4300 < ds.length ∧
      (wrap t).result = .error (.tooManyDigits ⟨ds.length⟩) := by
  obtain ⟨log, result⟩ := t
  dsimp only at h
  cases h with
  | ok h => exact .inl ⟨_, rfl, h⟩
  | @flaw cause h =>
      refine .inr (.inl ⟨cause, ?_, h⟩)
      cases cause with
      | tooManyDigits digits => exact h.elim
      | _ => rfl
  | digits h long => exact .inr (.inr ⟨_, h, long, rfl⟩)

end Loader

namespace Schema

/-- A text gives a schema with a root, is rejected for a fault of the schema, or writes a type with
a bound that is too long. -/
theorem parse_outcome (text : String) :
    (∃ s, (parse text).result = .ok s ∧
      ∃ name ∈ s.definitions.names .element, s.root = some name) ∨
    (∃ cause, (parse text).result = .error (.rejected cause) ∧ cause.OfSchema ∧
      (LoadError.rejected cause).message = "Could not parse schema because " ++ cause.message) ∨
    ∃ d type ds, Document.parse text = .ok d ∧ d.root.WritesType type ∧
      DataType.HoldsBound type ds ∧ 4300 < ds.length ∧
      (parse text).result = .error (.tooManyDigits ⟨ds.length⟩) := by
  let bound : List Char → Prop := fun ds => ∃ d type, Document.parse text = .ok d ∧
    d.root.WritesType type ∧ DataType.HoldsBound type ds
  have hload : Outcome bound
      (fun s : Schema => ∃ name ∈ s.definitions.names .element, s.root = some name)
      ((Document.parse text).mapError Error.unreadable >>= fun d =>
        (Loader.loadSchema d.root).result) := by
    cases hd : Document.parse text with
    | error flaw => exact .flaw trivial
    | ok d =>
        refine Loader.outcome_loadSchema fun type htype ds hds => ?_
        exact ⟨d, type, hd, htype, hds⟩
  rcases Loader.wrap_outcome (t := do
    let d ← (Document.parse text).mapError Error.unreadable
    Loader.loadSchema d.root) (by simpa using hload) with hok | ⟨cause, hresult, hcause⟩ | hdigits
  · exact .inl hok
  · exact .inr (.inl ⟨cause, hresult, hcause, rfl⟩)
  · obtain ⟨ds, ⟨d, type, hd, htype, hds⟩, long, hresult⟩ := hdigits
    exact .inr (.inr ⟨d, type, ds, hd, htype, hds, long, hresult⟩)

end Schema

end SmlSchema
