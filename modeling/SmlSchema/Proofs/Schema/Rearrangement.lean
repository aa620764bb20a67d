import SmlSchema.Proofs.Document.Rearrangement
import SmlSchema.Proofs.Schema.Loading
import SmlSchema.Schema.Printer

/-! # Loading documents that were rearranged

The loader goes through the nodes of one kind after the other and compares names without regard to
letter case. Of a document and one that was rearranged from it, it makes the same schema, or none of
both.
-/

namespace SmlSchema

namespace Loader

open Element (Rearranged)

variable {a b : Element} {x y : Attribute}

/-! ## Definitions without elements -/

theorem nameOf_rearranged (h : a.Rearranged b) : Together Eq (nameOf a) (nameOf b) :=
  (h.requiredAttribute "Name").bind fun _ _ hname => hname.onlyString

/-- An enumeration loads alike when its lines are rearranged. -/
theorem loadEnum_rearranged (h : a.Rearranged b) (p : Place) :
    Together Eq (loadEnum p a).result (loadEnum p b).result := by
  simp only [loadEnum, Traced.result_bind, Traced.result_lift_violation]
  refine h.assureNoElements.lift.bind_eq fun _ => ?_
  refine (h.assureAttributeNames _).lift.bind_eq fun _ => ?_
  refine (nameOf_rearranged h).lift.bind_eq fun name => ?_
  refine (h.requiredAttribute "Values").lift.bind fun _ _ hvalues => ?_
  exact hvalues.strings.lift.bind_eq fun labels => .refl _

theorem loadStructValue_recased (h : x.Recased y) (p : Place) (s : Struct) :
    Together Eq (loadStructValue p s x) (loadStructValue p s y) := by
  refine (h.assureValueCount 3).lift.bind_eq fun _ => ?_
  refine (h.string 0).lift.bind_eq fun name => ?_
  refine (h.label _ 1 false).lift.bind_eq fun occurrence => ?_
  exact (h.string 2).lift.bind_eq fun text => .refl _

/-- A struct loads alike when its lines are rearranged. -/
theorem loadStruct_rearranged (h : a.Rearranged b) (p : Place) :
    Together Eq (loadStruct p a).result (loadStruct p b).result := by
  simp only [loadStruct, Traced.result_bind, Traced.result_lift_violation, Traced.result_lift]
  refine h.assureNoElements.lift.bind_eq fun _ => ?_
  refine (h.assureAttributeNames _).lift.bind_eq fun _ => ?_
  refine (nameOf_rearranged h).lift.bind_eq fun name => ?_
  refine (Together.refl _).bind_eq fun scope => ?_
  have hvalues := (h.attributes "Value").imp fun _ _ hxy => loadStructValue_recased hxy p
  exact (Together.foldlM hvalues { name }).bind_eq fun s => .refl _

/-- An attribute loads alike when its lines are rearranged. -/
theorem loadAttribute_rearranged (h : a.Rearranged b) (p : Place) :
    Together Eq (loadAttribute p a) (loadAttribute p b) := by
  refine h.assureNoElements.lift.bind_eq fun _ => ?_
  refine (h.assureAttributeNames _).lift.bind_eq fun _ => ?_
  refine (nameOf_rearranged h).lift.bind_eq fun name => ?_
  refine (Together.refl _).bind_eq fun scope => ?_
  refine (h.requiredAttribute "DataType").lift.bind fun _ _ htype => ?_
  exact htype.onlyString.lift.bind_eq fun text => .refl _

/-- All definitions of a scope but the elements load alike. -/
theorem loadLeaves_rearranged (h : a.Rearranged b) (p : Place) :
    Together Eq (loadLeaves p a).result (loadLeaves p b).result := by
  simp only [loadLeaves, Traced.result_bind, Traced.result_foldlM, Traced.result_lift]
  refine (Together.foldlM ((h.elements "EnumType").imp fun _ _ => loadEnum_rearranged)
    p).bind_eq fun p => ?_
  refine (Together.foldlM ((h.elements "Struct").imp fun _ _ => loadStruct_rearranged)
    p).bind_eq fun p => ?_
  exact Together.foldlM ((h.elements "Attribute").imp fun _ _ => loadAttribute_rearranged) p

/-! ## Content -/

theorem loadOccurrence_recased (h : x.Recased y) (index : Nat) :
    Together Eq (loadOccurrence x index) (loadOccurrence y index) :=
  Together.eq_iff.mpr fun o => by rw [loadOccurrence_eq_ok, loadOccurrence_eq_ok, h.values]

theorem loadElementEntry_recased (h : x.Recased y) (p : Place) (owner : String) (c : Content) :
    Together Eq (loadElementEntry p owner c x) (loadElementEntry p owner c y) := by
  refine (h.assureValueCount 2).lift.bind_eq fun _ => ?_
  refine (h.string 0).lift.bind_eq fun name => ?_
  exact (loadOccurrence_recased h 1).bind_eq fun o => .refl _

/-- An attribute of the content loads alike in other letter case. -/
theorem loadAttributeEntry_recased (h : x.Recased y) (p : Place) (owner : String) (c : Content) :
    Together Eq (loadAttributeEntry p owner c x) (loadAttributeEntry p owner c y) := by
  refine (h.assureValueBounds 2 (some 3)).lift.bind_eq fun _ => ?_
  refine (h.string 0).lift.bind_eq fun name => ?_
  refine (loadOccurrence_recased h 1).bind_eq fun o => ?_
  rw [Attribute.valueCount, h.values, ← Attribute.valueCount]
  split
  · exact .refl _
  · exact (h.string 2).lift.bind_eq fun text => .refl _

/-- The content of an element loads alike. -/
theorem loadContent_rearranged (h : a.Rearranged b) (p : Place) (owner : String) :
    Together Eq (loadContent p owner a) (loadContent p owner b) := by
  refine (h.assureChoice _ _).lift.bind_eq fun _ => ?_
  rw [h.hasElement]
  split
  · exact .refl _
  · refine (h.requiredElement "UnorderedContent").lift.bind fun content content' hcontent => ?_
    refine hcontent.assureNoElements.lift.bind_eq fun _ => ?_
    refine (hcontent.assureAttributeNames _).lift.bind_eq fun _ => ?_
    have helements := (hcontent.attributes "Element").imp fun _ _ hxy =>
      loadElementEntry_recased hxy p owner
    have hattributes := (hcontent.attributes "Attribute").imp fun _ _ hxy =>
      loadAttributeEntry_recased hxy p owner
    exact (Together.foldlM helements _).bind_eq (Together.foldlM hattributes)

/-! ## Elements -/

/-- Two elements are loaded alike, as an element and as the definitions of one. -/
def LoadsAlike (a b : Element) : Prop :=
  (∀ p, Together Eq (loadElement p a.toNode).result (loadElement p b.toNode).result) ∧
    ∀ p, Together Eq (loadDefinitions p a.toNode).result (loadDefinitions p b.toNode).result

/-- Elements load alike if each of them does. -/
theorem loadElements_rearranged
    (h : List.Forall₂ LoadsAlike (a.elements "Element") (b.elements "Element")) (p : Place) :
    Together Eq (loadElements p a.nodes).result (loadElements p b.nodes).result := by
  rw [result_loadElements p a.name, result_loadElements p b.name]
  exact .foldlM (h.imp fun _ _ halike => halike.1) p

theorem loadInner_rearranged
    (h : List.Forall₂ LoadsAlike (a.elements "Definitions") (b.elements "Definitions"))
    (p : Place) : Together Eq (loadInner p a.nodes).result (loadInner p b.nodes).result := by
  rw [result_loadInner p a.name, result_loadInner p b.name]
  exact .foldlM (h.imp fun _ _ halike => halike.2) p

/-- An element loads alike if its inner definitions do. -/
theorem loadElement_rearranged (h : a.Rearranged b)
    (hinner : List.Forall₂ LoadsAlike (a.elements "Definitions") (b.elements "Definitions"))
    (p : Place) : Together Eq (loadElement p a.toNode).result (loadElement p b.toNode).result := by
  simp only [Element.toNode, loadElement, h.sameName]
  split
  · exact .refl _
  · simp only [report, Traced.result_bind, Traced.result_lift, Traced.result_lift_violation,
      Traced.result_report, Traced.result_pure, ok_bind]
    refine (nameOf_rearranged h).lift.bind_eq fun name => ?_
    refine (Together.refl _).bind_eq fun scope => ?_
    refine (h.assureElementNames _).lift.bind_eq fun _ => ?_
    refine (h.assureAttributeNames _).lift.bind_eq fun _ => ?_
    refine (h.optionalElement _).lift.bind fun _ _ _ => ?_
    refine (loadInner_rearranged hinner _).bind_eq fun inner => ?_
    exact (loadContent_rearranged h inner name).bind_eq fun content => .refl _

/-- A scope loads alike if its elements do. -/
theorem loadDefinitions_rearranged (h : a.Rearranged b)
    (helements : List.Forall₂ LoadsAlike (a.elements "Element") (b.elements "Element"))
    (p : Place) :
    Together Eq (loadDefinitions p a.toNode).result (loadDefinitions p b.toNode).result := by
  simp only [Element.toNode, loadDefinitions, h.sameName]
  split
  · exact .refl _
  · simp only [Traced.result_bind, Traced.result_lift_violation]
    refine (h.assureElementNames _).lift.bind_eq fun _ => ?_
    refine h.assureNoAttributes.lift.bind_eq fun _ => ?_
    exact (loadLeaves_rearranged h p).bind_eq fun p => loadElements_rearranged helements p

/-- Rearranged elements and scopes load alike, at every depth. -/
theorem loadsAlike_of_rearranged (h : a.Rearranged b) : LoadsAlike a b := by
  refine Rearranged.ind (fun a b h ih => ?_) h
  exact ⟨loadElement_rearranged h (ih "Definitions"), loadDefinitions_rearranged h (ih "Element")⟩

/-- The root is the same. -/
theorem loadRoot_rearranged (h : a.Rearranged b) (s : Schema) :
    Together Eq (loadRoot a s) (loadRoot b s) := by
  refine (h.optionalAttribute "RootElement").lift.bind fun r r' hroot => ?_
  cases hroot with
  | none => exact .refl _
  | some hroot => exact hroot.onlyString.lift.bind_eq fun name => .refl _

/-- A whole schema loads alike. -/
theorem loadSchema_rearranged (h : a.Rearranged b) :
    Together Eq (loadSchema a).result (loadSchema b).result := by
  simp only [loadSchema, Traced.result_bind, Traced.result_lift, Traced.result_lift_violation]
  refine (h.assureName _).lift.bind_eq fun _ => ?_
  refine (h.assureElementNames _).lift.bind_eq fun _ => ?_
  refine (h.assureAttributeNames _).lift.bind_eq fun _ => ?_
  refine (loadLeaves_rearranged h _).bind_eq fun p => ?_
  have helements := (h.elements "Element").imp fun _ _ => loadsAlike_of_rearranged
  refine (loadElements_rearranged helements p).bind_eq fun p => ?_
  exact (loadRoot_rearranged h _).bind_eq fun s => .refl _

end Loader

namespace Schema

open Element (Rearranged)

/-- Two documents of which one was rearranged from the other load as the same schema, with the same
canonical text, or both cannot be loaded. -/
theorem ofDocument_rearranged {a b : Element} (h : a.Rearranged b) (k l : Line.Cell) :
    Together Eq (ofDocument ⟨a, k⟩).result (ofDocument ⟨b, l⟩).result ∧
      (ofDocument ⟨a, k⟩).result.toOption.map render =
        (ofDocument ⟨b, l⟩).result.toOption.map render := by
  have htogether : Together Eq (ofDocument ⟨a, k⟩).result (ofDocument ⟨b, l⟩).result := by
    rw [Together.eq_iff]
    intro s
    rw [ofDocument, ofDocument, Loader.wrap_eq_ok, Loader.wrap_eq_ok]
    exact Together.eq_iff.mp (Loader.loadSchema_rearranged h) s
  exact ⟨htogether, congrArg (Option.map render) htogether.toOption⟩

/-! Two documents with the same definition of an attribute and of an element. In the first, the
nodes come in the order of the description above; in the second, from the end to the start and in
other letter case. -/

def sortedDefinition : Element where
  name := "Attribute"
  nodes := [
    .attribute ⟨"Name", [some "a"], nofun⟩,
    .attribute ⟨"DataType", [some "Int"], nofun⟩]

def shuffledDefinition : Element where
  name := "ATTRIBUTE"
  nodes := [
    .attribute ⟨"datatype", [some "Int"], nofun⟩,
    .attribute ⟨"name", [some "a"], nofun⟩]

def sortedContent : Element where
  name := "UnorderedContent"
  nodes := [
    .attribute ⟨"Attribute", [some "a", some "Optional"], nofun⟩,
    .attribute ⟨"Element", [some "A", some "Repeated*"], nofun⟩]

def shuffledContent : Element where
  name := "unorderedContent"
  nodes := [
    .attribute ⟨"ELEMENT", [some "A", some "Repeated*"], nofun⟩,
    .attribute ⟨"attribute", [some "a", some "Optional"], nofun⟩]

def sortedElement : Element :=
  ⟨"Element", [.attribute ⟨"Name", [some "A"], nofun⟩, sortedContent.toNode]⟩

def shuffledElement : Element :=
  ⟨"element", [shuffledContent.toNode, .attribute ⟨"NAME", [some "A"], nofun⟩]⟩

def sortedRoot : Element where
  name := "Schema"
  nodes := [
    sortedDefinition.toNode,
    sortedElement.toNode,
    .attribute ⟨"RootElement", [some "A"], nofun⟩]

def shuffledRoot : Element where
  name := "SCHEMA"
  nodes := [
    .attribute ⟨"rootElement", [some "A"], nofun⟩,
    shuffledElement.toNode,
    shuffledDefinition.toNode]

def shuffledSchema : Schema where
  definitions := {
    attributes := [⟨"a", some ⟨.value (.predefined .int), false, none⟩⟩]
    elements := [{
      name := "A"
      content := some (.unordered [.defined [] "a" .optional] [⟨[], "A", .repeatedStar⟩]) }] }
  root := some "A"

theorem rearranged_shuffledRoot : sortedRoot.Rearranged shuffledRoot := by
  have hdefinition : sortedDefinition.Rearranged shuffledDefinition := by
    refine .addAttribute [_] (.addAttribute [] (.nil ?_) ⟨?_, rfl⟩ rfl) ⟨?_, rfl⟩ ?_ <;>
      decide +kernel
  have hcontent : sortedContent.Rearranged shuffledContent := by
    refine .addAttribute [_] (.addAttribute [] (.nil ?_) ⟨?_, rfl⟩ rfl) ⟨?_, rfl⟩ ?_ <;>
      decide +kernel
  have helement : sortedElement.Rearranged shuffledElement := by
    refine .addAttribute [_] (.addElement [] (.nil ?_) hcontent rfl) ⟨?_, rfl⟩ ?_ <;>
      decide +kernel
  refine .addElement [_, _] (.addElement [_] (.addAttribute [] (.nil ?_) ⟨?_, rfl⟩ rfl)
    helement ?_) hdefinition ?_ <;> decide +kernel

/-- The two documents give the same schema. -/
theorem ofDocument_rearranged_shuffled :
    sortedRoot.Rearranged shuffledRoot ∧
      (ofDocument ⟨sortedRoot, some "End"⟩).result = .ok shuffledSchema ∧
      (ofDocument ⟨shuffledRoot, none⟩).result = .ok shuffledSchema := by
  have hsorted : (ofDocument ⟨sortedRoot, some "End"⟩).result = .ok shuffledSchema :=
    eq_ok_of_toOption (by decide +kernel)
  have htogether := (ofDocument_rearranged rearranged_shuffledRoot (some "End") none).1
  exact ⟨rearranged_shuffledRoot, hsorted, (Together.eq_iff.mp htogether _).mp hsorted⟩

end Schema

end SmlSchema
