import Mathlib.Data.List.Nodup
import SmlSchema.Proofs.Document.Origin
import SmlSchema.Proofs.Schema.WellFormed
import SmlSchema.Schema.Printer

/-! # Words of schema documents

No two of the words are the same up to letter case, and none is taken for the end of an element. A
node that is made of them and of texts that are kept can stand in a document.
-/

namespace SmlSchema

/-- The names of elements and attributes of schema documents. -/
def grammarNames : List String :=
  ["Schema", "RootElement", "EnumType", "Struct", "Attribute", "Element", "Name", "Values", "Value",
    "DataType", "Definitions", "UnorderedContent", "ListContent"]

/-- The names of the grammar differ in more than letter case. -/
theorem nodup_lower_grammarNames : (grammarNames.map Text.lower).Nodup := by decide +kernel

/-- Two of the names are the same only if they are equal. -/
theorem sameName_grammarNames {x y : String} (hx : grammarNames.contains x)
    (hy : grammarNames.contains y) : Text.sameName x y = decide (x = y) := by
  have hinj := List.inj_on_of_nodup_map nodup_lower_grammarNames
    (List.contains_iff_mem.mp hx) (List.contains_iff_mem.mp hy)
  unfold Text.sameName
  by_cases h : x = y
  · simp [h]
  · simpa [h] using mt hinj h

/-- The element stands in a schema document: its own name and those of the elements inside it are
words of schema documents, and its texts are kept. -/
structure Node.Written (n : Node) : Prop where
  names : ∀ x ∈ n.elementNames, x ∈ grammarNames
  texts : ∀ s ∈ n.texts, Text.Kept s

theorem kept_grammarNames {x : String} (h : x ∈ grammarNames) : Text.Kept x := by
  have hall : ∀ x ∈ grammarNames, Text.hasForeignEnd x = false := by decide
  exact hall x h

namespace Node.Written

/-- An element with a name of the grammar can be written if its nodes can. -/
theorem element {tag : String} {nodes : List Node} (htag : tag ∈ grammarNames)
    (h : ∀ n ∈ nodes, n.Written) : (Node.element tag nodes).Written := by
  refine ⟨?_, ?_⟩
  · intro x hx
    rw [elementNames, List.mem_cons] at hx
    rcases hx with rfl | hx
    · exact htag
    · obtain ⟨n, hn, hx⟩ := mem_elementNamesOfAll.mp hx
      exact (h n hn).names x hx
  · intro s hs
    rw [Node.texts, List.mem_cons] at hs
    rcases hs with rfl | hs
    · exact kept_grammarNames htag
    · obtain ⟨n, hn, hs⟩ := mem_textsOfAll.mp hs
      exact (h n hn).texts s hs

/-- An attribute with a name of the grammar can be written if its values are kept. -/
theorem ofAttribute {a : Attribute} (hname : a.name ∈ grammarNames)
    (h : ∀ s, some s ∈ a.values → Text.Kept s) : (Node.attribute a).Written := by
  refine ⟨by simp [elementNames], ?_⟩
  intro s hs
  rw [Node.texts, List.mem_cons] at hs
  rcases hs with rfl | hs
  · exact kept_grammarNames hname
  · obtain ⟨c, hc, rfl⟩ := List.mem_filterMap.mp hs
    exact h s hc

theorem line {name first : String} {m : List String} (hname : name ∈ grammarNames)
    (hfirst : Text.Kept first) (hmore : ∀ s ∈ m, Text.Kept s) :
    (textLine name first m).Written := by
  refine ofAttribute hname fun s hs => ?_
  rcases List.mem_cons.mp hs with hs | hs
  · cases hs
    exact hfirst
  · obtain ⟨t, ht, heq⟩ := List.mem_map.mp hs
    cases heq
    exact hmore s ht

end Node.Written

end SmlSchema
