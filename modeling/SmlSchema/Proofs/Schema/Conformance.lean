import SmlSchema.Proofs.Document.Rows
import SmlSchema.Proofs.Schema.References

/-! # Documents that conform to a schema

An element of a document conforms to a definition if its nodes are those that the content of the
definition allows, as often as it allows them, and if each of them conforms in turn: a child element
to the definition that its entry names, an attribute to the type of its entry.
-/

namespace SmlSchema

open Line (Cell)

def Occurrence.Contains (o : Occurrence) (n : Nat) : Prop := o.min ≤ n ∧ ∀ m, o.max = some m → n ≤ m

/-! ## Values of attributes -/

/-- The text is a value of the predefined type or one of the labels. -/
def ValueBase.Accepts (s : Schema) (text : String) : ValueBase → Prop
  | .predefined p => ∃ v, p.read text = .ok v
  | .valueType scope name =>
    ∃ labels, s.valueTypeAt? scope name = some (.enum name labels) ∧ text ∈ labels

/-- The cell is a value of the type, or null where that is allowed. -/
def ValueBase.Reads (s : Schema) (b : ValueBase) (nullable : Bool) : Cell → Prop
  | none => nullable = true
  | some text => b.Accepts s text

/-- The cell is of the type of the value; only that of an optional one may be missing. -/
def StructValue.Reads (s : Schema) (v : StructValue) : Option Cell → Prop
  | some c => v.base.Reads s v.nullable c
  | none => v.optional = true

/-- Each value of the struct has the cell at its position. -/
def Struct.Reads (s : Schema) (d : Struct) (cells : List Cell) : Prop :=
  ∀ x ∈ d.values.zipIdx, x.1.Reads s cells[x.2]?

/-- The least and the greatest number of cells that an item takes up. -/
def Base.arity? (s : Schema) : Base → Option (Nat × Nat)
  | .value _ => some (1, 1)
  | .struct scope name => (s.structAt? scope name).map fun d => (d.requiredCount, d.values.length)

/-- The cells are an item of the type. A struct is null if its first cell is. -/
def Base.Reads (s : Schema) (nullable : Bool) (cells : List Cell) : Base → Prop
  | .value b => ∃ c, cells = [c] ∧ b.Reads s nullable c
  | .struct scope name =>
    (nullable = true ∧ cells.head? = some none) ∨
      ∃ d, s.structAt? scope name = some d ∧ d.Reads s cells

/-- The cells are a row of items that take up `arity` cells each. -/
def Base.ReadsAll (s : Schema) (b : Base) (nullable : Bool) (arity : Nat) (range : Occurrence)
    (cells : List Cell) : Prop :=
  ∃ items : List (List Cell), items.flatten = cells ∧ range.Contains items.length ∧
    ∀ item ∈ items, item.length = arity ∧ b.Reads s nullable item

/-- A row is cut into parts of the same length at the multiples of that length. -/
theorem exists_flatten_iff {P : List α → Prop} {arity : Nat} (count : Nat) (cells : List α) :
    (∃ items : List (List α), items.flatten = cells ∧ items.length = count ∧
        ∀ item ∈ items, item.length = arity ∧ P item) ↔
      cells.length = count * arity ∧ ∀ i < count, P ((cells.drop (i * arity)).take arity) := by
  constructor
  · rintro ⟨items, rfl, rfl, hitems⟩
    have hlengths : ∀ item ∈ items, item.length = arity := fun item hitem => (hitems item hitem).1
    refine ⟨?_, fun i hi => ?_⟩
    · rw [List.length_flatten, List.map_congr_left hlengths, List.map_const',
        List.sum_replicate_nat]
    · rw [part_flatten hlengths (List.getElem?_eq_getElem hi)]
      exact (hitems _ (List.getElem_mem hi)).2
  · rintro ⟨hlength, hparts⟩
    refine ⟨(List.range count).map fun i => (cells.drop (i * arity)).take arity,
      flatten_parts hlength, by simp, fun item hitem => ?_⟩
    obtain ⟨i, hi, rfl⟩ := List.mem_map.mp hitem
    have hi : i < count := List.mem_range.mp hi
    exact ⟨length_part hlength hi, hparts i hi⟩

/-- An array reads rows of one length, as many as its range allows. -/
theorem Base.readsAll_iff {s : Schema} {b : Base} {nullable : Bool} {arity : Nat}
    {range : Occurrence} {cells : List Cell} :
    b.ReadsAll s nullable arity range cells ↔ ∃ count, range.Contains count ∧
      cells.length = count * arity ∧
      ∀ i < count, b.Reads s nullable ((cells.drop (i * arity)).take arity) := by
  constructor
  · rintro ⟨items, hflat, hrange, hitems⟩
    exact ⟨items.length, hrange, (exists_flatten_iff _ _).mp ⟨items, hflat, rfl, hitems⟩⟩
  · rintro ⟨count, hrange, hparts⟩
    obtain ⟨items, hflat, rfl, hitems⟩ :=
      (exists_flatten_iff (P := fun item => b.Reads s nullable item) _ _).mpr hparts
    exact ⟨items, hflat, hrange, hitems⟩

theorem Base.readsAll_iff_of_length {s : Schema} {b : Base} {nullable : Bool} {arity : Nat}
    {range : Occurrence} {cells : List Cell} {count : Nat} (harity : 0 < arity)
    (hrange : range.Contains count) (hlength : cells.length = count * arity) :
    b.ReadsAll s nullable arity range cells ↔
      ∀ i < count, b.Reads s nullable ((cells.drop (i * arity)).take arity) := by
  rw [readsAll_iff]
  constructor
  · rintro ⟨other, -, hother, hparts⟩
    obtain rfl := Nat.eq_of_mul_eq_mul_right harity (hother.symm.trans hlength)
    exact hparts
  · exact fun hparts => ⟨count, hrange, hlength, hparts⟩

/-- The cells are a value of the type. A single null may stand for an item or for an array. -/
def DataType.Reads (s : Schema) (t : DataType) (cells : List Cell) : Prop :=
  match t.array with
  | none =>
    (t.nullable = true ∧ cells = [none]) ∨
      ∃ least greatest, t.base.arity? s = some (least, greatest) ∧ least ≤ cells.length ∧
        cells.length ≤ greatest ∧ t.base.Reads s t.nullable cells
  | some a =>
    (a.nullable = true ∧ cells = [none]) ∨
      ∃ least greatest, t.base.arity? s = some (least, greatest) ∧
        t.base.ReadsAll s t.nullable greatest a.range cells

section

variable {s : Schema} {base : Base} {nullable : Bool} {cells : List Cell} {least greatest : Nat}

/-- A single value is missing, or the cells are as many as its base reads. -/
theorem DataType.reads_single_iff (hbase : base.arity? s = some (least, greatest)) :
    DataType.Reads s ⟨base, nullable, none⟩ cells ↔
      (nullable = true ∧ cells = [none]) ∨
        least ≤ cells.length ∧ cells.length ≤ greatest ∧
          base.Reads s nullable (cells.take greatest) := by
  refine or_congr_right ?_
  constructor
  · rintro ⟨l, g, heq, hleast, hgreatest, hreads⟩
    cases hbase.symm.trans heq
    rw [List.take_of_length_le hgreatest]
    exact ⟨hleast, hgreatest, hreads⟩
  · rintro ⟨hleast, hgreatest, hreads⟩
    rw [List.take_of_length_le hgreatest] at hreads
    exact ⟨least, greatest, hbase, hleast, hgreatest, hreads⟩

/-- An array is missing, or its cells are rows that its base reads. -/
theorem DataType.reads_array_iff {array : ArrayShape}
    (hbase : base.arity? s = some (least, greatest)) :
    DataType.Reads s ⟨base, nullable, some array⟩ cells ↔
      (array.nullable = true ∧ cells = [none]) ∨
        base.ReadsAll s nullable greatest array.range cells := by
  refine or_congr_right ?_
  constructor
  · rintro ⟨l, g, heq, hreads⟩
    cases hbase.symm.trans heq
    exact hreads
  · exact fun hreads => ⟨least, greatest, hbase, hreads⟩

end

/-! ## Elements -/

/-- The element conforms to the definition that the scope has under the name. -/
inductive Conforms (s : Schema) : Path → String → Element → Prop where
  | mk {scope : Path} {name : String} {d : ElementDef} {e : Element}
      (definition : s.elementAt? scope name = some d)
      (same_name : Text.sameName e.name d.name)
      (known_elements : ∀ c ∈ e.children, ∃ x ∈ d.elementEntries, Text.sameName c.name x.name)
      (known_attributes : ∀ a ∈ e.ownAttributes,
        ∃ x ∈ d.attributeEntries, Text.sameName a.name x.name)
      (element_counts : ∀ x ∈ d.elementEntries, x.occurrence.Contains (e.elements x.name).length)
      (attribute_counts : ∀ x ∈ d.attributeEntries,
        x.occurrence.Contains (e.attributes x.name).length)
      (elements : ∀ x ∈ d.elementEntries, ∀ c ∈ e.elements x.name, Conforms s x.scope x.name c)
      (attributes : ∀ x ∈ d.attributeEntries, ∀ a ∈ e.attributes x.name,
        ∃ t, x.type? s = some t ∧ t.Reads s a.values) :
      Conforms s scope name e

/-- The conditions of each entry together. -/
theorem conforms_iff {s : Schema} {scope : Path} {name : String} {d : ElementDef} {e : Element}
    (hd : s.elementAt? scope name = some d) :
    Conforms s scope name e ↔ Text.sameName e.name d.name ∧
      (∀ c ∈ e.children, ∃ x ∈ d.elementEntries, Text.sameName c.name x.name) ∧
      (∀ a ∈ e.ownAttributes, ∃ x ∈ d.attributeEntries, Text.sameName a.name x.name) ∧
      (∀ x ∈ d.attributeEntries, x.occurrence.Contains (e.attributes x.name).length ∧
        ∀ a ∈ e.attributes x.name, ∃ t, x.type? s = some t ∧ t.Reads s a.values) ∧
      ∀ x ∈ d.elementEntries, x.occurrence.Contains (e.elements x.name).length ∧
        ∀ c ∈ e.elements x.name, Conforms s x.scope x.name c := by
  constructor
  · rintro ⟨definition, same_name, known_elements, known_attributes, element_counts,
      attribute_counts, elements, attributes⟩
    cases hd.symm.trans definition
    exact ⟨same_name, known_elements, known_attributes,
      fun x hx => ⟨attribute_counts x hx, attributes x hx⟩,
      fun x hx => ⟨element_counts x hx, elements x hx⟩⟩
  · rintro ⟨same_name, known_elements, known_attributes, attributes, elements⟩
    exact .mk hd same_name known_elements known_attributes (fun x hx => (elements x hx).1)
      (fun x hx => (attributes x hx).1) (fun x hx => (elements x hx).2)
      fun x hx => (attributes x hx).2

end SmlSchema
