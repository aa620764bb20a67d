import SmlSchema.Proofs.Code.Declarations
import SmlSchema.Proofs.Schema.Consistency

/-! # Reads within an attribute

The reader of a struct reads the values at fixed distances from an index, those of optional values
only after a look at the number of values. The call that hands it the index has checked this number
before. Together these checks keep every read within the attribute.
-/

namespace SmlSchema

/-! ## The indexes that a reader is given -/

namespace Attribute

/-- A reader that only notes the index at which it starts. -/
def noteStart : ItemReader Unit (StateT (List Int) (Except Violation)) := fun _ index _ starts =>
  .ok (none, starts ++ [index])

variable {a : Attribute} {starts : List Int}

/-- Noting starts keeps them in the order in which they come. -/
theorem run_mapM_noteStart (nullable : Bool) (f : Nat → Int) (xs : List Nat) (starts : List Int) :
    (xs.mapM fun i => noteStart a (f i) nullable).run starts =
      .ok (xs.map fun _ => none, starts ++ xs.map f) := by
  induction xs generalizing starts with
  | nil => simp [pure_eq_ok]
  | cons x xs ih =>
      have hfirst : (noteStart a (f x) nullable).run starts = .ok (none, starts ++ [f x]) := rfl
      simp only [List.mapM_cons, StateT.run_bind, hfirst, ok_bind, ih, StateT.run_pure, pure_eq_ok,
        List.map_cons, List.append_assoc, List.singleton_append]

/-- One item starts at the front, once the number of values is within the bounds. -/
theorem starts_singleM {nullable : Bool} {min : Int} {max : Option Int} {r : Option Unit}
    (h : (a.singleM noteStart nullable min max).run [] = .ok (r, starts)) {i : Int}
    (hi : i ∈ starts) : i = 0 ∧ withinBounds a.valueCount min max := by
  unfold singleM at h
  split at h
  · cases h
    cases hi
  · simp only [StateT.run_bind, StateT.run_monadLift, monadLift_self, bind_eq_ok] at h
    obtain ⟨_, ⟨_, hbounds, hpair⟩, hread⟩ := h
    cases hpair
    cases hread
    exact ⟨List.mem_singleton.mp hi, assureValueBounds_eq_ok.mp hbounds⟩

/-- The items of an array lie side by side and take up all values. -/
theorem starts_arrayM {min : Nat} {max : Option Nat} {nullable arrayNullable : Bool} {arity : Nat}
    (harity : 0 < arity) {r : Option (List (Option Unit))}
    (h : (a.arrayM noteStart min (max.map Int.ofNat) nullable arrayNullable arity).run [] =
      .ok (r, starts)) {i : Int} (hi : i ∈ starts) :
    ∃ k count : Nat, k < count ∧ i = k * arity ∧ a.values.length = count * arity := by
  unfold arrayM at h
  split at h
  · cases h
    cases hi
  · simp only [StateT.run_bind, StateT.run_monadLift, monadLift_self, StateT.run_map,
      run_mapM_noteStart, bind_eq_ok] at h
    obtain ⟨_, ⟨count, hcount, hpair⟩, hread⟩ := h
    cases hpair
    cases hread
    obtain ⟨k, hk, rfl⟩ := List.mem_map.mp hi
    exact ⟨k, count, List.mem_range.mp hk, rfl, ((itemCount_eq_ok harity).mp hcount).1⟩

end Attribute

namespace Code

/-- Where the call reads an attribute as one item or as a row of items, it gives this index to what
reads the items. -/
inductive Passes (a : Attribute) (load : Expr) (i : Int) : Prop where
  | single {read : Expr} {nullable : Bool} {least greatest : Nat} {r : Option Unit}
      {starts : List Int}
      (call : load =
        invoke attributeVar "as_single" [read, flag nullable, count least, count greatest])
      (run : (a.singleM Attribute.noteStart nullable least (some greatest)).run [] =
        .ok (r, starts))
      (mem : i ∈ starts)
  | array {read : Expr} {min : Nat} {max : Option Nat} {nullable arrayNullable : Bool}
      {arity : Nat} {r : Option (List (Option Unit))} {starts : List Int}
      (call : load = invoke attributeVar "as_array"
        [read, count min, .literal ((max.map fun n => .int n).getD .none), flag nullable,
          flag arrayNullable, count arity])
      (run : (a.arrayM Attribute.noteStart min (max.map Int.ofNat) nullable arrayNullable
        arity).run [] = .ok (r, starts))
      (mem : i ∈ starts)

/-! ## The positions that a body reads -/

/-- A read at a distance from the index, after checks that there are more values than lie before
other distances. -/
structure Access where
  offset : Nat
  guards : List Nat
deriving DecidableEq, Repr

/-- The distance from the index that the expression stands for. -/
def Expr.offset? : Expr → Option Nat
  | .var x => if x = "index" then some 0 else none
  | .add (.var x) (.literal (.int (.ofNat n))) => if x = "index" then some n else none
  | _ => none

mutual

/-- The distances from the index that occur in an expression. -/
@[simp] def Expr.offsets : Expr → List Nat
  | .var x => (Expr.var x).offset?.toList
  | .add a b =>
    match (Expr.add a b).offset? with
    | some n => [n]
    | none => a.offsets ++ b.offsets
  | .attr e _ => e.offsets
  | .call f args => f.offsets ++ Expr.offsetsOfAll args
  | .memberAt e i => e.offsets ++ i.offsets
  | .isPresent e => e.offsets
  | .isAbsent e => e.offsets
  | .greater a b => a.offsets ++ b.offsets
  | .both a b => a.offsets ++ b.offsets
  | .selfType | .typeRef _ | .runtime _ | .literal _ | .foreign _ => []
termination_by structural e => e

def Expr.offsetsOfAll : List Expr → List Nat
  | [] => []
  | e :: es => e.offsets ++ Expr.offsetsOfAll es
termination_by structural es => es

end

@[simp] def Step.offsets : Step → List Nat
  | .assign target e => target.offsets ++ e.offsets
  | .append target e => target.offsets ++ e.offsets
  | .giveBack e => e.offsets
  | .evaluate e => e.offsets
  | .foreign _ => []

@[simp] def Header.offsets : Header → List Nat
  | .ifTrue e => e.offsets
  | .forEach _ e => e.offsets
  | .foreign _ => []

/-- The header lets the block run only if there are more values than lie before this distance. -/
def Header.guard? : Header → Option Nat
  | .ifTrue (.greater (.attr (.var x) name) e) =>
    if x = "attribute" ∧ name = "value_count" then e.offset? else none
  | _ => none

mutual

/-- The reads of a statement that stands under the guards. -/
@[simp] def Statement.accesses (guards : List Nat) : Statement → List Access
  | .step s => s.offsets.map (⟨·, guards⟩)
  | .block h ss =>
    match h.guard? with
    | some g => Statement.accessesOfAll (g :: guards) ss
    | none => h.offsets.map (⟨·, guards⟩) ++ Statement.accessesOfAll guards ss
termination_by structural s => s

def Statement.accessesOfAll (guards : List Nat) : List Statement → List Access
  | [] => []
  | s :: ss => s.accesses guards ++ Statement.accessesOfAll guards ss
termination_by structural ss => ss

end

/-- From the index on, all reads whose checks hold are reads of one of the `n` values. -/
def InBounds (n : Nat) (i : Int) (xs : List Access) : Prop :=
  ∀ x ∈ xs, (∀ g ∈ x.guards, i + g < n) → i + x.offset < n

/-- The offsets of several expressions are those of each in turn. -/
@[simp] theorem Expr.offsetsOfAll_eq (es : List Expr) :
    offsetsOfAll es = es.flatMap (·.offsets) := by
  induction es with
  | nil => rfl
  | cons e es ih => rw [offsetsOfAll, ih, List.flatMap_cons]

/-- The accesses of several statements are those of each in turn. -/
@[simp] theorem Statement.accessesOfAll_eq (guards : List Nat) (ss : List Statement) :
    accessesOfAll guards ss = ss.flatMap (·.accesses guards) := by
  induction ss with
  | nil => rfl
  | cons s ss ih => rw [accessesOfAll, ih, List.flatMap_cons]

@[simp] theorem offsets_indexPlus (n : Nat) : (indexPlus n).offsets = [n] := rfl

@[simp] theorem offsets_invoke (target : Expr) (operation : String) (arguments : List Expr) :
    (invoke target operation arguments).offsets =
      target.offsets ++ arguments.flatMap (·.offsets) := by
  rw [invoke, Expr.offsets, Expr.offsets, Expr.offsetsOfAll_eq]

@[simp] theorem offsets_text (s : String) : (text s).offsets = [] := rfl

@[simp] theorem offsets_flag (b : Bool) : (flag b).offsets = [] := rfl

@[simp] theorem offsets_attributeVar : attributeVar.offsets = [] := rfl

@[simp] theorem offsets_resultVar : resultVar.offsets = [] := rfl

/-- An optional value of a struct is read behind a guard for its own position, a required one
without. -/
theorem accesses_structExtraction (v : StructValue) (position : Nat) (name : String) (load : Expr) :
    Statement.accessesOfAll [] (structExtraction v position name load) =
      load.offsets.map (⟨·, if v.optional then [position] else []⟩) := by
  have hguard : (Header.ifTrue (.greater (.attr attributeVar "value_count")
      (indexPlus position))).guard? = some position := rfl
  unfold structExtraction
  dsimp only
  split
  · simp [hguard]
  · simp

/-- The value at a position of a struct is read at that offset. -/
theorem offsets_loadStructValue {names : TypeNames} {position : Nat} {v : StructValue} {load : Expr}
    (h : loadStructValue names position v = .ok load) : load.offsets = [position] := by
  unfold loadStructValue at h
  split at h
  · cases h
    simp
  · obtain ⟨typeName, -, h⟩ := bind_eq_ok.mp h
    cases h
    simp

/-- The reads of a struct: a look at the first value, then one read for each value, under a check of
its own if the value is optional. -/
def structAccesses (d : Struct) : List Access :=
  ⟨0, []⟩ :: d.values.zipIdx.map fun v => ⟨v.2, if v.1.optional then [v.2] else []⟩

/-- The fields of a struct read one position each, in order. -/
theorem accesses_structFields {vs : List (StructValue × Nat)} {cs : List FieldCode}
    (h : List.Forall₂ (fun v c => ∃ known before after, structField known before v = .ok (after, c))
      vs cs) :
    (cs.flatMap fun c => Statement.accessesOfAll [] c.statements) =
      vs.map fun v => ⟨v.2, if v.1.optional then [v.2] else []⟩ := by
  induction h with
  | nil => rfl
  | cons hc _ ih =>
      obtain ⟨known, before, after, hc⟩ := hc
      obtain ⟨name, type, default, load, -, -, hload, -, hstatements⟩ := structField_eq_ok hc
      rw [List.flatMap_cons, ih, hstatements, accesses_structExtraction,
        offsets_loadStructValue hload]
      rfl

/-- The code of a struct reads exactly the positions of its values. -/
theorem accesses_structBody {d : Struct} {cs : List FieldCode}
    (h : List.Forall₂ (fun v c => ∃ known before after, structField known before v = .ok (after, c))
      d.values.zipIdx cs) : Statement.accessesOfAll [] (structBody cs) = structAccesses d := by
  have hguard : (Header.ifTrue (.both (.var "nullable")
      (invoke attributeVar "is_null" [.var "index"]))).guard? = none := rfl
  have hnullable : (Expr.var "nullable").offset? = none := rfl
  have hindex : (Expr.var "index").offset? = some 0 := rfl
  rw [structAccesses, ← accesses_structFields h]
  simp [structBody, List.flatMap_assoc, hguard, hnullable, hindex]

/-! ## Bounds -/

section

variable {d : Struct} {n : Nat} {i : Int}

/-- With the required values there, one item is read within the attribute: the required values are
the first ones, and the others are looked for before they are read. -/
theorem inBounds_required (hd : d.Consistent) (hn : 0 < n) (hrequired : d.requiredCount ≤ n) :
    InBounds n 0 (structAccesses d) := by
  intro x hx hguards
  rcases List.mem_cons.mp hx with rfl | hx
  · simpa using hn
  · obtain ⟨⟨v, position⟩, hv, rfl⟩ := List.mem_map.mp hx
    cases hopt : v.optional with
    | true =>
        refine hguards position ?_
        simp [hopt]
    | false =>
        have hposition := (hd.required_iff (List.mem_zipIdx_iff_getElem?.mp hv)).mp hopt
        dsimp only at hposition ⊢
        omega

/-- With all values there, an item is read within the attribute. -/
theorem inBounds_all (hpos : 0 < d.values.length) (hlength : i + d.values.length ≤ n) :
    InBounds n i (structAccesses d) := by
  intro x hx _
  rcases List.mem_cons.mp hx with rfl | hx
  · dsimp only
    omega
  · obtain ⟨⟨v, position⟩, hv, rfl⟩ := List.mem_map.mp hx
    have hposition := List.snd_lt_of_mem_zipIdx hv
    dsimp only at hposition ⊢
    omega

end

/-- The call that loads an attribute of the type with what reads an item of so many values. -/
inductive ItemLoad (read : Expr) (least greatest : Nat) (t : DataType) : Expr → Prop where
  | single (array : t.array = none) : ItemLoad read least greatest t
      (invoke attributeVar "as_single" [read, flag t.nullable, count least, count greatest])
  | array {a : ArrayShape} (array : t.array = some a) (arity : greatest ≠ 0) :
      ItemLoad read least greatest t
        (invoke attributeVar "as_array"
          [read, count a.range.min, .literal ((a.range.max.map fun n => .int n).getD .none),
            flag t.nullable, flag a.nullable, count greatest])

/-- The load of an attribute's type passes on the reader of its items with their arity. -/
theorem ItemLoad.of_loadValue {known : TypeNames} {t : DataType} {load : Expr}
    (h : loadValue known t = .ok load) :
    ∃ least greatest read, arity known t.base = .ok (least, greatest) ∧
      itemReader known t.base = .ok read ∧
      (greatest ≠ 0 → ItemLoad read least greatest t load) := by
  obtain ⟨base, nullable, array⟩ := t
  simp only [loadValue, bind_eq_ok] at h
  obtain ⟨⟨least, greatest⟩, harity, read, hread, h⟩ := h
  refine ⟨least, greatest, read, harity, hread, fun hgreatest => ?_⟩
  cases array with
  | none =>
      cases h
      exact .single rfl
  | some a =>
      cases h
      exact .array rfl hgreatest

/-- What the call checks is enough for the reader. -/
theorem ItemLoad.inBounds {d : Struct} {read load : Expr} {t : DataType}
    (h : ItemLoad read d.requiredCount d.values.length t load) (hd : d.Consistent)
    (hpos : 0 < d.values.length) {a : Attribute} {i : Int} (hi : Passes a load i) :
    InBounds a.valueCount i (structAccesses d) := by
  cases h with
  | single =>
      cases hi with
      | single call run mem =>
          simp only [invoke, flag, count, Expr.call.injEq, List.cons.injEq, Expr.literal.injEq,
            Literal.bool.injEq, Literal.int.injEq, Nat.cast_inj] at call
          obtain ⟨-, -, rfl, rfl, rfl, -⟩ := call
          -- here the optional values may be missing
          obtain ⟨rfl, hbounds⟩ := Attribute.starts_singleM run mem
          obtain ⟨hleast, -⟩ := Attribute.withinBounds_eq_true.mp hbounds
          exact inBounds_required hd (List.length_pos_iff.mpr a.values_ne_nil)
            (Int.ofNat_le.mp hleast)
      | array call => simp [invoke] at call
  | array =>
      cases hi with
      | single call => simp [invoke] at call
      | array call run mem =>
          simp only [invoke, flag, count, Expr.call.injEq, List.cons.injEq, Expr.literal.injEq,
            Literal.bool.injEq, Literal.int.injEq, Nat.cast_inj] at call
          obtain ⟨-, -, -, -, -, -, rfl, -⟩ := call
          obtain ⟨k, count, hk, rfl, hlength⟩ := Attribute.starts_arrayM hpos run mem
          have hle : k * d.values.length + d.values.length ≤ count * d.values.length :=
            part_end_le hk
          refine inBounds_all hpos ?_
          rw [Attribute.valueCount, hlength]
          exact_mod_cast hle

theorem infix_flatMap {c : FieldCode} {cs : List FieldCode} (h : c ∈ cs) :
    c.statements <:+: cs.flatMap (·.statements) := by
  obtain ⟨front, back, rfl⟩ := List.append_of_mem h
  exact ⟨front.flatMap (·.statements), back.flatMap (·.statements), by simp⟩

/-- The type has an operation of the name, which runs the statements. -/
def DeclaredType.Performs (t : DeclaredType) (operation : String) (ss : List Statement) : Prop :=
  ∃ m ∈ t.methods, m.signature.name = operation ∧ m.body.finish? = some ss

section

variable {s : Schema} {names known : TypeNames} {types : List DeclaredType} {scope : Path}
  {name : String}

/-- The reader of a struct that is the base of a data type, and the call that uses it. -/
theorem Complete.exists_reader (h : Complete s names types) (hkeeps : known.Keeps names)
    {t : DataType} (hbase : t.base = .struct scope name) {load : Expr}
    (hload : loadValue known t = .ok load) :
    ∃ u d reads, u ∈ types ∧ names.nameOf (.struct scope name) = .ok u.name ∧
      s.structAt? scope name = some d ∧ u.Performs "read" reads ∧
      Statement.accessesOfAll [] reads = structAccesses d ∧
      ItemLoad (.attr (.typeRef u.name) "read") d.requiredCount d.values.length t load ∧
      ∀ a i, Passes a load i → InBounds a.valueCount i (Statement.accessesOfAll [] reads) := by
  obtain ⟨least, greatest, read, harity, hread, hitem⟩ := ItemLoad.of_loadValue hload
  rw [hbase] at harity hread
  obtain ⟨harity, hpos⟩ := h.arity_eq_ok hkeeps harity
  have hitem := hitem (Nat.ne_of_gt hpos)
  simp only [itemReader, bind_eq_ok, lift_name_eq_ok] at hread
  obtain ⟨typeName, hname, hread⟩ := hread
  cases hread
  obtain ⟨b, hb, rfl⟩ := exists_binding?_of_keeps hkeeps hname
  obtain ⟨d, cs, hd, -, hcs, -, ht⟩ := h.struct hb
  rw [Base.arity?, hd] at harity
  cases harity
  obtain ⟨q, -, hwell⟩ := h.wellFormed.struct (Schema.mem_allStructs_of_structAt? hd)
  have haccesses : Statement.accessesOfAll [] (structBody cs) = structAccesses d := by
    refine accesses_structBody (hcs.imp ?_)
    rintro v c ⟨known, -, hc⟩
    exact ⟨known, hc⟩
  refine ⟨structType b.name cs, d, structBody cs, ?_, ?_, hd, ?_, haccesses, hitem,
    fun a i hi => ?_⟩
  · exact List.mem_of_find?_eq_some (found_eq_ok.mp ht)
  · exact Names.nameOf_eq_ok.mpr ⟨b, hb, rfl⟩
  · exact ⟨_, List.mem_cons_self, rfl, Body.finish?_ofStatements _⟩
  · rw [haccesses]
    exact hitem.inBounds ⟨hwell.nodup, hwell.optional_last⟩ hpos hi

/-- The call for an attribute of an element stands in the operation that loads the element. -/
theorem Complete.exists_load (h : Complete s names types) {path : Path} {e : ElementDef}
    (he : (path, e) ∈ s.allElements) {x : AttributeEntry} (hx : x ∈ e.attributeEntries)
    {t : DataType} (ht : x.type? s = some t) :
    ∃ r body field load known, r ∈ types ∧ names.nameOf (.element path e.name) = .ok r.name ∧
      r.Performs "load" body ∧
      extraction x.occurrence .attribute "attribute" x.name field load <:+: body ∧
      known.Keeps names ∧ loadValue known t = .ok load := by
  obtain ⟨b, hb, -⟩ := h.register.find (e := .element path e.name)
    (List.mem_append_right _ (List.mem_map.mpr ⟨_, he, rfl⟩))
  obtain ⟨d, isRoot, cs, ds, hd, -, hcs, -, -, hr⟩ := h.element hb
  obtain rfl : e = d := Option.some.inj ((h.wellFormed.elementAt?_of_mem he).symm.trans hd)
  obtain ⟨c, hc, known, hkeeps, before, after, hfield⟩ := exists_mem_zip_of_forall₂ hcs hx
  obtain ⟨u, field, type, default, load, -, hu, -, -, hload, -, hstatements⟩ :=
    attributeField_eq_ok hfield
  cases ht.symm.trans hu
  refine ⟨_, _, field, load, known, List.mem_of_find?_eq_some (found_eq_ok.mp hr),
    Names.nameOf_eq_ok.mpr ⟨b, hb, rfl⟩, ⟨_, List.mem_cons_self, rfl, Body.finish?_ofStatements _⟩,
    ?_, hkeeps, hload⟩
  rw [← hstatements, elementBody]
  have hmem : c ∈ cs ++ ds := List.mem_append_left _ (List.of_mem_zip hc).2
  exact (infix_flatMap hmem).trans (List.infix_append _ _ _)

end

end Code

namespace Schema

open Code

variable {s : Schema}

/-- In the module that was made for a loaded schema, no reader of a struct reads past the values of
an attribute: wherever an attribute of an element has a struct as its base, the call that loads it
gives the reader only indexes from which on every read whose checks hold is a read of one of the
values. A row of items is never split into items without values. -/
theorem reads_inBounds {text runtime code : String} (h : (parse text).result = .ok s)
    (hcode : (s.generate runtime).result = .ok code) :
    ∃ names types, s.declarations.result = .ok (names, types) ∧
      Module.code ⟨runtime, types⟩ = .ok code ∧
      ∀ path e x t scope name, (path, e) ∈ s.allElements → x ∈ e.attributeEntries →
        x.type? s = some t → t.base = .struct scope name →
        ∃ r body field load u d reads,
          r ∈ types ∧ names.nameOf (.element path e.name) = .ok r.name ∧ r.Performs "load" body ∧
          extraction x.occurrence .attribute "attribute" x.name field load <:+: body ∧
          u ∈ types ∧ names.nameOf (.struct scope name) = .ok u.name ∧ u.Performs "read" reads ∧
          s.structAt? scope name = some d ∧
          Statement.accessesOfAll [] reads = structAccesses d ∧
          ItemLoad (.attr (.typeRef u.name) "read") d.requiredCount d.values.length t load ∧
          ∀ a i, Passes a load i →
            InBounds a.valueCount i (Statement.accessesOfAll [] reads) := by
  obtain ⟨names, types, hdeclarations, hprinted⟩ := declarations_of_generate hcode
  have hcomplete := complete_of_declarations (wellFormed_of_parse h) hdeclarations
  refine ⟨names, types, hdeclarations, hprinted, ?_⟩
  intro path e x t scope name he hx ht hbase
  obtain ⟨r, body, field, load, known, hr, hrname, hperforms, hinfix, hkeeps, hload⟩ :=
    hcomplete.exists_load he hx ht
  obtain ⟨u, d, reads, hu, huname, hd, hreads, haccesses, hitem, hbounds⟩ :=
    hcomplete.exists_reader hkeeps hbase hload
  exact ⟨r, body, field, load, u, d, reads, hr, hrname, hperforms, hinfix, hu, huname, hreads, hd,
    haccesses, hitem, hbounds⟩

/-- An attribute that has only the required value of the struct. -/
def shortAttribute : Attribute := ⟨"p", [some "a"], List.cons_ne_nil _ _⟩

/-- A struct that is read from an attribute with one value too few. -/
theorem reads_inBounds_nested :
    (parse nestedText).result = .ok nestedSchema ∧
      ∃ code, (nestedSchema.generate "sml_document").result = .ok code ∧
        ∃ names types load u reads, nestedSchema.declarations.result = .ok (names, types) ∧
          u ∈ types ∧ names.nameOf (.struct [] "P") = .ok u.name ∧ u.Performs "read" reads ∧
          Passes shortAttribute load 0 ∧ InBounds 1 0 (Statement.accessesOfAll [] reads) := by
  obtain ⟨code, hcode⟩ := exists_generate_nested
  obtain ⟨names, types, hdeclarations, -, hall⟩ := reads_inBounds parse_nestedText hcode
  obtain ⟨r, body, field, load, u, d, reads, -, -, -, -, hu, hname, hreads, hd, -, hitem,
    hbounds⟩ := hall [] _ _ _ [] "P" List.mem_cons_self List.mem_cons_self rfl rfl
  cases hd
  cases hitem with
  | single =>
      have hrun : (shortAttribute.singleM Attribute.noteStart false (1 : Nat)
          (some (2 : Nat))).run [] = .ok (none, [0]) := rfl
      have hpasses : Passes shortAttribute (invoke attributeVar "as_single"
          [.attr (.typeRef u.name) "read", flag false, count 1, count 2]) 0 :=
        .single rfl hrun List.mem_cons_self
      exact ⟨parse_nestedText, code, hcode, names, types, _, u, reads, hdeclarations, hu, hname,
        hreads, hpasses, hbounds shortAttribute 0 hpasses⟩
  | array array => cases array

end Schema

end SmlSchema
