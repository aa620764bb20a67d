import SmlSchema.Proofs.Code.Declarations

/-! # Positions of labels and members of types

A label is read as its position among the labels, and the position is taken as that of a member. The
names of the members are made one after the other and may be anything, so that the two agree only
because there is exactly one member for each label, in the order of the labels.
-/

namespace SmlSchema

namespace Code

/-! ## Calls in a body -/

mutual

/-- The arguments of the calls of an operation in an expression. -/
def Expr.calls (operation : String) : Expr → List (List Expr)
  | .call (.attr target name) args =>
    (if name = operation then [args] else []) ++ target.calls operation
      ++ Expr.callsOfAll operation args
  | .call f args => f.calls operation ++ Expr.callsOfAll operation args
  | .attr e _ => e.calls operation
  | .add a b => a.calls operation ++ b.calls operation
  | .memberAt e i => e.calls operation ++ i.calls operation
  | .isPresent e => e.calls operation
  | .isAbsent e => e.calls operation
  | .greater a b => a.calls operation ++ b.calls operation
  | .both a b => a.calls operation ++ b.calls operation
  | .var _ | .selfType | .typeRef _ | .runtime _ | .literal _ | .foreign _ => []
termination_by structural e => e

def Expr.callsOfAll (operation : String) : List Expr → List (List Expr)
  | [] => []
  | e :: es => e.calls operation ++ Expr.callsOfAll operation es
termination_by structural es => es

end

def Step.calls (operation : String) : Step → List (List Expr)
  | .assign target e => target.calls operation ++ e.calls operation
  | .append target e => target.calls operation ++ e.calls operation
  | .giveBack e => e.calls operation
  | .evaluate e => e.calls operation
  | .foreign _ => []

def Header.calls (operation : String) : Header → List (List Expr)
  | .ifTrue e => e.calls operation
  | .forEach _ e => e.calls operation
  | .foreign _ => []

mutual

/-- The arguments of the calls of an operation in a statement. -/
def Statement.calls (operation : String) : Statement → List (List Expr)
  | .step s => s.calls operation
  | .block h ss => h.calls operation ++ Statement.callsOfAll operation ss
termination_by structural s => s

def Statement.callsOfAll (operation : String) : List Statement → List (List Expr)
  | [] => []
  | s :: ss => s.calls operation ++ Statement.callsOfAll operation ss
termination_by structural ss => ss

end

/-! ## Types of enumerations -/

/-- The type has one variant for each label, in order and under different names, and its only
operation reads a label once, among these labels. -/
structure Enumerates (labels : List String) (variants : List Variant) (t : DeclaredType) :
    Prop where
  shape : t.shape = .enumeration variants
  literals : variants.map (·.literal) = labels.map .string
  nodup : (variants.map (·.name)).Nodup
  parse : ∃ m body, t.methods = [m] ∧ m.signature.name = "parse" ∧ m.body.finish? = some body ∧
    Statement.callsOfAll "get_enum" body =
      [[.literal (.list (labels.map .string)), .var "index", .var "nullable"]]

/-- Reading a label gives the position of the variant that has the value as its literal, nothing for
a null that is allowed, and a violation otherwise. -/
structure ReadsPositions (labels : List String) (variants : List Variant) : Prop where
  member : ∀ a index nullable p, Attribute.label labels a index nullable = .ok (some p) ↔
    ∃ name text, variants[p]? = some ⟨name, .string text⟩ ∧ a.cell index = .ok (some text)
  absent : ∀ a index nullable, Attribute.label labels a index nullable = .ok none ↔
    a.cell index = .ok none ∧ nullable = true
  refused : ∀ a index nullable v, Attribute.label labels a index nullable = .error v ↔
    a.cell index = .error v ∨
    a.cell index = .ok none ∧ nullable = false ∧ v = .nullAt a.name index ∨
    ∃ text, a.cell index = .ok (some text) ∧ text ∉ labels ∧ v = .notALabel a.name text labels

section

variable {labels members : List String}

theorem map_name_zipWith (h : members.length = labels.length) :
    (List.zipWith (fun m l => Variant.mk m (.string l)) members labels).map (·.name) =
      members := by
  refine List.ext_getElem ?_ fun i _ _ => ?_
  · simp only [List.length_map, List.length_zipWith, h, Nat.min_self]
  · simp only [List.getElem_map, List.getElem_zipWith]

theorem enumerates_enumType (typeName : String) (hlength : members.length = labels.length)
    (hnodup : members.Nodup) :
    ∃ variants, Enumerates labels variants (enumType typeName labels members) :=
  ⟨_, rfl, map_literal_zipWith hlength, (map_name_zipWith hlength).symm ▸ hnodup,
    _, enumBody labels, rfl, rfl, Body.finish?_ofStatements _, rfl⟩

/-- Labels are different, so that one is found where it stands. -/
theorem idxOf?_eq_some_iff_getElem? (h : labels.Nodup) {text : String} {p : Nat} :
    labels.idxOf? text = some p ↔ labels[p]? = some text := by
  rw [List.idxOf?_eq_some_iff, List.getElem?_eq_some_iff]
  refine exists_congr fun hp => and_iff_left_of_imp ?_
  rintro rfl j hj heq
  exact Nat.ne_of_lt hj ((h.getElem_inj_iff).mp heq)

theorem Enumerates.readsPositions {variants : List Variant} {t : DeclaredType}
    (h : Enumerates labels variants t) (hlabels : labels.Nodup) :
    ReadsPositions labels variants where
  member := by
    intro a index nullable p
    -- the variant at a position has the label at this position
    have hliteral : ∀ text, (∃ name, variants[p]? = some ⟨name, .string text⟩) ↔
        labels[p]? = some text := by
      intro text
      have hget : variants[p]?.map (·.literal) = labels[p]?.map .string := by
        rw [← List.getElem?_map, ← List.getElem?_map, h.literals]
      constructor
      · rintro ⟨name, hvariant⟩
        rw [hvariant, Option.map_some] at hget
        obtain ⟨label, hlabel, heq⟩ := Option.map_eq_some_iff.mp hget.symm
        rw [hlabel, Literal.string.inj heq]
      · intro hlabel
        rw [hlabel, Option.map_some] at hget
        obtain ⟨⟨name, literal⟩, hvariant, heq⟩ := Option.map_eq_some_iff.mp hget
        exact ⟨name, hvariant.trans (congrArg (fun l => some (Variant.mk name l)) heq)⟩
    rw [Attribute.label_eq_some]
    constructor
    · rintro ⟨text, hcell, hposition⟩
      obtain ⟨name, hvariant⟩ :=
        (hliteral text).mpr ((idxOf?_eq_some_iff_getElem? hlabels).mp hposition)
      exact ⟨name, text, hvariant, hcell⟩
    · rintro ⟨name, text, hvariant, hcell⟩
      have hposition := (hliteral text).mp ⟨name, hvariant⟩
      exact ⟨text, hcell, (idxOf?_eq_some_iff_getElem? hlabels).mpr hposition⟩
  absent := fun _ _ _ => Attribute.label_eq_none
  refused := fun _ _ _ _ => Attribute.label_eq_error

end

/-! ## Generated types -/

/-- The type that is made for an enumeration. -/
theorem generateEnum_eq_ok {names next : TypeNames} {path : Path} {name : String}
    {labels : List String} {types : List DeclaredType}
    (h : (generateEnum names path (.enum name labels)).result = .ok (next, types)) :
    ∃ typeName members, types = [enumType typeName labels members] ∧
      members.length = labels.length ∧ members.Nodup := by
  simp only [generateEnum, report, Traced.result_bind, Traced.result_lift_name,
    Traced.result_report, ok_bind, lift_declareEnum, Traced.result_pure, bind_eq_ok,
    lift_name_eq_ok] at h
  obtain ⟨typeName, -, members, hmembers, last, -, heq⟩ := h
  cases heq
  have hends := Names.reserveAll_ends (MemberNames.start true) labels
  rw [hmembers] at hends
  exact ⟨typeName, members, rfl, hends.1, hends.2.1⟩

/-- The type of an enumeration in a whole module. -/
theorem Complete.exists_enumType {s : Schema} {names : TypeNames} {types : List DeclaredType}
    (h : Complete s names types) {path : Path} {name : String} {labels : List String}
    (hv : (path, .enum name labels) ∈ s.allValueTypes) :
    ∃ typeName members, names.nameOf (.valueType path name) = .ok typeName ∧
      members.length = labels.length ∧ members.Nodup ∧
      findType types typeName = .ok (enumType typeName labels members) := by
  obtain ⟨b, hb, -⟩ := h.register.find (e := .valueType path name)
    (List.mem_append_left _ (List.mem_append_left _ (List.mem_map.mpr ⟨_, hv, rfl⟩)))
  obtain ⟨labels', members, hfound, -, hlength, hnodup, -, ht⟩ := h.enumeration hb
  cases hfound.symm.trans (h.wellFormed.valueTypeAt?_of_mem hv)
  exact ⟨b.name, members, Names.nameOf_eq_ok.mpr ⟨b, hb, rfl⟩, hlength, hnodup, ht⟩

end Code

namespace Schema

open Code

/-- The type of an enumeration of a loaded schema, made alone or with the whole module, has one
variant for each label, in order, and reads exactly these labels. So the variant at the position
that is read always has the value as its literal. -/
theorem variant_at_position {text : String} {s : Schema} (h : (parse text).result = .ok s)
    {path : Path} {name : String} {labels : List String}
    (hv : (path, .enum name labels) ∈ s.allValueTypes) :
    (∀ names next types,
      (generateEnum names path (.enum name labels)).result = .ok (next, types) →
        ∃ t variants, types = [t] ∧ Enumerates labels variants t ∧
          ReadsPositions labels variants) ∧
    ∀ runtime code, (s.generate runtime).result = .ok code →
      ∃ names types t variants, s.declarations.result = .ok (names, types) ∧
        Module.code ⟨runtime, types⟩ = .ok code ∧ t ∈ types ∧
        names.nameOf (.valueType path name) = .ok t.name ∧ Enumerates labels variants t ∧
        ReadsPositions labels variants ∧
        ∀ n a index nullable,
          perform types (n + 2) (.operation (.type t.name) "parse")
              [.attribute a, .int index, .bool nullable] =
            ((Attribute.label labels a index nullable).mapError .violation).map
              (.ofOption (.member t.name)) := by
  have hs := wellFormed_of_parse h
  have hlabels : labels.Nodup := by
    cases hs.valueType hv with
    | enum _ nodup => exact nodup
  constructor
  · intro names next types hmade
    obtain ⟨typeName, members, rfl, hlength, hnodup⟩ := generateEnum_eq_ok hmade
    obtain ⟨variants, henum⟩ := enumerates_enumType typeName hlength hnodup
    exact ⟨_, variants, rfl, henum, henum.readsPositions hlabels⟩
  · intro runtime code hcode
    obtain ⟨names, types, hdeclarations, hprinted⟩ := declarations_of_generate hcode
    have hcomplete := complete_of_declarations hs hdeclarations
    obtain ⟨typeName, members, hname, hlength, hnodup, ht⟩ := hcomplete.exists_enumType hv
    obtain ⟨variants, henum⟩ := enumerates_enumType typeName hlength hnodup
    exact ⟨names, types, _, variants, hdeclarations, hprinted,
      List.mem_of_find?_eq_some (found_eq_ok.mp ht), hname, henum, henum.readsPositions hlabels,
      fun n a index nullable => perform_parse n a nullable ht hlength index⟩

def secondLabel : Attribute := ⟨"v", [some "A"], List.cons_ne_nil _ _⟩

/-- Both labels ask for the same name of a variant. -/
theorem variant_at_position_nested :
    (parse nestedText).result = .ok nestedSchema ∧
      ([], .enum "I" ["a", "A"]) ∈ nestedSchema.allValueTypes ∧
      ∃ code, (nestedSchema.generate "sml_document").result = .ok code ∧
        ∃ names types t variants name, nestedSchema.declarations.result = .ok (names, types) ∧
          t ∈ types ∧ t.shape = .enumeration variants ∧
          variants[1]? = some ⟨name, .string "A"⟩ ∧
          Attribute.label ["a", "A"] secondLabel 0 false = .ok (some 1) := by
  have hmem : ([], .enum "I" ["a", "A"]) ∈ nestedSchema.allValueTypes := by decide
  have hlabel : Attribute.label ["a", "A"] secondLabel 0 false = .ok (some 1) := rfl
  obtain ⟨code, hcode⟩ := exists_generate_nested
  obtain ⟨names, types, t, variants, hdeclarations, -, ht, -, henum, hreads, -⟩ :=
    (variant_at_position parse_nestedText hmem).2 _ _ hcode
  obtain ⟨name, text, hvariant, hcell⟩ := (hreads.member secondLabel 0 false 1).mp hlabel
  cases hcell
  exact ⟨parse_nestedText, hmem, code, hcode, names, types, t, variants, name, hdeclarations, ht,
    henum.shape, hvariant, hlabel⟩

end Schema

end SmlSchema
