import SmlSchema.Proofs.Graph.Effects

/-! # Scoped lookup

A key is looked up along the path that leads from a scope outwards, and stands for what the nearest
scope registers that has it. A further definition changes one lookup: that of its key, of its kind,
from the scope that registers it and from the scopes inside which have no nearer definition.
-/

namespace SmlSchema.Graph

/-- The scope and all scopes around it, from the inside to the outside. -/
def path (g : Graph) (n : Nat) : List Nat := Scopes.chain g.scopes n

/-- The scope itself registers the definition under the key. -/
def Registers (g : Graph) (n : Nat) (c : Category) (key : String) (x : Nat) : Prop :=
  (key, x) ∈ Scopes.items g.scopes n c

/-- On the path from the scope `n` to the scope `m` no scope before `m` registers the key. -/
def Sees (g : Graph) (n m : Nat) (c : Category) (key : String) : Prop :=
  ∃ front back, g.path n = front ++ m :: back ∧ ∀ k ∈ front, ∀ x, ¬ g.Registers k c key x

/-- The scope has a path: it begins with the scope and goes on with the path from the scope around
it, which is older. -/
structure Placed (g : Graph) (n : Nat) (s : ScopeNode) : Prop where
  path_eq : g.path n = n :: s.outer.elim [] g.path
  older : ∀ m, s.outer = some m → m < n

/-- The lookups of the key from the scope give what the nearest scope registers that has it. -/
structure Lexical (g : Graph) (n : Nat) (c : Category) (key : String) : Prop where
  unique : ∀ x y, g.Registers n c key x → g.Registers n c key y → x = y
  found : ∀ x, g.find? n c key = some x ↔ ∃ m, g.Sees n m c key ∧ g.Registers m c key x
  missing : g.find? n c key = none ↔ ∀ m ∈ g.path n, ∀ x, ¬ g.Registers m c key x
  has_eq : g.has n c key = (g.find? n c key).isSome
  hasLocal_iff : g.hasLocal n c key ↔ ∃ x, g.Registers n c key x
  find_eq_ok : ∀ x, g.find n c key = .ok x ↔ g.find? n c key = some x
  find_eq_error : g.find? n c key = none →
    ∃ s, Scopes.at? g.scopes n = some s ∧
      g.find n c key = .error (.undefined (.definition c key s.path))

/-- The scopes of the graph and what they register stay as they are, and so does every lookup from
them; further scopes are empty. -/
structure KeepsLookups (g t : Graph) : Prop where
  path_eq : ∀ n < g.scopes.length, t.path n = g.path n
  items_eq : ∀ n < g.scopes.length, ∀ c, Scopes.items t.scopes n c = Scopes.items g.scopes n c
  find?_eq : ∀ n < g.scopes.length, ∀ c key, t.find? n c key = g.find? n c key
  items_new : ∀ n, g.scopes.length ≤ n → ∀ c, Scopes.items t.scopes n c = []

/-- The scope `m` registers a further definition. All other definitions of the scopes stay as they
are and in their order. -/
structure Registered (g t : Graph) (m : Nat) (c : Category) (key : String) (x : Nat) : Prop where
  defined : m < g.scopes.length
  free : ∀ y, ¬ g.Registers m c key y
  path_eq : ∀ n < g.scopes.length, t.path n = g.path n
  items_at : Scopes.items t.scopes m c = Scopes.items g.scopes m c ++ [(key, x)]
  items_eq : ∀ n < g.scopes.length, ∀ d, ¬ (n = m ∧ d = c) →
    Scopes.items t.scopes n d = Scopes.items g.scopes n d
  find?_new : ∀ n < g.scopes.length, g.Sees n m c key → t.find? n c key = some x
  find?_eq : ∀ n < g.scopes.length, ∀ d name, ¬ (d = c ∧ name = key ∧ g.Sees n m c key) →
    t.find? n d name = g.find? n d name
  new_scope : ∀ n, g.scopes.length ≤ n → n < t.scopes.length →
    t.path n = n :: g.path m ∧ ∀ d, Scopes.items t.scopes n d = []

/-- The registry and the key of an addition. -/
def Call.addition? : Call → Option (Nat × Category × String)
  | .add n c name => some (n, c, name)
  | .addExisting n c key _ => some (n, c, key)
  | .addEnum n name _ => some (n, .valueType, name)
  | _ => none

/-! ## What a scope registers -/

variable {g t : Graph} {n m x : Nat} {c : Category} {key : String} {ss : Scopes} {s : ScopeNode}

/-- In wired scopes a key stands for the definition that is registered under it. -/
theorem Scopes.Wired.own?_eq_some (hw : Scopes.Wired ss) :
    Scopes.own? ss n c key = some x ↔ (key, x) ∈ Scopes.items ss n c := by
  rw [Scopes.own?, Scopes.items]
  cases hs : Scopes.at? ss n with
  | none => simp
  | some s =>
      rw [Option.elim_some]
      have hkeys := (hw n s hs).keys c
      generalize (s.registry c).items = items at hkeys ⊢
      induction items with
      | nil => simp
      | cons p items ih =>
          obtain ⟨k, y⟩ := p
          rw [List.map_cons, List.nodup_cons] at hkeys
          have ih' := ih hkeys.2
          by_cases hk : key = k
          · subst hk
            -- The key does not come again.
            have hnot : (key, x) ∉ items := by
              intro hx
              exact hkeys.1 (List.mem_map.mpr ⟨(key, x), hx, rfl⟩)
            simp [hnot, eq_comm]
          · have hne : (key == k) = false := by simpa using hk
            simp [List.lookup_cons, hne, hk, ih']

/-- A key stands for nothing if nothing is registered under it. -/
theorem Scopes.Wired.own?_eq_none (hw : Scopes.Wired ss) :
    Scopes.own? ss n c key = none ↔ ∀ x, (key, x) ∉ Scopes.items ss n c := by
  rw [Option.eq_none_iff_forall_ne_some]
  exact forall_congr' fun x => not_congr hw.own?_eq_some

theorem Scopes.items_eq_nil (h : ss.length ≤ n) : Scopes.items ss n c = [] := by
  rw [Scopes.items, Scopes.at?_eq_none h, Option.elim_none]

/-! ## Lookups in wired scopes -/

/-- In wired scopes the path from a scope goes on from the scope around it, which is older. -/
theorem placed_of_wired (hw : Scopes.Wired g.scopes) (hs : Scopes.at? g.scopes n = some s) :
    g.Placed n s := ⟨hw.chain_eq hs, (hw n s hs).older⟩

/-- A lookup follows the path from the scope. -/
theorem find?_eq_findSome? (hw : Scopes.Wired g.scopes) (n : Nat) (c : Category) (key : String) :
    g.find? n c key = (g.path n).findSome? (Scopes.own? g.scopes · c key) := hw.find?_eq n c key

/-- In wired scopes lookups are lexical. -/
theorem lexical_of_wired (hw : Scopes.Wired g.scopes) (hn : n < g.scopes.length) (c : Category)
    (key : String) : g.Lexical n c key := by
  obtain ⟨s, hs⟩ := Scopes.exists_at? hn
  refine ⟨fun x y hx hy => ?_, fun x => ?_, ?_, Scopes.has_eq_isSome _ _ _, ?_, fun x => ?_,
    fun h => ?_⟩
  · exact Option.some.inj ((hw.own?_eq_some.mpr hx).symm.trans (hw.own?_eq_some.mpr hy))
  · rw [find?_eq_findSome? hw, List.findSome?_eq_some_iff]
    constructor
    · rintro ⟨front, m, back, hpath, hx, hfront⟩
      exact ⟨m, ⟨front, back, hpath, fun k hk => hw.own?_eq_none.mp (hfront k hk)⟩,
        hw.own?_eq_some.mp hx⟩
    · rintro ⟨m, ⟨front, back, hpath, hfront⟩, hx⟩
      exact ⟨front, m, back, hpath, hw.own?_eq_some.mpr hx,
        fun k hk => hw.own?_eq_none.mpr (hfront k hk)⟩
  · rw [find?_eq_findSome? hw, List.findSome?_eq_none_iff]
    exact forall₂_congr fun m _ => hw.own?_eq_none
  · rw [hasLocal_eq, Option.isSome_iff_exists]
    exact exists_congr fun x => hw.own?_eq_some
  · refine ⟨find?_of_find, fun h => ?_⟩
    rw [find, scopeAt, hs, numbered, ok_bind, h]
    rfl
  · refine ⟨s, hs, ?_⟩
    rw [find, scopeAt, hs, numbered, ok_bind, h]

/-! ## Changes of scopes -/

namespace KeepsLookups

/-- Lookups depend on the scopes only. -/
theorem of_eq (h : t.scopes = g.scopes) : g.KeepsLookups t := by
  refine ⟨fun n _ => ?_, fun n _ c => ?_, fun n _ c key => ?_, fun n hn c => ?_⟩
  · rw [path, path, h]
  · rw [h]
  · rw [find?, find?, h]
  · rw [h, Scopes.items_eq_nil hn]

/-- A new scope is empty and is around no other. -/
theorem of_new (hw : Scopes.Wired g.scopes) {p : Path} {owner outer : Option Nat}
    (ht : t.scopes = .new p owner outer :: g.scopes) (hwt : Scopes.Wired t.scopes) :
    g.KeepsLookups t := by
  have hpath : ∀ n < g.scopes.length, t.path n = g.path n := by
    intro n hn
    rw [path, path, ht, Scopes.chain_cons_of_lt hn]
  refine ⟨hpath, fun n hn c => ?_, fun n hn c key => ?_, fun n hn c => ?_⟩
  · rw [ht, Scopes.items_cons_of_lt hn]
  · rw [find?_eq_findSome? hwt, find?_eq_findSome? hw, hpath n hn, ht]
    exact Scopes.findSome?_own?_cons fun m hm => Scopes.lt_of_mem_chain hm
  · rw [ht]
    obtain rfl | hlt := Nat.eq_or_lt_of_le hn
    · exact Scopes.items_new
    · exact Scopes.items_eq_nil (by rwa [List.length_cons])

end KeepsLookups

/-- A path on which one scope has got a definition leads to it, if nothing is found before. -/
theorem findSome?_of_new {f f' : Nat → Option Nat} {front back : List Nat}
    (hother : ∀ k, k ≠ m → f' k = f k) (hnew : f' m = some x) (hfront : ∀ k ∈ front, f k = none) :
    (front ++ m :: back).findSome? f' = some x := by
  induction front with
  | nil => rw [List.nil_append, List.findSome?_cons, hnew]
  | cons k front ih =>
      rw [List.cons_append, List.findSome?_cons]
      by_cases hk : k = m
      · rw [hk, hnew]
      · rw [hother k hk, hfront k List.mem_cons_self]
        exact ih fun i hi => hfront i (List.mem_cons_of_mem k hi)

/-- A path on which one scope has got a definition leads where it led, if the scope is not on it or
something is found before. -/
theorem findSome?_of_nearer {f f' : Nat → Option Nat} {l : List Nat}
    (hother : ∀ k, k ≠ m → f' k = f k)
    (hnearer : ¬ ∃ front back, l = front ++ m :: back ∧ ∀ k ∈ front, f k = none) :
    l.findSome? f' = l.findSome? f := by
  induction l with
  | nil => rfl
  | cons k l ih =>
      have hk : k ≠ m := by
        rintro rfl
        exact hnearer ⟨[], l, rfl, by simp⟩
      rw [List.findSome?_cons, List.findSome?_cons, hother k hk]
      cases hfound : f k with
      | some y => rfl
      | none =>
          refine ih ?_
          rintro ⟨front, back, rfl, hfront⟩
          exact hnearer ⟨k :: front, back, rfl, by simpa [hfound] using hfront⟩

/-- A scope sees another one for a key if no scope on the way registers the key. -/
theorem sees_iff (hw : Scopes.Wired g.scopes) :
    g.Sees n m c key ↔ ∃ front back, g.path n = front ++ m :: back ∧
      ∀ k ∈ front, Scopes.own? g.scopes k c key = none := by
  refine exists₂_congr fun front back => and_congr_right fun _ => ?_
  exact forall₂_congr fun k _ => hw.own?_eq_none.symm

namespace Registered

/-- A registration in wired scopes changes the lookups that see it and no others. -/
theorem of_insert (hw : Scopes.Wired g.scopes) (hfree : g.Free m c key)
    (ht : t.scopes = Scopes.insert g.scopes m c key x) : g.Registered t m c key x := by
  obtain ⟨hm, hfree⟩ := hfree
  have hwt : Scopes.Wired t.scopes := ht ▸ hw.insert hfree x
  have hpath (n : Nat) : t.path n = g.path n := by
    rw [path, path, ht, Scopes.chain_insert]
  have hitems (n : Nat) (d : Category) : Scopes.items t.scopes n d =
      if n = m ∧ d = c then Scopes.items g.scopes n d ++ [(key, x)]
      else Scopes.items g.scopes n d := by
    rw [ht, Scopes.items_insert hm]
  have hown {k : Nat} {d : Category} {name : String} (hne : ¬ (k = m ∧ d = c ∧ name = key)) :
      Scopes.own? t.scopes k d name = Scopes.own? g.scopes k d name := by
    rw [Scopes.own?, Scopes.own?, hitems]
    split
    · rename_i h
      have hname : (name == key) = false := by
        simpa using fun hname => hne ⟨h.1, h.2, hname⟩
      simp [List.lookup_append, List.lookup_cons, hname]
    · rfl
  have hnew : Scopes.own? t.scopes m c key = some x := by
    rw [Scopes.own?, hitems, if_pos ⟨rfl, rfl⟩, List.lookup_append]
    rw [Scopes.own?] at hfree
    simp [hfree]
  have hother : ∀ k, k ≠ m → Scopes.own? t.scopes k c key = Scopes.own? g.scopes k c key :=
    fun k hk => hown fun h => hk h.1
  refine ⟨hm, hw.own?_eq_none.mp hfree, fun n _ => hpath n, ?_, fun n _ d hne => ?_,
    fun n _ hsees => ?_, fun n _ d name hne => ?_, fun n hle hlt => ?_⟩
  · rw [hitems, if_pos ⟨rfl, rfl⟩]
  · rw [hitems, if_neg hne]
  · obtain ⟨front, back, hn, hfront⟩ := (sees_iff hw).mp hsees
    rw [find?_eq_findSome? hwt, hpath, hn]
    exact findSome?_of_new hother hnew hfront
  · rw [find?_eq_findSome? hwt, find?_eq_findSome? hw, hpath]
    by_cases hdn : d = c ∧ name = key
    · obtain ⟨rfl, rfl⟩ := hdn
      refine findSome?_of_nearer hother fun h => hne ⟨rfl, rfl, ?_⟩
      exact (sees_iff hw).mpr h
    · congr 1
      funext k
      exact hown fun h => hdn h.2
  · rw [ht, Scopes.length_insert] at hlt
    omega

/-- A scope that is made before the definition is registered. -/
theorem of_keepsLookups {u : Graph} (hkeeps : g.KeepsLookups u) (h : u.Registered t m c key x)
    (hm : m < g.scopes.length) (hlen : g.scopes.length ≤ u.scopes.length)
    (hnew : ∀ n, g.scopes.length ≤ n → n < t.scopes.length → t.path n = n :: g.path m) :
    g.Registered t m c key x := by
  have hregisters {n : Nat} (hn : n < g.scopes.length) {d : Category} {name : String} {y : Nat} :
      u.Registers n d name y ↔ g.Registers n d name y := by
    rw [Registers, Registers, hkeeps.items_eq n hn]
  have hsees {n : Nat} (hn : n < g.scopes.length) : u.Sees n m c key ↔ g.Sees n m c key := by
    rw [Sees, Sees, hkeeps.path_eq n hn]
    refine exists₂_congr fun front back => and_congr_right fun hpath => ?_
    refine forall₂_congr fun k hk => forall_congr' fun y => not_congr (hregisters ?_)
    refine Scopes.lt_of_mem_chain (n := n) ?_
    rw [← path, hpath]
    exact List.mem_append_left _ hk
  refine ⟨hm, fun y hy => h.free y ((hregisters hm).mpr hy), fun n hn => ?_, ?_,
    fun n hn d hne => ?_, fun n hn hs => ?_, fun n hn d name hne => ?_,
    fun n hle hlt => ⟨hnew n hle hlt, fun d => ?_⟩⟩
  · rw [h.path_eq n (by omega), hkeeps.path_eq n hn]
  · rw [h.items_at, hkeeps.items_eq m hm]
  · rw [h.items_eq n (by omega) d hne, hkeeps.items_eq n hn]
  · exact h.find?_new n (by omega) ((hsees hn).mpr hs)
  · rw [h.find?_eq n (by omega) d name fun h' => hne ⟨h'.1, h'.2.1, (hsees hn).mp h'.2.2⟩,
      hkeeps.find?_eq n hn]
  · by_cases hu : n < u.scopes.length
    · rw [h.items_eq n hu d (by omega), hkeeps.items_new n hle]
    · exact (h.new_scope n (by omega) hlt).2 d

end Registered

/-! ## Calls -/

/-- A new element has a new scope, and then it is registered. -/
theorem Effect.registered_element {name : String} {p : Path} (hw : Scopes.Wired g.scopes)
    (hfree : g.Free m .element name) :
    Scopes.Wired (g.withElement name p (some m)).scopes ∧
      g.Registered ((g.withElement name p (some m)).withItem m .element name g.elements.length) m
        .element name g.elements.length := by
  have hm := hfree.defined
  have hwnew : Scopes.Wired (g.withElement name p (some m)).scopes :=
    hw.cons_new _ _ fun k hk => by cases hk; exact hm
  have hkeeps : g.KeepsLookups (g.withElement name p (some m)) := .of_new hw rfl hwnew
  have hfree' : (g.withElement name p (some m)).Free m .element name :=
    ⟨Nat.lt_succ_of_lt hm, (Scopes.own?_cons_of_lt hm).trans hfree.free⟩
  refine ⟨hwnew, .of_keepsLookups hkeeps (.of_insert hwnew hfree' rfl) hm (Nat.le_succ _) ?_⟩
  intro n hle hlt
  have hn : n = g.scopes.length := by
    have hlen : ((g.withElement name p (some m)).withItem m .element name
        g.elements.length).scopes.length = g.scopes.length + 1 := Scopes.length_insert _ _ _ _ _
    omega
  subst hn
  exact (Scopes.chain_insert _ _ _ _ _ _).trans Scopes.chain_new

/-- A call keeps the scopes wired. If it is an addition, then it registers a definition, else it
keeps all lookups. -/
theorem Effect.lookups {call : Call} {r : Option Nat} (h : Effect g call r t)
    (hw : Scopes.Wired g.scopes) :
    Scopes.Wired t.scopes ∧
      match call.addition? with
      | some (m, c, key) => ∃ x, r = some x ∧ g.Registered t m c key x
      | none => g.KeepsLookups t := by
  cases h with
  | newElement older =>
      exact ⟨hw.cons_new _ _ older, .of_new hw rfl (hw.cons_new _ _ older)⟩
  | addStruct free => exact ⟨hw.insert free.free _, _, rfl, .of_insert hw free rfl⟩
  | addAttribute free => exact ⟨hw.insert free.free _, _, rfl, .of_insert hw free rfl⟩
  | addElement free =>
      obtain ⟨hwnew, hregistered⟩ := Effect.registered_element hw free
      refine ⟨hwnew.insert ?_ _, _, rfl, hregistered⟩
      exact (Scopes.own?_cons_of_lt free.defined).trans free.free
  | addExisting _ free => exact ⟨hw.insert free.free _, _, rfl, .of_insert hw free rfl⟩
  | addEnum free => exact ⟨hw.insert free.free _, _, rfl, .of_insert hw free rfl⟩
  | _ => exact ⟨hw, .of_eq rfl⟩

theorem wired_empty : Scopes.Wired ({} : Graph).scopes := by
  intro n s hs
  obtain rfl : n = 0 := by
    have := Scopes.lt_of_at? hs
    simpa using this
  cases hs
  exact ⟨fun c => by cases c <;> rfl, nofun, fun c => by cases c <;> exact .nil⟩

/-- After every run the scopes are wired. -/
theorem wired_runAll (cs : List Call) : Scopes.Wired (runAll {} cs).scopes :=
  runAll_invariant (P := fun g => Scopes.Wired g.scopes) cs wired_empty
    fun _ _ _ _ _ hw heffect => (heffect.lookups hw).1

/-! ## Paths to the schema -/

/-- The path from every scope ends in the schema's own. -/
def Anchored (ss : Scopes) : Prop := ∀ n < ss.length, (Scopes.chain ss n).getLast? = some 0

namespace Anchored

/-- A scope inside an anchored one is anchored. -/
theorem cons_new (h : Anchored ss) {p : Path} {owner : Option Nat} (hm : m < ss.length) :
    Anchored (.new p owner (some m) :: ss) := by
  intro n hn
  obtain rfl | hlt := Nat.eq_or_lt_of_le (Nat.le_of_lt_succ hn)
  · rw [Scopes.chain_new, Option.elim_some, List.getLast?_cons, h m hm]
    rfl
  · rw [Scopes.chain_cons_of_lt hlt, h n hlt]

/-- Registering does not move scopes. -/
theorem insert (h : Anchored ss) : Anchored (Scopes.insert ss m c key x) := by
  intro n hn
  rw [Scopes.length_insert] at hn
  rw [Scopes.chain_insert, h n hn]

end Anchored

/-- An element that is made inside a scope keeps all paths anchored, and so does all else. -/
theorem Effect.anchored {call : Call} {r : Option Nat} (h : Effect g call r t)
    (hinside : ∀ name, call ≠ .newElement name none) (hg : Anchored g.scopes) :
    Anchored t.scopes := by
  cases h with
  | @newElement name outer _ older =>
      cases outer with
      | none => exact absurd rfl (hinside name)
      | some m => exact hg.cons_new (older m rfl)
  | addStruct => exact hg.insert
  | addAttribute => exact hg.insert
  | addElement free => exact (hg.cons_new free.defined).insert
  | addExisting => exact hg.insert
  | addEnum => exact hg.insert
  | _ => exact hg

/-! ## Runs -/

/-- After every run, a path leads from every scope outwards, to the schema's own scope if all
elements were made inside scopes. All lookups are lexical. A further call that adds a definition
changes the lookups of its key, of its kind, from the scope and from those inside that have no
nearer definition, and no others; a call that adds none changes no lookup. -/
theorem runAll_lexical (cs : List Call) :
    let g := runAll {} cs
    (∀ n s, Scopes.at? g.scopes n = some s → g.Placed n s) ∧
      ((∀ name, .newElement name none ∉ cs) →
        ∀ n < g.scopes.length, (g.path n).getLast? = some 0) ∧
      (∀ n < g.scopes.length, ∀ c key, g.Lexical n c key) ∧
      ∀ (call : Call) r t, call.perform.on g = (.ok r, t) →
        match call.addition? with
        | some (m, c, key) => ∃ x, r = some x ∧ g.Registered t m c key x
        | none => g.KeepsLookups t := by
  intro g
  have hw : Scopes.Wired g.scopes := wired_runAll cs
  refine ⟨fun n s hs => placed_of_wired hw hs, fun hinside => ?_,
    fun n hn c key => lexical_of_wired hw hn c key, fun call r t h => ?_⟩
  · refine runAll_invariant (P := fun g => Anchored g.scopes) cs ?_ ?_
    · intro n hn
      obtain rfl : n = 0 := by simpa using hn
      rfl
    · intro call hcall g r t hg heffect
      exact heffect.anchored (fun name hname => hinside name (hname ▸ hcall)) hg
  · exact ((Call.effect_of_ok h).lookups hw).2

/-- An element inside another. A struct of the schema has a second key in the outer one. -/
def nestedScopes : List Call :=
  [.add 0 .element "A", .add 1 .element "B", .add 0 .struct "S", .addExisting 1 .struct "T" 0]

/-- A new struct in the scope between hides the one of the schema. -/
theorem runAll_lexical_nested :
    let g := runAll {} nestedScopes
    let call : Call := .add 1 .struct "S"
    let t := runAll {} (nestedScopes ++ [call])
    (g.path 2).getLast? = some 0 ∧ g.Lexical 2 .struct "T" ∧ g.find? 2 .struct "T" = some 0 ∧
      g.find? 2 .struct "S" = some 0 ∧ g.Registered t 1 .struct "S" 1 ∧
      t.find? 2 .struct "S" = some 1 ∧ t.find? 0 .struct "S" = some 0 := by
  intro g call t
  obtain ⟨-, hpaths, hlexical, hcalls⟩ := runAll_lexical nestedScopes
  obtain ⟨x, hx, hregistered⟩ := hcalls call (some 1) t rfl
  cases hx
  refine ⟨hpaths (by simp [nestedScopes]) 2 (by decide), hlexical 2 (by decide) _ _, rfl, rfl,
    hregistered, ?_, ?_⟩
  · refine hregistered.find?_new 2 (by decide) ⟨[2], [0], rfl, fun k hk y hy => ?_⟩
    cases List.mem_singleton.mp hk
    exact List.not_mem_nil (show ("S", y) ∈ [] from hy)
  · rw [hregistered.find?_eq 0 (by decide) .struct "S"]
    · rfl
    · rintro ⟨-, -, front, back, hpath, -⟩
      have hone : 1 ∈ g.path 0 := by rw [hpath]; simp
      exact absurd hone (by decide)

end SmlSchema.Graph
