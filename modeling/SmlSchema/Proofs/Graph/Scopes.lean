import SmlSchema.Graph.Call
import SmlSchema.Proofs.Result

/-! # Paths through scopes

From a scope a path leads outwards, to the scope around it and on. The registries of a scope have
links of their own, one for each kind. In scopes that are wired these lead along the path, so that a
lookup finds what the first scope of the path registers that has the key.
-/

namespace SmlSchema.Graph

/-! ## Registries -/

namespace ScopeNode

variable (s : ScopeNode) (f : Registry → Registry)

@[simp] theorem path_modifyRegistry (c : Category) : (s.modifyRegistry f c).path = s.path := by
  cases c <;> rfl

@[simp] theorem owner_modifyRegistry (c : Category) : (s.modifyRegistry f c).owner = s.owner := by
  cases c <;> rfl

@[simp] theorem outer_modifyRegistry (c : Category) : (s.modifyRegistry f c).outer = s.outer := by
  cases c <;> rfl

/-- Changing one registry keeps the others. -/
@[simp] theorem registry_modifyRegistry (c d : Category) :
    (s.modifyRegistry f c).registry d = if d = c then f (s.registry d) else s.registry d := by
  cases c <;> cases d <;> rfl

@[simp] theorem registry_new (path : Path) (owner outer : Option Nat) (c : Category) :
    (new path owner outer).registry c = { outer := outer.map (·, c) } := by
  cases c <;> rfl

/-- The links of the registries lead to the scope around, which is older, and no key stands for two
definitions. -/
structure Wired (s : ScopeNode) (n : Nat) : Prop where
  links : ∀ c, (s.registry c).outer = s.outer.map (·, c)
  older : ∀ m, s.outer = some m → m < n
  keys : ∀ c, ((s.registry c).items.map Prod.fst).Nodup

end ScopeNode

namespace Scopes

variable {ss older : Scopes} {s : ScopeNode} {n m : Nat}

/-! ## Numbers -/

theorem lt_of_at? (h : at? ss n = some s) : n < ss.length := by
  induction ss with
  | nil => cases h
  | cons t older ih =>
      rw [at?] at h
      rw [List.length_cons]
      split at h
      · omega
      · exact Nat.lt_succ_of_lt (ih h)

theorem exists_at? (h : n < ss.length) : ∃ s, at? ss n = some s := by
  induction ss with
  | nil => cases h
  | cons t older ih =>
      rw [at?]
      split
      · exact ⟨t, rfl⟩
      · rw [List.length_cons] at h
        exact ih (by omega)

theorem at?_eq_none (h : ss.length ≤ n) : at? ss n = none := by
  cases hs : at? ss n with
  | none => rfl
  | some s => exact absurd (lt_of_at? hs) (by omega)

@[simp] theorem at?_cons_length (s : ScopeNode) (older : Scopes) :
    at? (s :: older) older.length = some s := by
  rw [at?, if_pos rfl]

theorem at?_cons_of_lt (h : n < older.length) : at? (s :: older) n = at? older n := by
  rw [at?, if_neg (by omega)]

@[simp] theorem length_modify (f : ScopeNode → ScopeNode) (ss : Scopes) (n : Nat) :
    (modify f ss n).length = ss.length := by
  induction ss with
  | nil => rfl
  | cons t older ih =>
      rw [modify]
      split
      · rfl
      · rw [List.length_cons, ih, List.length_cons]

/-- Changing one scope keeps the others. -/
theorem at?_modify (f : ScopeNode → ScopeNode) (ss : Scopes) (n m : Nat) :
    at? (modify f ss n) m = (at? ss m).map fun s => if m = n then f s else s := by
  induction ss with
  | nil => rfl
  | cons t older ih =>
      rw [modify]
      by_cases hn : n = older.length
      · rw [if_pos hn, at?, at?]
        split
        · rw [Option.map_some, if_pos (by omega)]
        · rename_i hm
          rw [hn]
          simp [hm]
      · rw [if_neg hn, at?, at?, length_modify, ih]
        split
        · rw [Option.map_some, if_neg (by omega)]
        · rfl

/-! ## Paths -/

/-- The numbers of the scope and of all scopes around it, from the inside to the outside. -/
def chain : Scopes → Nat → List Nat
  | [], _ => []
  | s :: older, n => if n = older.length then n :: s.outer.elim [] (chain older) else chain older n

/-- All scopes are wired. -/
def Wired (ss : Scopes) : Prop := ∀ n s, at? ss n = some s → s.Wired n

/-- What the scope itself registers under the key. -/
def own? (ss : Scopes) (n : Nat) (c : Category) (key : String) : Option Nat :=
  (items ss n c).lookup key

theorem Wired.tail (h : Wired (s :: older)) : Wired older := by
  intro n t ht
  exact h n t ((at?_cons_of_lt (lt_of_at? ht)).trans ht)

theorem Wired.head (h : Wired (s :: older)) : s.Wired older.length :=
  h older.length s (at?_cons_length s older)

/-- The scopes on a path are there. -/
theorem lt_of_mem_chain (h : m ∈ chain ss n) : m < ss.length := by
  induction ss generalizing n with
  | nil => cases h
  | cons s older ih =>
      rw [chain] at h
      rw [List.length_cons]
      split at h
      · cases houter : s.outer with
        | none =>
            rw [houter, Option.elim_none, List.mem_singleton] at h
            omega
        | some k =>
            rw [houter, Option.elim_some, List.mem_cons] at h
            obtain rfl | h := h
            · omega
            · exact Nat.lt_succ_of_lt (ih h)
      · exact Nat.lt_succ_of_lt (ih h)

/-- The path from a scope of which there are newer ones. -/
theorem chain_cons_of_lt (h : n < older.length) : chain (s :: older) n = chain older n := by
  rw [chain, if_neg (by omega)]

theorem elim_chain_cons {k : Option Nat} (h : ∀ n, k = some n → n < older.length) :
    k.elim [] (chain (s :: older)) = k.elim [] (chain older) := by
  cases k with
  | none => rfl
  | some n => exact chain_cons_of_lt (h n rfl)

/-- The path from a scope goes on with the path from the scope around it. -/
theorem Wired.chain_eq (hw : Wired ss) (hs : at? ss n = some s) :
    chain ss n = n :: s.outer.elim [] (chain ss) := by
  induction ss with
  | nil => cases hs
  | cons t older ih =>
      rw [at?] at hs
      split at hs
      · rename_i hn
        cases hs
        rw [chain, if_pos hn, elim_chain_cons hw.head.older]
      · rename_i hn
        have hlt := lt_of_at? hs
        rw [chain, if_neg hn, ih hw.tail hs, elim_chain_cons]
        intro k hk
        exact Nat.lt_trans ((hw.tail n s hs).older k hk) hlt

/-! ## Lookups along a path -/

variable {c : Category} {key : String}

theorem items_of_at? (h : at? ss n = some s) : items ss n c = (s.registry c).items := by
  rw [items, h, Option.elim_some]

theorem items_cons_of_lt (h : n < older.length) : items (s :: older) n c = items older n c := by
  rw [items, items, at?_cons_of_lt h]

theorem own?_cons_of_lt (h : n < older.length) :
    own? (s :: older) n c key = own? older n c key := by
  rw [own?, own?, items_cons_of_lt h]

/-- A newer scope does not change what is found along older ones. -/
theorem findSome?_own?_cons {l : List Nat} (h : ∀ m ∈ l, m < older.length) :
    l.findSome? (own? (s :: older) · c key) = l.findSome? (own? older · c key) := by
  induction l with
  | nil => rfl
  | cons m l ih =>
      rw [List.findSome?_cons, List.findSome?_cons, own?_cons_of_lt (h m List.mem_cons_self),
        ih fun k hk => h k (List.mem_cons_of_mem m hk)]

/-- A lookup finds what the first scope of the path gives. -/
theorem Wired.find?_eq (hw : Wired ss) (n : Nat) (c : Category) (key : String) :
    find? key ss (n, c) = (chain ss n).findSome? (own? ss · c key) := by
  induction ss generalizing n with
  | nil => rfl
  | cons s older ih =>
      have hrest (k : Nat) : (chain older k).findSome? (own? (s :: older) · c key) =
          find? key older (k, c) := by
        rw [findSome?_own?_cons fun m hm => lt_of_mem_chain hm, ih hw.tail]
      rw [find?, chain]
      split
      · rename_i hn
        have hown : own? (s :: older) n c key = (s.registry c).items.lookup key := by
          rw [own?, hn, items_of_at? (at?_cons_length s older)]
        rw [List.findSome?_cons, hown, hw.head.links]
        cases (s.registry c).items.lookup key with
        | some x => rfl
        | none =>
            cases s.outer with
            | none => rfl
            | some k => exact (hrest k).symm
      · exact (hrest n).symm

theorem isSome_lookup (items : List (String × Nat)) :
    (items.lookup key).isSome = items.any (·.1 == key) := by
  induction items with
  | nil => rfl
  | cons p items ih =>
      rw [List.lookup_cons, List.any_cons, ← ih, BEq.comm (a := key)]
      cases p.1 == key <;> rfl

/-- A registry has a key if a lookup finds something. -/
theorem has_eq_isSome (ss : Scopes) (r : Nat × Category) (key : String) :
    has key ss r = (find? key ss r).isSome := by
  induction ss generalizing r with
  | nil => rfl
  | cons s older ih =>
      obtain ⟨n, c⟩ := r
      rw [has, find?]
      split
      · rw [← isSome_lookup]
        cases (s.registry c).items.lookup key with
        | some x => rfl
        | none =>
            cases (s.registry c).outer with
            | none => rfl
            | some k => exact ih k
      · exact ih (n, c)

/-! ## Changes -/

/-- An empty scope becomes the newest. -/
theorem Wired.cons_new (hw : Wired ss) (path : Path) (owner : Option Nat) {outer : Option Nat}
    (h : ∀ m, outer = some m → m < ss.length) : Wired (.new path owner outer :: ss) := by
  intro n s hs
  rw [at?] at hs
  split at hs
  · rename_i hn
    cases hs
    rw [hn]
    exact ⟨fun c => by rw [ScopeNode.registry_new]; rfl, h, fun c => by simp⟩
  · exact hw n s hs

/-- The path from a new scope goes on with the path from the scope around it. -/
theorem chain_new {path : Path} {owner outer : Option Nat} :
    chain (.new path owner outer :: ss) ss.length = ss.length :: outer.elim [] (chain ss) := by
  rw [chain, if_pos rfl]
  rfl

theorem items_new {path : Path} {owner outer : Option Nat} :
    items (.new path owner outer :: ss) ss.length c = [] := by
  rw [items_of_at? (at?_cons_length _ ss), ScopeNode.registry_new]

@[simp] theorem length_insert (ss : Scopes) (n : Nat) (c : Category) (key : String) (x : Nat) :
    (insert ss n c key x).length = ss.length := length_modify _ ss n

/-- A registration is the last of its scope and kind, and all other registries stay as they are. -/
theorem items_insert (h : n < ss.length) (c : Category) (key : String) (x m : Nat) (d : Category) :
    items (insert ss n c key x) m d =
      if m = n ∧ d = c then items ss m d ++ [(key, x)] else items ss m d := by
  rw [items, items, insert, at?_modify]
  cases hs : at? ss m with
  | none =>
      have hne : ¬ (m = n ∧ d = c) := by
        rintro ⟨rfl, -⟩
        obtain ⟨s, hs'⟩ := exists_at? h
        rw [hs] at hs'
        cases hs'
      rw [if_neg hne]
      rfl
  | some s =>
      by_cases hm : m = n
      · by_cases hd : d = c
        · simp [hm, hd, Registry.add]
        · simp [hm, hd]
      · simp [hm]

/-- Registering does not change paths. -/
theorem chain_insert (ss : Scopes) (n : Nat) (c : Category) (key : String) (x m : Nat) :
    chain (insert ss n c key x) m = chain ss m := by
  induction ss generalizing m with
  | nil => rfl
  | cons s older ih =>
      rw [insert] at ih ⊢
      rw [modify]
      split
      · rw [chain, chain, ScopeNode.outer_modifyRegistry]
      · rw [chain, chain, length_modify, ih]
        cases s.outer with
        | none => rfl
        | some k => rw [Option.elim_some, Option.elim_some, ih]

/-- Registering under a free key keeps scopes wired. -/
theorem Wired.insert (hw : Wired ss) (hfree : own? ss n c key = none) (x : Nat) :
    Wired (insert ss n c key x) := by
  intro m s hs
  rw [Scopes.insert, at?_modify] at hs
  obtain ⟨t, ht, rfl⟩ := Option.map_eq_some_iff.mp hs
  have hwired := hw m t ht
  split
  · rename_i hm
    subst hm
    rw [own?, items_of_at? ht, List.lookup_eq_none_iff] at hfree
    refine ⟨fun d => ?_, fun k hk => ?_, fun d => ?_⟩
    · rw [ScopeNode.registry_modifyRegistry, ScopeNode.outer_modifyRegistry, ← hwired.links]
      split <;> rfl
    · exact hwired.older k ((t.outer_modifyRegistry _ c).symm.trans hk)
    · rw [ScopeNode.registry_modifyRegistry]
      split
      · rename_i hd
        subst hd
        rw [Registry.add, List.map_append, List.map_singleton, List.nodup_append]
        refine ⟨hwired.keys d, by simp, fun a ha b hb => ?_⟩
        obtain ⟨p, hp, rfl⟩ := List.mem_map.mp ha
        cases List.mem_singleton.mp hb
        exact (bne_iff_ne.mp (hfree p hp)).symm
      · exact hwired.keys d
  · exact hwired

end Scopes

end SmlSchema.Graph
