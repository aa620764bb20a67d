import Mathlib.Data.List.Forall2
import SmlSchema.Proofs.Line.Scanning

/-! # The grammar of documents

An element is a row with its name alone, then rows of attributes and elements in any order, then a
row with the end keyword alone. The name keeps apart from the keyword, and the keyword may stand in
any letter case. `Derivation` is the type of the derivations in this grammar. Rows are read exactly
if they have a derivation whose end keyword is the last row, the tree is that of the derivation, and
no rows have two derivations.
-/

namespace SmlSchema.Document

open Line (Cell)

/-! ## Derivations -/

/-- How a node is derived from rows, where `k` is the end keyword. -/
inductive Derivation (k : Cell) where
  | attribute (a : Attribute)
  | element (name : String) (parts : List (Derivation k)) (close : Cell)
      (apart : some (Text.lower name) ≠ k.map Text.lower)
      (closes : close.map Text.lower = k.map Text.lower)

namespace Derivation

variable {k : Cell}

mutual

/-- The rows that the node is derived from. -/
def rows : Derivation k → List (List Cell)
  | .attribute a => [some a.name :: a.values]
  | .element name parts close _ _ => [some name] :: (rowsOfAll parts ++ [[close]])
termination_by structural t => t

def rowsOfAll : List (Derivation k) → List (List Cell)
  | [] => []
  | t :: ts => t.rows ++ rowsOfAll ts
termination_by structural ts => ts

end

mutual

/-- The node that is derived. -/
def node : Derivation k → Node
  | .attribute a => .attribute a
  | .element name parts _ _ _ => .element name (nodesOfAll parts)
termination_by structural t => t

def nodesOfAll : List (Derivation k) → List Node
  | [] => []
  | t :: ts => t.node :: nodesOfAll ts
termination_by structural ts => ts

end

theorem rowsOfAll_concat (ts : List (Derivation k)) (t : Derivation k) :
    rowsOfAll (ts ++ [t]) = rowsOfAll ts ++ t.rows := by
  induction ts with
  | nil => simp [rowsOfAll]
  | cons u ts ih => simp [rowsOfAll, ih]

theorem nodesOfAll_concat (ts : List (Derivation k)) (t : Derivation k) :
    nodesOfAll (ts ++ [t]) = nodesOfAll ts ++ [t.node] := by
  induction ts with
  | nil => simp [nodesOfAll]
  | cons u ts ih => simp [nodesOfAll, ih]

/-! ### One derivation for some rows -/

/-- No derivation starts with an end. -/
theorem rows_ne_close (t : Derivation k) {close : Cell}
    (h : close.map Text.lower = k.map Text.lower) (r q : List (List Cell)) :
    t.rows ++ r ≠ [close] :: q := by
  intro heq
  match t with
  | .attribute a =>
      rw [rows, List.singleton_append] at heq
      exact a.values_ne_nil (List.cons.inj (List.cons.inj heq).1).2
  | .element name parts close' apart closes =>
      rw [rows, List.cons_append] at heq
      have hname : some name = close := (List.cons.inj (List.cons.inj heq).1).1
      rw [← hname] at h
      exact apart h

mutual

/-- A derivation is told from the rows that follow it. -/
theorem rows_inj : ∀ (t u : Derivation k) (r q : List (List Cell)),
    t.rows ++ r = u.rows ++ q → t = u ∧ r = q
  | .attribute a, .attribute b, r, q, h => by
      rw [rows, rows, List.singleton_append, List.singleton_append] at h
      obtain ⟨hrow, hrest⟩ := List.cons.inj h
      obtain ⟨hname, hvalues⟩ := List.cons.inj hrow
      refine ⟨?_, hrest⟩
      obtain ⟨name, values, hne⟩ := a
      obtain ⟨name', values', hne'⟩ := b
      cases hname
      cases hvalues
      rfl
  | .attribute a, .element name parts close _ _, r, q, h => by
      rw [rows, rows, List.singleton_append, List.cons_append] at h
      exact absurd (List.cons.inj (List.cons.inj h).1).2 a.values_ne_nil
  | .element name parts close _ _, .attribute b, r, q, h => by
      rw [rows, rows, List.singleton_append, List.cons_append] at h
      exact absurd (List.cons.inj (List.cons.inj h).1).2.symm b.values_ne_nil
  | .element name parts close _ closes, .element name' parts' close' _ closes', r, q, h => by
      rw [rows, rows, List.cons_append, List.cons_append, List.append_assoc, List.append_assoc] at h
      obtain ⟨hrow, hafter⟩ := List.cons.inj h
      cases hrow
      obtain ⟨rfl, rfl, hrest⟩ := rowsOfAll_inj parts parts' closes closes' r q hafter
      exact ⟨rfl, hrest⟩

/-- Derivations are told from the end that follows them. -/
theorem rowsOfAll_inj : ∀ (ts us : List (Derivation k)) {c d : Cell}
    (_ : c.map Text.lower = k.map Text.lower) (_ : d.map Text.lower = k.map Text.lower)
    (r q : List (List Cell)),
    rowsOfAll ts ++ [c] :: r = rowsOfAll us ++ [d] :: q → ts = us ∧ c = d ∧ r = q
  | [], [], c, d, _, _, r, q, h => by
      obtain ⟨hrow, hrest⟩ := List.cons.inj h
      exact ⟨rfl, (List.cons.inj hrow).1, hrest⟩
  | [], u :: us, c, d, hc, _, r, q, h => by
      rw [rowsOfAll, rowsOfAll, List.append_assoc] at h
      exact absurd h.symm (u.rows_ne_close hc _ _)
  | t :: ts, [], c, d, _, hd, r, q, h => by
      rw [rowsOfAll, rowsOfAll, List.append_assoc] at h
      exact absurd h (t.rows_ne_close hd _ _)
  | t :: ts, u :: us, c, d, hc, hd, r, q, h => by
      rw [rowsOfAll, rowsOfAll, List.append_assoc, List.append_assoc] at h
      obtain ⟨rfl, hafter⟩ := rows_inj t u _ _ h
      obtain ⟨rfl, hclose, hrest⟩ := rowsOfAll_inj ts us hc hd r q hafter
      exact ⟨rfl, hclose, hrest⟩

end

end Derivation

/-- The rows are those of the document: the last one is its end keyword alone, and its root is
derived from them. -/
def Derives (rows : List (List Cell)) (d : Document) : Prop :=
  rows.getLast? = some [d.endKeyword] ∧
    ∃ t : Derivation d.endKeyword, t.rows = rows ∧ t.node = d.root.toNode

/-! ## Steps of the reader -/

/-- Cells are the same if they are equal up to letter case or both null. -/
theorem sameCell_iff {a b : Cell} : sameCell a b ↔ a.map Text.lower = b.map Text.lower := by
  cases a <;> cases b <;> simp [sameCell, Text.sameName]

namespace Progress

variable {k : Cell}

/-- What a step can do: nothing for a row without cells, or open an element, close one or add an
attribute. -/
theorem step_cases {cells : List Cell} {p q : Progress} (h : p.step k cells = .ok q) :
    (cells = [] ∧ q = p) ∨
      (∃ name, cells = [some name] ∧ sameCell (some name) k = false ∧ p.opening name = .ok q) ∨
      (∃ close, cells = [close] ∧ sameCell close k ∧ p.closing = .ok q) ∨
      ∃ a : Attribute, cells = some a.name :: a.values ∧ p.adding a = .ok q := by
  unfold step at h
  split at h
  · cases h
  · cases h
    exact .inl ⟨rfl, rfl⟩
  · rename_i cell _
    by_cases hend : sameCell cell k = true
    · rw [if_pos hend] at h
      exact .inr (.inr (.inl ⟨cell, rfl, hend, h⟩))
    · rw [if_neg hend] at h
      cases cell with
      | none => cases h
      | some name => exact .inr (.inl ⟨name, rfl, by simpa using hend, h⟩)
  · cases h
  · exact .inr (.inr (.inr ⟨_, rfl, h⟩))

/-- A row with one name opens an element, unless it is the end keyword. -/
theorem step_opening {name : String} (h : sameCell (some name) k = false) (p : Progress) :
    p.step k [some name] = p.opening name := by
  cases p <;> simp [step, h, opening]

/-- A row with the end keyword closes an element. -/
theorem step_closing {close : Cell} (h : sameCell close k) (p : Progress) :
    p.step k [close] = p.closing := by
  cases p <;> simp [step, h, closing]

/-- A row with values adds an attribute. -/
theorem step_attribute (a : Attribute) (p : Progress) :
    p.step k (some a.name :: a.values) = p.adding a := by
  obtain ⟨name, values, hne⟩ := a
  obtain ⟨v, vs, rfl⟩ := List.exists_cons_of_ne_nil hne
  cases p <;> rfl

/-- The steps of a run without the numbers of the lines. -/
def steps (endKeyword : Cell) (p : Progress) (rows : List (List Cell)) : Except Flaw Progress :=
  rows.foldlM (fun p cells => p.step endKeyword cells) p

theorem steps_cons (k : Cell) (p : Progress) (cells : List Cell) (rows : List (List Cell)) :
    steps k p (cells :: rows) = p.step k cells >>= fun q => steps k q rows :=
  List.foldlM_cons ..

/-- Rows are taken one part after the other. -/
theorem steps_append (k : Cell) (p : Progress) (a b : List (List Cell)) :
    steps k p (a ++ b) = steps k p a >>= fun q => steps k q b :=
  List.foldlM_append ..

/-- Reading rows is taking the steps of their cells. -/
theorem run_eq_ok {k : Cell} {p q : Progress} {rows : List Row} :
    p.run k rows = .ok q ↔ steps k p (rows.map (·.cells)) = .ok q := by
  induction rows generalizing p with
  | nil => simp [run, steps]
  | cons row rows ih =>
      rw [run, List.map_cons, steps_cons]
      cases p.step k row.cells with
      | error flaw => simp
      | ok r => exact ih

end Progress

/-- Rows are read as a document if the last one is its end keyword alone and the steps over all of
them end with its root. -/
theorem ofRows_eq_ok {rs : List Row} {d : Document} :
    ofRows rs = .ok d ↔ (rs.map (·.cells)).getLast? = some [d.endKeyword] ∧
      Progress.steps d.endKeyword .before (rs.map (·.cells)) = .ok (.after d.root) := by
  obtain ⟨root, k⟩ := d
  rw [List.getLast?_map, ← Progress.run_eq_ok, ofRows]
  cases rs.getLast? with
  | none => simp
  | some last =>
      obtain ⟨line, cells⟩ := last
      match cells with
      | [] => simp
      | [keyword] =>
          simp only [bind_eq_ok, Option.map_some, Option.some.injEq, List.cons.injEq, and_true]
          constructor
          · rintro ⟨q, hq, h⟩
            cases q with
            | before => cases h
            | inside u us => cases h
            | after root =>
                cases h
                exact ⟨rfl, hq⟩
          · rintro ⟨rfl, hrun⟩
            exact ⟨_, hrun, rfl⟩
      | _ :: _ :: _ => simp

/-! ## Reading rows that have a derivation -/

namespace Derivation

variable {k : Cell}

/-- An element is opened, filled with its parts and closed. -/
theorem steps_element {name : String} {parts : List (Derivation k)} {close : Cell}
    {apart : some (Text.lower name) ≠ k.map Text.lower}
    {closes : close.map Text.lower = k.map Text.lower} {p : Progress} {us : List Unclosed}
    (hopen : p.opening name = .ok (.inside { name } us))
    (hparts : Progress.steps k (.inside { name } us) (rowsOfAll parts) =
      .ok (.inside ⟨name, (nodesOfAll parts).reverse ++ []⟩ us)) :
    Progress.steps k p (element name parts close apart closes).rows =
      Progress.closing (.inside ⟨name, (nodesOfAll parts).reverse⟩ us) := by
  have hname : sameCell (some name) k = false := by
    rw [← Bool.not_eq_true, sameCell_iff]
    exact apart
  rw [rows, Progress.steps_cons, Progress.step_opening hname, hopen, ok_bind,
    Progress.steps_append, hparts, ok_bind, List.append_nil, Progress.steps_cons,
    Progress.step_closing (sameCell_iff.mpr closes)]
  exact bind_pure _

mutual

/-- The rows of a derivation add its node to the innermost element. -/
theorem steps_rows : ∀ (t : Derivation k) (u : Unclosed) (us : List Unclosed),
    Progress.steps k (.inside u us) t.rows = .ok (.inside (u.add t.node) us)
  | .attribute a, u, us => by
      rw [rows, Progress.steps_cons, Progress.step_attribute]
      rfl
  | .element name parts close apart closes, u, us => by
      rw [steps_element rfl (steps_rowsOfAll parts { name } (u :: us)), Progress.closing]
      simp [Unclosed.element, Element.toNode, node]

/-- The rows of derivations add their nodes to the open element. -/
theorem steps_rowsOfAll : ∀ (ts : List (Derivation k)) (u : Unclosed) (us : List Unclosed),
    Progress.steps k (.inside u us) (rowsOfAll ts) =
      .ok (.inside ⟨u.name, (nodesOfAll ts).reverse ++ u.nodes⟩ us)
  | [], u, us => rfl
  | t :: ts, u, us => by
      rw [rowsOfAll, Progress.steps_append, steps_rows t u us, ok_bind,
        steps_rowsOfAll ts (u.add t.node) us]
      simp [Unclosed.add, nodesOfAll]

end

/-- The rows of an element alone make it the root. -/
theorem steps_root {t : Derivation k} {root : Element} (h : t.node = root.toNode) :
    Progress.steps k .before t.rows = .ok (.after root) := by
  match t with
  | .attribute a => cases h
  | .element name parts close apart closes =>
      have hroot : root = ⟨name, nodesOfAll parts⟩ := by
        obtain ⟨rootName, nodes⟩ := root
        cases h
        rfl
      rw [steps_element rfl (steps_rowsOfAll parts { name } []), Progress.closing, hroot]
      simp [Unclosed.element]

end Derivation

/-! ## The derivation of rows that were read -/

/-- The rows behind a stack of elements that are not closed: each has been opened by its name, and
the nodes that it holds so far have been derived. The innermost one comes first on the stack and
last in the rows. -/
inductive Opened (k : Cell) : List Unclosed → List (List Cell) → Prop
  | nil : Opened k [] []
  | cons {us : List Unclosed} {rows : List (List Cell)} (name : String)
      (parts : List (Derivation k)) (outer : Opened k us rows)
      (apart : some (Text.lower name) ≠ k.map Text.lower) :
      Opened k (⟨name, (Derivation.nodesOfAll parts).reverse⟩ :: us)
        (rows ++ [some name] :: Derivation.rowsOfAll parts)

namespace Opened

variable {k : Cell} {u : Unclosed} {us : List Unclosed} {rows : List (List Cell)}

/-- A derivation goes to the innermost element. -/
theorem add (h : Opened k (u :: us) rows) (t : Derivation k) :
    Opened k (u.add t.node :: us) (rows ++ t.rows) := by
  cases h with
  | cons name parts outer apart =>
      have hnext := Opened.cons name (parts ++ [t]) outer apart
      rw [Derivation.nodesOfAll_concat, Derivation.rowsOfAll_concat, List.reverse_concat] at hnext
      rw [List.append_assoc, List.cons_append]
      exact hnext

/-- The rows of the innermost element are those of a derivation once it is closed. -/
theorem close (h : Opened k (u :: us) rows) {cell : Cell}
    (hcell : cell.map Text.lower = k.map Text.lower) :
    ∃ outer, ∃ t : Derivation k, Opened k us outer ∧ t.node = u.element.toNode ∧
      rows ++ [[cell]] = outer ++ t.rows := by
  cases h with
  | @cons _ outer name parts houter apart =>
      refine ⟨outer, .element name parts cell apart hcell, houter, ?_, ?_⟩
      · simp [Derivation.node, Unclosed.element, Element.toNode]
      · simp [Derivation.rows]

end Opened

namespace Progress

variable {k : Cell} {p q : Progress} {rows : List (List Cell)}

/-- What the rows so far are, by how far the tree has grown. -/
def Consumed (k : Cell) : Progress → List (List Cell) → Prop
  | .before, rows => rows = []
  | .inside u us, rows => Opened k (u :: us) rows
  | .after root, rows => ∃ t : Derivation k, t.rows = rows ∧ t.node = root.toNode

/-- An element that is opened is open in what has been consumed. -/
theorem Consumed.opening (h : p.Consumed k rows) {name : String}
    (apart : some (Text.lower name) ≠ k.map Text.lower) (hq : p.opening name = .ok q) :
    q.Consumed k (rows ++ [[some name]]) := by
  cases p with
  | before =>
      cases hq
      cases h
      exact Opened.cons name [] Opened.nil apart
  | inside u us =>
      cases hq
      exact Opened.cons name [] h apart
  | after root => cases hq

/-- An element that is closed is a node of the one around it in what has been consumed. -/
theorem Consumed.closing (h : p.Consumed k rows) {cell : Cell}
    (closes : cell.map Text.lower = k.map Text.lower) (hq : p.closing = .ok q) :
    q.Consumed k (rows ++ [[cell]]) := by
  cases p with
  | before => cases hq
  | inside u us =>
      obtain ⟨outer, t, houter, hnode, hrows⟩ := Opened.close h closes
      rw [hrows]
      cases us with
      | nil =>
          cases hq
          cases houter
          exact ⟨t, rfl, hnode⟩
      | cons v vs =>
          cases hq
          rw [← hnode]
          exact houter.add t
  | after root => cases hq

/-- An attribute that is added is a node of what has been consumed. -/
theorem Consumed.adding (h : p.Consumed k rows) {a : Attribute} (hq : p.adding a = .ok q) :
    q.Consumed k (rows ++ [some a.name :: a.values]) := by
  cases p with
  | before => cases hq
  | inside u us =>
      cases hq
      exact Opened.add h (.attribute a)
  | after root => cases hq

/-- A step consumes its row. -/
theorem Consumed.step (h : p.Consumed k rows) {cells : List Cell} (hne : cells ≠ [])
    (hq : p.step k cells = .ok q) : q.Consumed k (rows ++ [cells]) := by
  rcases step_cases hq with ⟨hnil, -⟩ | ⟨name, rfl, hname, hnext⟩ | ⟨close, rfl, hclose, hnext⟩ |
    ⟨a, rfl, hnext⟩
  · exact absurd hnil hne
  · rw [← Bool.not_eq_true, sameCell_iff] at hname
    exact h.opening hname hnext
  · exact h.closing (sameCell_iff.mp hclose) hnext
  · exact h.adding hnext

/-- A run consumes all its rows. -/
theorem Consumed.steps (h : p.Consumed k rows) {more : List (List Cell)}
    (hne : ∀ row ∈ more, row ≠ []) (hq : Progress.steps k p more = .ok q) :
    q.Consumed k (rows ++ more) := by
  induction more generalizing p rows with
  | nil =>
      cases hq
      rwa [List.append_nil]
  | cons cells more ih =>
      rw [steps_cons] at hq
      obtain ⟨r, hr, hq⟩ := bind_eq_ok.mp hq
      rw [List.append_cons]
      exact ih (h.step (hne cells (by simp)) hr) (fun row hrow => hne row (by simp [hrow])) hq

end Progress

/-- Rows that hold cells are read exactly as the documents that they derive. -/
theorem ofRows_iff_derives {rs : List Row} (hne : ∀ row ∈ rs.map (·.cells), row ≠ [])
    {d : Document} : ofRows rs = .ok d ↔ Derives (rs.map (·.cells)) d := by
  rw [ofRows_eq_ok]
  refine and_congr_right fun _ => ?_
  constructor
  · intro hsteps
    have hstart : Progress.Consumed d.endKeyword .before [] := rfl
    exact hstart.steps hne hsteps
  · rintro ⟨t, hrows, hnode⟩
    rw [← hrows]
    exact t.steps_root hnode

/-! ## From lines to rows -/

/-- The lines can all be read, and those that are not blank hold the rows. -/
def Hold (ls : List (List Char)) (rows : List (List Cell)) : Prop :=
  ∃ all, List.Forall₂ (fun l cells => Line.readChars l = .ok cells) ls all ∧
    all.filter (· ≠ []) = rows

/-- The rows of lines that hold them can be read. -/
theorem rowsFrom_eq_ok {texts : List (List Char)} {rows : List (List Cell)} (h : Hold texts rows)
    (line : Nat) :
    ∃ rs, rowsFrom line (texts.map String.ofList) = .ok rs ∧ rs.map (·.cells) = rows := by
  obtain ⟨all, hall, rfl⟩ := h
  induction hall generalizing line with
  | nil => exact ⟨[], rfl, rfl⟩
  | @cons l cells ls all hl _ ih =>
      obtain ⟨rs, hrs, hcells⟩ := ih (line + 1)
      have hread : readLine (String.ofList l) (some line) = .ok cells := by
        rwa [Line.readLine_eq_ok, String.toList_ofList]
      rw [List.map_cons, rowsFrom, hread, ok_bind, hrs, ok_bind, pure_eq_ok]
      by_cases hne : cells = []
      · exact ⟨rs, by rw [if_pos hne], by simpa [hne] using hcells⟩
      · exact ⟨⟨line, cells⟩ :: rs, by rw [if_neg hne], by simpa [hne] using hcells⟩

/-- Rows that were read are held by the lines. -/
theorem hold_of_rowsFrom {texts : List (List Char)} {line : Nat} {rs : List Row}
    (h : rowsFrom line (texts.map String.ofList) = .ok rs) : Hold texts (rs.map (·.cells)) := by
  induction texts generalizing line rs with
  | nil =>
      cases h
      exact ⟨[], .nil, rfl⟩
  | cons t texts ih =>
      rw [List.map_cons, rowsFrom] at h
      obtain ⟨cells, hcells, h⟩ := bind_eq_ok.mp h
      obtain ⟨more, hmore, h⟩ := bind_eq_ok.mp h
      obtain ⟨all, hall, hfilter⟩ := ih hmore
      rw [Line.readLine_eq_ok, String.toList_ofList] at hcells
      rw [pure_eq_ok, Except.ok.injEq] at h
      refine ⟨cells :: all, .cons hcells hall, ?_⟩
      rw [List.filter_cons, hfilter, ← h]
      by_cases hne : cells = []
      · simp [hne]
      · simp [hne]

theorem Hold.rows_ne_nil {ls : List (List Char)} {rows : List (List Cell)} (h : Hold ls rows) :
    ∀ row ∈ rows, row ≠ [] := by
  obtain ⟨all, -, rfl⟩ := h
  intro row hrow
  simpa using (List.mem_filter.mp hrow).2

/-- Every row is read from a line. -/
theorem Hold.exists_line {ls : List (List Char)} {rows : List (List Cell)} (h : Hold ls rows)
    {row : List Cell} (hrow : row ∈ rows) : ∃ l ∈ ls, Line.readChars l = .ok row := by
  obtain ⟨all, hall, rfl⟩ := h
  have hmem : row ∈ all := List.mem_of_mem_filter hrow
  clear hrow
  induction hall with
  | nil => cases hmem
  | @cons l cells ls all hl _ ih =>
      rcases List.mem_cons.mp hmem with rfl | hmem
      · exact ⟨l, List.mem_cons_self, hl⟩
      · obtain ⟨k, hk, hread⟩ := ih hmem
        exact ⟨k, List.mem_cons_of_mem l hk, hread⟩

/-- A text whose lines hold rows is read as the documents that the rows derive. -/
theorem parse_eq_ok_of_hold {text : String} {rows : List (List Cell)}
    (h : Hold (Text.lineChars text.toList) rows) {d : Document} :
    parse text = .ok d ↔ Derives rows d := by
  obtain ⟨rs, hrs, rfl⟩ := rowsFrom_eq_ok h 1
  rw [parse, Text.lines, hrs, ok_bind, ofRows_iff_derives h.rows_ne_nil]

/-- A text that is read as a document has lines that hold the rows of the document. -/
theorem exists_hold_of_parse {text : String} {d : Document} (h : parse text = .ok d) :
    ∃ rows, Hold (Text.lineChars text.toList) rows ∧ Derives rows d := by
  obtain ⟨rs, hrs, -⟩ := bind_eq_ok.mp h
  have hhold := hold_of_rowsFrom hrs
  exact ⟨_, hhold, (parse_eq_ok_of_hold hhold).mp h⟩

/-- A text with a comment, an empty line and ends in two spellings. -/
def mixedText : String := "Root # one\n\tA \"x\"\"y\" -\r\n\n  Inner\neNd\n B 1\nEND"

def mixedRows : List (List Cell) :=
  [[some "Root"], [some "A", some "x\"y", none], [some "Inner"], [some "eNd"],
    [some "B", some "1"], [some "END"]]

def mixedDocument : Document where
  root := ⟨"Root", [.attribute ⟨"A", [some "x\"y", none], by simp⟩, .element "Inner" [],
    .attribute ⟨"B", [some "1"], by simp⟩]⟩
  endKeyword := some "END"

/-- The lines of the mixed text hold the mixed rows. -/
theorem hold_mixedText : Hold (Text.lineChars mixedText.toList) mixedRows := by
  have hlines : Text.lineChars mixedText.toList = ["Root # one".toList,
      "\tA \"x\"\"y\" -".toList, [], "  Inner".toList, "eNd".toList, " B 1".toList,
      "END".toList] := by decide
  rw [hlines]
  refine ⟨[[some "Root"], [some "A", some "x\"y", none], [], [some "Inner"], [some "eNd"],
    [some "B", some "1"], [some "END"]], ?_, rfl⟩
  repeat constructor

/-- The mixed rows derive the mixed document. -/
theorem derives_mixedDocument : Derives mixedRows mixedDocument := by
  refine ⟨rfl, .element "Root" [.attribute ⟨"A", [some "x\"y", none], by simp⟩,
    .element "Inner" [] (some "eNd") ?_ ?_, .attribute ⟨"B", [some "1"], by simp⟩]
    (some "END") ?_ rfl, rfl, rfl⟩
  all_goals decide

/-- A text whose lines can all be read is a document exactly if its rows have a derivation that ends
with the end keyword of the document, and its tree is that of the derivation. There is no more than
one, and without one the text is refused. -/
theorem parse_iff_derives {text : String} {rows : List (List Cell)}
    (h : Hold (Text.lineChars text.toList) rows) :
    (∀ d, parse text = .ok d ↔ Derives rows d) ∧
      (∀ k, ∀ t u : Derivation k, t.rows = rows → u.rows = rows → t = u) ∧
      ((∀ d, ¬ Derives rows d) → ∃ e, parse text = .error e) := by
  refine ⟨fun d => parse_eq_ok_of_hold h, fun k t u ht hu => ?_, fun hnone => ?_⟩
  · have heq : t.rows ++ [] = u.rows ++ [] := by rw [ht, hu]
    exact (t.rows_inj u [] [] heq).1
  · cases hparse : parse text with
    | ok d => exact absurd ((parse_eq_ok_of_hold h).mp hparse) (hnone d)
    | error e => exact ⟨e, rfl⟩

/-- The text is read although its ends are spelled in different letter case. -/
theorem parse_iff_derives_mixed :
    Hold (Text.lineChars mixedText.toList) mixedRows ∧ parse mixedText = .ok mixedDocument :=
  ⟨hold_mixedText, ((parse_iff_derives hold_mixedText).1 _).mpr derives_mixedDocument⟩

end SmlSchema.Document
