import Mathlib.Algebra.Ring.Int.Defs
import SmlSchema.Document.Printer
import SmlSchema.Proofs.Document.Grammar
import SmlSchema.Proofs.Line.LineEnds

/-! # Reading a document that was written

A document is read back exactly if no element has a name that is taken for the end keyword and no
text holds a line end other than the line feed. Every other document is refused: a foreign line end
leaves a line that breaks off, and an element that looks like an end closes more elements than were
opened.
-/

namespace SmlSchema

open Line (Cell)

mutual

/-- The names of a node and of all nodes inside it that are elements. -/
def Node.elementNames : Node → List String
  | .element name nodes => name :: Node.elementNamesOfAll nodes
  | .attribute _ => []
termination_by structural n => n

def Node.elementNamesOfAll : List Node → List String
  | [] => []
  | n :: ns => n.elementNames ++ Node.elementNamesOfAll ns
termination_by structural ns => ns

end

mutual

/-- All names and values of a node and of the nodes inside it. -/
def Node.texts : Node → List String
  | .element name nodes => name :: Node.textsOfAll nodes
  | .attribute a => a.name :: a.values.filterMap id
termination_by structural n => n

def Node.textsOfAll : List Node → List String
  | [] => []
  | n :: ns => n.texts ++ Node.textsOfAll ns
termination_by structural ns => ns

end

namespace Document

/-- All names and values of a document, with its end keyword. -/
def texts (d : Document) : List String := d.root.toNode.texts ++ d.endKeyword.toList

/-- No element of the document is taken for an end. -/
def EndsApart (d : Document) : Prop :=
  ∀ name ∈ d.root.toNode.elementNames, sameCell (some name) d.endKeyword = false

/-- No text of the document holds a line end other than the line feed. -/
def LinesKept (d : Document) : Prop := ∀ s ∈ d.texts, Text.hasForeignEnd s = false

end Document

/-! ## Rows of a tree -/

mutual

/-- The rows of cells that a node is written as. -/
def Node.rows (endKeyword : Cell) : Node → List (List Cell)
  | .element name nodes => [some name] :: (Node.rowsOfAll endKeyword nodes ++ [[endKeyword]])
  | .attribute a => [some a.name :: a.values]
termination_by structural n => n

def Node.rowsOfAll (endKeyword : Cell) : List Node → List (List Cell)
  | [] => []
  | n :: ns => n.rows endKeyword ++ Node.rowsOfAll endKeyword ns
termination_by structural ns => ns

end

/-- The line holds the row behind blanks. -/
def Shows (line : String) (cells : List Cell) : Prop :=
  ∃ margin, (∀ c ∈ margin, Text.isBlank c) ∧ line.toList = margin ++ Line.rowText cells

/-- A written row shows its cells behind any margin of blanks. -/
theorem Shows.write {margin : String} (hm : ∀ c ∈ margin.toList, Text.isBlank c)
    (cells : List Cell) : Shows (margin ++ Line.write cells) cells :=
  ⟨margin.toList, hm, by rw [String.toList_append, Line.toList_write]⟩

theorem Shows.writeCell {margin : String} (hm : ∀ c ∈ margin.toList, Text.isBlank c) (cell : Cell) :
    Shows (margin ++ Line.writeCell cell) [cell] :=
  ⟨margin.toList, hm, by simp [Line.writeCell]⟩

mutual

/-- The lines of a node show its rows. -/
theorem Node.lines_show (endKeyword : Cell) {indentation : String}
    (hi : ∀ c ∈ indentation.toList, Text.isBlank c) {margin : String}
    (hm : ∀ c ∈ margin.toList, Text.isBlank c) :
    ∀ n : Node, List.Forall₂ Shows (n.lines endKeyword indentation margin) (n.rows endKeyword)
  | .element name nodes => by
      have hinner : ∀ c ∈ (margin ++ indentation).toList, Text.isBlank c := by
        intro c hc
        rw [String.toList_append, List.mem_append] at hc
        exact hc.elim (hm c) (hi c)
      rw [Node.lines, Node.rows]
      refine .cons (.writeCell hm _) ?_
      exact List.rel_append (Node.linesOfAll_show endKeyword hi hinner nodes)
        (.cons (.writeCell hm _) .nil)
  | .attribute a => by
      rw [Node.lines, Node.rows]
      exact .cons (.write hm _) .nil

theorem Node.linesOfAll_show (endKeyword : Cell) {indentation : String}
    (hi : ∀ c ∈ indentation.toList, Text.isBlank c) {margin : String}
    (hm : ∀ c ∈ margin.toList, Text.isBlank c) :
    ∀ ns : List Node,
      List.Forall₂ Shows (Node.linesOfAll endKeyword indentation margin ns)
        (Node.rowsOfAll endKeyword ns)
  | [] => .nil
  | n :: ns => by
      rw [Node.linesOfAll, Node.rowsOfAll]
      exact List.rel_append (Node.lines_show endKeyword hi hm n)
        (Node.linesOfAll_show endKeyword hi hm ns)

end

mutual

/-- No row of a node is empty. -/
theorem Node.rows_ne_nil (endKeyword : Cell) : ∀ n : Node, ∀ row ∈ n.rows endKeyword, row ≠ []
  | .element name nodes => by
      intro row hrow
      rw [Node.rows, List.mem_cons, List.mem_append, List.mem_singleton] at hrow
      rcases hrow with rfl | hrow | rfl
      · simp
      · exact Node.rowsOfAll_ne_nil endKeyword nodes row hrow
      · simp
  | .attribute a => by
      intro row hrow
      rw [Node.rows, List.mem_singleton] at hrow
      simp [hrow]

theorem Node.rowsOfAll_ne_nil (endKeyword : Cell) :
    ∀ ns : List Node, ∀ row ∈ Node.rowsOfAll endKeyword ns, row ≠ []
  | [] => by simp [Node.rowsOfAll]
  | n :: ns => by
      intro row hrow
      rw [Node.rowsOfAll, List.mem_append] at hrow
      exact hrow.elim (Node.rows_ne_nil endKeyword n row) (Node.rowsOfAll_ne_nil endKeyword ns row)

end

mutual

/-- The cells of the rows are the texts of the node and its end keyword. -/
theorem Node.mem_rows (endKeyword : Cell) (s : String) :
    ∀ n : Node, (∃ row ∈ n.rows endKeyword, some s ∈ row) ↔
      s ∈ n.texts ∨ endKeyword = some s ∧ n.elementNames ≠ []
  | .element name nodes => by
      have ih := Node.mem_rowsOfAll endKeyword s nodes
      simp only [Node.rows, Node.texts, Node.elementNames, List.mem_cons, List.mem_append,
        List.not_mem_nil, or_false, or_and_right, exists_or, exists_eq_left,
        Option.some.injEq, ih, ne_eq, reduceCtorEq, not_false_eq_true, and_true]
      grind
  | .attribute a => by
      simp [Node.rows, Node.texts, Node.elementNames, List.mem_filterMap]

/-- The texts in the rows of nodes are those of the nodes and, if there is an element, the end
keyword. -/
theorem Node.mem_rowsOfAll (endKeyword : Cell) (s : String) :
    ∀ ns : List Node, (∃ row ∈ Node.rowsOfAll endKeyword ns, some s ∈ row) ↔
      s ∈ Node.textsOfAll ns ∨ endKeyword = some s ∧ Node.elementNamesOfAll ns ≠ []
  | [] => by simp [Node.rowsOfAll, Node.textsOfAll, Node.elementNamesOfAll]
  | n :: ns => by
      have ih := Node.mem_rows endKeyword s n
      have ihs := Node.mem_rowsOfAll endKeyword s ns
      simp only [Node.rowsOfAll, Node.textsOfAll, Node.elementNamesOfAll, List.mem_append,
        or_and_right, exists_or, ih, ihs, ne_eq, List.append_eq_nil_iff, not_and_or]
      grind

end

/-! ## From lines to rows -/

namespace Document

/-- Two parts of a text hold the rows of both. -/
theorem Hold.append {a b : List (List Char)} {rows more : List (List Cell)} (ha : Hold a rows)
    (hb : Hold b more) : Hold (a ++ b) (rows ++ more) := by
  obtain ⟨all, hall, rfl⟩ := ha
  obtain ⟨all', hall', rfl⟩ := hb
  exact ⟨all ++ all', List.rel_append hall hall', List.filter_append ..⟩

/-- Blank lines hold no rows. -/
theorem Hold.blank {ls : List (List Char)} (h : ∀ l ∈ ls, Line.readChars l = .ok []) :
    Hold ls [] := by
  refine ⟨ls.map fun _ => [], ?_, by simp⟩
  rw [List.forall₂_map_right_iff, List.forall₂_same]
  exact h

/-- A line that is not blank holds its own row. -/
theorem Hold.row {l : List Char} {cells : List Cell} (h : Line.readChars l = .ok cells)
    (hne : cells ≠ []) : Hold [l] [cells] :=
  ⟨[cells], .cons h .nil, by simp [hne]⟩

/-- Written lines, once they are cut, hold the rows that they show. -/
theorem hold_of_shows {ls : List String} {rows : List (List Cell)}
    (h : List.Forall₂ Shows ls rows) (hne : ∀ row ∈ rows, row ≠ [])
    (hplain : ∀ row ∈ rows, Line.Plain row) :
    Hold (ls.flatMap fun l => Text.lineChars (l.toList ++ ['\n'])) rows := by
  induction h with
  | nil => exact ⟨[], .nil, rfl⟩
  | @cons l cells ls rows hl _ ih =>
      obtain ⟨margin, hm, hl⟩ := hl
      obtain ⟨blanks, line, hcut, hblank, hline⟩ :=
        Line.lineChars_row hm (hne cells (by simp)) (hplain cells (by simp))
      rw [List.flatMap_cons, hl, hcut, ← List.singleton_append (l := rows)]
      refine .append ?_ (ih (fun row hrow => hne row (by simp [hrow]))
        fun row hrow => hplain row (by simp [hrow]))
      exact (Hold.blank hblank).append (.row hline (hne cells (by simp)))

/-- A foreign line end in a row leaves a line that is refused. -/
theorem exists_refused_of_shows {ls : List String} {rows : List (List Cell)}
    (h : List.Forall₂ Shows ls rows) {row : List Cell} (hrow : row ∈ rows) {s : String}
    (hs : some s ∈ row) (hf : Text.hasForeignEnd s) :
    ∃ l ∈ ls.flatMap fun l => Text.lineChars (l.toList ++ ['\n']),
      ∃ flaw, Line.readChars l = .error flaw := by
  induction h with
  | nil => cases hrow
  | @cons l cells ls rows hl _ ih =>
      rw [List.flatMap_cons]
      rcases List.mem_cons.mp hrow with rfl | hrow
      · obtain ⟨margin, hm, hl⟩ := hl
        obtain ⟨k, hk, hflaw⟩ := Line.lineChars_row_foreign hm hs hf
        exact ⟨k, List.mem_append_left _ (hl ▸ hk), hflaw⟩
      · obtain ⟨k, hk, hflaw⟩ := ih hrow
        exact ⟨k, List.mem_append_right _ hk, hflaw⟩

/-- A line that cannot be read is an error of the whole. -/
theorem rowsFrom_eq_error {texts : List (List Char)}
    (h : ∃ l ∈ texts, ∃ flaw, Line.readChars l = .error flaw) (line : Nat) :
    ∃ e, rowsFrom line (texts.map String.ofList) = .error e := by
  obtain ⟨l, hl, flaw, hflaw⟩ := h
  induction texts generalizing line with
  | nil => cases hl
  | cons t texts ih =>
      rw [List.map_cons, rowsFrom]
      cases hread : readLine (String.ofList t) (some line) with
      | error e => exact ⟨e, rfl⟩
      | ok cells =>
          rcases List.mem_cons.mp hl with rfl | hl
          · simp [readLine, Line.read, hflaw] at hread
          · obtain ⟨e, he⟩ := ih (line + 1) hl
            exact ⟨e, by rw [ok_bind, he, error_bind]⟩

/-! ## From rows to a tree -/

theorem sameCell_self (k : Cell) : sameCell k k = true := sameCell_iff.mpr rfl

mutual

/-- A node is derived from the rows that it is written as, if none of its elements is taken for an
end. -/
theorem exists_derivation (k : Cell) :
    ∀ n : Node, (∀ name ∈ n.elementNames, sameCell (some name) k = false) →
      ∃ t : Derivation k, t.rows = n.rows k ∧ t.node = n
  | .element name nodes, h => by
      rw [Node.elementNames, List.forall_mem_cons] at h
      obtain ⟨hname, hnodes⟩ := h
      rw [← Bool.not_eq_true, sameCell_iff] at hname
      obtain ⟨ts, hrows, rfl⟩ := exists_derivations k nodes hnodes
      refine ⟨.element name ts k hname rfl, ?_, rfl⟩
      rw [Derivation.rows, Node.rows, hrows]
  | .attribute a, _ => ⟨.attribute a, rfl, rfl⟩

/-- Nodes of which none has the name of the end keyword are derived from their rows. -/
theorem exists_derivations (k : Cell) :
    ∀ ns : List Node, (∀ name ∈ Node.elementNamesOfAll ns, sameCell (some name) k = false) →
      ∃ ts : List (Derivation k),
        Derivation.rowsOfAll ts = Node.rowsOfAll k ns ∧ Derivation.nodesOfAll ts = ns
  | [], _ => ⟨[], rfl, rfl⟩
  | n :: ns, h => by
      rw [Node.elementNamesOfAll, List.forall_mem_append] at h
      obtain ⟨t, hrow, rfl⟩ := exists_derivation k n h.1
      obtain ⟨ts, hrows, rfl⟩ := exists_derivations k ns h.2
      refine ⟨t :: ts, ?_, rfl⟩
      rw [Derivation.rowsOfAll, Node.rowsOfAll, hrow, hrows]

end

/-! ## Counting ends -/

namespace Progress

/-- The number of elements that are not closed. -/
def depth : Progress → Int
  | .before => 0
  | .inside _ us => us.length + 1
  | .after _ => 0

/-- What a row does to the number of elements that are not closed. -/
def weight (k : Cell) : List Cell → Int
  | [cell] => if sameCell cell k then -1 else 1
  | _ => 0

/-- Opening goes one level deeper. -/
theorem depth_opening {name : String} {p q : Progress} (h : p.opening name = .ok q) :
    q.depth = p.depth + 1 := by
  cases p with
  | before =>
      cases h
      rfl
  | inside u us =>
      cases h
      simp [depth]
  | after root => cases h

/-- Closing goes one level back. -/
theorem depth_closing {p q : Progress} (h : p.closing = .ok q) : q.depth = p.depth - 1 := by
  cases p with
  | before => cases h
  | inside u us =>
      cases us with
      | nil =>
          cases h
          rfl
      | cons v vs =>
          cases h
          simp [depth]
  | after root => cases h

theorem depth_adding {a : Attribute} {p q : Progress} (h : p.adding a = .ok q) :
    q.depth = p.depth := by
  cases p with
  | before => cases h
  | inside u us =>
      cases h
      rfl
  | after root => cases h

/-- A row changes the depth by its weight. -/
theorem depth_step {k : Cell} {cells : List Cell} {p q : Progress} (h : p.step k cells = .ok q) :
    q.depth = p.depth + weight k cells := by
  rcases step_cases h with ⟨rfl, rfl⟩ | ⟨name, rfl, hname, hq⟩ | ⟨close, rfl, hclose, hq⟩ |
    ⟨⟨name, values, hne⟩, rfl, hq⟩
  · simp [weight]
  · simp [depth_opening hq, weight, hname]
  · simp [depth_closing hq, weight, hclose, Int.sub_eq_add_neg]
  · obtain ⟨v, vs, rfl⟩ := List.exists_cons_of_ne_nil hne
    simp [depth_adding hq, weight]

/-- Rows change the depth by the sum of their weights. -/
theorem depth_steps {k : Cell} {rows : List (List Cell)} {p q : Progress}
    (h : steps k p rows = .ok q) : q.depth = p.depth + (rows.map (weight k)).sum := by
  induction rows generalizing p with
  | nil =>
      cases h
      simp
  | cons cells rows ih =>
      rw [steps_cons] at h
      obtain ⟨r, hr, h⟩ := bind_eq_ok.mp h
      rw [ih h, depth_step hr, List.map_cons, List.sum_cons]
      omega

end Progress

mutual

/-- An element that is taken for an end closes one element and is then closed once more. -/
theorem Progress.sum_weight_rows (k : Cell) :
    ∀ n : Node, ((n.rows k).map (Progress.weight k)).sum =
      -2 * (n.elementNames.countP fun name => sameCell (some name) k : Int)
  | .element name nodes => by
      have ih := Progress.sum_weight_rowsOfAll k nodes
      have hend : Progress.weight k [k] = -1 := by simp [Progress.weight, sameCell_self]
      rw [Node.rows, Node.elementNames, List.map_cons, List.sum_cons, List.map_append,
        List.sum_append, ih, List.countP_cons]
      rw [List.map_singleton, List.sum_singleton, hend, Progress.weight]
      by_cases hname : sameCell (some name) k = true
      · simp only [hname, if_true]
        omega
      · simp only [hname, Bool.false_eq_true, if_false]
        omega
  | .attribute a => by
      obtain ⟨name, values, hne⟩ := a
      obtain ⟨v, vs, rfl⟩ := List.exists_cons_of_ne_nil hne
      simp [Node.rows, Node.elementNames, Progress.weight]

/-- The rows of nodes leave the depth as it was, but for elements with the name of the end keyword.
-/
theorem Progress.sum_weight_rowsOfAll (k : Cell) :
    ∀ ns : List Node, ((Node.rowsOfAll k ns).map (Progress.weight k)).sum =
      -2 * ((Node.elementNamesOfAll ns).countP fun name => sameCell (some name) k : Int)
  | [] => by simp [Node.rowsOfAll, Node.elementNamesOfAll]
  | n :: ns => by
      have ih := Progress.sum_weight_rows k n
      have ihs := Progress.sum_weight_rowsOfAll k ns
      rw [Node.rowsOfAll, Node.elementNamesOfAll, List.map_append, List.sum_append, ih, ihs,
        List.countP_append]
      omega

end

/-! ## Whole documents -/

variable (d : Document) {indentation : String}

/-- The rows that the document is written as. -/
def rows : List (List Cell) := d.root.toNode.rows d.endKeyword

/-- The lines of a document show its rows. -/
theorem lines_show (hi : ∀ c ∈ indentation.toList, Text.isBlank c) :
    List.Forall₂ Shows (d.lines indentation) d.rows :=
  Node.lines_show d.endKeyword hi (by simp) d.root.toNode

/-- The rows of a document have the texts of the document. -/
theorem mem_rows (s : String) : (∃ row ∈ d.rows, some s ∈ row) ↔ s ∈ d.texts := by
  rw [rows, Node.mem_rows, texts, List.mem_append, Option.mem_toList]
  simp [Element.toNode, Node.elementNames]

/-- The written document is cut into the lines of its written lines. -/
theorem lineChars_render :
    Text.lineChars (d.render indentation).toList =
      (d.lines indentation).flatMap fun l => Text.lineChars (l.toList ++ ['\n']) := by
  obtain ⟨first, hlines⟩ : ∃ first, d.lines indentation =
      first ++ ["" ++ Line.writeCell d.endKeyword] :=
    ⟨("" ++ Line.writeCell (some d.root.name)) ::
        Node.linesOfAll d.endKeyword indentation ("" ++ indentation) d.root.nodes,
      by rw [lines, Element.toNode, Node.lines, List.cons_append]⟩
  obtain ⟨xs, c, hlast, hc⟩ := Line.text_ofCell_last d.endKeyword
  have hjoin : (d.render indentation).toList =
      ['\n'].intercalate (first.map String.toList ++ [xs ++ [c]]) := by
    simp [render, hlines, String.toList_intercalate, Line.writeCell, hlast]
  rw [hjoin, Text.lineChars_intercalate _ _ hc, hlines]
  simp [Line.writeCell, hlast, List.flatMap_map]

/-- The lines of a document without foreign line ends hold its rows. -/
theorem hold_render (hi : ∀ c ∈ indentation.toList, Text.isBlank c) (h : d.LinesKept) :
    Hold (Text.lineChars (d.render indentation).toList) d.rows := by
  rw [lineChars_render]
  refine hold_of_shows (d.lines_show hi) (Node.rows_ne_nil _ _) fun row hrow s hs => ?_
  exact h s ((d.mem_rows s).mp ⟨row, hrow, hs⟩)

/-- The last row of a document is its end keyword. -/
theorem getLast?_rows : d.rows.getLast? = some [d.endKeyword] := by
  rw [rows, Element.toNode, Node.rows, ← List.cons_append, List.getLast?_concat]

/-- A document whose names and texts keep apart from ends is read back. -/
theorem parse_render (hi : ∀ c ∈ indentation.toList, Text.isBlank c) (hends : d.EndsApart)
    (hlines : d.LinesKept) : parse (d.render indentation) = .ok d := by
  rw [parse_eq_ok_of_hold (d.hold_render hi hlines)]
  exact ⟨d.getLast?_rows, exists_derivation d.endKeyword d.root.toNode hends⟩

/-- A foreign line end makes a document unreadable. -/
theorem parse_render_foreign (hi : ∀ c ∈ indentation.toList, Text.isBlank c)
    (h : ¬ d.LinesKept) : ∃ e, parse (d.render indentation) = .error e := by
  simp only [LinesKept, not_forall, Bool.not_eq_false] at h
  obtain ⟨s, hs, hf⟩ := h
  obtain ⟨row, hrow, hmem⟩ := (d.mem_rows s).mpr hs
  have hrefused := exists_refused_of_shows (d.lines_show hi) hrow hmem hf
  rw [← lineChars_render] at hrefused
  obtain ⟨e, he⟩ := rowsFrom_eq_error hrefused 1
  exact ⟨e, by rw [parse, Text.lines, he, error_bind]⟩

/-- An element that is taken for an end makes a document unreadable: the ends are too many. -/
theorem parse_render_ends (hi : ∀ c ∈ indentation.toList, Text.isBlank c) (hlines : d.LinesKept)
    (h : ¬ d.EndsApart) : ∃ e, parse (d.render indentation) = .error e := by
  simp only [EndsApart, not_forall, Bool.not_eq_false] at h
  obtain ⟨name, hname, hend⟩ := h
  have hcount : 0 < d.root.toNode.elementNames.countP fun n => sameCell (some n) d.endKeyword :=
    List.countP_pos_iff.mpr ⟨name, hname, hend⟩
  cases hparse : parse (d.render indentation) with
  | error e => exact ⟨e, rfl⟩
  | ok e =>
      obtain ⟨hlast, t, hrows, hnode⟩ := (parse_eq_ok_of_hold (d.hold_render hi hlines)).mp hparse
      have hkeyword : e.endKeyword = d.endKeyword := by
        rw [d.getLast?_rows] at hlast
        simpa using hlast.symm
      have hdepth := Progress.depth_steps (t.steps_root hnode)
      rw [hrows, hkeyword, rows, Progress.sum_weight_rows] at hdepth
      simp only [Progress.depth] at hdepth
      omega

/-- A written document is read back exactly if its elements keep apart from the end keyword and its
texts hold no line end but line feeds. Any other one is refused, so that no document is ever misread
as another one. -/
theorem parse_render_iff (hi : ∀ c ∈ indentation.toList, Text.isBlank c) :
    (parse (d.render indentation) = .ok d ↔ d.EndsApart ∧ d.LinesKept) ∧
      (¬ (d.EndsApart ∧ d.LinesKept) → ∃ e, parse (d.render indentation) = .error e) := by
  have hrefused : ¬ (d.EndsApart ∧ d.LinesKept) → ∃ e, parse (d.render indentation) = .error e := by
    intro h
    by_cases hlines : d.LinesKept
    · exact d.parse_render_ends hi hlines fun hends => h ⟨hends, hlines⟩
    · exact d.parse_render_foreign hi hlines
  refine ⟨⟨fun h => ?_, fun h => d.parse_render hi h.1 h.2⟩, hrefused⟩
  by_contra hnot
  obtain ⟨e, he⟩ := hrefused hnot
  rw [h] at he
  cases he

/-- Two elements inside each other, a null value, and texts with quotes and line feeds, behind an
indentation that is cut into lines itself. -/
theorem parse_render_iff_nested :
    let d : Document := {
      root := ⟨"Outer", [
        .element "In\"n\ner" [.attribute ⟨"values", [none, some "-", some "a\"/\"\n#"], by simp⟩],
        .attribute ⟨"", [some ""], by simp⟩]⟩
      endKeyword := none }
    (∀ c ∈ " \r\n".toList, Text.isBlank c) ∧ parse (d.render " \r\n") = .ok d := by
  intro d
  have hi : ∀ c ∈ " \r\n".toList, Text.isBlank c := List.all_eq_true.mp (by decide)
  refine ⟨hi, (d.parse_render_iff hi).1.mpr ⟨?_, ?_⟩⟩
  · unfold EndsApart
    decide
  · unfold LinesKept
    decide

end Document

end SmlSchema
