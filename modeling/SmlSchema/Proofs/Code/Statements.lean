import SmlSchema.Code.Printer
import SmlSchema.Proofs.Result

/-! # Statements and the entries of a body

The entries of a body are statements with a bracket around each block. Reading the brackets gives
the statements back, and what is written for the entries, with a level and a flag for each open
block, is what is written for the statements by recursion.
-/

namespace SmlSchema.Code

/-- A step, or a header with the statements of its block. -/
inductive Statement where
  | step (s : Step)
  | block (header : Header) (statements : List Statement)
deriving Repr

mutual

/-- The entries of a statement. -/
def Statement.entries : Statement → List Entry
  | .step s => [.step s]
  | .block h ss => .openBlock h :: (Statement.entriesAll ss ++ [.closeBlock])
termination_by structural s => s

@[inherit_doc Statement.entries]
def Statement.entriesAll : List Statement → List Entry
  | [] => []
  | s :: ss => s.entries ++ Statement.entriesAll ss
termination_by structural ss => ss

end

theorem Statement.entriesAll_append (ss ts : List Statement) :
    entriesAll (ss ++ ts) = entriesAll ss ++ entriesAll ts := by
  induction ss with
  | nil => rfl
  | cons s ss ih => rw [List.cons_append, entriesAll, entriesAll, ih, List.append_assoc]

/-! ## From entries to statements -/

/-- A block that is still open: its header and what stands before it, in reverse. -/
structure OpenBlock where
  header : Header
  before : List Statement

/-- Put entries into the blocks that they belong to. The statements of the current block are in
reverse; around it stand the blocks that are open, from the inside to the outside. -/
def nestEntries : List Statement → List OpenBlock → List Entry → Option (List Statement)
  | current, [], [] => some current.reverse
  | _, _ :: _, [] => none
  | current, around, .step s :: es => nestEntries (.step s :: current) around es
  | current, around, .openBlock h :: es => nestEntries [] (⟨h, current⟩ :: around) es
  | current, k :: around, .closeBlock :: es =>
    nestEntries (.block k.header current.reverse :: k.before) around es
  | _, [], .closeBlock :: _ => none

namespace Body

/-- The statements of a body, if all its blocks are closed. -/
def finish? (b : Body) : Option (List Statement) := nestEntries [] [] b.entries

def ofStatements (ss : List Statement) : Body := { entries := Statement.entriesAll ss }

/-- The body with statements after those it has. -/
def addStatements (b : Body) (ss : List Statement) : Body :=
  { b with entries := b.entries ++ Statement.entriesAll ss }

/-- Statements may be added to a body one part after the other. -/
theorem addStatements_append (b : Body) (ss ts : List Statement) :
    b.addStatements (ss ++ ts) = (b.addStatements ss).addStatements ts := by
  simp [addStatements, Statement.entriesAll_append]

@[simp] theorem addStatements_nil (b : Body) : b.addStatements [] = b := by
  simp [addStatements, Statement.entriesAll]

/-- A step is a statement. -/
theorem addStep_eq (b : Body) (s : Step) : b.addStep s = b.addStatements [.step s] := by
  simp [addStep, addStatements, Statement.entriesAll, Statement.entries]

/-- A block that is opened, filled and closed is one more statement. -/
theorem closeBlock_openBlock (b : Body) (h : Header) (ss : List Statement) :
    ((b.openBlock h).addStatements ss).closeBlock = .ok (b.addStatements [.block h ss]) := by
  simp [openBlock, addStatements, closeBlock, Statement.entriesAll, Statement.entries]

end Body

mutual

/-- The entries of a statement are nested into the statement again. -/
theorem nestEntries_entries (around : List OpenBlock) (es : List Entry) :
    ∀ (s : Statement) (current : List Statement),
      nestEntries current around (s.entries ++ es) = nestEntries (s :: current) around es
  | .step s, current => by rw [Statement.entries, List.singleton_append, nestEntries]
  | .block h ss, current => by
      rw [Statement.entries, List.cons_append, nestEntries, List.append_assoc,
        nestEntries_entriesAll, List.singleton_append, nestEntries, List.append_nil,
        List.reverse_reverse]
termination_by structural s => s

/-- The entries of statements are read as these statements. -/
theorem nestEntries_entriesAll (around : List OpenBlock) (es : List Entry) :
    ∀ (ss : List Statement) (current : List Statement),
      nestEntries current around (Statement.entriesAll ss ++ es) =
        nestEntries (ss.reverse ++ current) around es
  | [], current => rfl
  | s :: ss, current => by
      rw [Statement.entriesAll, List.append_assoc, nestEntries_entries, nestEntries_entriesAll,
        List.reverse_cons, List.append_assoc, List.singleton_append]
termination_by structural ss => ss

end

/-- A body made of statements is finished and gives these statements. -/
@[simp] theorem Body.finish?_ofStatements (ss : List Statement) :
    (ofStatements ss).finish? = some ss := by
  have hread := nestEntries_entriesAll [] [] ss []
  rw [List.append_nil, List.append_nil] at hread
  rw [finish?, ofStatements, hread, nestEntries, List.reverse_reverse]

/-- Statements are determined by their entries. -/
theorem Statement.entriesAll_injective {ss ts : List Statement}
    (h : entriesAll ss = entriesAll ts) : ss = ts := by
  have hbody : Body.ofStatements ss = .ofStatements ts := by rw [Body.ofStatements, h]; rfl
  have hread := Body.finish?_ofStatements ss
  rw [hbody, Body.finish?_ofStatements] at hread
  exact (Option.some.inj hread).symm

/-! ## Writing -/

mutual

/-- The lines of a statement; an empty block is filled by a line that does nothing. -/
def Statement.code (level : Int) : Statement → Printed (List String)
  | .step s => do return [indent level ++ (← s.code)]
  | .block h ss => do
    let header ← h.code
    let inner ← Statement.codeAll (level + 1) ss
    return (indent level ++ header)
      :: (if ss.isEmpty then [indent (level + 1) ++ "pass"] else inner)
termination_by structural s => s

@[inherit_doc Statement.code]
def Statement.codeAll (level : Int) : List Statement → Printed (List String)
  | [] => .ok []
  | s :: ss => do return (← s.code level) ++ (← Statement.codeAll level ss)
termination_by structural ss => ss

end

open BodyWriter

mutual

/-- What the entries of a statement add is what is written for the statement, and the block around
it is not empty any more. -/
theorem Statement.foldlM_write : ∀ (s : Statement) (w : BodyWriter),
    s.entries.foldlM write w = (s.code w.level).map fun lines =>
      { w with lines := w.lines ++ lines, emptyBlocks := markUsed w.emptyBlocks }
  | .step s, w => by
      rw [Statement.entries, List.foldlM_cons, write, Statement.code]
      cases s.code <;> rfl
  | .block h ss, w => by
      rw [Statement.entries, List.foldlM_cons, write, Statement.code]
      cases h.code with
      | error e => rfl
      | ok header =>
          rw [ok_bind, pure_eq_ok, ok_bind, List.foldlM_append, Statement.foldlM_writeAll]
          cases ss with
          | nil => simp [Statement.codeAll, write, addLine, Except.map]
          | cons s ss =>
              dsimp only [addLine]
              cases Statement.codeAll (w.level + 1) (s :: ss) with
              | error e => rfl
              | ok inner => simp [write, markUsed, Except.map]
termination_by structural s => s

@[inherit_doc Statement.foldlM_write]
theorem Statement.foldlM_writeAll : ∀ (ss : List Statement) (w : BodyWriter),
    (Statement.entriesAll ss).foldlM write w = (Statement.codeAll w.level ss).map fun lines =>
      { w with
        lines := w.lines ++ lines
        emptyBlocks := if ss.isEmpty then w.emptyBlocks else markUsed w.emptyBlocks }
  | [], w => by simp [Statement.entriesAll, Statement.codeAll, Except.map]
  | s :: ss, w => by
      rw [Statement.entriesAll, List.foldlM_append, Statement.foldlM_write, Statement.codeAll]
      cases s.code w.level with
      | error e => rfl
      | ok lines =>
          dsimp only [Except.map]
          rw [ok_bind, Statement.foldlM_writeAll, ok_bind]
          cases Statement.codeAll w.level ss with
          | error e => rfl
          | ok more => cases hblocks : w.emptyBlocks <;> simp [Except.map, markUsed]
termination_by structural ss => ss

end

/-- A body whose blocks are closed is written as its statements are. -/
theorem Body.code_ofStatements (ss : List Statement) (level : Int) :
    (Body.ofStatements ss).code level = (Statement.codeAll level ss).map fun lines =>
      if lines.isEmpty then [indent level ++ "pass"] else lines := by
  have hwrite := Statement.foldlM_writeAll ss { level }
  rw [Body.code, Body.ofStatements, Body.isClosed, if_pos (beq_self_eq_true _), hwrite]
  cases Statement.codeAll level ss <;> rfl

end SmlSchema.Code
