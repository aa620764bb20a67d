import SmlSchema.Proofs.Code.Outline
import SmlSchema.Proofs.Code.Statements
import SmlSchema.Proofs.Document.Reading

/-! # Blocks of a body

Bodies are built by calls that add a step, open a block or close one. The calls that are not refused
are the entries of the body. Once all blocks are closed, these are the entries of statements, which
they determine, and the lines of the body follow from them: each stands as many levels deep as there
are blocks open at its call. Read by its indentation, the written body shows the same blocks.
-/

namespace SmlSchema.Code

namespace Entry

/-- The body after the call that asks for the entry. -/
def perform (b : Body) : Entry → Except BuildFlaw Body
  | step s => .ok (b.addStep s)
  | openBlock h => .ok (b.openBlock h)
  | closeBlock => b.closeBlock

/-- The body after calls, of which those that fail change nothing. -/
def runAll (b : Body) (cs : List Entry) : Body :=
  cs.foldl (fun b c => (c.perform b).toOption.getD b) b

/-! ## What calls say -/

/-- The number of blocks that are open after the calls, if there are `depth` before. -/
def openBlocks (depth : Nat) : List Entry → Nat
  | [] => depth
  | step _ :: cs => openBlocks depth cs
  | openBlock _ :: cs => openBlocks (depth + 1) cs
  | closeBlock :: cs => openBlocks (depth - 1) cs

/-- The calls without those that close a block where none is open. -/
def kept (depth : Nat) : List Entry → List Entry
  | [] => []
  | step s :: cs => step s :: kept depth cs
  | openBlock h :: cs => openBlock h :: kept (depth + 1) cs
  | closeBlock :: cs => if depth = 0 then kept 0 cs else closeBlock :: kept (depth - 1) cs

def closesFirst : List Entry → Bool
  | closeBlock :: _ => true
  | _ => false

/-- A line for each step and each header, on the level of the blocks that are open at the call. A
block that is closed as soon as it has been opened gets a line that does nothing. -/
def stepLines (level : Int) (depth : Nat) : List Entry → Printed (List String)
  | [] => .ok []
  | step s :: cs => do
    let text ← s.code
    return (indent (level + depth) ++ text) :: (← stepLines level depth cs)
  | openBlock h :: cs => do
    let header ← h.code
    let inner ← stepLines level (depth + 1) cs
    let filling := if closesFirst cs then [indent (level + depth + 1) ++ "pass"] else []
    return (indent (level + depth) ++ header) :: (filling ++ inner)
  | closeBlock :: cs => stepLines level (depth - 1) cs

/-- The lines that calls on an empty body ask for; if there is none, then one that does nothing. -/
def bodyLines (level : Int) (cs : List Entry) : Printed (List String) := do
  let lines ← stepLines level 0 cs
  return if lines.isEmpty then [indent level ++ "pass"] else lines

end Entry

/-! ## Outlines of statements -/

/-- A block needs a line: an empty one gets a line that does nothing. -/
def Outline.filled : List Outline → List Outline
  | [] => [node "pass" []]
  | os => os

mutual

/-- The texts of a statement, nested as it is. -/
def Statement.outline : Statement → Printed Outline
  | .step s => do return .node (← s.code) []
  | .block h ss => do
    let header ← h.code
    return .node header (Outline.filled (← Statement.outlineAll ss))
termination_by structural s => s

@[inherit_doc Statement.outline]
def Statement.outlineAll : List Statement → Printed (List Outline)
  | [] => .ok []
  | s :: ss => do return (← s.outline) :: (← Statement.outlineAll ss)
termination_by structural ss => ss

end

/-- Statements close the block around them first exactly if there are none. -/
theorem Statement.closesFirst_entriesAll (ss : List Statement) (cs : List Entry) :
    Entry.closesFirst (entriesAll ss ++ .closeBlock :: cs) = ss.isEmpty := by
  cases ss with
  | nil => rfl
  | cons s ss => cases s <;> rfl

/-! ## From calls to bodies -/

namespace Entry

/-- A call fails only if it closes a block where none is open. -/
theorem perform_eq_error {b : Body} {c : Entry} :
    c.perform b = .error .nothingOpen ↔ c = closeBlock ∧ b.depth = 0 := by
  cases c with
  | step s => simp [perform]
  | openBlock h => simp [perform]
  | closeBlock => by_cases h : b.depth = 0 <;> simp [perform, Body.closeBlock, h]

/-- A run of calls adds to a body those calls that are kept. -/
theorem entries_runAll (b : Body) (cs : List Entry) :
    (runAll b cs).entries = b.entries ++ kept b.depth cs ∧
      (runAll b cs).depth = openBlocks b.depth cs := by
  induction cs generalizing b with
  | nil => exact ⟨(List.append_nil _).symm, rfl⟩
  | cons c cs ih =>
      rw [runAll, List.foldl_cons]
      cases c with
      | step s =>
          obtain ⟨hentries, hdepth⟩ := ih (b.addStep s)
          exact ⟨hentries.trans (List.append_assoc ..), hdepth⟩
      | openBlock h =>
          obtain ⟨hentries, hdepth⟩ := ih (b.openBlock h)
          exact ⟨hentries.trans (List.append_assoc ..), hdepth⟩
      | closeBlock =>
          by_cases h : b.depth = 0
          · have hkept : kept b.depth (closeBlock :: cs) = kept b.depth cs := by
              rw [kept, if_pos h, h]
            have hopen : openBlocks b.depth (closeBlock :: cs) = openBlocks b.depth cs := by
              rw [openBlocks, h]
            rw [perform_eq_error.mpr ⟨rfl, h⟩, hkept, hopen]
            exact ih b
          · obtain ⟨hentries, hdepth⟩ := ih ⟨b.entries ++ [closeBlock], b.depth - 1⟩
            have hperform : closeBlock.perform b =
                .ok ⟨b.entries ++ [closeBlock], b.depth - 1⟩ := if_neg h
            rw [hperform, kept, if_neg h]
            exact ⟨hentries.trans (List.append_assoc ..), hdepth⟩

/-- The entries before and of the headers of blocks that are open. -/
def entriesAround (around : List OpenBlock) : List Entry :=
  around.reverse.flatMap fun k => Statement.entriesAll k.before.reverse ++ [openBlock k.header]

/-- Calls that leave no block open are the entries of statements, together with the open blocks and
the statements before them. -/
theorem exists_entriesAll (cs : List Entry) (current : List Statement) (around : List OpenBlock)
    (h : openBlocks around.length cs = 0) :
    ∃ ss, Statement.entriesAll ss =
      entriesAround around ++ Statement.entriesAll current.reverse ++ kept around.length cs := by
  induction cs generalizing current around with
  | nil =>
      obtain rfl := List.eq_nil_of_length_eq_zero h
      exact ⟨current.reverse, by simp [entriesAround, kept]⟩
  | cons c cs ih =>
      cases c with
      | step s =>
          obtain ⟨ss, hss⟩ := ih (.step s :: current) around h
          refine ⟨ss, hss.trans ?_⟩
          simp [kept, Statement.entriesAll_append, Statement.entriesAll, Statement.entries]
      | openBlock header =>
          obtain ⟨ss, hss⟩ := ih [] (⟨header, current⟩ :: around) h
          refine ⟨ss, hss.trans ?_⟩
          simp [kept, entriesAround, Statement.entriesAll]
      | closeBlock =>
          cases around with
          | nil =>
              obtain ⟨ss, hss⟩ := ih current [] h
              exact ⟨ss, hss⟩
          | cons k around =>
              obtain ⟨ss, hss⟩ := ih (.block k.header current.reverse :: k.before) around h
              refine ⟨ss, hss.trans ?_⟩
              simp [kept, entriesAround, Statement.entriesAll_append, Statement.entriesAll,
                Statement.entries]

/-- Once all blocks are closed, the calls that are kept are the entries of the statements of the
body. -/
theorem runAll_eq_ofStatements {cs : List Entry} (h : openBlocks 0 cs = 0) :
    ∃ ss, Statement.entriesAll ss = kept 0 cs ∧ runAll {} cs = .ofStatements ss := by
  obtain ⟨ss, hss⟩ := exists_entriesAll cs [] [] h
  obtain ⟨hentries, hdepth⟩ := entries_runAll {} cs
  refine ⟨ss, hss, ?_⟩
  rcases hrun : runAll {} cs with ⟨entries, depth⟩
  rw [hrun] at hentries hdepth
  obtain rfl : entries = Statement.entriesAll ss := hentries.trans hss.symm
  obtain rfl : depth = 0 := hdepth.trans h
  rfl

end Entry

open Entry

/-! ## Lines of calls -/

namespace Entry

variable {c : Entry} {cs : List Entry}

/-- Only calls that close a block are left out. -/
theorem mem_kept (hc : c ≠ closeBlock) (depth : Nat) : c ∈ kept depth cs ↔ c ∈ cs := by
  induction cs generalizing depth with
  | nil => exact Iff.rfl
  | cons c' cs ih =>
      cases c' with
      | step s => rw [kept, List.mem_cons, List.mem_cons, ih]
      | openBlock h => rw [kept, List.mem_cons, List.mem_cons, ih]
      | closeBlock =>
          rw [kept]
          split
          · rw [ih, List.mem_cons, or_iff_right hc]
          · rw [List.mem_cons, List.mem_cons, ih]

/-- The open blocks after some calls are those with which the next calls start. -/
theorem openBlocks_append (depth : Nat) (cs ds : List Entry) :
    openBlocks depth (cs ++ ds) = openBlocks (openBlocks depth cs) ds := by
  induction cs generalizing depth with
  | nil => rfl
  | cons c cs ih => cases c <;> exact ih _

/-- Inside an open block, whether it is closed at once does not depend on the calls left out. -/
theorem closesFirst_kept (depth : Nat) : closesFirst (kept (depth + 1) cs) = closesFirst cs := by
  cases cs with
  | nil => rfl
  | cons c cs =>
      cases c with
      | step s => rfl
      | openBlock h => rfl
      | closeBlock => rw [kept, if_neg (Nat.succ_ne_zero depth)]; rfl

/-- A refused call has no line. -/
theorem stepLines_kept (level : Int) (depth : Nat) (cs : List Entry) :
    stepLines level depth (kept depth cs) = stepLines level depth cs := by
  induction cs generalizing depth with
  | nil => rfl
  | cons c cs ih =>
      cases c with
      | step s => rw [kept, stepLines, stepLines, ih]
      | openBlock h => rw [kept, stepLines, stepLines, ih, closesFirst_kept]
      | closeBlock =>
          rw [kept, stepLines]
          split
          · rename_i hdepth
            rw [hdepth]
            exact ih 0
          · rw [stepLines, ih]

theorem closesFirst_append_openBlock (cs ds : List Entry) (h : Header) :
    closesFirst (cs ++ openBlock h :: ds) = closesFirst cs := by
  cases cs with
  | nil => rfl
  | cons c cs => cases c <;> rfl

/-- The level of what stands in one more block. -/
theorem level_succ (level : Int) (depth : Nat) :
    level + ((depth + 1 : Nat) : Int) = level + depth + 1 := by omega

/-- What comes before a header is not changed by it. -/
theorem stepLines_append_openBlock (level : Int) (depth : Nat) (cs ds : List Entry)
    (h : Header) :
    stepLines level depth (cs ++ openBlock h :: ds) = do
      let lines ← stepLines level depth cs
      return lines ++ (← stepLines level (openBlocks depth cs) (openBlock h :: ds)) := by
  induction cs generalizing depth with
  | nil =>
      rw [List.nil_append, openBlocks]
      cases stepLines level depth (openBlock h :: ds) <;> rfl
  | cons c cs ih =>
      cases c with
      | step s =>
          rw [List.cons_append, stepLines, stepLines, ih, openBlocks]
          cases s.code with
          | error e => rfl
          | ok text => cases stepLines level depth cs <;> simp
      | openBlock h' =>
          rw [List.cons_append, stepLines, stepLines, ih, openBlocks, closesFirst_append_openBlock]
          cases h'.code with
          | error e => rfl
          | ok text => cases stepLines level (depth + 1) cs <;> simp
      | closeBlock => exact ih _

end Entry

mutual

/-- The lines of the calls of a statement are those of the statement. -/
theorem Statement.stepLines_entries (level : Int) :
    ∀ (s : Statement) (depth : Nat) (cs : List Entry),
      stepLines level depth (s.entries ++ cs) = do
        let lines ← s.code (level + depth)
        return lines ++ (← stepLines level depth cs)
  | .step s, depth, cs => by
      rw [entries, List.singleton_append, stepLines, Statement.code]
      cases s.code <;> rfl
  | .block h ss, depth, cs => by
      rw [entries, List.cons_append, List.append_assoc, List.singleton_append, stepLines,
        Statement.closesFirst_entriesAll, Statement.stepLines_entriesAll level ss,
        level_succ, stepLines, Nat.add_sub_cancel, Statement.code]
      cases h.code with
      | error e => rfl
      | ok header =>
          cases ss with
          | nil => cases stepLines level depth cs <;> rfl
          | cons s ss =>
              cases Statement.codeAll (level + depth + 1) (s :: ss) with
              | error e => rfl
              | ok inner => cases stepLines level depth cs <;> rfl
termination_by structural s => s

/-- The entries of statements give the lines of the statements, at the depth where they start, and
then what follows. -/
theorem Statement.stepLines_entriesAll (level : Int) :
    ∀ (ss : List Statement) (depth : Nat) (cs : List Entry),
      stepLines level depth (entriesAll ss ++ cs) = do
        let lines ← Statement.codeAll (level + depth) ss
        return lines ++ (← stepLines level depth cs)
  | [], depth, cs => by
      rw [entriesAll, List.nil_append, Statement.codeAll]
      cases stepLines level depth cs <;> rfl
  | s :: ss, depth, cs => by
      rw [entriesAll, List.append_assoc, Statement.stepLines_entries level s,
        Statement.stepLines_entriesAll level ss, Statement.codeAll]
      cases s.code (level + depth) with
      | error e => rfl
      | ok lines =>
          cases Statement.codeAll (level + depth) ss with
          | error e => rfl
          | ok more => cases stepLines level depth cs <;> simp
termination_by structural ss => ss

end

/-! ## Outlines of statements -/

theorem Statement.isEmpty_of_outlineAll {ss : List Statement} {os : List Outline}
    (h : outlineAll ss = .ok os) : os.isEmpty = ss.isEmpty := by
  cases ss with
  | nil =>
      cases h
      rfl
  | cons s ss =>
      obtain ⟨o, -, h⟩ := bind_eq_ok.mp h
      obtain ⟨os', -, h⟩ := bind_eq_ok.mp h
      cases h
      rfl

mutual

/-- Statements are written as the lines of their outline. -/
theorem Statement.code_eq_lines : ∀ (s : Statement) (level : Int),
    s.code level = s.outline.map (·.lines level)
  | .step s, level => by
      rw [Statement.code, Statement.outline]
      cases s.code <;> rfl
  | .block h ss, level => by
      rw [Statement.code, Statement.outline, Statement.codeAll_eq_linesAll ss]
      cases h.code with
      | error e => rfl
      | ok header =>
          cases hos : Statement.outlineAll ss with
          | error e => rfl
          | ok os =>
              have hempty := Statement.isEmpty_of_outlineAll hos
              cases os with
              | nil => simp [Except.map, ← hempty, Outline.filled, Outline.lines, Outline.linesAll]
              | cons o os => simp [Except.map, ← hempty, Outline.filled, Outline.lines]
termination_by structural s => s

/-- Statements are printed by printing their texts as an outline. -/
theorem Statement.codeAll_eq_linesAll : ∀ (ss : List Statement) (level : Int),
    Statement.codeAll level ss = (outlineAll ss).map (Outline.linesAll level)
  | [], level => rfl
  | s :: ss, level => by
      rw [Statement.codeAll, Statement.outlineAll, Statement.code_eq_lines s,
        Statement.codeAll_eq_linesAll ss]
      cases s.outline with
      | error e => rfl
      | ok o => cases Statement.outlineAll ss <;> rfl
termination_by structural ss => ss

end

/-- A body whose blocks are closed is written as the lines of its outline. -/
theorem Body.code_eq_linesAll (ss : List Statement) (level : Int) :
    (Body.ofStatements ss).code level =
      (Statement.outlineAll ss).map fun os => Outline.linesAll level (Outline.filled os) := by
  rw [Body.code_ofStatements, Statement.codeAll_eq_linesAll]
  cases Statement.outlineAll ss with
  | error e => rfl
  | ok os =>
      cases os with
      | nil => simp [Except.map, Outline.filled, Outline.linesAll, Outline.lines]
      | cons o os =>
          obtain ⟨text, inner⟩ := o
          simp [Except.map, Outline.filled, Outline.linesAll, Outline.lines]

/-- A body whose blocks are closed has the lines of its calls. -/
theorem Body.code_runAll {cs : List Entry} (h : openBlocks 0 cs = 0) (level : Int) :
    (runAll {} cs).code level = bodyLines level cs := by
  obtain ⟨ss, hentries, hrun⟩ := runAll_eq_ofStatements h
  have hlines := Statement.stepLines_entriesAll level ss 0 []
  rw [List.append_nil, hentries, stepLines_kept, Int.natCast_zero, Int.add_zero] at hlines
  rw [hrun, Body.code_ofStatements, bodyLines, hlines]
  cases Statement.codeAll level ss with
  | error e => rfl
  | ok lines => simp [stepLines, Except.map]

/-! ## Failures

A part that cannot be written has a failure of its own, so that an open block is told apart from it.
-/

theorem Role.code_ne_openBlock (r : Role) : r.code ≠ .error .openBlock := by
  unfold Role.code
  split <;> nofun

mutual

theorem Literal.code_ne_openBlock : ∀ l : Literal, l.code ≠ .error .openBlock
  | .none => nofun
  | .bool _ => nofun
  | .int _ => nofun
  | .number _ => nofun
  | .string _ => nofun
  | .list items => bind_ne_error (Literal.codeAll_ne_openBlock items) nofun
  | .record _ => nofun
termination_by structural l => l

theorem Literal.codeAll_ne_openBlock : ∀ ls : List Literal,
    Literal.codeAll ls ≠ .error .openBlock
  | [] => nofun
  | l :: ls => bind_ne_error (Literal.code_ne_openBlock l) fun _ =>
      bind_ne_error (Literal.codeAll_ne_openBlock ls) nofun
termination_by structural ls => ls

end

mutual

/-- No expression fails for the reason that a block is open. -/
theorem Expr.code_ne_openBlock : ∀ e : Expr, e.code ≠ .error .openBlock
  | .var _ => nofun
  | .selfType => nofun
  | .typeRef _ => nofun
  | .runtime r => r.code_ne_openBlock
  | .attr e _ => bind_ne_error (Expr.code_ne_openBlock e) nofun
  | .call f args => bind_ne_error (Expr.codeAll_ne_openBlock args) fun _ =>
      bind_ne_error (Expr.code_ne_openBlock f) nofun
  | .literal l => l.code_ne_openBlock
  | .add a b => by
      rw [Expr.code]
      split
      · exact Expr.code_ne_openBlock a
      · exact bind_ne_error (Expr.code_ne_openBlock a) fun _ =>
          bind_ne_error (Expr.code_ne_openBlock b) nofun
  | .memberAt a b => bind_ne_error (Expr.code_ne_openBlock a) fun _ =>
      bind_ne_error (Expr.code_ne_openBlock b) nofun
  | .isPresent e => bind_ne_error (Expr.code_ne_openBlock e) nofun
  | .isAbsent e => bind_ne_error (Expr.code_ne_openBlock e) nofun
  | .greater a b => bind_ne_error (Expr.code_ne_openBlock a) fun _ =>
      bind_ne_error (Expr.code_ne_openBlock b) nofun
  | .both a b => bind_ne_error (Expr.code_ne_openBlock a) fun _ =>
      bind_ne_error (Expr.code_ne_openBlock b) nofun
  | .foreign _ => nofun
termination_by structural e => e

theorem Expr.codeAll_ne_openBlock : ∀ es : List Expr, Expr.codeAll es ≠ .error .openBlock
  | [] => nofun
  | e :: es => bind_ne_error (Expr.code_ne_openBlock e) fun _ =>
      bind_ne_error (Expr.codeAll_ne_openBlock es) nofun
termination_by structural es => es

end

theorem Step.code_ne_openBlock (s : Step) : s.code ≠ .error .openBlock := by
  cases s with
  | assign t e =>
      exact bind_ne_error t.code_ne_openBlock fun _ => bind_ne_error e.code_ne_openBlock nofun
  | append t e =>
      exact bind_ne_error t.code_ne_openBlock fun _ => bind_ne_error e.code_ne_openBlock nofun
  | giveBack e => exact bind_ne_error e.code_ne_openBlock nofun
  | evaluate e => exact e.code_ne_openBlock
  | foreign value => nofun

theorem Header.code_ne_openBlock (h : Header) : h.code ≠ .error .openBlock := by
  cases h with
  | ifTrue e => exact bind_ne_error e.code_ne_openBlock nofun
  | forEach x e => exact bind_ne_error e.code_ne_openBlock nofun
  | foreign value => nofun

/-- Going through the entries never fails for the reason that a block is open; only the end does. -/
theorem Entry.stepLines_ne_openBlock (level : Int) (depth : Nat) (cs : List Entry) :
    stepLines level depth cs ≠ .error .openBlock := by
  induction cs generalizing depth with
  | nil => nofun
  | cons c cs ih =>
      cases c with
      | step s => exact bind_ne_error s.code_ne_openBlock fun _ => bind_ne_error (ih _) nofun
      | openBlock h => exact bind_ne_error h.code_ne_openBlock fun _ => bind_ne_error (ih _) nofun
      | closeBlock => exact ih _

/-- A body is refused as a whole exactly if a block of it is open. -/
theorem Body.code_eq_openBlock {cs : List Entry} {level : Int} :
    (runAll {} cs).code level = .error .openBlock ↔ openBlocks 0 cs ≠ 0 := by
  constructor
  · intro herror h
    have hlines : bodyLines level cs ≠ .error .openBlock :=
      bind_ne_error (stepLines_ne_openBlock level 0 cs) fun _ => by simp
    exact hlines ((Body.code_runAll h level).symm.trans herror)
  · intro h
    have hdepth : (runAll {} cs).depth = openBlocks 0 cs := (entries_runAll {} cs).2
    rw [Body.code, Body.isClosed, hdepth, if_neg (by simpa using h)]

/-! ## Blocks that are read back -/

namespace Outline

theorem oneLine_pass : OneLine "pass" := ⟨rfl, by decide, rfl⟩

/-- Filling empty blocks keeps every text on one line. -/
theorem allOneLined_filled {os : List Outline} (h : AllOneLined os) : AllOneLined (filled os) := by
  cases os with
  | nil => exact ⟨⟨oneLine_pass, trivial⟩, trivial⟩
  | cons o os => exact h

/-- A filled block has at least one line. -/
theorem filled_ne_nil (os : List Outline) : filled os ≠ [] := by
  cases os <;> nofun

end Outline

/-- The call asks for a line with the text. -/
def Entry.Writes (text : String) : Entry → Prop
  | step s => s.code = .ok text
  | openBlock h => h.code = .ok text
  | closeBlock => False

/-- The texts of the calls are one line each. -/
def Entry.OneLined (cs : List Entry) : Prop :=
  ∀ c ∈ cs, ∀ text, c.Writes text → Outline.OneLine text

theorem Entry.OneLined.mono {cs ds : List Entry} (h : OneLined cs) (hsub : ds ⊆ cs) :
    OneLined ds := fun c hc => h c (hsub hc)

mutual

/-- The outline of one-line entries has one-line texts. -/
theorem Statement.oneLined_outline : ∀ (s : Statement) (o : Outline), OneLined s.entries →
    s.outline = .ok o → o.OneLined
  | .step s, o, htexts, h => by
      obtain ⟨text, htext, h⟩ := bind_eq_ok.mp h
      cases h
      exact ⟨htexts (.step s) List.mem_cons_self text htext, trivial⟩
  | .block header ss, o, htexts, h => by
      obtain ⟨text, htext, h⟩ := bind_eq_ok.mp h
      obtain ⟨os, hos, h⟩ := bind_eq_ok.mp h
      cases h
      have hinner : OneLined (entriesAll ss) :=
        htexts.mono (List.Subset.trans (List.subset_append_left _ _) (List.subset_cons_self _ _))
      exact ⟨htexts (.openBlock header) List.mem_cons_self text htext,
        Outline.allOneLined_filled (Statement.oneLined_outlineAll ss os hinner hos)⟩
termination_by structural s => s

/-- The texts of an outline are those of the calls. -/
theorem Statement.oneLined_outlineAll : ∀ (ss : List Statement) (os : List Outline),
    OneLined (entriesAll ss) → outlineAll ss = .ok os → Outline.AllOneLined os
  | [], os, _, h => by
      cases h
      exact trivial
  | s :: ss, os, htexts, h => by
      obtain ⟨o, ho, h⟩ := bind_eq_ok.mp h
      obtain ⟨os', hos, h⟩ := bind_eq_ok.mp h
      cases h
      exact ⟨Statement.oneLined_outline s o (htexts.mono (List.subset_append_left _ _)) ho,
        Statement.oneLined_outlineAll ss os' (htexts.mono (List.subset_append_right _ _)) hos⟩
termination_by structural ss => ss

end

namespace Entry

variable {cs : List Entry} {level : Int}

/-- The text of the body that the calls build, read by its indentation, shows the statements in the
blocks to which the calls have added them. -/
def ReadsBack (cs : List Entry) (level : Int) : Prop :=
  ∃ lines ss os, (runAll {} cs).code level = .ok lines ∧
    Statement.entriesAll ss = kept 0 cs ∧ Statement.outlineAll ss = .ok os ∧
      Outline.read (4 * level.toNat) ("\n".intercalate lines) = some (Outline.filled os)

/-- If no block is open, the lines are read back by their indentation as the tree of the calls. -/
theorem readsBack (hopen : openBlocks 0 cs = 0) (hlevel : 0 ≤ level) (htexts : OneLined cs)
    {lines : List String} (hlines : (runAll {} cs).code level = .ok lines) :
    ReadsBack cs level := by
  obtain ⟨ss, hentries, hrun⟩ := runAll_eq_ofStatements hopen
  have hcode := hlines
  rw [hrun, Body.code_eq_linesAll] at hcode
  obtain ⟨os, hos, rfl⟩ := map_eq_ok.mp hcode
  have hkept : OneLined (Statement.entriesAll ss) := by
    intro c hc text htext
    have hc' : c ≠ closeBlock := fun h => by
      rw [h] at htext
      exact htext
    rw [hentries, mem_kept hc'] at hc
    exact htexts c hc text htext
  exact ⟨_, ss, os, hlines, hentries, hos, Outline.read_linesAll hlevel (Outline.filled_ne_nil os)
    (Outline.allOneLined_filled (Statement.oneLined_outlineAll ss os hkept hos))⟩

/-- The line below a header stands one level deeper, whatever the next call is. -/
theorem exists_stepLines_openBlock {depth : Nat} {h : Header} (hcs : cs ≠ []) {lines : List String}
    (hlines : stepLines level depth (openBlock h :: cs) = .ok lines) :
    ∃ header text below, h.code = .ok header ∧
      lines = (indent (level + depth) ++ header)
        :: (indent (level + depth + 1) ++ text) :: below := by
  rw [stepLines] at hlines
  obtain ⟨header, hheader, hlines⟩ := bind_eq_ok.mp hlines
  obtain ⟨inner, hinner, hlines⟩ := bind_eq_ok.mp hlines
  cases hlines
  cases cs with
  | nil => exact absurd rfl hcs
  | cons c cs =>
      cases c with
      | step s =>
          rw [stepLines, level_succ] at hinner
          obtain ⟨text, -, hinner⟩ := bind_eq_ok.mp hinner
          obtain ⟨below, -, hinner⟩ := bind_eq_ok.mp hinner
          cases hinner
          exact ⟨header, text, below, hheader, rfl⟩
      | openBlock h' =>
          rw [stepLines, level_succ] at hinner
          obtain ⟨text, -, hinner⟩ := bind_eq_ok.mp hinner
          obtain ⟨below, -, hinner⟩ := bind_eq_ok.mp hinner
          cases hinner
          exact ⟨header, text, _, hheader, rfl⟩
      | closeBlock => exact ⟨header, "pass", inner, hheader, rfl⟩

/-- Every header is followed by a line one level deeper. -/
theorem exists_deeper (hopen : openBlocks 0 cs = 0) {before after : List Entry} {h : Header}
    (hcs : cs = before ++ openBlock h :: after) {lines : List String}
    (hlines : bodyLines level cs = .ok lines) :
    ∃ above header text below, stepLines level 0 before = .ok above ∧ h.code = .ok header ∧
      lines = above ++ (indent (level + openBlocks 0 before) ++ header)
        :: (indent (level + openBlocks 0 before + 1) ++ text) :: below := by
  obtain ⟨all, hall, hlines⟩ := bind_eq_ok.mp hlines
  rw [hcs, stepLines_append_openBlock] at hall
  obtain ⟨above, habove, hall⟩ := bind_eq_ok.mp hall
  obtain ⟨block, hblock, hall⟩ := bind_eq_ok.mp hall
  cases hall
  -- a block without any call after its header would still be open
  have hafter : after ≠ [] := by
    rintro rfl
    rw [hcs, openBlocks_append] at hopen
    cases hopen
  obtain ⟨header, text, below, hheader, rfl⟩ := exists_stepLines_openBlock hafter hblock
  refine ⟨above, header, text, below, habove, hheader, ?_⟩
  cases hlines
  exact if_neg (by simp)

/-- The part that a call adds can be written. -/
def HasText (c : Entry) : Prop := c = closeBlock ∨ ∃ text, c.Writes text

/-- Entries that can be written have lines. -/
theorem stepLines_eq_ok (h : ∀ c ∈ cs, c.HasText) (level : Int) (depth : Nat) :
    ∃ lines, stepLines level depth cs = .ok lines := by
  induction cs generalizing depth with
  | nil => exact ⟨[], rfl⟩
  | cons c cs ih =>
      obtain ⟨hc, hcs⟩ := List.forall_mem_cons.mp h
      cases c with
      | step s =>
          obtain ⟨text, htext⟩ := hc.resolve_left nofun
          obtain ⟨lines, hlines⟩ := ih hcs depth
          exact ⟨_, bind_eq_ok.mpr ⟨text, htext, bind_eq_ok.mpr ⟨lines, hlines, rfl⟩⟩⟩
      | openBlock header =>
          obtain ⟨text, htext⟩ := hc.resolve_left nofun
          obtain ⟨lines, hlines⟩ := ih hcs (depth + 1)
          exact ⟨_, bind_eq_ok.mpr ⟨text, htext, bind_eq_ok.mpr ⟨lines, hlines, rfl⟩⟩⟩
      | closeBlock => exact ih hcs (depth - 1)

/-- How the lines of a body stand whose blocks are all closed. -/
structure Laid (cs : List Entry) (level : Int) (lines : List String) : Prop where
  /-- Each step and each header has a line on the level of the blocks around it, and each empty
  block has one that does nothing. -/
  lines_eq : bodyLines level cs = .ok lines
  /-- A header is followed by a line one level deeper. -/
  deeper : ∀ before h after, cs = before ++ openBlock h :: after →
    ∃ above header text below, stepLines level 0 before = .ok above ∧ h.code = .ok header ∧
      lines = above ++ (indent (level + openBlocks 0 before) ++ header)
        :: (indent (level + openBlocks 0 before + 1) ++ text) :: below
  /-- The columns show the blocks, if every text is one line. -/
  reads : 0 ≤ level → OneLined cs → ReadsBack cs level

/-- After any calls on an empty body, a call is refused exactly if it closes a block and none is
open, and the body cannot be written exactly if a block is open. Otherwise its lines are those of
the calls, and if these have texts, then the lines show the blocks. -/
theorem code_of_calls (cs : List Entry) (level : Int) :
    (∀ c, c.perform (runAll {} cs) = .error .nothingOpen ↔
        c = closeBlock ∧ openBlocks 0 cs = 0) ∧
      ((runAll {} cs).code level = .error .openBlock ↔ openBlocks 0 cs ≠ 0) ∧
      (openBlocks 0 cs = 0 → (runAll {} cs).code level = bodyLines level cs ∧
        ((∀ c ∈ cs, c.HasText) →
          ∃ lines, (runAll {} cs).code level = .ok lines ∧ Laid cs level lines)) := by
  refine ⟨fun c => ?_, Body.code_eq_openBlock, fun hopen => ?_⟩
  · have hdepth : (runAll {} cs).depth = openBlocks 0 cs := (entries_runAll {} cs).2
    rw [perform_eq_error, hdepth]
  · have hcode := Body.code_runAll hopen level
    refine ⟨hcode, fun htexts => ?_⟩
    obtain ⟨lines, hlines⟩ : ∃ lines, bodyLines level cs = .ok lines := by
      obtain ⟨lines, hlines⟩ := stepLines_eq_ok htexts level 0
      exact ⟨_, bind_eq_ok.mpr ⟨lines, hlines, rfl⟩⟩
    have hwritten := hcode.trans hlines
    exact ⟨lines, hwritten, hlines, fun _ _ _ hcs => exists_deeper hopen hcs hlines,
      fun hlevel honeLined => readsBack hopen hlevel honeLined hwritten⟩

/-- A call that is refused, an empty block, a text with brackets in it, and a block that ends with
another one. -/
def nestedCalls : List Entry :=
  [closeBlock, step (.assign (.var "a") (.literal (.string "(#"))),
    openBlock (.forEach "x" (.var "xs")), openBlock (.ifTrue (.var "x")), closeBlock,
    openBlock (.ifTrue (.var "a")), step (.evaluate (.call (.var "f") [.var "x"])), closeBlock,
    closeBlock, step (.giveBack .selfType)]

def nestedTexts : List String :=
  ["a = \"(#\"", "for x in xs:", "if x:", "if a:", "f(x)", "return cls"]

theorem writes_nestedCalls :
    ∀ c ∈ nestedCalls, c = closeBlock ∨ ∃ text ∈ nestedTexts, c.Writes text := by
  simp only [nestedCalls, List.forall_mem_cons]
  exact ⟨.inl trivial, .inr ⟨_, .head _, rfl⟩, .inr ⟨_, .tail _ (.head _), rfl⟩,
    .inr ⟨_, .tail _ (.tail _ (.head _)), rfl⟩, .inl trivial,
    .inr ⟨_, .tail _ (.tail _ (.tail _ (.head _))), rfl⟩,
    .inr ⟨_, .tail _ (.tail _ (.tail _ (.tail _ (.head _)))), rfl⟩, .inl trivial, .inl trivial,
    .inr ⟨_, .tail _ (.tail _ (.tail _ (.tail _ (.tail _ (.head _))))), rfl⟩, List.forall_mem_nil _⟩

/-- An entry has one text at most. -/
theorem Writes.unique {c : Entry} {text text' : String} (h : c.Writes text) (h' : c.Writes text') :
    text = text' := by
  cases c with
  | step s => exact Except.ok.inj (h.symm.trans h')
  | openBlock header => exact Except.ok.inj (h.symm.trans h')
  | closeBlock => exact h.elim

theorem oneLined_nestedCalls : OneLined nestedCalls := by
  have htexts : ∀ text ∈ nestedTexts, Outline.OneLine text := by
    simp only [nestedTexts, List.forall_mem_cons]
    exact ⟨⟨rfl, by decide, rfl⟩, ⟨rfl, by decide, rfl⟩, ⟨rfl, by decide, rfl⟩,
      ⟨rfl, by decide, rfl⟩, ⟨rfl, by decide, rfl⟩, ⟨rfl, by decide, rfl⟩, List.forall_mem_nil _⟩
  intro c hc text htext
  rcases writes_nestedCalls c hc with rfl | ⟨text', hmem, htext'⟩
  · exact htext.elim
  · rw [htext.unique htext']
    exact htexts text' hmem

/-- Calls with a block in a block, an empty block and a close too many. -/
theorem code_of_calls_nested :
    openBlocks 0 nestedCalls = 0 ∧ (∀ c ∈ nestedCalls, c.HasText) ∧ OneLined nestedCalls ∧
      (∃ lines, (runAll {} nestedCalls).code 2 = .ok lines ∧ Laid nestedCalls 2 lines) ∧
      ReadsBack nestedCalls 2 := by
  have hopen : openBlocks 0 nestedCalls = 0 := rfl
  have htexts : ∀ c ∈ nestedCalls, c.HasText := fun c hc =>
    (writes_nestedCalls c hc).imp_right fun ⟨text, _, htext⟩ => ⟨text, htext⟩
  have hlaid := ((code_of_calls nestedCalls 2).2.2 hopen).2 htexts
  refine ⟨hopen, htexts, oneLined_nestedCalls, hlaid, ?_⟩
  obtain ⟨lines, -, h⟩ := hlaid
  exact h.reads (by decide) oneLined_nestedCalls

end Entry

end SmlSchema.Code
