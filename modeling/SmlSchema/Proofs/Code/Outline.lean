import SmlSchema.Code.Printer

/-! # Blocks that are marked by indentation

In the target language a line of the program goes on with the next line of the text while a bracket
or a long text is open in it, or if it ends with a backslash. Nothing but the column at which a line
of the program begins tells to which block it belongs: a line to the right of the one before begins
a block, and a line to the left ends all blocks whose column it does not reach. Texts that are
complete on one line each, written as the lines of an outline, are read as this outline.
-/

namespace SmlSchema.Code

/-! ## Lines of the program -/

/-- What is open at a place in the text, within a number of brackets. -/
inductive LineState where
  | code (brackets : Nat)
  | comment (brackets : Nat)
  /-- After a backslash, which has to be the last character of its line. -/
  | backslash (brackets : Nat)
  /-- After one quote, which begins a text or is the first of more quotes. -/
  | quote (brackets : Nat) (q : Char)
  /-- After two quotes: an empty text, or the beginning of a long one. -/
  | quotes (brackets : Nat) (q : Char)
  | short (brackets : Nat) (q : Char)
  | shortEscape (brackets : Nat) (q : Char)
  /-- In a long text, after some of the three quotes that end it. -/
  | long (brackets : Nat) (q : Char) (closing : Nat)
  | longEscape (brackets : Nat) (q : Char)
deriving DecidableEq, Repr

namespace LineState

/-- Nothing if the character is no part of a program there. -/
def inCode (brackets : Nat) (c : Char) : Option LineState :=
  if c = '\\' then some (backslash brackets)
  else if c = '#' then some (comment brackets)
  else if c = '\x22' ∨ c = '\x27' then some (quote brackets c)
  else if c = '(' ∨ c = '[' ∨ c = '\x7b' then some (code (brackets + 1))
  else if c = ')' ∨ c = ']' ∨ c = '\x7d' then
    if brackets = 0 then none else some (code (brackets - 1))
  else some (code brackets)

/-- The state after a character that ends no line. -/
def next : LineState → Char → Option LineState
  | code n, c => inCode n c
  | comment n, _ => some (comment n)
  | backslash _, _ => none
  | quote n q, c =>
    if c = q then some (quotes n q)
    else if c = '\\' then some (shortEscape n q) else some (short n q)
  | quotes n q, c => if c = q then some (long n q 0) else inCode n c
  | short n q, c =>
    if c = q then some (code n)
    else if c = '\\' then some (shortEscape n q) else some (short n q)
  | shortEscape n q, _ => some (short n q)
  | long n q closing, c =>
    if c = q then some (if closing = 2 then code n else long n q (closing + 1))
    else if c = '\\' then some (longEscape n q) else some (long n q 0)
  | longEscape n q, _ => some (long n q 0)

/-- How a line of the text ends. -/
inductive LineEnd where
  | complete
  | goesOn (state : LineState)
deriving DecidableEq, Repr

/-- Nothing if a short text is open. -/
def lineEnd : LineState → Option LineEnd
  | code n | comment n | quotes n _ => some (if n = 0 then .complete else .goesOn (code n))
  | backslash n => some (.goesOn (code n))
  | quote _ _ | short _ _ => none
  | shortEscape n q => some (.goesOn (short n q))
  | long n q _ | longEscape n q => some (.goesOn (long n q 0))

def scanLine (state : LineState) (line : String) : Option LineEnd := do
  (← line.toList.foldlM next state).lineEnd

end LineState

open LineState in
/-- The lines of a program: lines of its text, put together where they go on. What stands before is
the beginning of a line that has gone on. -/
def joinLines (state : LineState) (before : String) : List String → Option (List String)
  | [] => if before = "" then some [] else none
  | l :: ls => do
    match ← scanLine state l with
    | .complete => return (before ++ l) :: (← joinLines (code 0) "" ls)
    | .goesOn state => joinLines state (before ++ l ++ "\n") ls

/-- The lines of a text; a carriage return also ends a line. -/
def textLines : List Char → List (List Char)
  | [] => [[]]
  | '\r' :: '\n' :: cs => [] :: textLines cs
  | c :: cs => if c = '\n' ∨ c = '\r' then [] :: textLines cs else Text.consLine c (textLines cs)

def programLines (text : String) : Option (List String) :=
  joinLines (.code 0) "" ((textLines text.toList).map String.ofList)

/-! ## Outlines -/

/-- A line, and what stands in the block below it if it is the header of one. -/
inductive Outline where
  | node (text : String) (inner : List Outline)
deriving Repr

namespace Outline

/-! ## Reading by columns -/

/-- What lines tell: their text, and where a block is entered or left. -/
inductive Mark where
  | line (text : String)
  | enter
  | leave
deriving DecidableEq, Repr

/-- The column at which a line begins, and the text there. A tab goes on to the next multiple of
eight, a form feed goes back to the first column. -/
def measure (column : Nat) : List Char → Nat × List Char
  | ' ' :: cs => measure (column + 1) cs
  | '\t' :: cs => measure ((column / 8 + 1) * 8) cs
  | '\x0c' :: cs => measure 0 cs
  | cs => (column, cs)

/-- Empty lines and comments belong to no block. -/
def isIdle : List Char → Bool
  | [] => true
  | c :: _ => c == '#'

/-- Leave blocks until the column is that of a block. -/
def leaveTo (column : Nat) : List Nat → Option (List Mark × List Nat)
  | [] => none
  | k :: ks =>
    if column = k then some ([], k :: ks)
    else if column < k then (leaveTo column ks).map fun r => (.leave :: r.1, r.2)
    else none

/-- Compare the column of a line with the columns of the blocks around it, from the inside to the
outside. -/
def settle (column : Nat) : List Nat → Option (List Mark × List Nat)
  | [] => none
  | k :: ks => if k < column then some ([.enter], column :: k :: ks) else leaveTo column (k :: ks)

/-- The marks of lines. After the last line all blocks but the outermost are left. -/
def scan (columns : List Nat) : List String → Option (List Mark)
  | [] => some (List.replicate (columns.length - 1) .leave)
  | l :: ls =>
    let found := measure 0 l.toList
    if isIdle found.2 then scan columns ls
    else do
      let (ms, columns) ← settle found.1 columns
      return ms ++ .line (String.ofList found.2) :: (← scan columns ls)

/-- Put lines into the blocks that they belong to. The lines of the current block are in reverse;
around it stand the headers of the blocks that have been entered, each with what comes before it. -/
def nest : List Outline → List (String × List Outline) → List Mark → Option (List Outline)
  | current, [], [] => some current.reverse
  | _, _ :: _, [] => none
  | current, around, .line text :: ms => nest (node text [] :: current) around ms
  | node text [] :: before, around, .enter :: ms => nest [] ((text, before) :: around) ms
  | _, _, .enter :: _ => none
  | current, (text, before) :: around, .leave :: ms =>
    nest (node text current.reverse :: before) around ms
  | _, [], .leave :: _ => none

/-- The outline of a program whose outermost block begins at the column. -/
def read (column : Nat) (text : String) : Option (List Outline) := do
  nest [] [] (← scan [column] (← programLines text))

/-! ## Writing -/

mutual

/-- The lines of an outline. -/
def lines (level : Int) : Outline → List String
  | node text inner => (indent level ++ text) :: linesAll (level + 1) inner
termination_by structural o => o

@[inherit_doc lines]
def linesAll (level : Int) : List Outline → List String
  | [] => []
  | o :: os => o.lines level ++ linesAll level os
termination_by structural os => os

end

mutual

/-- The marks that the lines of an outline give. -/
def marks : Outline → List Mark
  | node text inner =>
    .line text :: if inner.isEmpty then [] else .enter :: (marksAll inner ++ [.leave])
termination_by structural o => o

@[inherit_doc marks]
def marksAll : List Outline → List Mark
  | [] => []
  | o :: os => o.marks ++ marksAll os
termination_by structural os => os

end

/-- The first character of the text is seen and starts no comment. -/
def beginsLine (text : String) : Bool :=
  match text.toList with
  | [] => false
  | c :: _ => c != ' ' && c != '\t' && c != '\x0c' && c != '#'

/-- The text is one line of a program: it ends no line, and nothing is open after it. -/
structure OneLine (text : String) : Prop where
  begins : beginsLine text
  unbroken : '\n' ∉ text.toList ∧ '\r' ∉ text.toList
  complete : LineState.scanLine (.code 0) text = some .complete

mutual

/-- All texts of an outline are one line each. -/
def OneLined : Outline → Prop
  | node text inner => OneLine text ∧ AllOneLined inner
termination_by structural o => o

@[inherit_doc OneLined]
def AllOneLined : List Outline → Prop
  | [] => True
  | o :: os => o.OneLined ∧ AllOneLined os
termination_by structural os => os

end

/-! ## From lines to marks -/

/-- Blanks in front count as columns. -/
theorem measure_replicate (n column : Nat) (cs : List Char) :
    measure column (List.replicate n ' ' ++ cs) = measure (column + n) cs := by
  induction n generalizing column with
  | zero => rfl
  | succ n ih =>
      rw [List.replicate_succ, List.cons_append, measure, ih]
      congr 1
      omega

/-- A text that begins a line has no blanks in front and is not idle. -/
theorem measure_of_beginsLine {text : String} (h : beginsLine text) (column : Nat) :
    measure column text.toList = (column, text.toList) ∧ isIdle text.toList = false := by
  unfold beginsLine at h
  split at h
  · cases h
  · rename_i c cs htext
    simp only [Bool.and_eq_true, bne_iff_ne, ne_eq] at h
    obtain ⟨⟨⟨hspace, htab⟩, hfeed⟩, hcomment⟩ := h
    rw [htext]
    refine ⟨?_, by simpa [isIdle] using hcomment⟩
    unfold measure
    split <;> simp_all

variable {level : Int} {text : String} {k k' : Nat} {ks : List Nat} {ls rest : List String}

/-- An indented text stands at four columns for each level. -/
theorem measure_indent (h : beginsLine text) (level : Int) :
    measure 0 (indent level ++ text).toList = (4 * level.toNat, text.toList) := by
  rw [String.toList_append, indent, String.toList_ofList, measure_replicate, Nat.zero_add]
  exact (measure_of_beginsLine h _).1

/-- A line is settled by its level. -/
theorem scan_line (h : beginsLine text) (columns : List Nat) (level : Int) (ls : List String) :
    scan columns ((indent level ++ text) :: ls) =
      (settle (4 * level.toNat) columns).bind fun r =>
        (scan r.2 ls).map fun ms => r.1 ++ .line text :: ms := by
  rw [scan, measure_indent h]
  dsimp only
  rw [(measure_of_beginsLine h 0).2, String.ofList_toList]
  cases settle (4 * level.toNat) columns with
  | none => rfl
  | some r =>
      cases hls : scan r.2 ls <;> simp [hls]

/-- A line of the current block. -/
theorem scan_same (h : beginsLine text) (hk : 4 * level.toNat = k) :
    scan (k :: ks) ((indent level ++ text) :: ls) =
      (scan (k :: ks) ls).map (.line text :: ·) := by
  rw [scan_line h, hk, settle, if_neg (Nat.lt_irrefl k), leaveTo, if_pos rfl]
  rfl

/-- A line to the right enters a block. -/
theorem scan_enter (h : beginsLine text) (hk : k < 4 * level.toNat) :
    scan (k :: ks) ((indent level ++ text) :: ls) =
      (scan (4 * level.toNat :: k :: ks) ((indent level ++ text) :: ls)).map (.enter :: ·) := by
  rw [scan_same h rfl, scan_line h, settle, if_pos hk, Option.bind_some, Option.map_map]
  rfl

/-- A line to the left leaves a block. -/
theorem scan_leave (h : beginsLine text) (hlevel : 4 * level.toNat ≤ k) (hk : k < k') :
    scan (k' :: k :: ks) ((indent level ++ text) :: ls) =
      (scan (k :: ks) ((indent level ++ text) :: ls)).map (.leave :: ·) := by
  rw [scan_line h, scan_line h, settle, settle, if_neg (by omega), if_neg (by omega), leaveTo,
    if_neg (by omega), if_pos (by omega)]
  cases leaveTo (4 * level.toNat) (k :: ks) with
  | none => rfl
  | some r => simp [Function.comp_def]

/-- Lines that can follow a block around which another one begins at the column. -/
inductive Follow (column : Nat) : List String → Prop where
  | nil : Follow column []
  | cons (level : Int) (text : String) (ls : List String) (hlevel : 4 * level.toNat ≤ column)
      (htext : beginsLine text) : Follow column ((indent level ++ text) :: ls)

/-- What may follow at some column may follow at a deeper one. -/
theorem Follow.mono (h : Follow k rest) (hk : k ≤ k') : Follow k' rest := by
  cases h with
  | nil => exact .nil
  | cons level text ls hlevel htext => exact .cons level text ls (Nat.le_trans hlevel hk) htext

/-- The lines of an outline may follow at their own column. -/
theorem Follow.linesAll {os : List Outline} (hos : AllOneLined os) (h : Follow k rest)
    (hlevel : 4 * level.toNat ≤ k) : Follow k (linesAll level os ++ rest) := by
  cases os with
  | nil => exact h
  | cons o os =>
      obtain ⟨text, inner⟩ := o
      exact .cons level text _ hlevel hos.1.1.begins

/-- A line further to the left closes the block. -/
theorem Follow.scan_leave (h : Follow k rest) (hk : k < k') :
    scan (k' :: k :: ks) rest = (scan (k :: ks) rest).map (.leave :: ·) := by
  cases h with
  | nil => rfl
  | cons level text ls hlevel htext => exact Outline.scan_leave htext hlevel hk

mutual

/-- The lines of an outline give its marks; the blocks in it are left when the next line is met. -/
theorem scan_lines (level : Int) (hlevel : 0 ≤ level) (ks : List Nat) {rest : List String}
    (hrest : Follow (4 * level.toNat) rest) : ∀ o : Outline, o.OneLined →
      scan (4 * level.toNat :: ks) (o.lines level ++ rest) =
        (scan (4 * level.toNat :: ks) rest).map (o.marks ++ ·)
  | node text [], h => by
      rw [lines, linesAll, List.cons_append, List.nil_append, scan_same h.1.begins rfl]
      rfl
  | node text (o :: os), h => by
      have hdeeper : 4 * level.toNat < 4 * (level + 1).toNat := by omega
      obtain ⟨first, inner⟩ := o
      -- the block is entered at its first line and left after its last
      have henter : scan (4 * level.toNat :: ks)
            (linesAll (level + 1) (node first inner :: os) ++ rest) =
          (scan (4 * (level + 1).toNat :: 4 * level.toNat :: ks)
            (linesAll (level + 1) (node first inner :: os) ++ rest)).map (.enter :: ·) :=
        scan_enter h.2.1.1.begins hdeeper
      have hinner := scan_linesAll (level + 1) (by omega) (4 * level.toNat :: ks)
        (hrest.mono (Nat.le_of_lt hdeeper)) (node first inner :: os) h.2
      rw [lines, List.cons_append, scan_same h.1.begins rfl, henter, hinner,
        hrest.scan_leave hdeeper, Option.map_map, Option.map_map, Option.map_map]
      congr 1
      funext ms
      simp [marks]
termination_by structural o => o

/-- The lines of an outline are scanned into its marks. -/
theorem scan_linesAll (level : Int) (hlevel : 0 ≤ level) (ks : List Nat) {rest : List String}
    (hrest : Follow (4 * level.toNat) rest) : ∀ os : List Outline, AllOneLined os →
      scan (4 * level.toNat :: ks) (linesAll level os ++ rest) =
        (scan (4 * level.toNat :: ks) rest).map (marksAll os ++ ·)
  | [], _ => by
      rw [linesAll, marksAll, List.nil_append]
      exact Option.map_id'.symm
  | o :: os, h => by
      rw [linesAll, List.append_assoc,
        scan_lines level hlevel ks (hrest.linesAll h.2 (Nat.le_refl _)) o h.1,
        scan_linesAll level hlevel ks hrest os h.2, Option.map_map, marksAll]
      congr 1
      funext ms
      exact (List.append_assoc ..).symm
termination_by structural os => os

end

/-! ## From marks to outlines -/

mutual

/-- The marks of an outline are nested into the outline again. -/
theorem nest_marks (around : List (String × List Outline)) (ms : List Mark) :
    ∀ (o : Outline) (current : List Outline),
      nest current around (o.marks ++ ms) = nest (o :: current) around ms
  | node text [], current => by
      rw [marks, List.isEmpty_nil, if_pos rfl, List.singleton_append, nest]
  | node text (o :: os), current => by
      rw [marks, List.isEmpty_cons, if_neg Bool.false_ne_true, List.cons_append, nest,
        List.cons_append, nest, List.append_assoc, nest_marksAll, List.singleton_append, nest]
      simp
termination_by structural o => o

/-- The marks of several outlines are nested into them again. -/
theorem nest_marksAll (around : List (String × List Outline)) (ms : List Mark) :
    ∀ (os : List Outline) (current : List Outline),
      nest current around (marksAll os ++ ms) = nest (os.reverse ++ current) around ms
  | [], current => rfl
  | o :: os, current => by
      rw [marksAll, List.append_assoc, nest_marks, nest_marksAll]
      simp
termination_by structural os => os

end

/-! ## From texts to lines -/

theorem textLines_unbroken {l : List Char} (hfeed : '\n' ∉ l) (hreturn : '\r' ∉ l) :
    textLines l = [l] := by
  induction l with
  | nil => rfl
  | cons c l ih =>
      have hc := List.ne_of_not_mem_cons hfeed
      have hc' := List.ne_of_not_mem_cons hreturn
      rw [textLines, if_neg (by simp [Ne.symm hc, Ne.symm hc']),
        ih (List.not_mem_of_not_mem_cons hfeed) (List.not_mem_of_not_mem_cons hreturn)]
      · rfl
      · exact fun _ h => absurd h.symm hc'

/-- A line feed ends a line. -/
theorem textLines_append {l : List Char} (hfeed : '\n' ∉ l) (hreturn : '\r' ∉ l)
    (cs : List Char) : textLines (l ++ '\n' :: cs) = l :: textLines cs := by
  induction l with
  | nil => simp [textLines]
  | cons c l ih =>
      have hc := List.ne_of_not_mem_cons hfeed
      have hc' := List.ne_of_not_mem_cons hreturn
      rw [List.cons_append, textLines, if_neg (by simp [Ne.symm hc, Ne.symm hc']),
        ih (List.not_mem_of_not_mem_cons hfeed)
          (List.not_mem_of_not_mem_cons hreturn)]
      · rfl
      · exact fun _ h => absurd h.symm hc'

/-- Lines that end no line themselves are found again in their text. -/
theorem textLines_intercalate {ls : List String} (hne : ls ≠ [])
    (h : ∀ l ∈ ls, '\n' ∉ l.toList ∧ '\r' ∉ l.toList) :
    (textLines ("\n".intercalate ls).toList).map String.ofList = ls := by
  induction ls with
  | nil => exact absurd rfl hne
  | cons l ls ih =>
      obtain ⟨⟨hfeed, hreturn⟩, hls⟩ := List.forall_mem_cons.mp h
      cases ls with
      | nil => simp [textLines_unbroken hfeed hreturn]
      | cons l' ls =>
          have htext : ("\n".intercalate (l :: l' :: ls)).toList =
              l.toList ++ '\n' :: ("\n".intercalate (l' :: ls)).toList := by
            simp [String.intercalate_cons_cons]
          rw [htext, textLines_append hfeed hreturn, List.map_cons, String.ofList_toList,
            ih (List.cons_ne_nil _ _) hls]

/-- Lines that are complete are the lines of the program. -/
theorem joinLines_complete {ls : List String}
    (h : ∀ l ∈ ls, LineState.scanLine (.code 0) l = some .complete) :
    joinLines (.code 0) "" ls = some ls := by
  induction ls with
  | nil => rfl
  | cons l ls ih =>
      obtain ⟨hl, hls⟩ := List.forall_mem_cons.mp h
      simp [joinLines, hl, ih hls]

/-- Lines that are complete and unbroken are the lines of the text they make. -/
theorem programLines_intercalate {ls : List String} (hne : ls ≠ [])
    (hunbroken : ∀ l ∈ ls, '\n' ∉ l.toList ∧ '\r' ∉ l.toList)
    (hcomplete : ∀ l ∈ ls, LineState.scanLine (.code 0) l = some .complete) :
    programLines ("\n".intercalate ls) = some ls := by
  rw [programLines, textLines_intercalate hne hunbroken, joinLines_complete hcomplete]

/-- Indenting a one-line text breaks no line. -/
theorem OneLine.indent_unbroken (h : OneLine text) (level : Int) :
    '\n' ∉ (indent level ++ text).toList ∧ '\r' ∉ (indent level ++ text).toList := by
  simp [indent, String.toList_append, h.unbroken]

/-- Blanks in front open nothing. -/
theorem OneLine.indent_complete (h : OneLine text) (level : Int) :
    LineState.scanLine (.code 0) (indent level ++ text) = some .complete := by
  have hblanks (n : Nat) :
      (List.replicate n ' ').foldlM LineState.next (.code 0) = some (.code 0) := by
    induction n with
    | zero => rfl
    | succ n ih => exact ih
  have hcomplete := h.complete
  rw [LineState.scanLine] at hcomplete ⊢
  rw [String.toList_append, indent, String.toList_ofList, List.foldlM_append, hblanks]
  exact hcomplete

mutual

/-- Every line of an outline is a one-line text behind blanks. -/
theorem exists_of_mem_lines (level : Int) : ∀ o : Outline, o.OneLined → ∀ l ∈ o.lines level,
    ∃ deep text, OneLine text ∧ l = indent deep ++ text
  | node text inner, h, l, hl => by
      rw [lines, List.mem_cons] at hl
      rcases hl with rfl | hl
      · exact ⟨level, text, h.1, rfl⟩
      · exact exists_of_mem_linesAll (level + 1) inner h.2 l hl
termination_by structural o => o

/-- Every line is a text of the outline behind blanks. -/
theorem exists_of_mem_linesAll (level : Int) : ∀ os : List Outline, AllOneLined os →
    ∀ l ∈ linesAll level os, ∃ deep text, OneLine text ∧ l = indent deep ++ text
  | [], _, l, hl => by cases hl
  | o :: os, h, l, hl => by
      rw [linesAll, List.mem_append] at hl
      rcases hl with hl | hl
      · exact exists_of_mem_lines level o h.1 l hl
      · exact exists_of_mem_linesAll level os h.2 l hl
termination_by structural os => os

end

/-- The lines of an outline, put together to a text, are read as this outline. -/
theorem read_linesAll {os : List Outline} (hlevel : 0 ≤ level) (hne : os ≠ [])
    (h : AllOneLined os) :
    read (4 * level.toNat) ("\n".intercalate (linesAll level os)) = some os := by
  have hlines : programLines ("\n".intercalate (linesAll level os)) =
      some (linesAll level os) := by
    refine programLines_intercalate ?_ (fun l hl => ?_) fun l hl => ?_
    · cases os with
      | nil => exact absurd rfl hne
      | cons o os =>
          obtain ⟨text, inner⟩ := o
          exact List.cons_ne_nil _ _
    · obtain ⟨deep, text, htext, rfl⟩ := exists_of_mem_linesAll level os h l hl
      exact htext.indent_unbroken deep
    · obtain ⟨deep, text, htext, rfl⟩ := exists_of_mem_linesAll level os h l hl
      exact htext.indent_complete deep
  have hscan := scan_linesAll level hlevel [] .nil os h
  rw [List.append_nil] at hscan
  have hnest := nest_marksAll [] [] os []
  rw [List.append_nil, List.append_nil] at hnest
  rw [read, hlines, Option.bind_eq_bind, Option.bind_some, hscan]
  simp [scan, hnest, nest]

end Outline

end SmlSchema.Code
