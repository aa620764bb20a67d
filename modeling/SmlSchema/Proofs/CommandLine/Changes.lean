import SmlSchema.CommandLine.Run
import SmlSchema.Proofs.Attempt
import SmlSchema.Proofs.Code.Totality
import SmlSchema.Proofs.File.Tree

/-! # What a run changes

A run reads one file, makes the whole module, and only then touches the files. If it stops before,
for whatever reason, then the files are as they were. After the module has been written, only the
lines that tell of it are left to print: if the console refuses one of these, then the run fails
although the module is there.
-/

namespace SmlSchema

open File (Tree)

/-- Messages with the answers to them. -/
abbrev Printout := List (Message × Option PrintFault)

/-- Nothing was refused. -/
def Printout.Taken (ms : Printout) : Prop := ∀ x ∈ ms, x.2 = none

/-- The messages were printed, with the answers that the console gives to them. -/
structure Answers (w w' : World) (ms : Printout) : Prop where
  answer : w'.terminal.answer = w.terminal.answer
  printed : w'.terminal.printed = w.terminal.printed ++ ms
  answered : ∀ x ∈ ms, ∃ before, x.2 = w.terminal.answer before x.1

/-- What the console answers to two texts is put together from both. -/
theorem Answers.trans {w w' w'' : World} {ms ms' : Printout} (h : Answers w w' ms)
    (h' : Answers w' w'' ms') : Answers w w'' (ms ++ ms') where
  answer := h'.answer.trans h.answer
  printed := by rw [h'.printed, h.printed, List.append_assoc]
  answered := by
    refine List.forall_mem_append.mpr ⟨h.answered, ?_⟩
    rw [← h.answer]
    exact h'.answered

theorem Answers.of_eq {w w' : World} (h : w'.terminal = w.terminal) : Answers w w' [] :=
  ⟨congrArg _ h, by rw [h, List.append_nil], by simp⟩

/-- Nothing but the printing of the messages has happened. -/
structure Prints (w w' : World) (ms : Printout) : Prop extends Answers w w' ms where
  files : w'.files = w.files

theorem Prints.refl (w : World) : Prints w w [] := ⟨.of_eq rfl, rfl⟩

/-- Printing goes on where it has stopped. -/
theorem Prints.trans {w w' w'' : World} {ms ms' : Printout} (h : Prints w w' ms)
    (h' : Prints w' w'' ms') : Prints w w'' (ms ++ ms') :=
  ⟨h.toAnswers.trans h'.toAnswers, h'.files.trans h.files⟩

theorem Printout.Taken.append {ms ms' : Printout} (h : ms.Taken) (h' : ms'.Taken) :
    (ms ++ ms').Taken := List.forall_mem_append.mpr ⟨h, h'⟩

/-- How a step ends that prints only messages of a kind: one of them is refused, or all are taken
and the result is as the condition says. -/
inductive Talks (K : Message → Prop) (w : World) (P : Except CompileError α → Prop) :
    Except CompileError α × World → Prop where
  | refused {e : CompileError} {w' : World} {ms : Printout} (prints : Prints w w' ms)
      (kind : ∀ x ∈ ms, K x.1) (refused : ¬ ms.Taken) : Talks K w P (.error e, w')
  | taken {r : Except CompileError α} {w' : World} {ms : Printout} (prints : Prints w w' ms)
      (kind : ∀ x ∈ ms, K x.1) (taken : ms.Taken) (h : P r) : Talks K w P (r, w')

namespace Talks

variable {K : Message → Prop} {w : World} {P : Except CompileError α → Prop}
  {Q : Except CompileError β → Prop} {x : Attempt World CompileError α}
  {f : α → Attempt World CompileError β}

theorem of_eq {r : Except CompileError α} (hx : x.on w = (r, w)) (h : P r) :
    Talks K w P (x.on w) := by
  rw [hx]
  exact .taken (.refl w) (by simp) (by simp [Printout.Taken]) h

/-- What comes before in the same run. -/
theorem after {w' : World} {ms : Printout} {p : Except CompileError α × World}
    (prints : Prints w w' ms) (kind : ∀ x ∈ ms, K x.1) (taken : ms.Taken) (h : Talks K w' P p) :
    Talks K w P p := by
  cases h with
  | refused prints' kind' refused =>
      exact .refused (prints.trans prints') (List.forall_mem_append.mpr ⟨kind, kind'⟩) fun h =>
        refused (List.forall_mem_append.mp h).2
  | taken prints' kind' taken' h =>
      exact .taken (prints.trans prints') (List.forall_mem_append.mpr ⟨kind, kind'⟩)
        (taken.append taken') h

/-- One step after the other: the second starts with the same files. -/
theorem bind (hx : Talks K w P (x.on w)) (herror : ∀ e, P (.error e) → Q (.error e))
    (hf : ∀ a w', w'.files = w.files → P (.ok a) → Talks K w' Q ((f a).on w')) :
    Talks K w Q ((x >>= f).on w) := by
  rcases hon : x.on w with ⟨r, w'⟩
  rw [hon] at hx
  cases hx with
  | refused prints kind refused =>
      rw [Attempt.on_bind_of_error hon]
      exact .refused prints kind refused
  | taken prints kind taken h =>
      cases r with
      | error e =>
          rw [Attempt.on_bind_of_error hon]
          exact .taken prints kind taken (herror e h)
      | ok a =>
          rw [Attempt.on_bind_of_ok hon]
          exact (hf a w' prints.files h).after prints kind taken

/-- What is said and how it ends may be restricted less. -/
theorem mono {K' : Message → Prop} {P' : Except CompileError α → Prop}
    {p : Except CompileError α × World} (h : Talks K w P p) (hK : ∀ m, K m → K' m)
    (hP : ∀ r, P r → P' r) : Talks K' w P' p := by
  cases h with
  | refused prints kind refused => exact .refused prints (fun x hx => hK _ (kind x hx)) refused
  | taken prints kind taken h => exact .taken prints (fun x hx => hK _ (kind x hx)) taken (hP _ h)

end Talks

namespace Compilation

variable {c : Compilation} {t : Tree} {s : Schema} {directory code : String}

/-- The schema is in the file that the compilation names. -/
def Loads (c : Compilation) (t : Tree) (s : Schema) : Prop :=
  ∃ bytes, t.read c.input = .ok bytes ∧ (schemaOfBytes bytes).result = .ok s

/-- A file has one schema. -/
theorem Loads.unique {s' : Schema} (h : c.Loads t s) (h' : c.Loads t s') : s = s' := by
  obtain ⟨bytes, hread, hs⟩ := h
  obtain ⟨bytes', hread', hs'⟩ := h'
  rw [hread] at hread'
  cases hread'
  rw [hs] at hs'
  cases hs'
  rfl

/-- The text of the module that is made for a schema, and the directory for it. -/
structure Makes (c : Compilation) (s : Schema) (directory code : String) : Prop where
  directory_eq : c.directory = some directory
  directory_ne : directory ≠ ""
  code_eq : (s.generate c.runtime).result = .ok code

end Compilation

namespace CommandLine

open Compilation

/-! ## Outcomes -/

/-- All that a compilation needs is there: a schema that loads, can be written if it is to be
written, and gives a module unless only a check is wanted. -/
def Completes (c : Compilation) (check format : Bool) (t : Tree) : Prop :=
  ∃ s, c.Loads t s ∧ (format = true → ∃ text, s.render = .ok text) ∧
    (check = false → ∃ directory code, c.Makes s directory code)

/-- The lines that tell of a written module. -/
def reports (verbose : Bool) (path code : String) : List Message :=
  (if verbose then [⟨.err, (entry (wroteText path code)).text ++ "\n"⟩] else []) ++
    [⟨.out, generatedText path⟩]

/-- How a compilation ends, and the world that it leaves. -/
inductive Outcome (c : Compilation) (check format verbose : Bool) (w : World) :
    Except CompileError Unit × World → Prop where
  | refused {e : CompileError} {w' : World} {ms : Printout} (prints : Prints w w' ms)
      (refused : ¬ ms.Taken) : Outcome c check format verbose w (.error e, w')
  | stopped {e : CompileError} {w' : World} {ms : Printout} (prints : Prints w w' ms)
      (h : ¬ Completes c check format w.files) : Outcome c check format verbose w (.error e, w')
  | checked {w' : World} {ms : Printout} (prints : Prints w w' ms) (taken : ms.Taken)
      (h : Completes c check format w.files) (hcheck : check = true) :
      Outcome c check format verbose w (.ok (), w')
  | written {r : Except CompileError Unit} {u v w' : World} {ms ms' : Printout} {s : Schema}
      {directory code path : String} (hcheck : check = false)
      (h : Completes c check format w.files) (hs : c.Loads w.files s)
      (hmakes : c.Makes s directory code) (prints : Prints w u ms) (taken : ms.Taken)
      (hsave : Attempt.on (c.save directory code) u = (.ok path, v)) (later : Prints v w' ms')
      (kind : ∀ x ∈ ms', x.1 ∈ reports verbose path code) (hr : r = .ok () ↔ ms'.Taken) :
      Outcome c check format verbose w (r, w')
  | unsaved {e : CompileError} {u w' : World} {ms : Printout} {s : Schema}
      {directory code : String} (hcheck : check = false) (hs : c.Loads w.files s)
      (hmakes : c.Makes s directory code) (prints : Prints w u ms)
      (hsave : Attempt.on (c.save directory code) u = (.error e, w')) :
      Outcome c check format verbose w (.error e, w')

/-- What is printed first is part of the run. -/
theorem Outcome.after {c : Compilation} {check format verbose : Bool} {w w' : World}
    {ms : Printout} {p : Except CompileError Unit × World} (prints : Prints w w' ms)
    (taken : ms.Taken) (h : Outcome c check format verbose w' p) :
    Outcome c check format verbose w p := by
  cases h with
  | refused prints' refused =>
      exact .refused (prints.trans prints') fun h => refused (List.forall_mem_append.mp h).2
  | stopped prints' h => exact .stopped (prints.trans prints') (prints.files ▸ h)
  | checked prints' taken' h hcheck =>
      exact .checked (prints.trans prints') (taken.append taken') (prints.files ▸ h) hcheck
  | written hcheck h hs hmakes prints' taken' hsave later kind hr =>
      exact .written hcheck (prints.files ▸ h) (prints.files ▸ hs) hmakes (prints.trans prints')
        (taken.append taken') hsave later kind hr
  | unsaved hcheck hs hmakes prints' hsave =>
      exact .unsaved hcheck (prints.files ▸ hs) hmakes (prints.trans prints') hsave

/-- What follows a step that only prints decides how the compilation ends. -/
theorem Outcome.bind {c : Compilation} {check format verbose : Bool} {w : World}
    {P : Except CompileError α → Prop} {x : Attempt World CompileError α}
    {f : α → Attempt World CompileError Unit} (hx : Talks (fun _ => True) w P (x.on w))
    (herror : ∀ e, P (.error e) → ¬ Completes c check format w.files)
    (hf : ∀ a w', w'.files = w.files → P (.ok a) →
      Outcome c check format verbose w' ((f a).on w')) :
    Outcome c check format verbose w ((x >>= f).on w) := by
  rcases hon : x.on w with ⟨r, w'⟩
  rw [hon] at hx
  cases hx with
  | refused prints kind refused =>
      rw [Attempt.on_bind_of_error hon]
      exact .refused prints refused
  | taken prints kind taken h =>
      cases r with
      | error e =>
          rw [Attempt.on_bind_of_error hon]
          exact .stopped prints (herror e h)
      | ok a =>
          rw [Attempt.on_bind_of_ok hon]
          exact (hf a w' prints.files h).after prints taken

variable {c : Compilation} {check format verbose : Bool} {w : World} {s : Schema}

/-- The value of the environment counts, even if it is empty, and that of the command line counts
if the environment has none. -/
inductive Prevails : Option String → Option Value → Value → Prop where
  | environment (text : String) (argument : Option Value) :
      Prevails (some text) argument (.text text)
  | argument (v : Value) : Prevails none (some v) v

/-- The value of the environment prevails over the argument. -/
theorem prevails_iff {environment : Option String} {argument : Option Value} {v : Value} :
    Prevails environment argument v ↔ (environment.map Value.text <|> argument) = some v := by
  constructor
  · rintro (_ | _) <;> rfl
  · intro h
    cases environment with
    | some text =>
        cases h
        exact .environment text argument
    | none =>
        obtain rfl : argument = some v := h
        exact .argument v

/-- The compilation for which the environment and the command line ask. -/
structure AsksFor (a : Arguments) (e : Environment) (c : Compilation) : Prop where
  input : ∃ v, Prevails e.input a.input v ∧ v.text? = some c.input
  directory : ∀ d, c.directory = some d ↔ ∃ v, Prevails e.output a.output v ∧ v.text? = some d
  moduleName : (∃ v, Prevails e.outputName a.outputName v ∧ v.shown = c.moduleName) ∨
    e.outputName = none ∧ a.outputName = none ∧ c.moduleName = File.stem c.input
  runtime : ∃ v, Prevails e.runtime (some a.runtime) v ∧ v.shown = c.runtime

/-- The compilation of a run with an input file. -/
def Settings.compilation (s : Settings) (input : String) : Compilation where
  input := input
  directory := s.output
  moduleName := s.outputName.getD (File.stem input)
  runtime := s.runtime

variable {a : Arguments} {e : Environment}

theorem bind_text?_eq_some {environment : Option String} {argument : Option Value} {text : String} :
    (environment.map Value.text <|> argument).bind (·.text?) = some text ↔
      ∃ v, Prevails environment argument v ∧ v.text? = some text := by
  rw [Option.bind_eq_some_iff]
  exact exists_congr fun v => and_congr_left' prevails_iff.symm

theorem getD_shown {environment : Option String} {argument : Option Value} {default name : String} :
    (environment <|> argument.map (·.shown)).getD default = name ↔
      (∃ v, Prevails environment argument v ∧ v.shown = name) ∨
        environment = none ∧ argument = none ∧ name = default := by
  cases environment with
  | some text => simp [prevails_iff, Value.shown]
  | none =>
      cases argument with
      | some v => simp [prevails_iff]
      | none => simp [prevails_iff, eq_comm]

/-- What a run does is settled by the environment and the command line. -/
theorem asksFor_iff :
    AsksFor a e c ↔
      (Settings.make a e).input = some c.input ∧ c = (Settings.make a e).compilation c.input := by
  have hinput : (Settings.make a e).input = some c.input ↔
      ∃ v, Prevails e.input a.input v ∧ v.text? = some c.input := bind_text?_eq_some
  have houtput : c.directory = (Settings.make a e).output ↔
      ∀ d, c.directory = some d ↔ ∃ v, Prevails e.output a.output v ∧ v.text? = some d := by
    rw [Option.ext_iff]
    exact forall_congr' fun d => iff_congr Iff.rfl bind_text?_eq_some
  have hname : c.moduleName = (Settings.make a e).outputName.getD (File.stem c.input) ↔
      (∃ v, Prevails e.outputName a.outputName v ∧ v.shown = c.moduleName) ∨
        e.outputName = none ∧ a.outputName = none ∧ c.moduleName = File.stem c.input :=
    eq_comm.trans getD_shown
  have hruntime : c.runtime = (Settings.make a e).runtime ↔
      ∃ v, Prevails e.runtime (some a.runtime) v ∧ v.shown = c.runtime := by
    rw [Settings.make]
    cases e.runtime with
    | some text => simp [prevails_iff, Value.shown, eq_comm]
    | none => simp [prevails_iff, eq_comm]
  constructor
  · intro h
    refine ⟨hinput.mpr h.input, ?_⟩
    obtain ⟨input, directory, moduleName, runtime⟩ := c
    rw [Settings.compilation, Compilation.mk.injEq]
    exact ⟨rfl, houtput.mpr h.directory, hname.mpr h.moduleName, hruntime.mpr h.runtime⟩
  · rintro ⟨h, hc⟩
    exact ⟨hinput.mp h, houtput.mp (congrArg Compilation.directory hc),
      hname.mp (congrArg Compilation.moduleName hc), hruntime.mp (congrArg Compilation.runtime hc)⟩

/-- Arguments and environment ask for one compilation. -/
theorem AsksFor.unique {c' : Compilation} (h : AsksFor a e c) (h' : AsksFor a e c') : c = c' := by
  obtain ⟨hinput, hc⟩ := asksFor_iff.mp h
  obtain ⟨hinput', hc'⟩ := asksFor_iff.mp h'
  rw [hc, hc', Option.some.inj (hinput.symm.trans hinput')]

/-! ## The files after a run -/

end CommandLine

end SmlSchema
