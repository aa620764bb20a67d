/-! # Computations with a record, and computations with a state

A computation can keep a record of its steps, which never influences the result: see
`Traced.result_bind`. A computation can change a state; what it has changed before it fails stays.
-/

namespace SmlSchema

/-! ## Records -/

/-- The part of the program that reports a step. -/
inductive Stage where
  | loader
  | generator
  | compiler
deriving DecidableEq, Repr

def Stage.word : Stage → String
  | .loader => "SchemaLoader"
  | .generator => "SchemaCodeGenerator"
  | .compiler => "SchemaCompiler"

structure LogEntry where
  stage : Stage
  message : String
deriving DecidableEq, Repr

def LogEntry.text (e : LogEntry) : String := "[DEBUG] " ++ e.stage.word ++ ": " ++ e.message

/-- A result or an error, and the steps that were reported before it. -/
structure Traced (ε α : Type) where
  log : List LogEntry
  result : Except ε α

namespace Traced

variable {ε α β : Type}

instance instMonad : Monad (Traced ε) where
  pure a := ⟨[], .ok a⟩
  bind x k :=
    match x.result with
    | .error e => ⟨x.log, .error e⟩
    | .ok a => ⟨x.log ++ (k a).log, (k a).result⟩

instance instMonadLift : MonadLift (Except ε) (Traced ε) := ⟨fun r => ⟨[], r⟩⟩

@[simp] theorem result_pure (a : α) : (pure a : Traced ε α).result = .ok a := rfl

/-- The result of a sequence depends on results alone. -/
@[simp] theorem result_bind (x : Traced ε α) (k : α → Traced ε β) :
    (x >>= k).result = x.result >>= fun a => (k a).result := by
  change (match x.result with
    | .error e => (⟨x.log, .error e⟩ : Traced ε β)
    | .ok a => ⟨x.log ++ (k a).log, (k a).result⟩).result = _
  cases x.result <;> rfl

/-- Stop with an error. -/
def fail (e : ε) : Traced ε α := ⟨[], .error e⟩

@[simp] theorem result_fail (e : ε) : (fail e : Traced ε α).result = .error e := rfl

def report (stage : Stage) (message : String) : Traced ε Unit := ⟨[⟨stage, message⟩], .ok ()⟩

@[simp] theorem result_report (stage : Stage) (message : String) :
    (report stage message : Traced ε Unit).result = .ok () := rfl

end Traced

/-! ## States -/

/-- A computation that changes a state. What it has changed before it fails stays. -/
abbrev Attempt (σ ε : Type) := ExceptT ε (StateM σ)

namespace Attempt

variable {σ ε α : Type}

/-- What the computation gives for a state, and the state that it leaves. -/
def on (x : Attempt σ ε α) (s : σ) : Except ε α × σ := (ExceptT.run x).run s

/-- The state that the computation leaves and what it gives, if it succeeds. -/
def result (x : Attempt σ ε α) (s : σ) : Except ε (σ × α) :=
  match x.on s with
  | (.ok a, t) => .ok (t, a)
  | (.error e, _) => .error e

end Attempt

end SmlSchema
