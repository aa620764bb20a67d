import SmlSchema.CommandLine.Arguments
import SmlSchema.Text.Character

/-! # Reading the command line

Every word is sorted first: an option, possibly with a value attached, or a plain word. Then the
options are taken from left to right.
-/

namespace SmlSchema.CommandLine

inductive Word where
  | plain (text : String)
  | divider
  | option (i : Item) (spelling : String) (attached : Option String)
  | unknown (text : String)
deriving DecidableEq, Repr

/-- A minus sign and a number, with a line feed behind it or not. -/
def isNegativeNumber (cs : List Char) : Bool :=
  match cs with
  | '-' :: rest =>
    let number := if rest.getLast? = some '\n' then rest.dropLast else rest
    match number.dropWhile Text.isDecimalDigit with
    | [] => !number.isEmpty
    | c :: fraction => c = '.' && !fraction.isEmpty && fraction.all Text.isDecimalDigit
  | _ => false

/-- The two sides of the first equals sign. -/
def splitEquals (cs : List Char) : List Char × Option (List Char) :=
  match cs.dropWhile (· ≠ '=') with
  | [] => (cs, none)
  | _ :: value => (cs.takeWhile (· ≠ '='), some value)

/-- A word that starts with two dashes may be cut short as long as one option alone is meant. A word
with one dash is a letter with something attached. -/
def matching (cs : List Char) : List (String × Item × Option String) :=
  match cs with
  | '-' :: '-' :: _ =>
    let (start, value) := splitEquals cs
    (spellings.filter fun s => start.isPrefixOf s.1.toList).map fun s =>
      (s.1, s.2, value.map String.ofList)
  | _ =>
    (spellings.filter fun s => s.1.toList = cs.take 2).map fun s =>
      (s.1, s.2, some (String.ofList (cs.drop 2)))

/-- Sort one word that is not the divider. -/
def sortWord (word : String) : Except Refusal Word :=
  let cs := word.toList
  if cs.head? ≠ some '-' then .ok (.plain word)
  else match item? word with
    | some i => .ok (.option i word none)
    | none =>
      if cs.length = 1 then .ok (.plain word)
      else
        let (start, value) := splitEquals cs
        match item? (String.ofList start), value with
        | some i, some value =>
          .ok (.option i (String.ofList start) (some (String.ofList value)))
        | _, _ =>
          match matching cs with
          | [(spelling, i, attached)] => .ok (.option i spelling attached)
          | [] =>
            .ok (if isNegativeNumber cs || cs.contains ' ' then .plain word else .unknown word)
          | several => .error (.ambiguous word (several.map (·.1)))

/-- Behind the divider all words are plain. -/
def sortWords : List String → Except Refusal (List Word)
  | [] => .ok []
  | word :: words =>
    if word = "--" then .ok (.divider :: words.map .plain)
    else do
      let w ← sortWord word
      return w :: (← sortWords words)

/-- The options of one word: switches, then maybe a setting with the value attached to it. -/
abbrev Taken := List Switch × Option (Setting × Option String)

/-- Letters behind a letter that takes no value are options themselves. -/
def takeAttached (i : Item) (isShort : Bool) : List Char → Except Refusal Taken
  | cs@(c :: rest) =>
    match i with
    | .setting s => .ok ([], some (s, some (String.ofList cs)))
    | .switch f =>
      match isShort, item? (String.ofList ['-', c]) with
      | true, some next => do
        let (fs, last) ← match rest, next with
          | [], .setting s => pure ([], some (s, none))
          | [], .switch g => pure ([g], none)
          | _, _ => takeAttached next true rest
        return (f :: fs, last)
      | _, _ => .error (.unexpectedValue i (String.ofList cs))
  | [] =>
    match i with
    | .setting s => .ok ([], some (s, some ""))
    | .switch _ => .error (.unexpectedValue i "")

def takeWord (i : Item) (spelling : String) (attached : Option String) : Except Refusal Taken :=
  match attached, i with
  | some cs, _ => takeAttached i (spelling.toList[1]? ≠ some '-') cs.toList
  | none, .setting s => .ok ([], some (s, none))
  | none, .switch f => .ok ([f], none)

namespace Arguments

def set (a : Arguments) (s : Setting) (value : String) : Arguments :=
  let v := Value.ofText value
  match s with
  | .input => { a with input := some v }
  | .output => { a with output := some v }
  | .outputName => { a with outputName := some v }
  | .runtime => { a with runtime := v }

/-- Help ends the reading at once. -/
def switchOn (a : Arguments) : Switch → Except Stop Arguments
  | .help => .error .help
  | .check => .ok { a with check := true }
  | .format => .ok { a with format := true }
  | .verbose => .ok { a with verbose := true }

/-- Take the options from left to right; the result holds the words that belong to none. -/
def take (a : Arguments) : List Word → Except Stop (Arguments × List String)
  | [] => .ok (a, [])
  | .plain text :: ws => do
    let (a, left) ← a.take ws
    return (a, text :: left)
  | .divider :: ws => do
    let (a, left) ← a.take ws
    return (a, "--" :: left)
  | .unknown text :: ws => do
    let (a, left) ← a.take ws
    return (a, text :: left)
  | .option i spelling attached :: ws => do
    match ← (takeWord i spelling attached).mapError Stop.refused with
    | (switches, none) => (← switches.foldlM switchOn a).take ws
    | (switches, some (s, some value)) => ((← switches.foldlM switchOn a).set s value).take ws
    | (switches, some (s, none)) =>
      match ws with
      | .plain value :: ws => ((← switches.foldlM switchOn a).set s value).take ws
      | _ => .error (.refused (.missingValue s))

end Arguments

/-- The arguments in the words of a command line. -/
def read (words : List String) : Except Stop Arguments := do
  let sorted ← (sortWords words).mapError Stop.refused
  match ← Arguments.take {} sorted with
  | (a, []) => return a
  | (_, left) => .error (.refused (.unrecognized left))

end SmlSchema.CommandLine
