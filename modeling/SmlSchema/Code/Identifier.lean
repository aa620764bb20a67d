import SmlSchema.Text.Case
import SmlSchema.Text.Character
import SmlSchema.Text.Identifier

/-! # Identifiers of generated modules

Any name becomes an identifier that the target language accepts and that hides nothing which a
generated module uses itself.
-/

namespace SmlSchema.Code

/-- Words of the target language, Python, that cannot be names. -/
def keywords : List String :=
  ["False", "None", "True", "and", "as", "assert", "async", "await", "break", "class", "continue",
   "def", "del", "elif", "else", "except", "finally", "for", "from", "global", "if", "import", "in",
   "is", "lambda", "nonlocal", "not", "or", "pass", "raise", "return", "try", "while", "with",
   "yield"]

/-- Names that a generated module uses itself. -/
def reservedNames : List String :=
  ["dict", "list", "set", "tuple", "int", "float", "str", "bool", "bytes", "object", "type",
   "print", "super", "self", "cls", "property", "staticmethod", "classmethod", "len", "id", "min",
   "max", "range", "iter", "next", "repr", "format", "hash", "field", "dataclass", "datetime",
   "Enum", "List", "Optional", "load", "parse", "read", "SmlDocument", "SmlElement",
   "SmlAttribute"]

/-- Characters that no identifier has become underscores; an empty name is one underscore. -/
def cleanChars (name : List Char) : List Char :=
  match name.map fun c => if Text.continuesIdentifier c then c else '_' with
  | [] => ['_']
  | cs => cs

/-- No digit stands in front. -/
def guardDigit (cs : List Char) : List Char :=
  if cs.head?.any Text.isDigit then '_' :: cs else cs

/-- An underscore sets a name apart from keywords and reserved names. -/
def guardReserved (name : String) : String :=
  if keywords.contains name || reservedNames.contains name then name ++ "_" else name

/-- Names between underscores are not members of an enumeration. -/
def guardUnderscores (name : String) : String :=
  let cs := name.toList
  if 1 < cs.length && cs.head? = some '_' && cs.getLast? = some '_' then "Value" ++ name else name

/-- An identifier for a name, with its first letter in upper or in lower case. -/
def identifier (toUpper : Bool) (name : String) : String :=
  let cs := Text.leadingCaseChars toUpper (cleanChars name.toList)
  let guarded := guardReserved (String.ofList (guardDigit cs))
  if toUpper then guardUnderscores guarded else guarded

end SmlSchema.Code
