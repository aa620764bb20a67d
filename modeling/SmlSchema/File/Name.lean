/-! # Names of files

A name is a text of components with slashes between them.
-/

namespace SmlSchema.File

/-- What stands before the last component, without the slashes between, and the last component. A
head of slashes alone is kept. -/
def splitName (name : List Char) : List Char × List Char :=
  let reversed := name.reverse
  let head := reversed.dropWhile (· ≠ '/')
  let stripped := head.dropWhile (· = '/')
  ((if stripped.isEmpty then head else stripped).reverse, (reversed.takeWhile (· ≠ '/')).reverse)

/-- The directory in which a directory of this name is made, and its own name there. -/
def splitDirectory (name : List Char) : List Char × List Char :=
  match splitName name with
  | (head, []) => splitName head
  | parts => parts

theorem length_splitName_le (name : List Char) : (splitName name).1.length ≤ name.length := by
  have h₁ := (name.reverse.dropWhile_suffix (· ≠ '/')).length_le
  have h₂ := ((name.reverse.dropWhile (· ≠ '/')).dropWhile_suffix (· = '/')).length_le
  simp only [splitName, List.length_reverse] at *
  split <;> omega

theorem length_splitName_lt {name : List Char} (h : (splitName name).2 ≠ []) :
    (splitName name).1.length < name.length := by
  have h₁ := congrArg List.length
    (List.takeWhile_append_dropWhile (p := (· ≠ '/')) (l := name.reverse))
  have h₂ := ((name.reverse.dropWhile (· ≠ '/')).dropWhile_suffix (· = '/')).length_le
  have h₃ : 0 < (name.reverse.takeWhile (· ≠ '/')).length := by
    rw [List.length_pos_iff]
    exact fun e => h (by simp only [splitName, e, List.reverse_nil])
  simp only [splitName, List.length_reverse, List.length_append] at *
  split <;> omega

theorem length_splitDirectory_lt {name : List Char} (h : (splitDirectory name).2 ≠ []) :
    (splitDirectory name).1.length < name.length := by
  unfold splitDirectory at *
  split at h
  · next head e =>
    have h₁ := length_splitName_le name
    have h₂ := length_splitName_lt h
    simp_all
    omega
  · exact length_splitName_lt h

/-- A name that starts with a slash does not depend on the directory. -/
def join (directory name : String) : String :=
  if name.toList.head? = some '/' then name
  else if directory.isEmpty || directory.toList.getLast? = some '/' then directory ++ name
  else directory ++ "/" ++ name

/-- Drop the last dot and what follows it, unless only dots stand before it. -/
def dropExtension (name : List Char) : List Char :=
  match name.reverse.dropWhile (· ≠ '.') with
  | [] => name
  | _ :: before => if before.all (· = '.') then name else before.reverse

/-- The last component without its extension. -/
def stem (name : String) : String := String.ofList (dropExtension (splitName name.toList).2)

/-- What stands between the slashes of a name. -/
def parts (name : String) : List String :=
  ((name.toList.splitOn '/').filter (· ≠ [])).map String.ofList

/-- The components of a name; one that ends in a slash stands for the directory itself. -/
def components (name : String) : List String :=
  if name.toList.getLast? = some '/' then parts name ++ ["."] else parts name

def isAbsolute (name : String) : Bool := name.toList.head? = some '/'

end SmlSchema.File
