import SmlSchema.Document.Basic
import SmlSchema.Line.Token

/-! # Writing a document

One line for each attribute and two for each element, indented by depth.
-/

namespace SmlSchema

open Line (Cell)

mutual

/-- The lines of a node behind the margin; elements are closed by `endKeyword`. -/
def Node.lines (endKeyword : Cell) (indentation margin : String) : Node → List String
  | .element name nodes =>
    (margin ++ Line.writeCell (some name))
      :: (Node.linesOfAll endKeyword indentation (margin ++ indentation) nodes
        ++ [margin ++ Line.writeCell endKeyword])
  | .attribute a => [margin ++ Line.write (some a.name :: a.values)]
termination_by structural n => n

def Node.linesOfAll (endKeyword : Cell) (indentation margin : String) : List Node → List String
  | [] => []
  | n :: ns =>
    n.lines endKeyword indentation margin ++ Node.linesOfAll endKeyword indentation margin ns
termination_by structural ns => ns

end

namespace Document

def lines (d : Document) (indentation : String := "\t") : List String :=
  d.root.toNode.lines d.endKeyword indentation ""

def render (d : Document) (indentation : String := "\t") : String :=
  "\n".intercalate (d.lines indentation)

end Document

end SmlSchema
