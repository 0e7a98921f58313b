import ApiManifest.Template.Syntax

/-!
Writing templates: the text of nodes.
-/

namespace ApiManifest.Template

mutual
/-- The text of a node. An empty second branch is not written. -/
def Node.print : Node → String
  | .text s => s
  | .value path => braced (" " ++ path ++ " ")
  | .include name => braced ("> " ++ name ++ " ")
  | .cond path onTrue onFalse =>
    let second := if onFalse.isEmpty then "" else braced "else" ++ printNodes onFalse
    braced ("#if " ++ path) ++ printNodes onTrue ++ second ++ braced "/if"

def printNodes : List Node → String
  | [] => ""
  | node :: nodes => node.print ++ printNodes nodes
end

end ApiManifest.Template
