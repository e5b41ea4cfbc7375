import FortranDocs.Documentation

/-!
# Listings

A listing shows the undocumented constructs of a source, one to a line: the name of
the source, the line of the construct, its kind and its first header line.
-/

namespace FortranDocs
namespace Undocumented

/-- The line in which a construct of a source is listed. -/
def listed (source : String) (item : Undocumented) : Text :=
  let signature := String.ofList item.signature
  s!"{source}:{item.line}: {item.kind.keyword}: {signature}\n".toList

end Undocumented

namespace Tree

/-- The list of the undocumented constructs of a source. -/
def listing (source : String) (tree : Tree) : Text :=
  tree.undocumented.flatMap (Undocumented.listed source)

end Tree
end FortranDocs
