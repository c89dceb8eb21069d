import WebBaseline.Scan.Index

/-!
# Scanning scripts

Every name in a script that the index knows is an issue, as often as it occurs.
-/

namespace WebBaseline.Scan

/-- The kinds of nodes that hold a name as it is written. -/
def nameKinds : List String :=
  ["identifier", "property_identifier", "type_identifier", "shorthand_property_identifier",
   "shorthand_property_identifier_pattern"]

/-- The issue of a node, if it is a name that the index knows. -/
def scriptIssue? (index : FeatureIndex) (path source : String) (node : SyntaxTree) :
    Option Issue :=
  if nameKinds.contains node.kind then
    (index.scriptFeature (node.text source)).map fun f =>
      index.issueAt path f f.name (.ofPoint node.point)
  else none

/-- The issues of a script. -/
def scriptIssues (index : FeatureIndex) (path source : String) (tree : SyntaxTree) :
    List Issue :=
  (SyntaxTree.visit [tree]).filterMap (scriptIssue? index path source)

end WebBaseline.Scan
