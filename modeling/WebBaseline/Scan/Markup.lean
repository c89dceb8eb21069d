import WebBaseline.Scan.Index
import WebBaseline.Text.Blank

/-!
# Scanning markup

Every tag that opens an element is looked up by its name, and then each of its
attributes.  All issues of a tag lie where the tag starts.
-/

namespace WebBaseline.Scan

/-- The kinds of tags that open an element. -/
def openingTags : List String := ["start_tag", "self_closing_tag"]

/-- The feature of the first child of a kind, whose text in lower case is the end
of an identifier. -/
def namedFeature? (index : FeatureIndex) (source kind start : String) (node : SyntaxTree) :
    Option IndexedFeature :=
  (node.child? kind).bind fun name => index.lookup (start ++ Text.lower (name.text source))

/-- The features of a tag: that of the element, then those of its attributes. -/
def tagFeatures (index : FeatureIndex) (source : String) (tag : SyntaxTree) :
    List IndexedFeature :=
  let element := namedFeature? index source "tag_name" "html-element-" tag
  let attributes := tag.children.filter (·.kind == "attribute")
  element.toList ++
    attributes.filterMap (namedFeature? index source "attribute_name" "html-attribute-")

/-- The issues of a node. -/
def tagIssues (index : FeatureIndex) (path source : String) (node : SyntaxTree) : List Issue :=
  if openingTags.contains node.kind then
    (tagFeatures index source node).map fun f =>
      index.issueAt path f f.name (.ofPoint node.point)
  else []

/-- The issues of a markup document. -/
def markupIssues (index : FeatureIndex) (path source : String) (tree : SyntaxTree) :
    List Issue :=
  (SyntaxTree.visit [tree]).flatMap (tagIssues index path source)

end WebBaseline.Scan
