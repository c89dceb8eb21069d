import Std.Data.HashSet
import WebBaseline.Scan.Index
import WebBaseline.Text.Blank

/-!
# Scanning style sheets

Every declaration is looked up by its property, and each key word of its value
together with the property.  Only features of the statuses asked for count,
and of several uses of one feature on a line only the first is an issue.
-/

namespace WebBaseline

/-- Which uses in style sheets are reported. -/
structure StyleRules where
  /-- The statuses of properties that are reported. -/
  propertyStatuses : List Status := [.limited, .newly]
  /-- The statuses of properties with a key word that are reported. -/
  valueStatuses : List Status := [.limited, .newly]
  /-- Whether key words are looked at. -/
  scanValues : Bool := true
deriving DecidableEq, Repr, Inhabited

namespace Scan

/-- The property of a declaration, in lower case; none for a custom property. -/
def property? (source : String) (declaration : SyntaxTree) : Option String :=
  match declaration.child? "property_name" with
  | none => none
  | some node =>
    let name := Text.lower (Text.trim (node.text source))
    if name.isEmpty || name.startsWith "--" then none else some name

/-- The feature of an identifier, if its status is among those given. -/
def lookupAmong (index : FeatureIndex) (statuses : List Status) (identifier : String) :
    Option IndexedFeature :=
  (index.lookup identifier).filter fun f => statuses.contains f.status

/-- The use of a property in its declaration. -/
def propertyCandidate (rules : StyleRules) (index : FeatureIndex) (path property : String)
    (declaration : SyntaxTree) : Option Issue :=
  (lookupAmong index rules.propertyStatuses ("css-properties-" ++ property)).map fun f =>
    index.issueAt path f f.name (.ofPoint declaration.point)

/-- The use of a key word with a property. -/
def valueCandidate (rules : StyleRules) (index : FeatureIndex) (path source property : String)
    (keyword : SyntaxTree) : Option Issue :=
  let value := Text.lower (Text.trim (keyword.text source))
  if value.isEmpty then none
  else
    (lookupAmong index rules.valueStatuses ("css-properties-" ++ property ++ "-" ++ value)).map
      fun f => index.issueAt path f (property ++ ": " ++ value) (.ofPoint keyword.point)

/-- The uses in a declaration: that of the property, then those of its key words. -/
def candidates (rules : StyleRules) (index : FeatureIndex) (path source : String)
    (declaration : SyntaxTree) : List Issue :=
  match property? source declaration with
  | none => []
  | some property =>
    (propertyCandidate rules index path property declaration).toList ++
      (if rules.scanValues then
        (declaration.descendants "plain_value").filterMap
          (valueCandidate rules index path source property)
      else [])

/-- Issues without those whose feature occurred on the line before; `seen` holds
the features and lines that did. -/
def dropRepeated : List Issue → Std.HashSet (String × UInt32) → List Issue
  | [], _ => []
  | i :: rest, seen =>
    if seen.contains (i.featureId, i.line) then dropRepeated rest seen
    else i :: dropRepeated rest (seen.insert (i.featureId, i.line))

/-- The issues of a style sheet. -/
def styleIssues (rules : StyleRules) (index : FeatureIndex) (path source : String)
    (tree : SyntaxTree) : List Issue :=
  let declarations := tree.descendants "declaration"
  dropRepeated (declarations.flatMap (candidates rules index path source)) ∅

end Scan

end WebBaseline
