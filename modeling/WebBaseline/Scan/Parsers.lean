import WebBaseline.Markup.Reader
import WebBaseline.Scan.Run
import WebBaseline.Script.Reader
import WebBaseline.Stylesheet.Operator

/-!
# The parsers of the scanners
-/

namespace WebBaseline

/-- The parsers that scans use. -/
def Parsers.standard : Parsers where
  script plain := Script.parse (if plain then .typed else .withElements)
  style := Stylesheet.language.parse
  markup := Markup.language.parse

/-- The issues of a script under the standard settings. -/
def scanScript (catalog : List FeatureRecord) (path source : String) : List Issue :=
  let index := FeatureIndex.build catalog .builtIn .standard
  Scan.scriptIssues index path source
    (Parsers.standard.script (ScanLanguage.isPlainTyped path) source)

/-- The issues of a style sheet under the standard settings. -/
def scanStyle (catalog : List FeatureRecord) (path source : String) : List Issue :=
  let index := FeatureIndex.build catalog .empty .standard
  Scan.styleIssues {} index path source (Parsers.standard.style source)

/-- The issues of a markup document. -/
def scanMarkup (catalog : List FeatureRecord) (path source : String) : List Issue :=
  let index := FeatureIndex.build catalog .empty .standard
  Scan.markupIssues index path source (Parsers.standard.markup source)

end WebBaseline
