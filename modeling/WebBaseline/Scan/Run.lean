import WebBaseline.Scan.Language
import WebBaseline.Scan.Markup
import WebBaseline.Scan.Result
import WebBaseline.Scan.Script
import WebBaseline.Scan.Style

/-!
# Scanning files

Each file is scanned by the scanner of its language, one after the other, and
after each the share of files done is reported.  A run may be cancelled before
any file; its result then covers the files before.
-/

namespace WebBaseline

/-- A file with its path. -/
structure SourceFile where
  path : String
  content : String
deriving DecidableEq, Repr, Inhabited

/-- The parsers of the languages; that of scripts is told whether to read markup in them. -/
structure Parsers where
  script : Bool → String → SyntaxTree
  style : String → SyntaxTree
  markup : String → SyntaxTree

/-- What a scan looks for. -/
structure ScanSettings where
  priority : PriorityPolicy := {}
  style : StyleRules := {}
  /-- Names of scripts with their fragments, beside the built-in ones. -/
  extraNames : NameTable := .empty
deriving DecidableEq, Repr, Inhabited

/-- The scanners of some languages over one index. -/
structure Scanner where
  parsers : Parsers
  index : FeatureIndex
  rules : StyleRules
  languages : List ScanLanguage

namespace Scanner

/-- The scanners of all languages for a catalog. -/
def ofCatalog (parsers : Parsers) (catalog : List FeatureRecord) (settings : ScanSettings) :
    Scanner where
  parsers := parsers
  index := .build catalog (.withExtras settings.extraNames.entries) settings.priority
  rules := settings.style
  languages := ScanLanguage.all

variable (s : Scanner)

/-- The issues of a text in a language. -/
def scanText (language : ScanLanguage) (path source : String) : List Issue :=
  match language with
  | .script =>
    Scan.scriptIssues s.index path source
      (s.parsers.script (ScanLanguage.isPlainTyped path) source)
  | .style => Scan.styleIssues s.rules s.index path source (s.parsers.style source)
  | .markup => Scan.markupIssues s.index path source (s.parsers.markup source)

/-- The issues of a file; none if no scanner is there for its language. -/
def scanFile (file : SourceFile) : List Issue :=
  match ScanLanguage.ofPath file.path with
  | some language =>
    if s.languages.contains language then s.scanText language file.path file.content else []
  | none => []

end Scanner

/-- The outcome of a run. -/
structure ScanRun where
  result : ScanResult
  filesScanned : Nat
  cancelled : Bool
  /-- The percentages reported. -/
  progress : List Nat
deriving DecidableEq, Repr, Inhabited

/-- What decides about going on: a state that sees the percentages reported. -/
structure Canceller (σ : Type) where
  start : σ
  report : σ → Nat → σ
  isCancelled : σ → Bool

namespace Canceller

/-- A run that is not cancelled. -/
def never : Canceller Unit := ⟨(), fun _ _ => (), fun _ => false⟩

/-- Cancel as soon as a percentage is reached; zero is reached before the start. -/
def reaching (threshold : Nat) : Canceller Bool :=
  ⟨threshold = 0, fun cancelled percent => cancelled || decide (threshold ≤ percent), id⟩

end Canceller

namespace Scanner

variable (s : Scanner) {σ : Type}

/-- Scan the files that are left of `total`; `found` are the issues so far, in
reverse order of files, and `progress` the percentages, in reverse. -/
def runFrom (c : Canceller σ) (total : Nat) :
    List SourceFile → σ → Nat → List (List Issue) → List Nat → ScanRun
  | [], _, done, found, progress =>
    { result := .ofIssues found.reverse.flatten, filesScanned := done, cancelled := false
      progress := progress.reverse }
  | file :: rest, state, done, found, progress =>
    if c.isCancelled state then
      { result := .ofIssues found.reverse.flatten, filesScanned := done, cancelled := true
        progress := progress.reverse }
    else
      let percent := percentage (done + 1) total
      runFrom c total rest (c.report state percent) (done + 1)
        (s.scanFile file :: found) (percent :: progress)

/-- Scan files.  Of no files the whole is reported as done. -/
def run (c : Canceller σ) (files : List SourceFile) : ScanRun :=
  match files with
  | [] => { result := .ofIssues [], filesScanned := 0, cancelled := false, progress := [100] }
  | files => s.runFrom c files.length files c.start 0 [] []

end Scanner

end WebBaseline
