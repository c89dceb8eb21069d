import WebBaseline.Files.Tree
import WebBaseline.Scan.Run
import WebBaseline.Settings.Basic

/-!
# The files of a workspace

All regular files below a directory whose names are those of sources, ordered
by their paths.  Links are not followed, and some directories are passed over.
-/

namespace WebBaseline.Workspace

mutual

/-- The regular files of a tree with their paths, which are extended from the given one.
Directories with ignored names are passed over. -/
def filesOf (ignored : List String) (path : List String) :
    FileTree → List (List String × Content)
  | .file content => [(path, content)]
  | .link _ => []
  | .directory entries => filesIn ignored path entries

/-- The regular files of the entries of a directory. -/
def filesIn (ignored : List String) (path : List String) :
    List (String × FileTree) → List (List String × Content)
  | [] => []
  | (name, t) :: rest =>
    (if t.isDirectory && ignored.contains name then [] else filesOf ignored (path ++ [name]) t) ++
      filesIn ignored path rest

end

/-- The source of a file, if its name is that of a source and its content is a text. -/
def source? : List String × Content → Option SourceFile
  | (names, .text content) =>
    let path := "/".intercalate names
    if (ScanLanguage.ofPath path).isSome then some ⟨path, content⟩ else none
  | _ => none

/-- The sources in the entries of a directory. -/
def sources (s : WorkspaceSettings) (entries : List (String × FileTree)) : List SourceFile :=
  ((filesIn s.ignoreDirs [] entries).filterMap source?).mergeSort fun a b => !(b.path < a.path)

end WebBaseline.Workspace
