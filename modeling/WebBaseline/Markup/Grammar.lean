import WebBaseline.Grammar.Rule

/-!
# The grammar of markup documents

Elements, their tags with attributes, comments and text.  What depends on the
elements that are open, and the text of scripts and style sheets, is read by
hand (`WebBaseline.Markup.Reader`).
-/

namespace WebBaseline.Markup

open WebBaseline.Grammar

/-- One or more characters outside a class. -/
def outside (c : CharClass) : Pattern := .plus (.one (.complement c))

/-- A letter of the Latin alphabet in either case. -/
def eitherCase (c : Char) : Pattern := .one (.single c.toUpper ++ .single c)

/-- What an attribute's name has no part in. -/
def attributeEnd : CharClass := .ofString "<>\"\x27/=" ++ .blank

/-- A character reference. -/
def characterReference : Pattern :=
  .seqs [
    .text "&",
    .alt
      (.seq (.text "#")
        (.alt (.seq (.one (.ofString "xX")) (.between 1 6 (.one .hexDigit)))
          (.between 1 5 (.one .digit))))
      (.between 1 30 (.one .letter)),
    .opt (.text ";")]

/-- Text that starts and ends with no blank. -/
def textRun : Pattern :=
  let special : CharClass := .ofString "<>&"
  let edge : Pattern := .one (.complement (special ++ .blank))
  .seq edge (.opt (.seq (.star (.one (.complement special))) edge))

/-- A start tag whose name is the given token. -/
def startTag (name close : String) : Rule Atom :=
  .seqs [word "<", as "tag_name" (rule name), .many (rule "attribute"), word close]

/-- An attribute's value in quotes. -/
def quoted (quote : Char) : Rule Atom :=
  let mark := word (String.singleton quote)
  .seqs [mark, .opt (as "attribute_value" (token (outside (.single quote)))), mark]

/-- The grammar of markup documents. -/
def grammar : Grammar where
  rules :=
    [ ("document", .many (rule "_node")),
      ("doctype",
        .seqs [word "<!", .aliased { name := "doctype", named := false } (rule "_doctype"),
          token (outside (.single '>')), word ">"]),
      ("_doctype", token (.seqs ("doctype".toList.map eitherCase))),
      ("_node",
        .oneOf (["doctype", "entity", "text", "element", "script_element", "style_element",
          "erroneous_end_tag"].map rule)),
      ("element",
        .choice
          (.seqs [rule "start_tag", .many (rule "_node"),
            .choice (rule "end_tag") (rule "_implicit_end_tag")])
          (rule "self_closing_tag")),
      ("script_element",
        .seqs [as "start_tag" (rule "script_start_tag"), .opt (rule "raw_text"), rule "end_tag"]),
      ("style_element",
        .seqs [as "start_tag" (rule "style_start_tag"), .opt (rule "raw_text"), rule "end_tag"]),
      ("start_tag", startTag "_start_tag_name" ">"),
      ("script_start_tag", startTag "_script_start_tag_name" ">"),
      ("style_start_tag", startTag "_style_start_tag_name" ">"),
      ("self_closing_tag", startTag "_start_tag_name" "/>"),
      ("end_tag", .seqs [word "</", as "tag_name" (rule "_end_tag_name"), word ">"]),
      ("erroneous_end_tag", .seqs [word "</", rule "erroneous_end_tag_name", word ">"]),
      ("attribute",
        .seq (rule "attribute_name")
          (.opt (.seq (word "=")
            (.choice (rule "attribute_value") (rule "quoted_attribute_value"))))),
      ("attribute_name", token (outside attributeEnd)),
      ("attribute_value", token (outside (.ofString "<>\"\x27=" ++ .blank))),
      ("entity", token characterReference),
      ("quoted_attribute_value", .choice (quoted (Char.ofNat 39)) (quoted '\"')),
      ("text", token textRun) ]
  extras := [.rule "comment", .token { pattern := .plus (.one .blank) }]
  externals :=
    (["_start_tag_name", "_script_start_tag_name", "_style_start_tag_name", "_end_tag_name",
      "erroneous_end_tag_name"].map Atom.rule) ++
    [.token { pattern := .text "/>", spelling := some "/>" }] ++
    (["_implicit_end_tag", "raw_text", "comment"].map Atom.rule)

end WebBaseline.Markup
