import WebBaseline.Grammar.Rule

/-!
# The grammar of style sheets

Rule sets, at-rules, selectors and declarations, as far as the style scanner
and error recovery need to tell them apart.  Two tokens are read by hand: the
space that stands for the descendant combinator, and the colon that starts a
pseudo-class rather than a declaration (`WebBaseline.Stylesheet.External`).
-/

namespace WebBaseline.Stylesheet

open WebBaseline.Grammar

/-- A character of a class. -/
def cls (c : CharClass) : Pattern := .one c

/-- Any number of characters of a class. -/
def clsMany (c : CharClass) : Pattern := .star (.one c)

/-- One or more characters of a class. -/
def clsSome (c : CharClass) : Pattern := .plus (.one c)

/-- The characters from U+00A0 to U+00FF. -/
def latinSupplement : CharClass := .range (Char.ofNat 0xA0) (Char.ofNat 0xFF)

/-- What a name may go on with. -/
def nameChar : CharClass :=
  .letter ++ .digit ++ .ofString "-_" ++ latinSupplement

/-- Names: of properties, tags, functions and key words. -/
def identifier : Pattern :=
  .seqs [
    .alt (.text "--") (.seq (.opt (.text "-")) (cls (.letter ++ .ofString "_" ++ latinSupplement))),
    clsMany nameChar]

/-- What ends a plain value. -/
def delimiter : CharClass := .blank ++ .ofString ",;!\x7b\x7d()[]"

/-- A slash that starts no comment and is followed by a character of a value. -/
def innerSlash : Pattern :=
  .seq (.text "/") (cls (.complement (delimiter ++ .single '*')))

/-- Key words and other values without structure. -/
def plainValue : Pattern :=
  .seqs [
    .star (.alt (cls (.ofString "-_")) innerSlash),
    cls .letter,
    .star (.alt (cls (.complement (delimiter ++ .single '/'))) innerSlash)]

/-- An optional sign. -/
def sign : Pattern := .opt (cls (.ofString "+-"))

/-- One or more digits. -/
def digits : Pattern := clsSome .digit

/-- An exponent of a number. -/
def exponent : Pattern :=
  .seqs [cls (.ofString "eE"), .opt (.text "-"), digits]

/-- Numbers with a fraction or an exponent. -/
def floatNumber : Pattern :=
  .seqs [
    sign, clsMany .digit,
    .alt (.seq (.text ".") digits)
      (.alt exponent (.seqs [.text ".", digits, exponent]))]

/-- Positions such as `2n+1`. -/
def nthNotation : Pattern :=
  let lead := Pattern.seqs [.opt (.text "-"), clsMany .digit, .text "n", clsMany .blank]
  let offset (s : String) := Pattern.opt (.seqs [.text s, clsMany .blank, digits])
  .alt (.seq lead (offset "+")) (.seq lead (offset "-"))

/-- Comments between slashes and stars. -/
def comment : Pattern :=
  let stars := clsSome (.single '*')
  .seqs [
    .text "/*", clsMany (.complement (.single '*')), stars,
    .star (.seqs [cls (.complement (.ofString "/*")), clsMany (.complement (.single '*')), stars]),
    .text "/"]

/-- A token that follows the previous one without a space. -/
def immediate (p : Pattern) : Rule Atom := .atom (.token { pattern := p, immediate := true })

/-- The opening parenthesis of arguments. -/
def openArguments : Rule Atom :=
  .atom (.token { pattern := .text "(", spelling := some "(", immediate := true })

/-- The pieces of a string between quotes. -/
def stringContent (quote : Char) : Rule Atom :=
  .many (.choice
    (as "string_content" (.atom (.token
      { pattern := clsSome (.complement (.ofString "\\\n" ++ .single quote))
        immediate := true, precedence := 1 })))
    (rule "escape_sequence"))

/-- An operator that groups to the left. -/
def leftward (body : Rule Atom) : Rule Atom := .ranked 0 (some .left) body

/-- A property, a colon and values. -/
def declarationStart : List (Rule Atom) :=
  [ as "property_name" (rule "identifier"), word ":", rule "_value",
    .many (.seq (.opt (word ",")) (rule "_value")), .opt (rule "important")]

/-- Arguments that are selectors or values. -/
def selectorOrValues : Rule Atom :=
  .seqs [openArguments,
    .sepBy (word ",") (.choice (rule "_selector") (.repeat1 (rule "_value"))), word ")"]

/-- What may stand in a block, but for plain statements of at-rules. -/
def items : List String :=
  ["declaration", "rule_set", "import_statement", "media_statement", "charset_statement",
    "namespace_statement", "keyframes_statement", "supports_statement", "scope_statement"]

/-- At-rules and what surrounds them. -/
def statementRules : List (String × Rule Atom) :=
  [ ("stylesheet", .many (rule "_top_level_item")),
    ("_top_level_item", .oneOf ((items ++ ["at_rule"]).map rule)),
    ("import_statement",
      .seqs [word "@import", rule "_value", .sepBy (word ",") (rule "_query"), word ";"]),
    ("media_statement",
      .seqs [word "@media", .sepBy1 (word ",") (rule "_query"), rule "block"]),
    ("charset_statement", .seqs [word "@charset", rule "_value", word ";"]),
    ("namespace_statement",
      .seqs [word "@namespace", .opt (as "namespace_name" (rule "identifier")),
        .choice (rule "string_value") (rule "call_expression"), word ";"]),
    ("keyframes_statement",
      .seqs [
        .choice (word "@keyframes")
          (as "at_keyword" (token (.seqs [.text "@", clsSome (.range 'a' 'z' ++ .single '-'),
            .text "keyframes"]))),
        as "keyframes_name" (rule "identifier"), rule "keyframe_block_list"]),
    ("keyframe_block_list", .seqs [word "\x7b", .many (rule "keyframe_block"), word "\x7d"]),
    ("keyframe_block",
      .seq (.oneOf [rule "from", rule "to", rule "integer_value", rule "float_value"])
        (rule "block")),
    ("from", word "from"),
    ("to", word "to"),
    ("supports_statement", .seqs [word "@supports", rule "_query", rule "block"]),
    ("scope_statement",
      .seqs [word "@scope",
        .opt (.seqs [word "(", .sepBy1 (word ",") (rule "_selector"), word ")"]),
        .opt (.seqs [rule "to", word "(", .sepBy1 (word ",") (rule "_selector"), word ")"]),
        rule "block"]),
    ("postcss_statement",
      .ranked (-1) none (.seqs [rule "at_keyword", .many (rule "_value"), word ";"])),
    ("at_rule",
      .seqs [rule "at_keyword", .sepBy (word ",") (rule "_query"),
        .choice (word ";") (rule "block")]),
    ("rule_set", .seq (rule "selectors") (rule "block")),
    ("selectors", .sepBy1 (word ",") (rule "_selector")),
    ("block",
      .seqs [word "\x7b", .many (rule "_block_item"),
        .opt (as "declaration" (rule "last_declaration")), word "\x7d"]),
    ("_block_item", .oneOf ((items ++ ["postcss_statement", "at_rule"]).map rule)) ]

/-- Selectors. -/
def selectorRules : List (String × Rule Atom) :=
  [ ("_selector",
      .oneOf [rule "universal_selector", as "tag_name" (rule "identifier"),
        rule "class_selector", rule "nesting_selector", rule "pseudo_class_selector",
        rule "pseudo_element_selector", rule "id_selector", rule "attribute_selector",
        rule "string_value", rule "child_selector", rule "descendant_selector",
        rule "sibling_selector", rule "adjacent_sibling_selector", rule "namespace_selector"]),
    ("nesting_selector", word "&"),
    ("universal_selector", word "*"),
    ("class_selector",
      .ranked 1 none (.seqs [.opt (rule "_selector"), word ".", rule "class_name"])),
    ("pseudo_class_selector",
      .seqs [.opt (rule "_selector"),
        .aliased { name := ":", named := false } (rule "_pseudo_class_selector_colon"),
        .oneOf [
          .seq (as "class_name"
              (.oneOf (["has", "not", "is", "where", "host", "host-context"].map word)))
            (as "arguments" (rule "pseudo_class_with_selector_arguments")),
          .seq (as "class_name" (.oneOf (["nth-child", "nth-last-child"].map word)))
            (as "arguments" (rule "pseudo_class_nth_child_arguments")),
          .seq (as "class_name" (rule "identifier"))
            (.opt (as "arguments" (rule "pseudo_class_arguments")))]]),
    ("pseudo_element_selector",
      .seqs [.opt (rule "_selector"), word "::", as "tag_name" (rule "identifier"),
        .opt (as "arguments" (rule "pseudo_element_arguments"))]),
    ("id_selector",
      .seqs [.opt (rule "_selector"), word "#", as "id_name" (rule "identifier")]),
    ("attribute_selector",
      .seqs [.opt (rule "_selector"),
        .atom (.token { pattern := .text "[", spelling := some "[", precedence := 1 }),
        as "attribute_name" (.choice (rule "identifier") (rule "namespace_selector")),
        .opt (.seq (.oneOf (["=", "~=", "^=", "|=", "*=", "$="].map word)) (rule "_value")),
        word "]"]),
    ("child_selector",
      leftward (.seqs [.opt (rule "_selector"), word ">", rule "_selector"])),
    ("descendant_selector",
      leftward (.seqs [rule "_selector", rule "_descendant_operator", rule "_selector"])),
    ("sibling_selector",
      leftward (.seqs [.opt (rule "_selector"), word "~", rule "_selector"])),
    ("adjacent_sibling_selector",
      leftward (.seqs [.opt (rule "_selector"), word "+", rule "_selector"])),
    ("namespace_selector",
      leftward (.seqs [rule "_selector", word "|", rule "_selector"])),
    ("pseudo_class_with_selector_arguments",
      .seqs [openArguments, .sepBy (word ",") (rule "_selector"), word ")"]),
    ("pseudo_class_nth_child_arguments",
      .ranked (-1) none (.seqs [openArguments,
        .oneOf [as "plain_value" (.choice (word "even") (word "odd")), rule "integer_value",
          as "plain_value" (rule "_nth_functional_notation")],
        .opt (.seq (word "of") (rule "_selector")), word ")"])),
    ("_nth_functional_notation", token nthNotation),
    ("pseudo_class_arguments", selectorOrValues),
    ("pseudo_element_arguments", selectorOrValues) ]

/-- Declarations, queries and values. -/
def valueRules : List (String × Rule Atom) :=
  [ ("declaration", .seqs (declarationStart ++ [word ";"])),
    ("last_declaration", .ranked 1 none (.seqs declarationStart)),
    ("important", word "!important"),
    ("_query",
      .oneOf [as "keyword_query" (rule "identifier"), rule "feature_query", rule "binary_query",
        rule "unary_query", rule "selector_query", rule "parenthesized_query"]),
    ("feature_query",
      .seqs [word "(", as "feature_name" (rule "identifier"), word ":",
        .repeat1 (rule "_value"), word ")"]),
    ("parenthesized_query", .seqs [word "(", rule "_query", word ")"]),
    ("binary_query",
      leftward (.seqs [rule "_query", .choice (word "and") (word "or"), rule "_query"])),
    ("unary_query",
      .ranked 1 none (.seq (.choice (word "not") (word "only")) (rule "_query"))),
    ("selector_query",
      .seqs [word "selector", word "(", rule "_selector", word ")"]),
    ("_value",
      .ranked (-1) none (.oneOf [as "plain_value" (rule "identifier"), rule "plain_value",
        rule "color_value", rule "integer_value", rule "float_value", rule "string_value",
        rule "grid_value", rule "binary_expression", rule "parenthesized_value",
        rule "call_expression", rule "important"])),
    ("parenthesized_value", .seqs [word "(", rule "_value", word ")"]),
    ("color_value", .seq (word "#") (immediate (.between 3 8 (cls .hexDigit)))),
    ("string_value",
      .choice (.seqs [word "\x27", stringContent (Char.ofNat 39), word "\x27"])
        (.seqs [word "\"", stringContent '\"', word "\""])),
    ("escape_sequence",
      immediate (.seq (.text "\\") (.alt (cls (.complement (.single '\n'))) (.text "\n")))),
    ("integer_value", .seq (token (.seq sign digits)) (.opt (rule "unit"))),
    ("float_value", .seq (token floatNumber) (.opt (rule "unit"))),
    ("unit", immediate (clsSome (.letter ++ .single '%'))),
    ("grid_value", .seqs [word "[", .sepBy1 (word ",") (rule "_value"), word "]"]),
    ("call_expression",
      .seq (as "function_name" (rule "identifier")) (rule "arguments")),
    ("binary_expression",
      leftward (.seqs [rule "_value", .oneOf (["+", "-", "*", "/"].map word), rule "_value"])),
    ("arguments",
      .seqs [openArguments,
        .sepBy (.choice (word ",") (word ";")) (.repeat1 (rule "_value")), word ")"]),
    ("class_name", .repeat1 (.choice (rule "identifier") (rule "escape_sequence"))),
    ("identifier", token identifier),
    ("at_keyword", token (.seq (.text "@") (clsSome (.letter ++ .ofString "-_")))),
    ("js_comment",
      .atom (.token { pattern := .seq (.text "//") (clsMany (.complement (.single '\n')))
                      precedence := -1 })),
    ("comment", token comment),
    ("plain_value", token plainValue) ]

/-- The grammar of style sheets. -/
def grammar : Grammar where
  rules := statementRules ++ selectorRules ++ valueRules
  extras := [.token { pattern := cls .blank }, .rule "comment", .rule "js_comment"]
  externals := [.rule "_descendant_operator", .rule "_pseudo_class_selector_colon",
    .rule "__error_recovery"]
  inlined := ["_top_level_item", "_block_item"]

end WebBaseline.Stylesheet
