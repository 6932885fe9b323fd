import MiniApp.Lint.Basic
import MiniApp.Text.Blank
import MiniApp.Text.Word
import MiniApp.Token.Scan

/-!
# The rules of the linter

Five rules: lines are not too long and do not end in white space, the head of a body section is
spelled in one way, a web package declares its version, and names are not hyphenated.
-/

namespace MiniApp.Lint

/-- Lines of more characters than the limit. -/
def lineLength (limit : Int) : Rule where
  id := "line-length"
  description := "Enforce maximum line length."
  name := "LineLengthRule"
  check := .line fun line number =>
    if (line.length : Int) ≤ limit then .ok []
    else .ok [{
      rule := "line-length"
      message := "Line exceeds maximum length of " ++ toString limit ++ " characters."
      severity := .warning
      line := number
      column := limit + 1 }]

/-- Lines that end in white space. -/
def trailingWhitespace : Rule where
  id := "trailing-whitespace"
  description := "Disallow trailing whitespace at the end of lines."
  name := "TrailingWhitespaceRule"
  check := .line fun line number =>
    let kept := (Text.trimBlanksEnd line.toList).length
    if kept = line.length then .ok []
    else .ok [{
      rule := "trailing-whitespace"
      message := "Trailing whitespace found."
      severity := .warning
      line := number
      column := kept + 1
      suggestion := some "Remove the whitespace at the end of the line" }]

/-- Heads of body sections that do not go on with the style. -/
def bodyStyle : Rule where
  id := "homy-body-style-syntax"
  description := "Enforce correct syntax for `body@ (style:)`."
  name := "BodyStyleSyntaxRule"
  check := .line fun line number =>
    match Text.find? "body@".toList line.toList with
    | none => .ok []
    | some index =>
      if Text.occursIn "body@ (style:" line then .ok []
      else .ok [{
        rule := "homy-body-style-syntax"
        message := "`body@` must be immediately followed by ` (style:)` on the same line."
        severity := .error
        line := number
        column := index + 1
        suggestion := some "Write the section header as body@ (style: \"...\")" }]

/-- The first place where a text occurs within a line, or the start. -/
def firstPlace (needle : String) (source : String) : Nat × Nat :=
  ((numberedLines source).findSome? fun (line, n) =>
    (Text.find? needle.toList line.toList).map fun index => (n, index + 1)).getD (1, 1)

/-- Web packages without a web version. -/
def versionSync : Rule where
  id := "homy-web-package-version-sync"
  description := "Ensure `web_mini_version()` is used when `web_package_mini()` is present."
  name := "WebPackageVersionSyncRule"
  check := .file fun source =>
    if !Text.occursIn "web_package_mini()" source || Text.occursIn "web_mini_version()" source then
      .ok []
    else
      let place := firstPlace "web_package_mini()" source
      .ok [{
        rule := "homy-web-package-version-sync"
        message := "`web_mini_version()` must be present when `web_package_mini()` is used."
        severity := .error
        line := place.1
        column := place.2
        suggestion := some "Add web_mini_version(); next to web_package_mini();" }]

/-- A name after a declaring keyword: both words, the place of the name within the match and the
length of the match. -/
structure Declaration where
  keyword : String
  name : String
  offset : Nat
  length : Nat
  deriving DecidableEq, Repr

/-- A declaration at the head of a text by one keyword. -/
def declarationBy? (keyword : String) (cs : List Char) : Option Declaration :=
  if keyword.toList.isPrefixOf cs then
    let afterKeyword := cs.drop keyword.length
    let blanks := afterKeyword.takeWhile Text.isBlank
    let rest := afterKeyword.drop blanks.length
    if !blanks.isEmpty && rest.head?.any Lexical.isWordStart then
      let name := rest.takeWhile Lexical.isWordPart
      some ⟨keyword, String.ofList name, keyword.length + blanks.length,
        keyword.length + blanks.length + name.length⟩
    else none
  else none

/-- The keywords that declare names. -/
def declaringKeywords : List String := ["func", "let", "const"]

/-- The declarations in a line, from left to right and without overlap, each with the number of
characters before its name. A keyword counts only at the start of a word. `skip` characters belong
to the declaration found last. -/
def declarations : Nat → Option Char → Nat → List Char → List (Declaration × Nat)
  | _, _, _, [] => []
  | skip, before, index, c :: cs =>
    match skip with
    | skip + 1 => declarations skip (some c) (index + 1) cs
    | 0 =>
      match
        if before.any Text.isWordChar then none
        else declaringKeywords.findSome? (declarationBy? · (c :: cs)) with
      | some d => (d, index + d.offset) :: declarations (d.length - 1) (some c) (index + 1) cs
      | none => declarations 0 (some c) (index + 1) cs

/-- The finding about a hyphenated name. -/
def hyphenated (number : Nat) (d : Declaration) (index : Nat) : Finding where
  rule := "homy-naming-convention"
  message := d.keyword ++ " name '" ++ d.name ++ "' should use camelCase or snake_case"
  severity := .info
  line := number
  column := index + 1
  suggestion := some ("Consider renaming to '" ++
    String.ofList (d.name.toList.map fun c => if c = '-' then '_' else c) ++ "'")

/-- Hyphenated names in declarations. -/
def namingConvention : Rule where
  id := "homy-naming-convention"
  description := "Function and variable names should use camelCase or snake_case"
  name := "NamingConventionRule"
  check := .file fun source =>
    .ok ((numberedLines source).flatMap fun (line, n) =>
      ((declarations 0 none 0 line.toList).filter fun (d, _) => d.name.toList.contains '-').map
        fun (d, index) => hyphenated n d index)

/-- All rules. -/
def allRules (s : Settings) : List Rule :=
  [lineLength s.maxLineLength, trailingWhitespace, bodyStyle, versionSync, namingConvention]

/-- The rules that the settings allow. -/
def defaultRules (s : Settings) : List Rule := (allRules s).filter fun r => s.allows r.id

/-- A rule as a listing shows it. -/
def Rule.listing (r : Rule) : String := r.name ++ "('" ++ r.id ++ "')"

end MiniApp.Lint
