/-
The static analysis of a drafted process, `tm1/deployment/ti_analysis.py`.

The analysis has a lexer of its own: it cuts a tab into lines, a line into statements, and
looks for names with regular expressions, which are the functions that compute their
matches here. Names are compared by `str.lower`, a parameter. A Python set has no order; where
the code picks one of two declared names that differ in case only, for the text of a message,
the model takes the last one declared.
-/
import PaCopilot.Change.Draft
import PaCopilot.Lib.Dedup
import PaCopilot.Lib.Words
import PaCopilot.Tm1.Rules.Parser

set_option autoImplicit false

namespace PaCopilot.ti_analysis

open Python (isspace strip capitalize)
open rules (Text splitlines)
open change_service (sortedSet textOr)

/-! ## Tabs and words -/

inductive Tab
  | prolog
  | metadata
  | data
  | epilog
  deriving DecidableEq

def CODE_TABS : List Tab := [.prolog, .metadata, .data, .epilog]

theorem mem_CODE_TABS (tab : Tab) : tab ∈ CODE_TABS := by
  cases tab <;> decide

/-- The key of a tab in a content. -/
def Tab.text : Tab → String
  | .prolog => "prolog"
  | .metadata => "metadata"
  | .data => "data"
  | .epilog => "epilog"

/-- `content.get(tab)`. -/
def Tab.given (content : NewContent) : Tab → Option (Option String)
  | .prolog => content.prolog
  | .metadata => content.metadata
  | .data => content.data
  | .epilog => content.epilog

def isIdStart (c : Char) : Bool := c.isAlpha || c == '_'

def isIdPart (c : Char) : Bool := c.isAlphanum || c == '_'

/-- `_IDENTIFIER.findall`, each match with what follows it. -/
def _IDENTIFIER (statement : Text) : List (Text × Text) :=
  Words.findall isIdStart isIdPart false statement

/-- A parenthesis opens, after white space. -/
def opensCall (rest : Text) : Bool := (rest.dropWhile isspace).head? == some '('

/-- `_CALL.findall`. A shorter part of an identifier is followed by a letter of it, so it is
the whole identifier that the parenthesis must follow. -/
def _CALL (statement : Text) : List Text :=
  ((_IDENTIFIER statement).filter fun found => opensCall found.2).map Prod.fst

/-- `_ASSIGNMENT.match`: the name on the left. -/
def _ASSIGNMENT (statement : Text) : Option Text :=
  match statement.dropWhile isspace with
  | [] => none
  | c :: rest =>
    if isIdStart c then
      match ((c :: rest).dropWhile isIdPart).dropWhile isspace with
      | '=' :: '=' :: _ => none
      | '=' :: _ => some ((c :: rest).takeWhile isIdPart)
      | _ => none
    else none

/-- `_SOURCE_COLUMN.match`. -/
def _SOURCE_COLUMN (name : String) : Bool :=
  match name.toList with
  | 'v' :: c :: rest => c.isDigit && c != '0' && rest.all Char.isDigit
  | _ => false

section Lower

variable (lower : String → String)

def RESERVED_NAMES : List String :=
  [ -- control flow
    "If", "Else", "ElseIf", "EndIf", "While", "End", "Break",
    "Continue", "Return", "Then", "Do",
    -- flow-control statements, valid with or without parentheses
    "ItemSkip", "ItemReject", "ProcessBreak", "ProcessQuit",
    "ProcessError", "ProcessExitNormal", "ProcessExitByChoreQuit",
    -- reserved variables TI populates for a view/ODBO datasource
    "NValue", "SValue", "Value_Is_String",
    -- datasource globals
    "DatasourceType", "DatasourceNameForServer",
    "DatasourceNameForClient", "DatasourceUsername",
    "DatasourcePassword", "DatasourceQuery", "DatasourceCubeview",
    "DatasourceDimensionSubset", "DatasourceASCIIDelimiter",
    "DatasourceASCIIQuoteCharacter", "DatasourceASCIIDecimalSeparator",
    "DatasourceASCIIThousandSeparator", "DatasourceASCIIHeaderRecords",
    "DatasourceODBOCatalog", "DatasourceODBOConnectionString",
    "DatasourceODBOCubeName", "DatasourceODBOHierarchyName",
    "DatasourceODBOLocation", "DatasourceODBOProvider",
    "DatasourceODBOSAPClientID", "DatasourceODBOSAPClientLanguage",
    -- error-handling globals
    "OnMinorErrorDoItemSkip", "MinorErrorLogMax",
    -- type keywords
    "Numeric", "String" ].map lower

/-! ## Statements -/

/-- `_strip_noise`. The state says whether the reader is in a string. -/
def _strip_noise : Bool → Text → Text
  | _, [] => []
  | true, '\'' :: '\'' :: rest => _strip_noise true rest
  | true, c :: rest => _strip_noise (c != '\'') rest
  | false, c :: rest =>
    if c == '\'' then ' ' :: _strip_noise true rest
    else if c == '#' then []
    else c :: _strip_noise false rest

/-- The statements of one tab. -/
def codeStatements (code : Text) : List Text :=
  (splitlines code).flatMap fun raw =>
    ((_strip_noise false raw).splitOn ';').filter fun part => strip part ≠ []

/-- `_statements`. A tab that is null is skipped, as one that is empty. -/
def _statements (content : NewContent) : List (Tab × Text) :=
  CODE_TABS.flatMap fun tab =>
    match tab.given content with
    | some (some code) => (codeStatements code.toList).map fun statement => (tab, statement)
    | _ => []

/-- `_names_from`, of the names under a key. -/
def _names_from (names : List String) : List String := names.filter fun name => name ≠ ""

/-- The declared names of a content. -/
def declared_names (content : NewContent) : List String :=
  _names_from ((content.parameters.getD []).map ParameterContent.name)
    ++ _names_from ((content.variables.getD []).map VariableContent.name)

/-- The names of a statement. -/
def names (statement : Text) : List String :=
  (_IDENTIFIER statement).map fun found => String.ofList found.1

/-- The names that statements assign. -/
def assigned (statements : List (Tab × Text)) : List String :=
  statements.filterMap fun (_, statement) => (_ASSIGNMENT statement).map String.ofList

/-! ## Undefined names -/

/-- The names of a statement that are undefined there. -/
def undefinedNames (known_lower : List String) (statement : Text) : List String :=
  let called := (_CALL statement).map fun name => lower (String.ofList name)
  (names statement).filter fun token =>
    lower token ∉ called ∧ lower token ∉ known_lower ∧ lower token ∉ RESERVED_NAMES lower

/-- `undefined.get(tab)`: of each name the spelling that was seen first. -/
def undefinedIn (statements : List (Tab × Text)) (known_lower : List String) (tab : Tab) :
    List String :=
  Dedup.insertAll lower []
    ((statements.filter fun (at_, _) => at_ = tab).flatMap fun (_, statement) =>
      undefinedNames lower known_lower statement)

/-- The error of one tab. -/
def undefinedError (tab : Tab) (found : List String) (has_variables : Bool) : String :=
  let shown := ", ".intercalate (found.insertionSort fun a b => a ≤ b)
  let source_like := found.filter fun name => _SOURCE_COLUMN (lower name)
  if source_like ≠ [] ∧ has_variables = false then
    capitalize tab.text ++ " reads source columns (" ++ shown ++ ") but the "
      ++ "process declares no datasource variables. Declare them in "
      ++ "'variables' and set datasource_type to 'ASCII'."
  else
    capitalize tab.text ++ " reads undefined name(s): " ++ shown ++ ". Every "
      ++ "name must be a declared parameter, a declared datasource "
      ++ "column in 'variables', or assigned earlier in the process — "
      ++ "TI does not create variables from column headings."

def _undefined_errors (statements : List (Tab × Text)) (known_lower : List String)
    (has_variables : Bool) : List String :=
  CODE_TABS.filterMap fun tab =>
    let found := undefinedIn lower statements known_lower tab
    if found = [] then none else some (undefinedError lower tab found has_variables)

/-! ## Capitalisation -/

/-- `_case_errors`, over every sighting of a name. -/
def _case_errors (sighted declared assigned : List String) : List String :=
  (sortedSet (sighted.map lower)).filterMap fun lowered =>
    let spellings := sortedSet (sighted.filter fun name => lower name = lowered)
    let used := ", ".intercalate spellings
    if spellings.length < 2 ∨ lowered ∈ RESERVED_NAMES lower then none
    else
      match declared.reverse.find? fun name => lower name = lowered with
      | some canonical =>
        some ("Variable '" ++ canonical ++ "' is declared once but referenced "
          ++ "with inconsistent capitalisation (" ++ used ++ "). Use "
          ++ "'" ++ canonical ++ "' everywhere.")
      | none =>
        -- declared nowhere: it is a name of the process only if it is assigned
        if spellings.any fun name => name ∈ assigned then
          some ("Variable '" ++ spellings.headD "" ++ "' is referenced with "
            ++ "inconsistent capitalisation (" ++ used ++ "). Pick one spelling "
            ++ "and use it consistently.")
        else none

/-! ## `analyze` -/

def _ENUMERABLE_DATASOURCES : List String := ["none", "ascii"]

/-- The effective data source is one whose variables can be enumerated. -/
def enumerable (content : NewContent) (datasource_type : Option String) : Bool :=
  lower (textOr content.datasource_type (textOr datasource_type "None"))
    ∈ _ENUMERABLE_DATASOURCES

/-- `known_lower`: the names a draft declares or assigns itself. -/
def known_lower (content : NewContent) : List String :=
  (declared_names content).map lower ++ (assigned (_statements content)).map lower

/-- `bool(content.get("variables"))`. -/
def hasVariables (content : NewContent) : Bool := !(content.variables.getD []).isEmpty

/-- The undefined-name errors of `analyze`. -/
def undefined (content : NewContent) (datasource_type : Option String) : List String :=
  if enumerable lower content datasource_type then
    _undefined_errors lower (_statements content) (known_lower lower content)
      (hasVariables content)
  else []

/-- The capitalisation errors of `analyze`. -/
def miscased (content : NewContent) : List String :=
  let statements := _statements content
  _case_errors lower
    (declared_names content ++ statements.flatMap fun (_, statement) => names statement)
    (declared_names content) (assigned statements)

/-- `analyze`. A content without keys has no statement and no name, hence no error. -/
def analyze (content : NewContent) (datasource_type : Option String) : List String :=
  undefined lower content datasource_type ++ miscased lower content

end Lower

end PaCopilot.ti_analysis
