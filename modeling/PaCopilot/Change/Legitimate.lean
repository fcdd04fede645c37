/-
Which drafts of a process are blocked although their names are right.

The process that a draft results in is its tabs, parameters and variables over the version on
the server. Its code is read here as a whole, as the TI parser of `tm1/ti/parser.py` reads it:
a literal ends at its closing quote and a comment at its newline, a statement at its semicolon.
The static analysis reads the draft alone, and line by line; the two readings agree on a tab
that is `LineWise`. A name that only the second one finds fault with is `Misread`.
-/
import PaCopilot.Change.Create
import PaCopilot.Change.TiAnalysis

set_option autoImplicit false

namespace PaCopilot

open Python (isspace newlines)
open rules (Text splitlines isLineBreak)

namespace ti.parser

def _STATEMENT_FUNCTIONS : List String :=
  [ "PROCESSQUIT", "PROCESSBREAK", "PROCESSERROR", "ITEMSKIP", "ITEMREJECT", "SAVEDATAALL",
    "CUBESAVEDATA", "SECURITYREFRESH", "SYNCHRONIZED", "DISABLEBULKLOADMODE",
    "ENABLEBULKLOADMODE", "BATCHUPDATESTART", "BATCHUPDATEFINISH", "SERVERSHUTDOWN" ]

end ti.parser

namespace ti_analysis

/-! ## The code of a process, read as a whole -/

/-- Where a reader of TI code is. -/
inductive Reading
  | code
  | literal
  | comment
  deriving DecidableEq

/-- The code without its literals and comments; a literal leaves a blank. -/
def cleaned : Reading → Text → Text
  | _, [] => []
  | .literal, '\'' :: '\'' :: rest => cleaned .literal rest
  | .literal, c :: rest => cleaned (if c == '\'' then .code else .literal) rest
  | .comment, c :: rest => if c == '\n' then c :: cleaned .code rest else cleaned .comment rest
  | .code, c :: rest =>
    if c == '\'' then ' ' :: cleaned .literal rest
    else if c == '#' then cleaned .comment rest
    else c :: cleaned .code rest

def codeOf (code : String) : Text := cleaned .code (newlines code.toList)

/-- The words of a tab, each with what follows it. -/
def wordsOf (code : String) : List (Text × Text) :=
  Words.findall isIdPart isIdPart false (codeOf code)

/-- A tab of a process. -/
def Tab.procedure (p : Process) : Tab → String
  | .prolog => p.prolog_procedure
  | .metadata => p.metadata_procedure
  | .data => p.data_procedure
  | .epilog => p.epilog_procedure

/-- The names that a process assigns, in any of its tabs. -/
def assignedNames (p : Process) : List String :=
  CODE_TABS.flatMap fun tab =>
    (((codeOf (tab.procedure p)).splitOn ';').filterMap _ASSIGNMENT).map String.ofList

/-- The names of a process: its parameters and variables, and what it assigns. -/
def knownNames (p : Process) : List String :=
  p.parameters.map Parameter.name ++ p.variables.map Variable.name ++ assignedNames p

/-- A word that begins with a digit is a numeral, as `10`, the halves of `1.5`, `1e5`, or
`1e` before a sign and a digit. -/
def isNumeral (w rest : Text) : Bool :=
  match w.dropWhile Char.isDigit with
  | [] => true
  | e :: exponent =>
    (e == 'e' || e == 'E') && exponent.all Char.isDigit &&
      (exponent ≠ [] || match rest with
        | sign :: d :: _ => (sign == '+' || sign == '-') && d.isDigit
        | _ => false)

/-- `match.group(1).upper() in _STATEMENT_FUNCTIONS`. -/
def isStatementFunction (name : Text) : Bool :=
  String.ofList (name.map Char.toUpper) ∈ ti.parser._STATEMENT_FUNCTIONS

section Lower

variable (lower : String → String)

/-- A word of a process is as it should be. -/
def Rightful (p : Process) (w rest : Text) : Prop :=
  if w.headD ' ' |>.isDigit then isNumeral w rest = true
  else opensCall rest = true ∨ lower (String.ofList w) ∈ (knownNames p).map lower
    ∨ lower (String.ofList w) ∈ RESERVED_NAMES lower ∨ isStatementFunction w = true

instance decidableRightful (p : Process) (w rest : Text) : Decidable (Rightful lower p w rest) := by
  unfold Rightful
  infer_instance

/-- Every bare identifier of a process is declared, assigned, reserved or a statement
function, and every number is a numeral. -/
def Legitimate (p : Process) : Prop :=
  ∀ tab ∈ CODE_TABS, ∀ found ∈ wordsOf (tab.procedure p), Rightful lower p found.1 found.2

instance decidableLegitimate (p : Process) : Decidable (Legitimate lower p) :=
  inferInstanceAs (Decidable (∀ tab ∈ CODE_TABS, _))

end Lower

/-- The process a draft results in, before TM1py puts its comments on top of the tabs. -/
def resulting (tm1 : TM1) (s : Server) (change_type : ChangeType) (target : String)
    (content : NewContent) : Process :=
  change_service._build_process { tm1 with generated := id } target content
    (if change_type = .update_process then s.process target else none)

/-! ## Reading line by line -/

/-- A line ends in a string that is still open. -/
def leftOpen : Bool → Text → Bool
  | inString, [] => inString
  | true, '\'' :: '\'' :: rest => leftOpen true rest
  | true, c :: rest => leftOpen (c != '\'') rest
  | false, c :: rest =>
    if c == '\'' then leftOpen true rest
    else if c == '#' then false
    else leftOpen false rest

/-- Python ends a line only at a newline, and each literal closes on the line it opens on. -/
structure LineWise (code : Text) : Prop where
  newline : ∀ c ∈ code, isLineBreak c = true → c = '\n'
  closed : ∀ line ∈ splitlines code, leftOpen false line = false

/-- Where a reader of lines is, as a reader of the whole. -/
def readingOf (inString : Bool) : Reading := if inString then .literal else .code

theorem cleaned_newline (rest : Text) :
    cleaned .code ('\n' :: rest) = '\n' :: cleaned .code rest := by
  rw [cleaned]
  rfl

/-- In a string a character stands for itself, unless it is the first of two quotes. -/
theorem cleaned_literal {c : Char} {rest : Text}
    (h : ∀ more, c = '\'' → rest = '\'' :: more → False) :
    cleaned .literal (c :: rest) = cleaned (if c == '\'' then .code else .literal) rest := by
  rw [cleaned]
  exact h

theorem leftOpen_string {c : Char} {rest : Text}
    (h : ∀ more, c = '\'' → rest = '\'' :: more → False) :
    leftOpen true (c :: rest) = leftOpen (c != '\'') rest := by
  rw [leftOpen]
  exact h

/-- A comment goes on to the end of its line. -/
theorem cleaned_comment {line after : Text} (hline : '\n' ∉ line)
    (hafter : after = [] ∨ ∃ more, after = '\n' :: more) :
    cleaned .comment (line ++ after) = cleaned .code after := by
  induction line with
  | nil =>
    rcases hafter with rfl | ⟨more, rfl⟩
    · rfl
    · rw [List.nil_append, cleaned_newline, cleaned]
      rfl
  | cons c line ih =>
    rw [List.mem_cons, not_or] at hline
    have hne : (c == '\n') = false := beq_false_of_ne fun h => hline.1 h.symm
    rw [List.cons_append, cleaned, hne]
    exact ih hline.2

/-- On a line the two readers leave the same, where the line closes its literals or is the
last one. -/
theorem cleaned_line (inString : Bool) {line after : Text} (hline : '\n' ∉ line)
    (hafter : after = [] ∨ leftOpen inString line = false ∧ ∃ more, after = '\n' :: more) :
    cleaned (readingOf inString) (line ++ after)
      = _strip_noise inString line ++ cleaned .code after := by
  have hend : after = [] ∨ ∃ more, after = '\n' :: more := hafter.imp_right And.right
  fun_induction _strip_noise inString line with
  | case1 inString =>
    rcases hafter with rfl | ⟨hopen, more, rfl⟩
    · cases inString <;> rfl
    · rw [leftOpen] at hopen
      subst hopen
      rfl
  | case2 rest ih =>
    -- a doubled quote stays in the string
    simp only [List.mem_cons, not_or] at hline
    have hcleaned : cleaned (readingOf true) ('\'' :: '\'' :: rest ++ after)
        = cleaned (readingOf true) (rest ++ after) := by
      rw [readingOf, if_pos rfl, List.cons_append, List.cons_append, cleaned]
    rw [hcleaned]
    apply ih hline.2.2
    rwa [leftOpen] at hafter
  | case3 c rest hquote ih =>
    rw [List.mem_cons, not_or] at hline
    have hsingle : ∀ more, c = '\'' → rest ++ after = '\'' :: more → False := by
      rintro more rfl hmore
      cases rest with
      | nil =>
        rcases hend with rfl | ⟨more', rfl⟩
        · cases hmore
        · cases hmore
      | cons d rest =>
        rw [List.cons_append, List.cons.injEq] at hmore
        exact hquote rest rfl (by rw [hmore.1])
    have hcleaned : cleaned (readingOf true) (c :: rest ++ after)
        = cleaned (readingOf (c != '\'')) (rest ++ after) := by
      show cleaned .literal (c :: (rest ++ after)) = _
      rw [cleaned_literal hsingle]
      by_cases hc : c = '\''
      · subst hc
        rfl
      · rw [if_neg (by simpa using hc), readingOf, if_pos (bne_iff_ne.mpr hc)]
    rw [hcleaned]
    apply ih hline.2
    rw [leftOpen_string hquote] at hafter
    exact hafter
  | case4 c rest hc ih =>
    rw [List.mem_cons, not_or] at hline
    rw [leftOpen, if_pos hc] at hafter
    have hcleaned : cleaned (readingOf false) (c :: rest ++ after)
        = ' ' :: cleaned (readingOf true) (rest ++ after) := by
      show cleaned .code (c :: (rest ++ after)) = _
      rw [cleaned, if_pos hc]
      rfl
    rw [hcleaned, ih hline.2 hafter]
    rfl
  | case5 c rest hc hhash =>
    rw [List.mem_cons, not_or] at hline
    show cleaned .code (c :: (rest ++ after)) = _
    rw [cleaned, if_neg hc, if_pos hhash, cleaned_comment hline.2 hend]
    rfl
  | case6 c rest hc hhash ih =>
    rw [List.mem_cons, not_or] at hline
    rw [leftOpen, if_neg hc, if_neg hhash] at hafter
    have hcleaned : cleaned (readingOf false) (c :: rest ++ after)
        = c :: cleaned (readingOf false) (rest ++ after) := by
      show cleaned .code (c :: (rest ++ after)) = _
      rw [cleaned, if_neg hc, if_neg hhash]
      rfl
    rw [hcleaned, ih hline.2 hafter]
    rfl

/-! ## Lines of a text, and statements of a line -/

/-- The two characters of a line end count as one. -/
theorem splitlines_newlines {code : Text}
    (hnewline : ∀ c ∈ newlines code, isLineBreak c = true → c = '\n') :
    splitlines (newlines code) = splitlines code := by
  fun_induction newlines code with
  | case1 rest ih =>
    rw [List.forall_mem_cons] at hnewline
    have hfirst : ∀ after, '\n' = '\r' → newlines rest = '\n' :: after → False := by
      intro after hcr
      cases hcr
    rw [rules.splitlines_cons hfirst, if_pos (by decide), splitlines, ih hnewline.2]
  | case2 c rest hcr ih =>
    rw [List.forall_mem_cons] at hnewline
    have hfirst : ∀ after, c = '\r' → newlines rest = '\n' :: after → False := by
      rintro after rfl -
      have hsame := hnewline.1 (by decide)
      cases hsame
    rw [rules.splitlines_cons hfirst, rules.splitlines_cons hcr, ih hnewline.2]
  | case3 => rfl

/-- The first line of a text, and the lines after it. -/
theorem splitlines_first {code : Text} (hnewline : ∀ c ∈ code, isLineBreak c = true → c = '\n')
    (hne : code ≠ []) :
    ∃ line after, code = line ++ after ∧ '\n' ∉ line ∧
      ((after = [] ∧ splitlines code = [line]) ∨
        ∃ more, after = '\n' :: more ∧ splitlines code = line :: splitlines more) := by
  induction code with
  | nil => exact absurd rfl hne
  | cons c code ih =>
    rw [List.forall_mem_cons] at hnewline
    by_cases hc : c = '\n'
    · subst hc
      refine ⟨[], '\n' :: code, rfl, List.not_mem_nil, .inr ⟨code, rfl, ?_⟩⟩
      rw [rules.splitlines_cons fun _ hcr _ => by cases hcr]
      rfl
    · have hbreak : isLineBreak c = false := by
        by_contra hbreak
        exact hc (hnewline.1 (by simpa using hbreak))
      have hcr : ∀ after, c = '\r' → code = '\n' :: after → False := by
        rintro after rfl -
        cases hbreak
      have hsplit : splitlines (c :: code) = rules.consLine c (splitlines code) := by
        rw [rules.splitlines_cons hcr, if_neg (by rw [hbreak]; decide)]
      rw [hsplit]
      by_cases hcode : code = []
      · subst hcode
        exact ⟨[c], [], rfl, by simpa using fun h => hc h.symm, .inl ⟨rfl, rfl⟩⟩
      · obtain ⟨line, after, rfl, hline, hlines⟩ := ih hnewline.2 hcode
        refine ⟨c :: line, after, rfl, ?_, ?_⟩
        · rw [List.mem_cons, not_or]
          exact ⟨fun h => hc h.symm, hline⟩
        · rcases hlines with ⟨rfl, hlines⟩ | ⟨more, rfl, hlines⟩
          · exact .inl ⟨rfl, by rw [hlines]; rfl⟩
          · exact .inr ⟨more, rfl, by rw [hlines]; rfl⟩

theorem isIdPart_of_isIdStart (c : Char) (h : isIdStart c = true) : isIdPart c = true := by
  rw [isIdStart, Bool.or_eq_true] at h
  rw [isIdPart, Bool.or_eq_true, Char.isAlphanum, Bool.or_eq_true]
  exact h.imp_left .inl

/-- No word goes on over the end of a line or of a statement. -/
def Ends (after : Text) : Prop := after = [] ∨ ∃ more, after = '\n' :: more ∨ after = ';' :: more

theorem Ends.breaks {after : Text} (h : Ends after) : Words.BreaksBefore isIdPart after := by
  rcases h with rfl | ⟨more, rfl | rfl⟩
  · exact .nil
  · exact .cons (by decide)
  · exact .cons (by decide)

/-- **The two readings.** What the line reader leaves of a line stands in what the whole
reader leaves of the text, from a line end to a line end. -/
theorem line_in_cleaned {code line : Text} (h : LineWise code) (hline : line ∈ splitlines code) :
    ∃ before after, cleaned .code code = before ++ (_strip_noise false line ++ after) ∧
      Words.BreaksAfter isIdPart before ∧ (after = [] ∨ ∃ more, after = '\n' :: more) := by
  induction hn : code.length using Nat.strong_induction_on generalizing code with
  | h n ih =>
    have hne : code ≠ [] := by
      rintro rfl
      cases hline
    obtain ⟨first, after, rfl, hfirst, hlines⟩ := splitlines_first h.newline hne
    rcases hlines with ⟨rfl, hlines⟩ | ⟨more, rfl, hlines⟩
    · -- the only line
      rw [hlines, List.mem_singleton] at hline
      subst hline
      refine ⟨[], [], ?_, .nil, .inl rfl⟩
      exact cleaned_line false hfirst (.inl rfl)
    · have hclosed : leftOpen false first = false :=
        h.closed first (by rw [hlines]; exact List.mem_cons_self)
      have hcleaned : cleaned .code (first ++ '\n' :: more)
          = _strip_noise false first ++ '\n' :: cleaned .code more := by
        rw [← cleaned_newline]
        exact cleaned_line false hfirst (.inr ⟨hclosed, more, rfl⟩)
      rw [hcleaned]
      rw [hlines, List.mem_cons] at hline
      rcases hline with rfl | hline
      · exact ⟨[], '\n' :: cleaned .code more, rfl, .nil, .inr ⟨_, rfl⟩⟩
      · have hmore : LineWise more :=
          ⟨fun c hc => h.newline c (List.mem_append_right _ (List.mem_cons_of_mem _ hc)),
            fun l hl => h.closed l (by rw [hlines]; exact List.mem_cons_of_mem _ hl)⟩
        have hlt : more.length < n := by
          rw [← hn, List.length_append, List.length_cons]
          omega
        obtain ⟨before, after, hrest, hbefore, hafter⟩ := ih _ hlt hmore hline rfl
        refine ⟨(_strip_noise false first ++ ['\n']) ++ before, after, ?_, ?_, hafter⟩
        · rw [hrest]
          simp only [List.append_assoc, List.cons_append, List.nil_append]
        · exact Words.BreaksAfter.append (.concat (by decide)) hbefore

/-- A piece between two separators stands in the text, from a separator to a separator. -/
theorem piece_in_text {pieces : List Text} {piece : Text} (h : piece ∈ pieces) :
    ∃ before after, List.intercalate [';'] pieces = before ++ (piece ++ after) ∧
      Words.BreaksAfter isIdPart before ∧ (after = [] ∨ ∃ more, after = ';' :: more) := by
  induction pieces with
  | nil => cases h
  | cons first pieces ih =>
    cases pieces with
    | nil =>
      rw [List.mem_singleton] at h
      subst h
      exact ⟨[], [], by simp, .nil, .inl rfl⟩
    | cons next pieces =>
      rw [List.intercalate_cons_cons]
      rw [List.mem_cons] at h
      rcases h with rfl | h
      · exact ⟨[], ';' :: List.intercalate [';'] (next :: pieces), by simp, .nil, .inr ⟨_, rfl⟩⟩
      · obtain ⟨before, after, hrest, hbefore, hafter⟩ := ih h
        refine ⟨(first ++ [';']) ++ before, after, ?_, ?_, hafter⟩
        · rw [hrest]
          simp only [List.append_assoc]
        · exact Words.BreaksAfter.append (.concat (by decide)) hbefore

/-- **A name of a statement in the code as a whole.** It ends a word there; what is before
it in that word starts no name. -/
theorem exists_occurs_of_mem_names {code : String} {statement token rest : Text}
    (h : LineWise (newlines code.toList)) (hstatement : statement ∈ codeStatements code.toList)
    (hfound : (token, rest) ∈ _IDENTIFIER statement) :
    ∃ skipped after, (∀ c ∈ skipped, isIdStart c = false) ∧
      (∃ c ∈ token.head?, isIdStart c = true) ∧ Ends after ∧
      Words.Occurs isIdPart (codeOf code) (skipped ++ token) (rest ++ after) := by
  rw [codeStatements, List.mem_flatMap] at hstatement
  obtain ⟨raw, hraw, hstatement⟩ := hstatement
  have hpiece := (List.mem_filter.mp hstatement).1
  obtain ⟨skipped, hskipped, hhead, hoccurs⟩ :=
    Words.exists_occurs_of_mem_findall isIdPart_of_isIdStart hfound
  -- from the statement to its line, and from the line to the text
  obtain ⟨before, after, hline, hbefore, hafter⟩ := piece_in_text hpiece
  rw [List.intercalate_splitOn] at hline
  rw [← splitlines_newlines h.newline] at hraw
  obtain ⟨above, below, htext, habove, hbelow⟩ := line_in_cleaned h hraw
  have hends : Ends (after ++ below) := by
    rcases hafter with rfl | ⟨more, rfl⟩
    · rcases hbelow with rfl | ⟨more, rfl⟩
      · exact .inl rfl
      · exact .inr ⟨more, .inl rfl⟩
    · exact .inr ⟨more ++ below, .inr rfl⟩
  refine ⟨skipped, after ++ below, hskipped, hhead, hends, ?_⟩
  have hwithin := hoccurs.within (habove.append hbefore) hends.breaks
  have hcode : codeOf code = above ++ before ++ (statement ++ (after ++ below)) := by
    rw [codeOf, htext, hline]
    simp only [List.append_assoc]
  rw [hcode]
  exact hwithin

/-! ## What is found fault with -/

section Lower

variable (lower : String → String)

/-- A name of a statement of a draft that the draft neither declares nor assigns on one line,
that is not called in the statement, and that is not reserved. -/
structure Stray (content : NewContent) (tab : Tab) (statement token rest : Text) : Prop where
  seen : (tab, statement) ∈ _statements content
  found : (token, rest) ∈ _IDENTIFIER statement
  uncalled : lower (String.ofList token) ∉
    (_CALL statement).map fun name => lower (String.ofList name)
  unknown : lower (String.ofList token) ∉ known_lower lower content
  unreserved : lower (String.ofList token) ∉ RESERVED_NAMES lower

/-- Why a stray name may be right in the process that results. -/
inductive Misread (p : Process) (tab : Tab) (token : Text) : Prop
  /-- a literal or a comment of the tab goes over what Python takes for a line end -/
  | brokenLine (h : ¬ LineWise (newlines (tab.procedure p).toList))
  /-- the name is the exponent of a number -/
  | exponent (digits rest : Text) (hne : digits ≠ []) (hdigits : ∀ c ∈ digits, c.isDigit = true)
    (h : (digits ++ token, rest) ∈ wordsOf (tab.procedure p))
  /-- the name is called, with its parenthesis on a later line -/
  | callBelow (rest : Text) (h : (token, rest) ∈ wordsOf (tab.procedure p))
    (hcall : opensCall rest = true) (hbelow : '\n' ∈ rest.takeWhile isspace)
  /-- the name is a statement function that is not a reserved word -/
  | statementFunction (h : isStatementFunction token = true)
  /-- the process declares or assigns the name, where the line reader of the draft does not
  see it -/
  | elsewhere (h : lower (String.ofList token) ∈ (knownNames p).map lower)

/-- A draft in which a name of a rightful process is found fault with. -/
def Blocks (content : NewContent) (p : Process) : Prop :=
  enumerable lower content none = true ∧
    ∃ tab statement token rest, Stray lower content tab statement token rest ∧
      Misread lower p tab token

variable {lower} {content : NewContent} {p : Process} {tab : Tab} {statement token rest : Text}

theorem undefinedIn_eq_nil_iff (statements : List (Tab × Text)) (known : List String) (tab : Tab) :
    undefinedIn lower statements known tab = [] ↔
      ∀ statement, (tab, statement) ∈ statements → undefinedNames lower known statement = [] := by
  rw [undefinedIn, Dedup.insertAll_nil_eq_nil_iff, List.flatMap_eq_nil_iff]
  constructor
  · intro h statement hmem
    exact h (tab, statement) (List.mem_filter.mpr ⟨hmem, decide_eq_true rfl⟩)
  · rintro h ⟨at_, statement⟩ hmem
    obtain ⟨hin, hat⟩ := List.mem_filter.mp hmem
    have hsame : at_ = tab := of_decide_eq_true hat
    rw [hsame] at hin
    exact h statement hin

theorem _undefined_errors_eq_nil_iff {statements : List (Tab × Text)} {known : List String}
    {has_variables : Bool} :
    _undefined_errors lower statements known has_variables = [] ↔
      ∀ tab statement, (tab, statement) ∈ statements →
        undefinedNames lower known statement = [] := by
  rw [_undefined_errors, List.filterMap_eq_nil_iff]
  constructor
  · intro h tab statement hmem
    have htab := h tab (mem_CODE_TABS tab)
    dsimp only at htab
    by_cases hfound : undefinedIn lower statements known tab = []
    · exact (undefinedIn_eq_nil_iff statements known tab).mp hfound statement hmem
    · rw [if_neg hfound] at htab
      cases htab
  · intro h tab _
    dsimp only
    rw [if_pos ((undefinedIn_eq_nil_iff statements known tab).mpr (h tab))]

theorem mem_undefinedNames_iff {name : String} :
    name ∈ undefinedNames lower (known_lower lower content) statement ∧
        (tab, statement) ∈ _statements content ↔
      ∃ token rest, name = String.ofList token ∧ Stray lower content tab statement token rest := by
  rw [undefinedNames, List.mem_filter, decide_eq_true_eq, names, List.mem_map]
  constructor
  · rintro ⟨⟨⟨⟨token, rest⟩, hfound, rfl⟩, huncalled, hunknown, hunreserved⟩, hseen⟩
    exact ⟨token, rest, rfl, hseen, hfound, huncalled, hunknown, hunreserved⟩
  · rintro ⟨token, rest, rfl, h⟩
    exact ⟨⟨⟨(token, rest), h.found, rfl⟩, h.uncalled, h.unknown, h.unreserved⟩, h.seen⟩

/-- There is no undefined-name error exactly where no name is stray. -/
theorem undefined_eq_nil_iff :
    undefined lower content none = [] ↔ (enumerable lower content none = true →
      ∀ tab statement token rest, ¬ Stray lower content tab statement token rest) := by
  unfold undefined
  by_cases henum : enumerable lower content none = true
  · rw [if_pos henum, _undefined_errors_eq_nil_iff, forall_prop_of_true henum]
    constructor
    · intro h tab statement token rest hstray
      have hmem := (mem_undefinedNames_iff.mpr ⟨token, rest, rfl, hstray⟩).1
      rw [h tab statement hstray.seen] at hmem
      cases hmem
    · intro h tab statement hmem
      apply List.eq_nil_iff_forall_not_mem.mpr
      intro name hname
      obtain ⟨token, rest, -, hstray⟩ := mem_undefinedNames_iff.mp ⟨hname, hmem⟩
      exact h tab statement token rest hstray
  · rw [if_neg henum]
    exact iff_of_true rfl fun h => absurd h henum

/-! ## A stray name of a rightful process -/

theorem isDigit_of_isIdPart {c : Char} (hpart : isIdPart c = true) (hstart : isIdStart c = false) :
    c.isDigit = true := by
  rw [isIdPart, Bool.or_eq_true, Char.isAlphanum, Bool.or_eq_true] at hpart
  rw [isIdStart, Bool.or_eq_false_iff] at hstart
  rcases hpart with (halpha | hdigit) | hunderscore
  · rw [hstart.1] at halpha
    cases halpha
  · exact hdigit
  · rw [hstart.2] at hunderscore
    cases hunderscore

theorem isDigit_of_isIdStart {c : Char} (h : isIdStart c = true) : c.isDigit = false := by
  by_contra hdigit
  rw [Bool.not_eq_false] at hdigit
  have hlow : 48 ≤ c.toNat := of_decide_eq_true (Bool.and_eq_true_iff.mp hdigit).1
  have hhigh : c.toNat ≤ 57 := of_decide_eq_true (Bool.and_eq_true_iff.mp hdigit).2
  rw [isIdStart, Bool.or_eq_true, beq_iff_eq] at h
  rcases h with h | rfl
  · rcases Bool.or_eq_true_iff.mp h with hupper | hlower
    · have hletter : 65 ≤ c.toNat := (of_decide_eq_true hupper).1
      omega
    · have hletter : 97 ≤ c.toNat := of_decide_eq_true (Bool.and_eq_true_iff.mp hlower).1
      omega
  · exact absurd hhigh (by decide)

/-- A call whose parenthesis is not in the rest of its statement has it on a later line. -/
theorem newline_of_opensCall {after : Text} (hends : Ends after) (hrest : opensCall rest = false)
    (hcall : opensCall (rest ++ after) = true) : '\n' ∈ (rest ++ after).takeWhile isspace := by
  by_cases hspace : rest.dropWhile isspace = []
  · -- nothing but white space is left of the statement
    have hblank : ∀ c ∈ rest, isspace c = true := List.dropWhile_eq_nil_iff.mp hspace
    rw [opensCall, List.dropWhile_append_of_pos hblank] at hcall
    rw [List.takeWhile_append_of_pos hblank]
    apply List.mem_append_right
    rcases hends with rfl | ⟨more, rfl | rfl⟩
    · cases hcall
    · rw [List.takeWhile_cons_of_pos (by decide)]
      exact List.mem_cons_self
    · rw [List.dropWhile_cons_of_neg (by decide)] at hcall
      cases hcall
  · have hdrop : (rest ++ after).dropWhile isspace = rest.dropWhile isspace ++ after := by
      rw [List.dropWhile_append, if_neg (by simpa using hspace)]
    rw [opensCall, hdrop, List.head?_append_of_ne_nil _ hspace] at hcall
    rw [opensCall, hcall] at hrest
    cases hrest

theorem Stray.not_opensCall (h : Stray lower content tab statement token rest) :
    opensCall rest = false := by
  by_contra hcall
  rw [Bool.not_eq_false] at hcall
  apply h.uncalled
  apply List.mem_map_of_mem
  exact List.mem_map.mpr ⟨(token, rest), List.mem_filter.mpr ⟨h.found, hcall⟩, rfl⟩

/-- A statement of a draft is one of a tab that the draft carries. -/
theorem mem_codeStatements_of_mem
    (htab : ∀ code, tab.given content = some (some code) → tab.procedure p = code)
    (h : (tab, statement) ∈ _statements content) :
    statement ∈ codeStatements (tab.procedure p).toList := by
  rw [_statements, List.mem_flatMap] at h
  obtain ⟨at_, -, h⟩ := h
  split at h
  · rename_i code hgiven
    obtain ⟨part, hpart, hsame⟩ := List.mem_map.mp h
    rw [Prod.mk.injEq] at hsame
    obtain ⟨rfl, rfl⟩ := hsame
    rw [htab code hgiven]
    exact hpart
  · cases h

/-- **A stray name of a rightful process is misread.** -/
theorem misread_of_stray (hlegitimate : Legitimate lower p)
    (htab : ∀ code, tab.given content = some (some code) → tab.procedure p = code)
    (h : Stray lower content tab statement token rest) : Misread lower p tab token := by
  by_cases hlines : LineWise (newlines (tab.procedure p).toList)
  · have hstatement := mem_codeStatements_of_mem htab h.seen
    obtain ⟨skipped, after, hskipped, ⟨c, hc, hstart⟩, hends, hoccurs⟩ :=
      exists_occurs_of_mem_names hlines hstatement h.found
    have hword : (skipped ++ token, rest ++ after) ∈ wordsOf (tab.procedure p) :=
      hoccurs.mem_findall
    by_cases hnil : skipped = []
    · -- the name is a word of the process, so it is right there
      subst hnil
      rw [List.nil_append] at hword
      have hright := hlegitimate tab (mem_CODE_TABS tab) _ hword
      have hhead : token.headD ' ' = c := by rw [List.headD_eq_head?_getD, hc, Option.getD_some]
      rw [Rightful, hhead, if_neg (by rw [isDigit_of_isIdStart hstart]; decide)] at hright
      rcases hright with hcall | hknown | hreserved | hfunction
      · exact .callBelow (rest ++ after) hword hcall
          (newline_of_opensCall hends h.not_opensCall hcall)
      · exact .elsewhere hknown
      · exact absurd hreserved h.unreserved
      · exact .statementFunction hfunction
    · -- what is before the name in its word starts no name, so it is digits
      obtain ⟨-, -, -, -, hpart, -⟩ := hoccurs
      refine .exponent skipped (rest ++ after) hnil (fun d hd => ?_) hword
      exact isDigit_of_isIdPart (hpart d (List.mem_append_left _ hd)) (hskipped d hd)
  · exact .brokenLine hlines

end Lower

/-! ## The process a draft results in -/

section Procedure

variable {tm1 : TM1} {target : String} {content : NewContent} {tab : Tab}

theorem procedure_apply_datasource (p : Process) (content : NewContent) :
    tab.procedure (change_service._apply_datasource p content) = tab.procedure p := by
  simp only [change_service._apply_datasource]
  split
  · rfl
  · split <;> cases tab <;> rfl

theorem procedure_add_variables (given : List VariableContent) (p : Process) :
    tab.procedure (given.foldl (fun p v =>
        change_service.add_variable p v.name (change_service.tiType v.type)) p)
      = tab.procedure p := by
  induction given generalizing p with
  | nil => rfl
  | cons v given ih =>
    rw [List.foldl_cons, ih]
    cases tab <;> rfl

theorem procedure_apply_variables (p : Process) (content : NewContent) :
    tab.procedure (change_service._apply_variables p content) = tab.procedure p := by
  unfold change_service._apply_variables
  split
  · rfl
  · rw [procedure_add_variables]
    cases tab <;> rfl

theorem procedure_apply_parameters (p : Process) (content : NewContent) :
    tab.procedure (change_service._apply_parameters p content) = tab.procedure p := by
  unfold change_service._apply_parameters
  split <;> cases tab <;> rfl

/-- A process that is built has the tabs the draft carries. -/
theorem procedure_build_process (base : Option Process) {code : String}
    (h : tab.given content = some (some code)) :
    tab.procedure (change_service._build_process tm1 target content base) = tm1.generated code := by
  simp only [change_service._build_process]
  split
  · cases tab <;> simp only [Tab.given] at h <;> simp [Tab.procedure, change_service.section', h]
  · rw [procedure_apply_parameters, procedure_apply_variables, procedure_apply_datasource]
    cases tab <;> simp only [Tab.given] at h <;> simp [Tab.procedure, change_service.section', h]

theorem procedure_resulting (tm1 : TM1) (s : Server) (change_type : ChangeType) (target : String)
    {code : String} (h : tab.given content = some (some code)) :
    tab.procedure (resulting tm1 s change_type target content) = code :=
  procedure_build_process _ h

end Procedure

/-! ## Legitimate drafts -/

section Drafts

variable {Graph : Type}

/-- Analyses of which the static one is `ti_analysis.analyze`. -/
def withAnalysis (a : change_service.Analyzers Graph) : change_service.Analyzers Graph :=
  { a with analyze := analyze a.lower }

variable {a : change_service.Analyzers Graph} {tm1 : TM1} {m : Moment Graph} {p : Proposal}
  {change_type : ChangeType} {content : NewContent} {store store' : Store} {draft : TM1Change}

/-- The validation errors of a drafted process: its undefined names, its capitalisation, and
what TM1 says when it compiles it. -/
theorem analysedProcess_errors {update : Bool} {s : Server} {found : change_service.Analysed}
    {target : String}
    (h : change_service.analysedProcess (withAnalysis a) tm1 m.answer update target
      (some content) s = .ok found) :
    ∃ compiled, found.validation_errors =
      undefined a.lower content none ++ miscased a.lower content ++ compiled := by
  simp only [change_service.analysedProcess] at h
  rw [bind_eq_ok_iff] at h
  obtain ⟨there, -, h⟩ := h
  rw [bind_eq_ok_iff] at h
  obtain ⟨_, -, h⟩ := h
  rw [bind_eq_ok_iff] at h
  obtain ⟨_, -, h⟩ := h
  -- over the version on the server, or over none
  split at h
  all_goals
    rw [bind_eq_ok_iff] at h
    obtain ⟨base, -, h⟩ := h
    rw [bind_eq_ok_iff] at h
    obtain ⟨compiled, -, h⟩ := h
    cases h
    exact ⟨compiled, rfl⟩

/-- **Legitimate drafts.** A new draft of a process records its undefined names first. Where
the process that results is legitimate, it records none exactly when no name of the draft is
misread. -/
theorem legitimate_unblocked_iff (htype : ChangeType.ofText p.change_type = some change_type)
    (hprocess : change_type = .create_process ∨ change_type = .update_process)
    (hcontent : p.new_content = some content)
    (hnew : change_service.repeated store p change_type = none)
    (h : change_service.create_change (withAnalysis a) tm1 m p store = .ok (draft, store')) :
    (∃ compiled, draft.validation_errors =
        undefined a.lower content none ++ miscased a.lower content ++ compiled) ∧
      ((Legitimate a.lower (resulting tm1 m.server change_type p.target_name content) →
          undefined a.lower content none = []) ↔
        (Legitimate a.lower (resulting tm1 m.server change_type p.target_name content) →
          ¬ Blocks a.lower content (resulting tm1 m.server change_type p.target_name content))) := by
  constructor
  · obtain ⟨change_type', htype', hcases⟩ := change_service.create_change_ok h
    rw [htype, Option.some.injEq] at htype'
    subst htype'
    rcases hcases with ⟨hrepeated, -⟩ | ⟨change, -, hdrafted, hreplace⟩
    · rw [hnew] at hrepeated
      cases hrepeated
    · obtain ⟨-, found, hfound, herrors, -, -⟩ := change_service.drafted_ok hdrafted
      obtain ⟨hdraft, -⟩ := Store.replace_ok hreplace fun r hr =>
        (change_service.mem_openDrafts.mp hr).1
      rw [hdraft]
      show ∃ compiled, change.validation_errors = _
      rw [herrors]
      rw [hcontent] at hfound
      rcases hprocess with rfl | rfl
      · exact analysedProcess_errors hfound
      · exact analysedProcess_errors hfound
  -- in a legitimate process a name that is stray is one that was misread
  · rw [undefined_eq_nil_iff]
    constructor
    · rintro hnone hlegitimate ⟨henum, tab, statement, token, rest, hstray, -⟩
      exact hnone hlegitimate henum tab statement token rest hstray
    · intro hblocks hlegitimate henum tab statement token rest hstray
      refine hblocks hlegitimate ⟨henum, tab, statement, token, rest, hstray, ?_⟩
      exact misread_of_stray hlegitimate (fun _ hgiven => procedure_resulting _ _ _ _ hgiven) hstray

end Drafts

/-! ## Two drafts for the process `Load` -/

/-- Analyses that find nothing, but for the static one. -/
def staticOnly : change_service.Analyzers Unit :=
  withAnalysis { change_service.noFindings with lower := Python.lowerAscii }

/-- A prolog that stops without a year, and the parameter it reads. -/
def yearCheck : NewContent where
  prolog := some (some
    "sFile = 'sales.csv';\r\nIF(pYear @= '');\r\n  # no year\r\n  ProcessQuit;\r\nENDIF;")
  parameters := some [⟨"pYear", some "String", none, none⟩]

/-- A data tab alone. It reads the variables that `Load` declares on the server. -/
def doubled : NewContent where
  data := some (some "CellPutN(vValue * 2, 'Sales', vYear, 'Gross');")

def updateLoad (content : NewContent) : Proposal :=
  ⟨1, 1, 7, "update_process", "Load", some content⟩

/-- `legitimate_unblocked_iff` of the first one, which is not blocked. -/
theorem yearCheck_unblocked :
    ∃ draft store', change_service.create_change staticOnly currentTM1 change_service.quietMoment
        (updateLoad yearCheck) Store.empty = .ok (draft, store') ∧
      Legitimate Python.lowerAscii
        (resulting currentTM1 smallServer .update_process "Load" yearCheck) ∧
      ¬ Blocks Python.lowerAscii yearCheck
        (resulting currentTM1 smallServer .update_process "Load" yearCheck) := by
  have hok : (change_service.create_change staticOnly currentTM1 change_service.quietMoment
      (updateLoad yearCheck) Store.empty).toBool = true := by decide +kernel
  have hlegitimate : Legitimate Python.lowerAscii
      (resulting currentTM1 smallServer .update_process "Load" yearCheck) := by decide +kernel
  cases h : change_service.create_change staticOnly currentTM1 change_service.quietMoment
      (updateLoad yearCheck) Store.empty with
  | error e =>
    rw [h] at hok
    cases hok
  | ok created =>
    have hiff := (legitimate_unblocked_iff rfl (.inr rfl) rfl rfl h).2
    have hnone : undefined Python.lowerAscii yearCheck none = [] := by decide +kernel
    exact ⟨created.1, created.2, rfl, hlegitimate, hiff.mp (fun _ => hnone) hlegitimate⟩

/-- The second one is legitimate too, and blocked: the analysis does not see what the server
declares. -/
theorem doubled_blocked :
    Legitimate Python.lowerAscii
        (resulting currentTM1 smallServer .update_process "Load" doubled) ∧
      (change_service.create_change staticOnly currentTM1 change_service.quietMoment
          (updateLoad doubled) Store.empty).map (fun created => created.1.validation_errors)
        = .ok ["Data reads undefined name(s): vValue, vYear. Every name must be a declared "
          ++ "parameter, a declared datasource column in 'variables', or assigned earlier in the "
          ++ "process — TI does not create variables from column headings."] := by
  constructor
  · decide +kernel
  · decide +kernel

/-- A number with an exponent is enough. -/
example : Legitimate Python.lowerAscii (resulting currentTM1 smallServer .create_process "Close"
      { prolog := some (some "n = 1e5;") }) ∧
    undefined Python.lowerAscii { prolog := some (some "n = 1e5;") } none ≠ [] := by
  decide +kernel

end ti_analysis

end PaCopilot
