/-
  Stocklist/Settings/Explanation.lean
  ===================================
  **The settings, and what went wrong with them, in words.**

  The help lists every option with its meaning, its environment variable as it stands and
  its default.  A misuse is told in one line, with a guess at what was meant if there is a
  good one, and with the usage where the form of the command line is at fault.

  The words are written with emphasis and printed without it: what is left out are all
  terminal sequences, those in the words of the user as well.  Emphasis cuts off a sequence
  that such words leave open, so what stands between them and the next emphasis may be
  lost, and nothing after it.
-/
import Stocklist.Settings.Arguments
import Stocklist.Text.Terminal

namespace Stocklist

def programName : String := "catalog-search"

def programVersion : String := "0.1.0"

def programPurpose : String := "Paginated name search over an in-memory catalog"

/-- A text that stands out on a terminal. -/
def emphasised (s : String) : String :=
  "\x1b[1m" ++ s ++ "\x1b[0m"

/-! ### Help -/

namespace Topic

def meaning : Topic → String
  | .setting .data => "CSV file to load at startup"
  | .setting .bind => "Address the HTTP server listens on"
  | .setting .pageSize => "Records per result page"
  | .setting .skipHeader => "Treat the first CSV row as a header"
  | .help => "Print help"
  | .version => "Print version"

/-- The letter that stands for the option or switch, and the option or switch in full. -/
def label (t : Topic) : String :=
  match t.letter? with
  | some c => s!"-{c}, {t.shown}"
  | none => t.shown

/-- The column in which the label starts: names stand below names. -/
def labelColumn (t : Topic) : Nat :=
  if t.letter?.isSome then 2 else 6

def labelEnd (t : Topic) : Nat :=
  t.labelColumn + t.label.length

end Topic

def meaningColumn : Nat :=
  (Topic.all.map (·.labelEnd)).foldl max 0 + 2

def blanks (n : Nat) : String :=
  String.ofList (List.replicate n ' ')

/-- The default of a setting that takes a value, in words. -/
def Setting.default? : Setting → Option String
  | .data => some Settings.default.data
  | .bind => some Settings.default.bind.text
  | .pageSize => some (toString Settings.default.pageSize.toNat)
  | .skipHeader => none

def note (key value : String) : String :=
  " [" ++ key ++ ": " ++ value ++ "]"

/-- Where else a setting can be given, and what it is otherwise.  A line of the value after
    the first starts in the column of meanings. -/
def Setting.notes (environment : Setting → Option String) (s : Setting) : String :=
  let value := ((environment s).getD "").toList.flatMap fun c =>
    if c = '\n' then '\n' :: List.replicate meaningColumn ' ' else [c]
  note "env" (s.variableName ++ "=" ++ String.ofList value) ++
    (s.default?.map (note "default")).getD ""

def Topic.helpLine (environment : Setting → Option String) (t : Topic) : String :=
  let notes := match t with
    | .setting s => s.notes environment
    | .help | .version => ""
  blanks t.labelColumn ++ emphasised t.label ++ blanks (meaningColumn - t.labelEnd) ++
    t.meaning ++ notes

def settingChoice : String :=
  "<" ++ String.intercalate "|" (Setting.all.map fun s => (Topic.setting s).shown) ++ ">"

def Usage.line (u : Usage) : String :=
  let words := u.topics.map Topic.shown ++ if u.anySetting then [settingChoice] else []
  let words := if words.isEmpty then ["[OPTIONS]"] else words
  "Usage: " ++ String.intercalate " " (programName :: words)

/-- Everything about the options, with the environment as it stands, with emphasis. -/
def helpText (environment : Setting → Option String) : String :=
  String.intercalate "\n" ([programPurpose, "", Usage.general.line, "", "Options:"] ++
    Topic.all.map (·.helpLine environment)) ++ "\n"

def versionText : String :=
  programName ++ " " ++ programVersion ++ "\n"

/-! ### Misuse -/

/-- Why a value is refused, where more is to be said than that it is. -/
def ValueFault.message? : ValueFault → Option String
  | .empty | .notBoolean => none
  | .notAddress => some "invalid socket address syntax"
  | .notNumber fault => some fault.message
  | .zeroPageSize => some "page size must be at least 1"

/-- The words that stand for truth values. -/
def booleanWords : List String := ["true", "false"]

namespace UsageError

def message : UsageError → String
  | missingValue s | badValue s _ .empty =>
    s!"a value is required for '{(Topic.setting s).shown}' but none was supplied"
  | badValue s value fault =>
    s!"invalid value '{emphasised value}' for '{(Topic.setting s).shown}'" ++
      (fault.message?.map (": " ++ ·)).getD ""
  | repeated s => s!"the argument '{(Topic.setting s).shown}' cannot be used multiple times"
  | unneededValue topic value _ =>
    s!"unexpected value '{emphasised value}' for '{topic.shown}' found; no more were expected"
  | unknown shown _ _ => s!"unexpected argument '{emphasised shown}' found"

def choices : UsageError → String
  | badValue .skipHeader _ _ =>
    "\n  [possible values: " ++ String.intercalate ", " booleanWords ++ "]"
  | _ => ""

def tip : UsageError → String
  | badValue _ value .notBoolean =>
    match Text.slipFor? value booleanWords with
    | some word => s!"\n\n  tip: a similar value exists: '{word}'"
    | none => ""
  | unknown _ (some topic) _ => s!"\n\n  tip: a similar argument exists: '--{topic.name}'"
  | _ => ""

/-- The usage, where the form of the command line is at fault. -/
def usage? : UsageError → Option Usage
  | badValue .. | missingValue _ => none
  | repeated _ => some .general
  | unneededValue _ _ usage | unknown _ _ usage => some usage

def text (e : UsageError) : String :=
  "error: " ++ e.message ++ e.choices ++ e.tip ++
    (e.usage?.map ("\n\n" ++ ·.line)).getD "" ++
    "\n\nFor more information, try '--help'.\n"

end UsageError

namespace Interruption

/-- What is said instead of running, with emphasis. -/
def emphatic (environment : Setting → Option String) : Interruption → String
  | help => helpText environment
  | version => versionText
  | misuse e => e.text

def text (environment : Setting → Option String) (i : Interruption) : String :=
  Text.plain (i.emphatic environment)

def output (environment : Setting → Option String) (i : Interruption) : String :=
  Text.plainOutput (i.emphatic environment)

end Interruption

end Stocklist
