/-
  Stocklist/Settings/Arguments.lean
  =================================
  **Settings from the command line and the environment.**

  An option is written `--name value` or `--name=value`, a switch `--name`.  A value that
  stands by itself may not start with a dash, unless it is nothing but a dash.  Two dashes
  alone end the options, and there are no other arguments.  No name may be cut short, and
  no setting may be given twice.

  A value that is joined to its option is read at once, and one that stands by itself only
  when the next option or switch or the end is met, so that an argument nobody knows is
  reported before it.  The environment is read last, and only for settings that the
  command line leaves open.
-/
import Stocklist.Settings.Basic
import Stocklist.Text.Similarity

namespace Stocklist

/-! ### Words of the command line -/

inductive Topic where
  | setting (s : Setting)
  | help
  | version
deriving DecidableEq, Repr

namespace Topic

/-- All topics, in the order in which they are explained. -/
def all : List Topic :=
  Setting.all.map .setting ++ [.help, .version]

def name : Topic → String
  | .setting s => s.name
  | .help => "help"
  | .version => "version"

def letter? : Topic → Option Char
  | .setting _ => none
  | .help => some 'h'
  | .version => some 'V'

def placeholder? : Topic → Option String
  | .setting s => s.placeholder?
  | .help | .version => none

def takesValue (t : Topic) : Bool :=
  t.placeholder?.isSome

/-- The option or switch in full, with a word for its value. -/
def shown (t : Topic) : String :=
  match t.placeholder? with
  | some word => s!"--{t.name} <{word}>"
  | none => s!"--{t.name}"

end Topic

/-- An argument, by its form. -/
inductive Word where
  /-- A known option or switch, with the value that is joined to it. -/
  | known (topic : Topic) (value? : Option String)
  /-- Two dashes and a name that nobody knows. -/
  | unknownName (name : String)
  /-- A dash and a letter that nobody knows. -/
  | unknownLetter (c : Char)
  /-- The end of the options. -/
  | separator
  | plain
deriving DecidableEq, Repr

/-- The word that starts with a name after two dashes. -/
def Word.ofName (cs : List Char) : Word :=
  let name := String.ofList (cs.takeWhile (· ≠ '='))
  match Topic.all.find? (·.name = name) with
  | none => .unknownName name
  | some topic =>
    match cs.dropWhile (· ≠ '=') with
    | [] => .known topic none
    | _ :: value => .known topic (some (String.ofList value))

def Word.ofText (text : String) : Word :=
  match text.toList with
  | ['-', '-'] => .separator
  | '-' :: '-' :: cs => .ofName cs
  | '-' :: c :: _ =>
    match Topic.all.find? (·.letter? = some c) with
    | none => .unknownLetter c
    | some topic => .known topic none
  | _ => .plain

/-! ### Misuse -/

/-- What is shown of the usage: some topics in this order, and perhaps a choice of settings,
    or everything if there is nothing of that. -/
structure Usage where
  topics : List Topic := []
  /-- One of the settings, whichever. -/
  anySetting : Bool := false
deriving DecidableEq, Repr

namespace Usage

/-- Everything. -/
def general : Usage := {}

/-- The usage for a name that is not known: the settings met, and the topic that is meant. -/
def leadingTo (met : List Setting) (meant? : Option Topic) : Usage :=
  let topics := met.map .setting
  { topics := topics ++ meant?.toList.filter (· ∉ topics) }

/-- The usage for a topic with a value that it does not take.  Settings met before stand for
    any setting. -/
def besides (met : List Setting) (topic : Topic) : Usage :=
  let isSetting := topic ∈ Setting.all.map Topic.setting
  if met.isEmpty then { topics := [topic] }
  else { topics := if isSetting then [] else [topic], anySetting := true }

end Usage

/-- Why the arguments and the environment give no settings. -/
inductive UsageError where
  | badValue (setting : Setting) (value : String) (fault : ValueFault)
  | missingValue (setting : Setting)
  | repeated (setting : Setting)
  | unneededValue (topic : Topic) (value : String) (usage : Usage)
  | unknown (shown : String) (meant? : Option Topic) (usage : Usage)
deriving DecidableEq, Repr

/-- What ends the program before it has settings. -/
inductive Interruption where
  | help
  | version
  | misuse (e : UsageError)
deriving DecidableEq, Repr

/-! ### Reading -/

/-- An option whose value has not been read: a value follows, or has followed. -/
structure Pending where
  setting : Setting
  value? : Option String := none
deriving DecidableEq, Repr

/-- How far reading has got. -/
structure Progress where
  given : Given := {}
  /-- The settings that have been given, in the order in which they were. -/
  met : List Setting := []
  pending? : Option Pending := none
  /-- The options have ended. -/
  isClosed : Bool := false
deriving DecidableEq, Repr

def Given.put? (g : Given) (s : Setting) (value : String) : Except Interruption Given :=
  match g.put s value with
  | .ok g => .ok g
  | .error fault => .error (.misuse (.badValue s value fault))

namespace Progress

def give (p : Progress) (s : Setting) (value : String) : Except Interruption Progress :=
  if p.given.has s then .error (.misuse (.repeated s))
  else do return { p with given := ← p.given.put? s value, met := p.met ++ [s] }

/-- Reads the value of the pending option. -/
def settle (p : Progress) : Except Interruption Progress :=
  match p.pending? with
  | none => .ok p
  | some ⟨s, none⟩ => .error (.misuse (.missingValue s))
  | some ⟨s, some value⟩ => { p with pending? := none }.give s value

/-- The settings met when the pending option counts as read, even if its value is to be
    refused.  One that would be met again is taken back. -/
def metSoFar (p : Progress) : List Setting :=
  match p.pending? with
  | some ⟨s, some _⟩ => if s ∈ p.met then p.met.filter (· ≠ s) else p.met ++ [s]
  | _ => p.met

/-- An argument that is out of place, with no guess at what it should be. -/
def refuse (text : String) : Except Interruption Progress :=
  .error (.misuse (.unknown text none .general))

/-- A name that nobody knows, with a guess at what it should be. -/
def refuseName (p : Progress) (name : String) : Except Interruption Progress :=
  let meant? := (Text.slipFor? name (Topic.all.map Topic.name)).bind
    fun name => Topic.all.find? (·.name = name)
  .error (.misuse (.unknown s!"--{name}" meant? (.leadingTo p.metSoFar meant?)))

/-- A known option or switch, with the value that is joined to it. -/
def take (p : Progress) (topic : Topic) (value? : Option String) :
    Except Interruption Progress :=
  match topic, value? with
  | .setting s, none => do
    let p ← p.settle
    if s.takesValue then return { p with pending? := some ⟨s, none⟩ }
    else p.give s "true"
  | .setting s, some value =>
    if s.takesValue then do (← p.settle).give s value
    else .error (.misuse (.unneededValue topic value (.besides p.met topic)))
  | topic, some value => .error (.misuse (.unneededValue topic value (.besides p.met topic)))
  | .help, none => do let _ ← p.settle; .error .help
  | .version, none => do let _ ← p.settle; .error .version

def step (p : Progress) (text : String) : Except Interruption Progress :=
  if p.isClosed then refuse text
  else
    match Word.ofText text with
    | .separator => .ok { p with isClosed := true }
    | .known topic value? => p.take topic value?
    | .unknownName name => p.refuseName name
    | .unknownLetter c => refuse (String.ofList ['-', c])
    | .plain =>
      match p.pending? with
      | some ⟨s, none⟩ => .ok { p with pending? := some ⟨s, some text⟩ }
      | _ => refuse text

end Progress

/-- Adds the values of the environment for the settings that are still open. -/
def Given.complete (environment : Setting → Option String) (g : Given) :
    Except Interruption Given :=
  Setting.all.foldlM (fun g s =>
    match environment s with
    | some value => if g.has s then .ok g else g.put? s value
    | none => .ok g) g

def Settings.read (arguments : List String) (environment : Setting → Option String) :
    Except Interruption Settings := do
  let p ← arguments.foldlM Progress.step {}
  let given ← (← p.settle).given.complete environment
  return given.settings

end Stocklist
