import HostRotation.Text.Code
import HostRotation.Text.Letters
import HostRotation.Text.Pieces

namespace HostRotation.Log

inductive Level where
  | error
  | warn
  | info
  | debug
  | trace
  deriving DecidableEq, Repr

namespace Level

def name : Level → String
  | .error => "ERROR"
  | .warn => "WARN"
  | .info => "INFO"
  | .debug => "DEBUG"
  | .trace => "TRACE"

def all : List Level :=
  [.error, .warn, .info, .debug, .trace]

def rank : Level → Nat
  | .error => 0
  | .warn => 1
  | .info => 2
  | .debug => 3
  | .trace => 4

def column (l : Level) : String :=
  String.ofList (List.replicate (5 - l.name.length) ' ') ++ l.name

end Level

inductive Source where
  | config
  | selection
  | socketProbe
  | pingProbe
  | command
  deriving DecidableEq, Repr

def Source.path : Source → String
  | .config => "edgepick_common::config"
  | .selection => "edgepick_selector::selector"
  | .socketProbe => "edgepick_selector::probe::tcp"
  | .pingProbe => "edgepick_selector::probe::ping"
  | .command => "edgepick"

structure Entry where
  level : Level
  source : Source
  message : String
  deriving DecidableEq, Repr

def orders : List Char :=
  ['\x07', '\x08', '\x0c', '\x1b', '\x7f']

/-- How a character of a message is written: by its code if a terminal would take it for an order,
as the controls from 80 to 9F are too, and as itself otherwise. -/
def writtenChar (c : Char) : List Char :=
  if orders.contains c then Text.byteCode c
  else if 0x80 ≤ c.toNat ∧ c.toNat ≤ 0x9F then Text.bracedCode c
  else [c]

def writtenMessage (message : String) : String :=
  String.ofList (message.toList.flatMap writtenChar)

def Entry.line (e : Entry) : String :=
  e.level.column ++ " " ++ e.source.path ++ ": " ++ writtenMessage e.message ++ "\n"

example : writtenMessage "a\x1b[m\t\n\x85" = "a\\x1b[m\t\n\\u\x7b85\x7d" := by decide +kernel

/-- A rule of a filter: sources whose name starts with the target are logged down to the level; no
level means not at all. -/
structure Rule where
  target : String
  level : Option Level
  deriving DecidableEq, Repr

/-- A filter is a list of rules, of which the most specific one that applies decides. -/
structure Filter where
  rules : List Rule
  deriving DecidableEq, Repr

namespace Filter

def level? (s : String) : Option (Option Level) :=
  if Text.sameName s "off" then some none
  else (Level.all.find? fun l => Text.sameName s l.name).map some

/-- Reads one rule: a level for all sources, a target with a level, or a target to log whole. -/
def rule? (s : String) : Option Rule :=
  match Text.pieces '=' s with
  | [target, level] => (level? level).map fun l => { target, level := l }
  | [word] =>
    match level? word with
    | some l => some { target := "", level := l }
    | none => some { target := word, level := some .trace }
  | _ => none

def standard : Filter :=
  ⟨[{ target := "", level := some .warn }]⟩

/-- Reads a filter: rules with commas between them. A text that holds no rule, or holds something
else, stands for the standard filter. -/
def ofText (s : String) : Filter :=
  match ((Text.pieces ',' s).filter (· ≠ "")).mapM rule? with
  | some (r :: rs) => ⟨r :: rs⟩
  | _ => standard

def appliesTo (r : Rule) (e : Entry) : Bool :=
  r.target.toList.isPrefixOf e.source.path.toList

/-- The more specific of two rules; the later one where neither is. -/
def moreSpecific (r : Option Rule) (s : Rule) : Option Rule :=
  match r with
  | some r => if s.target.length < r.target.length then some r else some s
  | none => some s

def admits (f : Filter) (e : Entry) : Bool :=
  match ((f.rules.filter (appliesTo · e)).foldl moreSpecific none).bind Rule.level with
  | some l => e.level.rank ≤ l.rank
  | none => false

end Filter

def lines (f : Filter) (entries : List Entry) : String :=
  String.join ((entries.filter f.admits).map Entry.line)

end HostRotation.Log
