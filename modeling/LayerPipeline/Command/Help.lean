import LayerPipeline.Command.Grammar
import LayerPipeline.Text.Quoted

/-!
# Help texts
-/

namespace LayerPipeline

namespace Command

/-- The name of the program. -/
def programName : String := "layermesh-node"

/-- What the program is for. -/
def programAbout : String := "layermesh: pipeline inference across heterogeneous nodes"

/-- What the command that gives help is for. -/
def helpAbout : String := "Print this message or the help of the given subcommand(s)"

/-- One entry of a list: what is explained, and its explanation. -/
structure Entry where
  /-- What stands in front of the long name. -/
  lead : String
  label : String
  note : String
deriving DecidableEq, Inhabited

/-- The name that stands for an option's value. -/
def Flag.placeholder (f : Flag) : String :=
  "<" ++ (f.name.map fun c => if c = '-' then '_' else c.toUpper) ++ ">"

/-- An option as it is written. -/
def Flag.label (f : Flag) : String :=
  "--" ++ f.name ++ (if f.value.isSome then " " ++ f.placeholder else "")

/-- Explanation of an option: its help, its preset and its possible values. -/
def Flag.note (f : Flag) : String :=
  let preset := (f.preset.map fun p => "[default: " ++ p ++ "]").toList
  let values := if f.value = some .truth then ["[possible values: true, false]"] else []
  " ".intercalate ((if f.help.isEmpty then [] else [f.help]) ++ preset ++ values)

/-- The entry of an option. -/
def Flag.entry (f : Flag) : Entry := ⟨"      ", f.label, f.note⟩

/-- The entry of the option for help. -/
def helpEntry : Entry := ⟨"  -h, ", "--help", "Print help"⟩

/-- The entry of the option for the version. -/
def versionEntry : Entry := ⟨"  -V, ", "--version", "Print version"⟩

/-- A list of options with their explanations in a column of their own, however long the lines
get. -/
def listOptions (entries : List Entry) : List String :=
  let longest := (entries.map fun e => e.label.length).foldl max 0
  entries.map fun e => e.lead ++ Text.padRight (longest + 2) e.label ++ e.note

/-- A help text: what the command is for, how it is written, and lists under headings. -/
def page (about usage : String) (lists : List (String × List String)) : String :=
  let blocks := [about, "Usage: " ++ usage] ++
    lists.map fun l => "\n".intercalate ((l.1 ++ ":") :: l.2)
  "\n\n".intercalate blocks ++ "\n"

/-- The help text about a command. -/
def Verb.page (v : Verb) : String :=
  let needed := (v.flags.filter (·.required)).map (·.label)
  let usage := " ".intercalate ([programName, v.name, "[OPTIONS]"] ++ needed)
  Command.page v.about usage
    [("Options", listOptions (v.flags.map (·.entry) ++ [helpEntry]))]

/-- The help text about a topic. -/
def Topic.page : Topic → String
  | .program =>
    let names := (verbs.map fun v => (v.name, v.about)) ++ [("help", helpAbout)]
    let longest := (names.map fun n => n.1.length).foldl max 0
    Command.page programAbout (programName ++ " <COMMAND>")
      [("Commands", names.map fun n => "  " ++ Text.padRight (longest + 2) n.1 ++ n.2),
        ("Options", listOptions [helpEntry, versionEntry])]
  | .verb v => v.page
  | .help =>
    Command.page helpAbout (programName ++ " help [COMMAND]...")
      [("Arguments", ["  [COMMAND]...  Print help for the subcommand(s)"])]

end Command

end LayerPipeline
