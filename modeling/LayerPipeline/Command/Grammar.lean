import LayerPipeline.Hardware.Device
import LayerPipeline.Json.Reader
import LayerPipeline.Plan.Basic
import LayerPipeline.Text.Blank

/-!
# The form of command lines

A command line is the name of a command followed by its options. An option has a long name and,
unless it is a switch, a value: `--name value` or `--name=value`. Words are understood from left to
right, and the first one that cannot be understood decides the outcome.
-/

namespace LayerPipeline

namespace Command

/-! ## Values -/

/-- The sign in front of a text, and the text without it. -/
def splitSign (cs : List Char) : Bool × List Char :=
  match cs with
  | '-' :: rest => (true, rest)
  | '+' :: rest => (false, rest)
  | _ => (false, cs)

/-- A number without its sign: digits with a point anywhere among them, then perhaps an exponent. -/
def magnitudeOfText? (negative : Bool) (cs : List Char) : Option Binary64 :=
  let whole := cs.takeWhile Char.isDigit
  let rest := cs.dropWhile Char.isDigit
  let (fraction, rest) := match rest with
    | '.' :: rest => (rest.takeWhile Char.isDigit, rest.dropWhile Char.isDigit)
    | _ => ([], rest)
  if whole.isEmpty && fraction.isEmpty then none
  else
    match Json.readExponent rest with
    | some (exponent, []) =>
      let numeral : Decimal :=
        ⟨negative, Json.natOfDigits (whole ++ fraction), exponent.getD 0 - fraction.length⟩
      some numeral.nearest
    | _ => none

/-- The number that a text stands for. Besides numerals there are words for the infinite values and
for what is not a number, in letters of either case. -/
def numberOfText? (s : String) : Option Binary64 :=
  let (negative, cs) := splitSign s.toList
  match String.ofList (cs.map Char.toLower) with
  | "inf" | "infinity" => some (.ofParts negative Binary64.infiniteMagnitude)
  | "nan" => some (.ofParts negative (Binary64.infiniteMagnitude + 0x8000000000000))
  | _ => magnitudeOfText? negative cs

/-- The whole number below `2 ^ 32` that a text stands for. -/
def countOfText? (s : String) : Option UInt32 :=
  match splitSign s.toList with
  | (negative, cs) =>
    if cs.isEmpty || !cs.all Char.isDigit then none
    else
      let n := Json.natOfDigits cs
      if n < UInt32.size && !(negative && n ≠ 0) then some (UInt32.ofNat n) else none

/-- The kinds of values. -/
inductive ValueKind where
  | text
  | path
  | deviceKind
  | strategy
  | number
  | count
  | truth
deriving DecidableEq, Inhabited

/-- Whether a text is a value of a kind. -/
def ValueKind.accepts : ValueKind → String → Bool
  | .text, _ => true
  | .path, s => !s.isEmpty
  | .deviceKind, s => (DeviceKind.ofName s).toOption.isSome
  | .strategy, s => (Strategy.ofName s).toOption.isSome
  | .number, s => (numberOfText? s).isSome
  | .count, s => (countOfText? s).isSome
  | .truth, s => s = "true" || s = "false"

/-! ## Commands and their options -/

/-- An option. -/
structure Flag where
  name : String
  /-- The kind of its value; a switch has none. -/
  value : Option ValueKind
  required : Bool
  preset : Option String
  help : String
deriving DecidableEq, Inhabited

namespace Flag

/-- An option that may be left out. -/
def optional (name : String) (value : ValueKind) (help : String) : Flag :=
  ⟨name, some value, false, none, help⟩

/-- An option with a value to be used when it is left out. -/
def withPreset (name : String) (value : ValueKind) (preset : String) : Flag :=
  ⟨name, some value, false, some preset, ""⟩

end Flag

/-- A command that the program knows. -/
structure Verb where
  name : String
  about : String
  flags : List Flag
deriving DecidableEq, Inhabited

/-- Options that describe the local node. -/
def nodeFlags : List Flag :=
  [.optional "node-id" .text "",
    .optional "device-type" .deviceKind "cpu, gpu or igpu. Probes the host when omitted",
    .optional "compute-score" .number "",
    .optional "memory-gb" .number "",
    .optional "fp16" .truth ""]

/-- Runs a coordinator. -/
def coordinatorVerb : Verb where
  name := "coordinator"
  about := "Run a coordinator (optionally executing its own stages)"
  flags :=
    [.optional "config" .path "JSON config file; flags override it",
      .optional "listen" .text "",
      .optional "advertise" .text
        "Address workers use to reach this node. Defaults to the bound address",
      .optional "model" .text "",
      .optional "strategy" .strategy "",
      .optional "profile" .path "JSONL metrics from a profiling run",
      .optional "plan" .path "Activate this saved plan at startup",
      ⟨"no-participate", none, false, none, "Coordinate only; never run stages here"⟩] ++ nodeFlags

/-- Runs a worker. -/
def workerVerb : Verb where
  name := "worker"
  about := "Run a stage worker"
  flags :=
    [.optional "config" .path "",
      .optional "listen" .text "",
      .optional "advertise" .text "",
      .optional "coordinator" .text "Coordinator to register with",
      .optional "max-sessions" .count ""] ++ nodeFlags

/-- Plans offline. -/
def planVerb : Verb where
  name := "plan"
  about := "Generate a plan offline and print it"
  flags :=
    [⟨"nodes", some .path, true, none, "JSON array of node descriptors"⟩,
      .optional "profile" .path
        "JSONL metrics from a profiling run. Uses the synthetic profile when omitted",
      .withPreset "strategy" .strategy "balanced",
      .withPreset "model" .text "model",
      .optional "output" .path "Write the plan as JSON"]

/-- Where a node is asked when no address is given. -/
def addressFlag : Flag := .withPreset "addr" .text "127.0.0.1:8081"

/-- Asks whether a node is there. -/
def pingVerb : Verb where
  name := "ping"
  about := "Ping a node"
  flags := [addressFlag, .withPreset "message" .text "ping"]

/-- Asks a node for its state. -/
def healthVerb : Verb where
  name := "health"
  about := "Print a node's health report"
  flags := [addressFlag]

/-- Asks a coordinator for collected reports. -/
def metricsVerb : Verb where
  name := "metrics"
  about := "Query the coordinator's central metrics"
  flags := [addressFlag, .optional "source" .text "Only records from this node"]

/-- All commands. -/
def verbs : List Verb :=
  [coordinatorVerb, workerVerb, planVerb, pingVerb, healthVerb, metricsVerb]

/-! ## Reading -/

/-- What help is asked about. -/
inductive Topic where
  | program
  | verb (v : Verb)
  /-- The command that gives help. -/
  | help
deriving DecidableEq, Inhabited

/-- The options that were given, with their values; a switch has the empty one. -/
abbrev Given := List (String × String)

/-- A command line, understood. -/
inductive Reading where
  /-- It cannot be understood. -/
  | refused
  | version
  | help (topic : Topic)
  | command (verb : Verb) (given : Given)
deriving DecidableEq, Inhabited

/-- Whether a word can only be an option, not a value. -/
def looksLikeOption (word : String) : Bool :=
  word.startsWith "-" && word ≠ "-"

/-- A word after two hyphens, cut at its first equals sign. -/
def splitLong (word : String) : String × Option String :=
  let cs := word.toList.drop 2
  let name := String.ofList (cs.takeWhile (· ≠ '='))
  match cs.dropWhile (· ≠ '=') with
  | _ :: value => (name, some (String.ofList value))
  | [] => (name, none)

/-- The options of a command that were given, if no required one is missing. -/
def complete (v : Verb) (given : Given) : Reading :=
  if v.flags.all fun f => !f.required || (given.lookup f.name).isSome then .command v given
  else .refused

/-- Adds an option that must not have been given before. -/
def note (given : Given) (name value : String) : Option Given :=
  if (given.lookup name).isSome then none else some (given ++ [(name, value)])

/-- What one word of a command line leads to. -/
inductive Step where
  /-- The outcome is decided. -/
  | stop (reading : Reading)
  /-- Reading goes on with these options; `usedNext` if the word after was the value. -/
  | go (given : Given) (usedNext : Bool)
deriving DecidableEq, Inhabited

/-- Enters an option, if its value is one of its kind. -/
def enter (given : Given) (f : Flag) (value : String) (usedNext : Bool) : Step :=
  let fits := match f.value with
    | some kind => kind.accepts value
    | none => true
  match note given f.name value with
  | some given => if fits then .go given usedNext else .stop .refused
  | none => .stop .refused

/-- Reads a word that names an option. -/
def readLong (v : Verb) (given : Given) (word : String) (next : Option String) : Step :=
  let (name, attached) := splitLong word
  if name = "help" then .stop (if attached.isNone then .help (.verb v) else .refused)
  else
    match v.flags.find? fun f => f.name = name with
    | none => .stop .refused
    | some f =>
      match f.value, attached, next with
      | none, none, _ => enter given f "" false
      | none, some _, _ => .stop .refused
      | some _, some value, _ => enter given f value false
      | some _, none, none => .stop .refused
      | some _, none, some value =>
        if looksLikeOption value then .stop .refused else enter given f value true

/-- Reads one word; `next` is the word after it. Two hyphens alone end the options, and a command
takes nothing else. -/
def readWord (v : Verb) (given : Given) (word : String) (next : Option String) : Step :=
  if word = "--" then if next.isNone then .go given false else .stop .refused
  else if word.startsWith "--" then readLong v given word next
  else if word.startsWith "-h" then .stop (.help (.verb v))
  else .stop .refused

/-- Reads the options of a command. -/
def readOptions (v : Verb) (given : Given) : List String → Reading
  | [] => complete v given
  | [word] =>
    match readWord v given word none with
    | .stop reading => reading
    | .go given _ => complete v given
  | word :: next :: rest =>
    match readWord v given word (some next) with
    | .stop reading => reading
    | .go given usedNext =>
      if usedNext then readOptions v given rest else readOptions v given (next :: rest)

/-- Reads what help is wanted about. -/
def readTopic : List String → Reading
  | [] => .help .program
  | [name] =>
    if name = "help" then .help .help
    else
      match verbs.find? fun v => v.name = name with
      | some v => .help (.verb v)
      | none => .refused
  | _ => .refused

/-- Reads a command line. -/
def readLine : List String → Reading
  | [] => .refused
  | word :: rest =>
    if word = "--help" || word.startsWith "-h" then .help .program
    else if word = "--version" || word.startsWith "-V" then .version
    else if word = "help" then readTopic rest
    else
      match verbs.find? fun v => v.name = word with
      | some v => readOptions v [] rest
      | none => .refused

end Command

end LayerPipeline
