import FlagSidecar.CommandLine.Failure
import FlagSidecar.Number.Text
import FlagSidecar.Record.Json

/-!
# FlagSidecar.CommandLine.Ask: the program that asks a daemon

One run connects, registers, makes one call and writes the answer as JSON. Settings come from a file,
and some of them from options. Several features are asked for in one call; the answer is written under
their names, so a feature that is named twice is written once.
-/

namespace FlagSidecar.CommandLine

open Json (Value)

/-- The one call of a run. -/
structure Question where
  /-- What is asked, without its map of attributes. -/
  request : Request
  /-- The map of attributes, as JSON text. -/
  mapText : Option String
deriving DecidableEq

/-- What a run was asked to do. -/
structure AskArguments where
  config : Option String
  socket : Option String
  flavor : Option SocketFlavor
  readTimeoutMs : Option UInt64
  writeTimeoutMs : Option UInt64
  identity : Identity
  question : Question
deriving DecidableEq

/-! ## Arguments -/

/-- An option whose value is a path, which is never empty. -/
def pathOption (name : String) (letter : Char) : OptionSpec where
  name := name
  letter := some letter
  accepts := (!·.isEmpty)

def numberOption (name : String) : OptionSpec where
  name := name
  accepts := fun s => (uint64OfText? s).isSome

def flagOption (name : String) : OptionSpec := { name, arity := .flag }

def textOption (name : String) (letter : Char) (required : Bool := false) : OptionSpec :=
  { name, letter := some letter, required }

/-- What stands before the command. -/
def askGrammar : Grammar where
  options := [pathOption "config" 'c', pathOption "socket" 's',
    { name := "flavor", accepts := fun s => (SocketFlavor.ofName? s).isSome },
    numberOption "read-timeout-ms", numberOption "write-timeout-ms", { name := "id" },
    { name := "sdk-version" }, flagOption "impression-data"]
  commands := ["treatment", "treatments", "track", "split-names", "split", "splits"]
  hasVersion := true

/-- What stands behind a command that evaluates. -/
def evaluationGrammar (features : OptionSpec) : Grammar where
  options := [textOption "key" 'k' true, textOption "bucketing-key" 'b', features,
    textOption "attributes" 'a', flagOption "with-config"]

/-- The features of a command that evaluates several. -/
def featuresOption : OptionSpec :=
  { name := "features", letter := some 'f', arity := .repeated, required := true }

def trackGrammar : Grammar where
  options := [textOption "key" 'k' true, textOption "traffic-type" 't' true,
    textOption "event-type" 'e' true,
    { name := "value", letter := some 'v', accepts := fun s => (Binary64.ofText? s).isSome },
    textOption "properties" 'p',
    { name := "timestamp", accepts := fun s => (int64OfText? s).isSome }]

/-- What an option says, where nothing is an empty text. -/
def Parsed.text (p : Parsed) (name : String) : String := (p.value? name).getD ""

/-- The arguments of an evaluation. -/
def Parsed.evaluation {φ : Type} (p : Parsed) (features : φ) : EvaluationArguments φ :=
  ⟨p.text "key", p.value? "bucketing-key", features, none⟩

/-- The question of a command and the arguments behind it. -/
def Question.parse (now : Int64) (command : String) (args : List String) : Except Stop Question :=
  match command with
  | "treatment" => do
    let p ← (evaluationGrammar (textOption "feature" 'f' true)).parse args
    return ⟨.treatment (p.evaluation (p.text "feature")) (p.has "with-config"),
      p.value? "attributes"⟩
  | "treatments" => do
    let p ← (evaluationGrammar featuresOption).parse args
    return ⟨.treatments (p.evaluation (p.values "features")) (p.has "with-config"),
      p.value? "attributes"⟩
  | "track" => do
    let p ← trackGrammar.parse args
    return ⟨.track {
      key := p.text "key"
      trafficType := p.text "traffic-type"
      eventType := p.text "event-type"
      value := p.value? "value" >>= Binary64.ofText?
      properties := none
      timestamp := (p.value? "timestamp" >>= int64OfText?).getD now }, p.value? "properties"⟩
  | "split-names" => do
    let _ ← ({ options := [] } : Grammar).parse args
    return ⟨.flagNames, none⟩
  | "split" => do
    let p ← ({ options := [], words := ["name"] } : Grammar).parse args
    return ⟨.flag (p.words.headD ""), none⟩
  | _ => do
    let _ ← ({ options := [] } : Grammar).parse args
    return ⟨.flags, none⟩

/-- The identity that the options before a command declare. -/
def Parsed.identity (p : Parsed) : Identity where
  id := (p.value? "id").getD "splitd-cli"
  sdkVersion := (p.value? "sdk-version").getD ("splitd-cli-" ++ versionNumber)
  flags := ⟨if p.has "impression-data" then 1 else 0⟩

/-- The options before a command, with its question. -/
def Parsed.asking (p : Parsed) (question : Question) : AskArguments where
  config := p.value? "config"
  socket := p.value? "socket"
  flavor := p.value? "flavor" >>= SocketFlavor.ofName?
  readTimeoutMs := p.value? "read-timeout-ms" >>= uint64OfText?
  writeTimeoutMs := p.value? "write-timeout-ms" >>= uint64OfText?
  identity := p.identity
  question := question

namespace AskArguments

/-- What arguments ask for. -/
def parse (now : Int64) (args : List String) : Except Stop AskArguments := do
  let p ← askGrammar.parse args
  let (command, rest) ← match p.command with
    | some c => pure c
    | none => throw .usage
  return p.asking (← Question.parse now command rest)

/-- The settings of the link; options count more than the file. -/
def link (a : AskArguments) (s : LinkSettings) : LinkSettings :=
  { s with
    socketPath := a.socket.getD s.socketPath
    flavor := a.flavor.getD s.flavor
    readTimeoutMs := a.readTimeoutMs.getD s.readTimeoutMs
    writeTimeoutMs := a.writeTimeoutMs.getD s.writeTimeoutMs }

end AskArguments

/-! ## The question -/

/-- The request with its map of attributes. -/
def withAttributes (attributes : Option Attributes) : Request → Request
  | .treatment a withConfig => .treatment { a with attributes } withConfig
  | .treatments a withConfig => .treatments { a with attributes } withConfig
  | .track a => .track { a with properties := attributes }
  | r => r

/-- What the map of attributes is called. -/
def mapName : Request → String
  | .track _ => "properties"
  | _ => "attributes"

/-- The whole request, if its map of attributes is one. -/
def Question.complete (q : Question) : Except Failure Request :=
  match q.mapText with
  | none => .ok q.request
  | some text =>
    match Value.read? text >>= Attributes.ofJson? with
    | some attributes => .ok (withAttributes (some attributes) q.request)
    | none => .error (.attributes (mapName q.request))

/-- What a call is called where it fails. -/
def callName : Request → String
  | .register _ => "Register"
  | .treatment .. => "Treatment"
  | .treatments .. => "Treatments"
  | .track _ => "Track"
  | .flagNames => "SplitNames"
  | .flag _ => "Split"
  | .flags => "Splits"

/-! ## The answer -/

/-- What is written of one evaluation. -/
def treatmentToJson (t : TreatmentPayload) : Value :=
  .object (Value.entryIfSome "config" .text t.config ++
    Value.entryIfSome "impression" (fun d => .object [("changeNumber", .ofInt64 d.changeNumber),
      ("label", .text d.label), ("time", .ofInt64 d.timeMs)]) t.listener ++
    [("treatment", .text t.treatment)])

/-- What is written of several evaluations, each under the name of its feature. -/
def treatmentsToJson (features : List String) (results : List TreatmentPayload) : Value :=
  Value.ofMap treatmentToJson (.ofList (features.zip results))

/-- What is written of a flag. -/
def flagToJson (v : FlagView) : Value :=
  .object [("changeNumber", .ofInt64 v.changeNumber), ("configs", Value.ofMap .text v.configs),
    ("defaultTreatment", .text v.defaultTreatment), ("killed", .bool v.killed),
    ("name", .text v.name), ("sets", .texts v.sets), ("trafficType", .text v.trafficType),
    ("treatments", .texts v.treatments)]

/-- What is written of an answer. -/
def answerToJson (r : Request) : Payload → Value
  | .treatment t => treatmentToJson t
  | .treatments results =>
    match r with
    | .treatments a _ => treatmentsToJson a.features results
    | _ => .array (results.map treatmentToJson)
  | .track queued => .object [("queued", .bool queued)]
  | .flagNames names => .texts names
  | .flag view => Value.orNull flagToJson view
  | .flags views => .array (views.map flagToJson)

/-! ## A run -/

/-- Registers at a path. Nobody listens at other paths than that of the endpoint. -/
def reach (files : Files) (options : ClientOptions) (identity : Identity) (e : Endpoint) :
    Except LinkError Unit × Endpoint :=
  if options.path = e.place.text then e.join identity.id options identity
  else
    let refusal := match (SocketPath.ofFiles files options.path).connect options.flavor with
      | .error err => err
      | .ok _ => .connectionRefused
    (.error (.io ("failed to connect to " ++ options.path) refusal), e)

/-- Makes the call of a run that is connected. -/
def Question.ask (q : Question) (name : String) (e : Endpoint) : Except Failure Value × Endpoint :=
  match q.complete with
  | .error f => (.error f, e)
  | .ok r =>
    match e.call name r with
    | (.error err, e) => (.error (.call (callName r) err), e)
    | (.ok payload, e) => (.ok (Value.orNull (answerToJson r) payload), e)

/-- The settings that a run connects with. -/
def AskArguments.options (a : AskArguments) (files : Files) (environment : Option String) :
    Except Failure ClientOptions := do
  let c ← (Config.load files a.config environment).mapError .configuration
  (a.link c.link).client.mapError .linkSettings

/-- One run, from its arguments on. -/
def AskArguments.run (a : AskArguments) (files : Files) (environment : Option String)
    (e : Endpoint) : Except Failure Value × Endpoint :=
  match a.options files environment with
  | .error f => (.error f, e)
  | .ok options =>
    match reach files options a.identity e with
    | (.error err, e) => (.error (.connection err), e)
    | (.ok _, e) =>
      let (result, e) := a.question.ask a.identity.id e
      (result, e.close a.identity.id)

def askHelp : String :=
  "Query a running splitd over its local socket\n\nUsage: splitd-cli [OPTIONS] <COMMAND>\n\n" ++
  "Commands: treatment, treatments, track, split-names, split, splits\n"

/-- The whole program. -/
def ask (args : List String) (files : Files) (environment : Option String) (now : Int64)
    (e : Endpoint) : Exit × Endpoint :=
  match AskArguments.parse now args with
  | .error stop => (.ofStop askHelp ("splitd-cli " ++ versionNumber ++ "\n") stop, e)
  | .ok a =>
    match a.run files environment e with
    | (.ok v, e) => (.done (v.toPrettyText ++ "\n"), e)
    | (.error f, e) => (.failed f, e)

end FlagSidecar.CommandLine
