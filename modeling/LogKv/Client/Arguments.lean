import LogKv.Client

/-!
The arguments of the client: options, then the name of a command, then its operands. A word that
starts with a dash is an option, unless it is a single dash or stands after a double dash. The
arguments can also ask for help, which is shown at once, before anything after it is looked at.
-/

namespace LogKv.Client

/-- What the client calls itself in its help. -/
structure Title where
  /-- The name of the program. -/
  program : String
  /-- What the program is, in a line. -/
  about : String

/-- What help is about. -/
inductive Topic where
  /-- The program. -/
  | overview
  /-- A command. -/
  | verb (verb : Verb)
  deriving DecidableEq, Repr

/-- What arguments ask for. -/
inductive Arguments where
  /-- To run the client. -/
  | invoke (invocation : Invocation)
  /-- To show help. -/
  | help (topic : Topic)
  /-- Nothing that makes sense. -/
  | misuse
  deriving DecidableEq, Repr

/-- The server that is asked when none is named. -/
def defaultServer : String := "127.0.0.1:6379"

/-- The name of a command on the command line. -/
def commandName : Verb → String
  | .get => "get"
  | .set => "set"
  | .del => "del"

/-- The request of a command with these operands, if their number is right. -/
def requestOf? (verb : Verb) (operands : List String) : Option Request :=
  Request.ofOperands? verb (operands.map Utf8.encode)

/-- Whether a word is an option where options may stand. -/
def isOption (word : String) : Bool :=
  match word.toList with
  | '-' :: _ :: _ => true
  | _ => false

/-- Reads the operands of a command, after those already read, which are listed latest first. Once
`literal`, a word that starts with a dash is an operand like any other. -/
def operandsAfter (verb : Verb) (finish : Request → Arguments) (literal : Bool)
    (found : List String) : List String → Arguments
  | [] =>
    match requestOf? verb found.reverse with
    | some request => finish request
    | none => .misuse
  | word :: rest =>
    if !literal && word = "--" then operandsAfter verb finish true found rest
    else if !literal && isOption word then
      if word = "--help" || word.toList.tail.head? = some 'h' then .help (.verb verb) else .misuse
    else if found.length + 1 < verb.arity then
      operandsAfter verb finish literal (word :: found) rest
    else .misuse

/-- The options read so far. -/
structure Options where
  server : Option String
  follow : Bool

/-- Takes the address of the server, which may be named once. -/
def Options.withServer? (address : String) (options : Options) : Option Options :=
  match options.server with
  | some _ => none
  | none => some { options with server := some address }

/-- Takes the wish to follow redirects, which may be stated once. -/
def Options.withFollow? (options : Options) : Option Options :=
  if options.follow then none else some { options with follow := true }

/-- What a word of options amounts to. -/
inductive OptionWord where
  /-- These options, and nothing is missing. -/
  | complete (options : Options)
  /-- These options, and the address of the server is the next word. -/
  | wantsServer (options : Options)
  /-- Help. -/
  | help
  /-- Nothing that makes sense. -/
  | misuse

/-- Reads the letters of a word of short options. What follows the letter of the server, after an
equals sign if there is one, is its address. -/
def shortOptions (options : Options) : List Char → OptionWord
  | [] => .complete options
  | 'h' :: _ => .help
  | 'f' :: rest =>
    match options.withFollow? with
    | some options => shortOptions options rest
    | none => .misuse
  | 's' :: rest =>
    match rest with
    | [] => .wantsServer options
    | c :: after =>
      match options.withServer? (String.ofList (if c = '=' then after else rest)) with
      | some options => .complete options
      | none => .misuse
  | _ => .misuse

/-- Reads a word of options. -/
def optionWord (options : Options) (word : String) : OptionWord :=
  if word = "--help" then .help
  else if word = "--follow" then
    match options.withFollow? with
    | some options => .complete options
    | none => .misuse
  else if word = "--server" then .wantsServer options
  else if word.toList.take 9 = "--server=".toList then
    match options.withServer? (String.ofList (word.toList.drop 9)) with
    | some options => .complete options
    | none => .misuse
  else if word.toList.take 2 = "--".toList then .misuse
  else shortOptions options word.toList.tail

/-- The invocation that options and a request make. -/
def Options.invocation (options : Options) (request : Request) : Invocation :=
  ⟨options.server.getD defaultServer, options.follow, request⟩

/-- Reads the words after the name of a command, or after the word `help`. -/
def afterName (options : Options) (name : String) (rest : List String) : Arguments :=
  match Verb.all.find? (commandName · == name) with
  | some verb =>
    operandsAfter verb (fun request => .invoke (options.invocation request)) false [] rest
  | none =>
    if name = "help" then
      match rest with
      | [] => .help .overview
      | [topic] =>
        match Verb.all.find? (commandName · == topic) with
        | some verb => .help (.verb verb)
        | none => .misuse
      | _ => .misuse
    else .misuse

/-- Reads the words after the options in `options`. -/
def argumentsAfter (options : Options) : List String → Arguments
  | [] => .misuse
  | word :: rest =>
    if isOption word then
      match optionWord options word with
      | .complete options => argumentsAfter options rest
      | .help => .help .overview
      | .misuse => .misuse
      | .wantsServer options =>
        match rest with
        | [] => .misuse
        | address :: rest =>
          if isOption address then .misuse
          else
            match options.withServer? address with
            | some options => argumentsAfter options rest
            | none => .misuse
    else afterName options word rest

/-- Reads the arguments of the client. -/
def Arguments.ofWords (words : List String) : Arguments := argumentsAfter ⟨none, false⟩ words

/-! ## Help -/

/-- What a command does, in a line. -/
def purpose : Verb → String
  | .get => "Get a value by key"
  | .set => "Set a key-value pair"
  | .del => "Delete a key"

/-- The operands in the usage of a command. -/
def operandNames : Verb → String
  | .get => "<KEY>"
  | .set => "<KEY> <VALUE>"
  | .del => "<KEY>"

/-- The lines that describe the operands of a command. -/
def operandLines : Verb → List String
  | .get => ["  <KEY>  The key to get"]
  | .set => ["  <KEY>    The key to set", "  <VALUE>  The value to set"]
  | .del => ["  <KEY>  The key to delete"]

/-- The lines of help on the program. -/
def overviewLines (title : Title) : List String :=
  let program := title.program
  [title.about,
   "",
   s!"Usage: {program} [OPTIONS] <COMMAND>",
   "",
   "Commands:"] ++
  Verb.all.map (fun verb =>
    let name := commandName verb
    let purpose := purpose verb
    s!"  {name}   {purpose}") ++
  ["  help  Print this message or the help of the given subcommand(s)",
   "",
   "Options:",
   s!"  -s, --server <SERVER>  Server address [default: {defaultServer}]",
   "  -f, --follow           Retry once against the leader when redirected",
   "  -h, --help             Print help"]

/-- The lines of help on a command. -/
def verbLines (title : Title) (verb : Verb) : List String :=
  let program := title.program
  let name := commandName verb
  let operands := operandNames verb
  [purpose verb,
   "",
   s!"Usage: {program} {name} {operands}",
   "",
   "Arguments:"] ++
  operandLines verb ++
  ["",
   "Options:",
   "  -h, --help  Print help"]

/-- The help on a topic. -/
def help (title : Title) (topic : Topic) : String :=
  let lines :=
    match topic with
    | .overview => overviewLines title
    | .verb verb => verbLines title verb
  String.join (lines.map (· ++ "\n"))

end LogKv.Client
