import BuildPlan.Document.Input
import BuildPlan.Text.DecimalDigit

/-!
# Arguments of the command line

A command line is a mode, three directories and flags, with options in front or behind. `Request.read` sorts its
words. Options may be shortened as long as it is clear which is meant, and short ones without a value may be
joined. The first row of operands fills all five places, so operands after a later option are refused. After `--`
every word is an operand.
-/

namespace BuildPlan.CommandLine

/-! ### Options -/

/-- The options. -/
inductive Opt where
  | help
  | version
  | verbose
  | debug
  | input
  | output
  | ninjaFile
  | select
  | exclude
  | runArgument
  | testArgument
  | noPersist
  deriving DecidableEq, Repr

/-- The names of the options. -/
def optionNames : List (String × Opt) := [
  ("-h", .help), ("--help", .help), ("--version", .version), ("-v", .verbose), ("--verbose", .verbose),
  ("--debug", .debug), ("-i", .input), ("--input", .input), ("-o", .output), ("--output", .output),
  ("--ninja-file", .ninjaFile), ("--select", .select), ("--exclude", .exclude), ("--run-arg", .runArgument),
  ("--test-arg", .testArgument), ("--no-persist-flags", .noPersist)]

/-- The option has a value. -/
def Opt.takesValue : Opt → Bool
  | .help | .version | .verbose | .debug | .noPersist => false
  | _ => true

/-- What the command line asks for. -/
structure Arguments where
  input : Option String := none
  output : String := "-"
  ninjaFile : Option String := none
  select : List String := []
  exclude : List String := []
  runArguments : List String := []
  testArguments : List String := []
  persist : Bool := true
  mode : Option Mode := none
  sourceDir : Option String := none
  buildRoot : Option String := none
  workingDir : Option String := none
  flags : List String := []
  deriving DecidableEq, Repr

/-- The arguments with an option and its value. -/
def Arguments.withOption (a : Arguments) (option : Opt) (value : String) : Arguments :=
  match option with
  | .input => { a with input := some value }
  | .output => { a with output := value }
  | .ninjaFile => { a with ninjaFile := some value }
  | .select => { a with select := a.select ++ [value] }
  | .exclude => { a with exclude := a.exclude ++ [value] }
  | .runArgument => { a with runArguments := a.runArguments ++ [value] }
  | .testArgument => { a with testArguments := a.testArguments ++ [value] }
  | .noPersist => { a with persist := false }
  | .help | .version | .verbose | .debug => a

/-- What a command line asks for. -/
inductive Request where
  | run (arguments : Arguments)
  | showVersion
  | showHelp
  /-- The command line cannot be understood. -/
  | invalid
  deriving DecidableEq, Repr

/-! ### Words -/

/-- A word of the command line by its form. -/
inductive Word where
  /-- The word `--`, after which all words are operands. -/
  | separator
  | operand (text : String)
  /-- A known option as it was named, with what is joined to it: the value of a long one, the other characters of
  a short one. -/
  | option (option : Opt) (isLong : Bool) (joined : Option String)
  | unknown
  deriving DecidableEq, Repr

/-- A word in front of and after its first equals sign. -/
def splitAtEquals (word : String) : String × Option String :=
  let chars := word.toList
  match chars.dropWhile (· ≠ '=') with
  | [] => (word, none)
  | _ :: value => (String.ofList (chars.takeWhile (· ≠ '=')), some (String.ofList value))

/-- The word starts like a long option. -/
def isLong (word : String) : Bool := ['-', '-'].isPrefixOf word.toList

/-- The characters are digits, and perhaps a line feed after them. -/
def isDigits (chars : List Char) : Bool :=
  let rest := chars.dropWhile Text.isDecimalDigit
  rest.length < chars.length && (rest = [] || rest = ['\n'])

/-- The word is a negative number. -/
def isNegativeNumber (word : String) : Bool :=
  match word.toList with
  | '-' :: digits =>
    isDigits digits ||
      match digits.dropWhile Text.isDecimalDigit with
      | '.' :: fraction => isDigits fraction
      | _ => false
  | _ => false

/-- What is joined to a short option. -/
def afterLetter (word : String) : String := String.ofList (word.toList.drop 2)

/-- The options that a word can be short for, with what is joined to it. -/
def candidates (word : String) : List Word :=
  if isLong word then
    let (name, value) := splitAtEquals word
    (optionNames.filter fun (known, _) => name.toList.isPrefixOf known.toList).map fun (_, o) =>
      .option o true value
  else
    let short := String.ofList (word.toList.take 2)
    (optionNames.filter (·.1 = short)).map fun (_, o) =>
      .option o false (some (afterLetter word))

/-- A word of the command line; none if it is short for several options. -/
def Word.read (word : String) : Option Word :=
  if word.toList.head? ≠ some '-' || word = "-" then some (.operand word)
  else
    match optionNames.lookup word with
    | some o => some (.option o (isLong word) none)
    | none =>
      let (name, value) := splitAtEquals word
      match if value.isSome then optionNames.lookup name else none with
      | some o => some (.option o (isLong name) (if isLong name then value else some (afterLetter word)))
      | none =>
        match candidates word with
        | [found] => some found
        | _ :: _ => none
        | [] =>
          if isNegativeNumber word || word.toList.contains ' ' then some (.operand word) else some .unknown

/-- The words of a command line by their forms. -/
def readWords : List String → Option (List Word)
  | [] => some []
  | word :: rest =>
    if word = "--" then some (.separator :: rest.map .operand)
    else do return (← Word.read word) :: (← readWords rest)

/-! ### Operands -/

/-- The text of a word. -/
def Word.text : Word → String
  | .operand text => text
  | _ => "--"

/-- The word is no option. -/
def Word.isPlain : Word → Bool
  | .separator | .operand _ => true
  | _ => false

/-- The word is `--` itself. -/
def Word.isSeparator (w : Word) : Bool := w = .separator

/-- The words of an operand that may be missing, with separators around it, and the words after them. -/
def takeOperand (words : List Word) : List Word × List Word :=
  let before := words.takeWhile Word.isSeparator
  match words.dropWhile Word.isSeparator with
  | [] => (before, [])
  | word :: rest => (before ++ word :: rest.takeWhile Word.isSeparator, rest.dropWhile Word.isSeparator)

/-- The texts of the words of an operand, without the first `--`. -/
def operandTexts (words : List Word) : List String := (words.map Word.text).erase "--"

/-- The arguments with a row of words as operands; none if the mode is unknown. -/
def Arguments.withOperands (a : Arguments) (words : List Word) : Option Arguments := do
  let (mode, words) := takeOperand words
  let (sourceDir, words) := takeOperand words
  let (buildRoot, words) := takeOperand words
  let (workingDir, words) := takeOperand words
  let mode ← match (operandTexts mode).head? with
    | none => some none
    | some name => (Mode.ofName? name).map some
  return { a with
    mode
    sourceDir := (operandTexts sourceDir).head?
    buildRoot := (operandTexts buildRoot).head?
    workingDir := (operandTexts workingDir).head?
    flags := operandTexts words }

/-! ### Requests -/

/-- How far the words have been taken in. -/
structure Progress where
  arguments : Arguments := {}
  /-- The operands have been taken in. -/
  hasOperands : Bool := false
  /-- There are words that belong nowhere. -/
  hasExtra : Bool := false

/-- An option with the value that is joined to it. -/
abbrev Spelled := Opt × Option String

/-- The options of a short one with the letters joined to it, and whether some letters belong nowhere. The letters
after an option that takes a value are its value, with or without an equals sign between them. -/
def spellLetters (o : Opt) : List Char → Option (List Spelled × Bool)
  | [] => some ([(o, none)], false)
  | letter :: more =>
    if o.takesValue then some ([(o, some (String.ofList (if letter = '=' then more else letter :: more)))], false)
    else if letter = '=' || letter = '-' then none
    else
      match optionNames.lookup (String.ofList ['-', letter]) with
      | none => some ([(o, none)], true)
      | some next => do
        let (options, hasExtra) ← spellLetters next more
        return ((o, none) :: options, hasExtra)

/-- The options of a word, and whether some of its letters belong nowhere. -/
def spell (o : Opt) (isLong : Bool) (joined : Option String) : Option (List Spelled × Bool) :=
  if isLong then
    if joined.isSome && !o.takesValue then none else some ([(o, joined)], false)
  else spellLetters o ((joined.map String.toList).getD [])

/-- An option takes effect, where `value` stands for a value that is not joined. Some end everything. -/
def Progress.take (value : String) (p : Progress) : Spelled → Except Request Progress
  | (.version, _) => .error .showVersion
  | (.help, _) => .error .showHelp
  | (o, joined) => .ok { p with arguments := p.arguments.withOption o (joined.getD value) }

/-- The last option still needs a value. -/
def needsValue (options : List Spelled) : Bool :=
  (options.getLast?.map fun (o, joined) => o.takesValue && joined.isNone).getD false

/-- The options of a word take effect. The answer has the words that remain. -/
def takeOptions (p : Progress) (options : List Spelled) (rest : List Word) :
    Except Request (Progress × List Word) :=
  if needsValue options then
    match rest with
    | .operand value :: rest => do return (← options.foldlM (Progress.take value) p, rest)
    | _ => .error .invalid
  else do return (← options.foldlM (Progress.take "") p, rest)

/-- The words are taken in from left to right; `fuel` bounds their number. -/
def takeWords : Nat → Progress → List Word → Except Request Progress
  | 0, p, _ => .ok p
  | _, p, [] => .ok p
  | fuel + 1, p, words@(word :: rest) =>
    match word with
    | .option o isLong joined =>
      match spell o isLong joined with
      | none => .error .invalid
      | some (options, hasExtra) => do
        let (p, rest) ← takeOptions p options rest
        takeWords fuel { p with hasExtra := p.hasExtra || hasExtra } rest
    | .unknown => takeWords fuel { p with hasExtra := true } rest
    | _ =>
      let row := words.takeWhile Word.isPlain
      let rest := words.dropWhile Word.isPlain
      if p.hasOperands then takeWords fuel { p with hasExtra := true } rest
      else
        match p.arguments.withOperands row with
        | none => .error .invalid
        | some arguments => takeWords fuel { p with arguments, hasOperands := true } rest

/-- A text that is there and not empty. -/
def isGiven (text : Option String) : Bool := (text.map (!·.isEmpty)).getD false

/-- There is an input file, or else a mode and all directories. -/
def Arguments.isComplete (a : Arguments) : Bool :=
  isGiven a.input || (a.mode.isSome && isGiven a.sourceDir && isGiven a.buildRoot && isGiven a.workingDir)

/-- What a command line asks for. -/
def Request.read (words : List String) : Request :=
  match readWords words with
  | none => .invalid
  | some words =>
    match takeWords (words.length + 1) {} words with
    | .error request => request
    | .ok p => if p.hasExtra || !p.arguments.isComplete then .invalid else .run p.arguments

end BuildPlan.CommandLine
