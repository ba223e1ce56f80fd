import ScriptSplit.Number.Integer
import ScriptSplit.Text.Quoted
import ScriptSplit.Text.Search
import ScriptSplit.Warning

/-!
# Command line arguments

One verb and options around it. Options can be shortened as long as they stay unambiguous, a value follows
its option or stands behind an equals sign, and options of one letter can share a hyphen. What follows two
hyphens is no option.
-/

namespace ScriptSplit.CommandLine

inductive Purpose where
  | help
  | source
  | maxFiles
  | minClusterSize
  | adviser
  | verbose
  deriving DecidableEq, Repr

structure Flag where
  names : List String
  purpose : Purpose
  takesValue : Bool
  deriving DecidableEq, Repr

def flags : List Flag := [
  { names := ["-h", "--help"], purpose := .help, takesValue := false },
  { names := ["--source"], purpose := .source, takesValue := true },
  { names := ["--max-files"], purpose := .maxFiles, takesValue := true },
  { names := ["--min-cluster-size"], purpose := .minClusterSize, takesValue := true },
  { names := ["--llm"], purpose := .adviser, takesValue := false },
  { names := ["-v", "--verbose"], purpose := .verbose, takesValue := false }]

def Flag.title (flag : Flag) : String :=
  "/".intercalate flag.names

def verbs : List (String × List Stage) := [
  ("analyze", [.analyze]),
  ("plan", [.plan]),
  ("write", [.write]),
  ("link", [.link]),
  ("run", [.analyze, .plan, .write, .link])]

inductive UsageError where
  | ambiguous (word : String) (matching : List String)
  | valueMissing (flag : Flag)
  | valueUnused (flag : Flag) (value : String)
  | notAnInteger (flag : Flag) (value : String)
  | unknownVerb (word : String)
  | verbMissing
  | unrecognized (words : List String)
  deriving DecidableEq, Repr

def UsageError.message : UsageError → String
  | .ambiguous word matching =>
    "ambiguous option: " ++ word ++ " could match " ++ ", ".intercalate matching
  | .valueMissing flag => "argument " ++ flag.title ++ ": expected one argument"
  | .valueUnused flag value =>
    "argument " ++ flag.title ++ ": ignored explicit argument " ++ Text.quoted value
  | .notAnInteger flag value =>
    "argument " ++ flag.title ++ ": invalid int value: " ++ Text.quoted value
  | .unknownVerb word =>
    "argument verb: invalid choice: " ++ Text.quoted word ++ " (choose from " ++
      ", ".intercalate (verbs.map fun verb => Text.quoted verb.1) ++ ")"
  | .verbMissing => "the following arguments are required: verb"
  | .unrecognized words => "unrecognized arguments: " ++ " ".intercalate words

structure Arguments where
  stages : Option (List Stage) := none
  source : Option String := none
  maxFiles : Option Int := none
  minClusterSize : Option Int := none
  adviser : Bool := false
  verbose : Bool := false

/-- What can end the reading of arguments early. -/
inductive Stop where
  | help
  | refused (cause : UsageError)

inductive Attached where
  | nothing
  /-- A value behind an equals sign. -/
  | value (text : String)
  /-- What follows an option of one letter at once. -/
  | letters (text : String)

/-- An argument by the part that it can play. -/
inductive Word where
  /-- An option under one of its names. -/
  | option (flag : Flag) (name : String) (attached : Attached)
  /-- Something that looks like an option but is none. -/
  | unknown (word : String)
  | plain (word : String)
  /-- The two hyphens after which there are no options. -/
  | separator

def separatorText : String := "--"

namespace Word

def isOption : Word → Bool
  | .option .. | .unknown _ => true
  | _ => false

def named : List (String × Flag) :=
  flags.flatMap fun flag => flag.names.map fun name => (name, flag)

def splitValue (word : String) : String × Attached :=
  let text := word.toList
  match text.dropWhile (· != '=') with
  | _ :: value => (String.ofList (text.takeWhile (· != '=')), .value (String.ofList value))
  | [] => (word, .nothing)

def startsWith (word start : String) : Bool :=
  start.toList.isPrefixOf word.toList

/-- The options that a word can be short for. -/
def candidates (word : String) : List (String × Flag × Attached) :=
  if startsWith word separatorText then
    let (start, attached) := splitValue word
    (named.filter fun (name, _) => startsWith name start).map fun (name, flag) =>
      (name, flag, attached)
  else
    named.filterMap fun (name, flag) =>
      if name.toList = word.toList.take 2 then
        some (name, flag, .letters (String.ofList (word.toList.drop 2)))
      else if startsWith name word then some (name, flag, .nothing)
      else none

/-- Whether a word is a negative number, which is no option. -/
def isNegativeNumber (word : String) : Bool :=
  match Text.dropFinalNewline word.toList with
  | '-' :: number =>
    let whole := number.takeWhile Text.isDecimalDigit
    match number.dropWhile Text.isDecimalDigit with
    | [] => !whole.isEmpty
    | '.' :: fraction => !fraction.isEmpty && fraction.all Text.isDecimalDigit
    | _ => false
  | _ => false

def ofText (word : String) : Except UsageError Word :=
  if !startsWith word "-" || word == "-" then .ok (.plain word)
  else
    let (name, attached) := splitValue word
    match named.lookup name with
    | some flag => .ok (.option flag name attached)
    | none =>
      match candidates word with
      | [(name, flag, attached)] => .ok (.option flag name attached)
      | [] =>
        if isNegativeNumber word || word.toList.contains ' ' then .ok (.plain word)
        else .ok (.unknown word)
      | several => .error (.ambiguous word (several.map (·.1)))

def ofList : List String → Except UsageError (List Word)
  | [] => .ok []
  | word :: rest =>
    if word == separatorText then .ok (.separator :: rest.map .plain)
    else do return (← ofText word) :: (← ofList rest)

def written : Word → String
  | .option _ name .nothing => name
  | .option _ name (.value text) => name ++ "=" ++ text
  | .option _ name (.letters text) => name ++ text
  | .unknown word => word
  | .plain word => word
  | .separator => separatorText

end Word

/-- What has been read so far, and the words that nothing was made of. -/
structure Scan where
  arguments : Arguments := {}
  extras : List String := []

namespace Scan

def take (scan : Scan) (flag : Flag) (value : String) : Except Stop Scan :=
  let integer : Except Stop Int :=
    match Integer.ofText? value.toList with
    | some n => .ok n
    | none => .error (.refused (.notAnInteger flag value))
  match flag.purpose with
  | .help => .error .help
  | .source => .ok { scan with arguments := { scan.arguments with source := some value } }
  | .maxFiles => do
    return { scan with arguments := { scan.arguments with maxFiles := some (← integer) } }
  | .minClusterSize => do
    return { scan with arguments := { scan.arguments with minClusterSize := some (← integer) } }
  | .adviser => .ok { scan with arguments := { scan.arguments with adviser := true } }
  | .verbose => .ok { scan with arguments := { scan.arguments with verbose := true } }

/-- The options that share a hyphen with one that `letters` follow, and the words that are left over:
letters from the first on that names no option. -/
def sharing (flag : Flag) : List Char → Except Stop (List Flag × List Word)
  | [] => .ok ([flag], [])
  | letter :: rest =>
    match Word.named.lookup (String.ofList ['-', letter]), letter, rest with
    | some other, _, '=' :: value => .error (.refused (.valueUnused other (String.ofList value)))
    | some other, _, rest => do
      let (others, left) ← sharing other rest
      return (flag :: others, left)
    | none, '-', rest => .error (.refused (.valueUnused flag (String.ofList ('-' :: rest))))
    | none, letter, rest => .ok ([flag], [.unknown (String.ofList ('-' :: letter :: rest))])

def setAside (scan : Scan) (words : List Word) : Scan :=
  { scan with extras := scan.extras ++ words.map Word.written }

def takeFlag (scan : Scan) (flag : Flag) (attached : Attached) (rest : List Word) :
    Except Stop (Scan × List Word) :=
  match flag.takesValue, attached, rest with
  | true, .nothing, .plain value :: rest => do return (← scan.take flag value, rest)
  | true, .nothing, _ => .error (.refused (.valueMissing flag))
  | true, .value value, rest | true, .letters value, rest => do
    return (← scan.take flag value, rest)
  | false, .nothing, rest => do return (← scan.take flag "", rest)
  | false, .value value, _ => .error (.refused (.valueUnused flag value))
  | false, .letters letters, rest => do
    let (taken, left) ← sharing flag letters.toList
    return (← taken.foldlM (fun scan flag => scan.take flag "") (scan.setAside left), rest)

/-- The verb at the head of the words, with a separator before or after it, and the words after it. -/
def verbAt? : List Word → Option (String × List Word)
  | .plain word :: .separator :: rest => some (word, rest)
  | .plain word :: rest => some (word, rest)
  | .separator :: .plain word :: rest => some (word, rest)
  | _ => none

def takeVerb (scan : Scan) (words : List Word) : Except Stop (Option (Scan × List Word)) :=
  match scan.arguments.stages, verbAt? words with
  | none, some (word, rest) =>
    match verbs.lookup word with
    | some stages =>
      .ok (some ({ scan with arguments := { scan.arguments with stages := some stages } }, rest))
    | none => .error (.refused (.unknownVerb word))
  | _, _ => .ok none

def takeOption (scan : Scan) : List Word → Except Stop (Scan × List Word)
  | .option flag _ attached :: rest => scan.takeFlag flag attached rest
  | .unknown word :: rest => .ok (scan.setAside [.unknown word], rest)
  | words => .ok (scan, words)

def words (scan : Scan) : Nat → List Word → Except Stop Scan
  | 0, rest => .ok (scan.setAside rest)
  | fuel + 1, rest =>
    if rest.any Word.isOption then do
      let isFirst := (rest.head?.map Word.isOption).getD false
      match (← if isFirst then pure none else scan.takeVerb rest) with
      | some (scan, rest) => scan.words fuel rest
      | none =>
        let scan := scan.setAside (rest.takeWhile (!·.isOption))
        let (scan, rest) ← scan.takeOption (rest.dropWhile (!·.isOption))
        scan.words fuel rest
    else do
      match (← scan.takeVerb rest) with
      | some (scan, rest) => return scan.setAside rest
      | none => return scan.setAside rest

end Scan

def readArguments (arguments : List String) : Except Stop (List Stage × Arguments) := do
  let words ← (Word.ofList arguments).mapError Stop.refused
  let scan ← Scan.words {} (words.length + 1) words
  match scan.arguments.stages with
  | none => throw (.refused .verbMissing)
  | some stages =>
    if scan.extras.isEmpty then return (stages, scan.arguments)
    else throw (.refused (.unrecognized scan.extras))

end ScriptSplit.CommandLine
