/-!
# Command-line arguments

A command line names a subcommand, whose options each take one value: `--name value`, `--name=value`,
`-n value`, `-nvalue` or `-n=value`. What starts with a hyphen is never taken as the value of the option
before it, except for a single hyphen; two hyphens end the options. The options `-h`, `--help`, `-V` and
`--version` stand everywhere.

When all arguments have been read, defaults are filled in and the options are checked. A word in the place
of a subcommand that resembles the name of one is a fault of its own.
-/

namespace DeviceTrust.Tool

/-! ## Similarity of words

The Jaro similarity of two words counts the characters that they share at nearly the same place and how
many of those stand in another order. The Winkler form raises it for words that start alike; the shared
start counts in full, however long it is. Both are computed as exact fractions. -/

/-- A fraction of natural numbers. -/
structure Fraction where
  numerator : Nat
  denominator : Nat
  deriving DecidableEq, Repr

/-- Whether a fraction exceeds four fifths. -/
def Fraction.exceedsFourFifths (x : Fraction) : Bool :=
  4 * x.denominator < 5 * x.numerator

/-- The characters matched so far: the places of the other word that are taken, the number of matches and
of those out of order, and the place of the last match. -/
structure Matching where
  taken : List Nat
  matched : Nat
  outOfOrder : Nat
  last : Nat
  deriving DecidableEq, Repr

/-- Matches the character at place `i` with the first free place of `word` within `range` that holds it. -/
def Matching.add (word : List Char) (range : Nat) (m : Matching) (place : Nat × Char) : Matching :=
  let (i, c) := place
  let candidate := (List.range word.length).find? fun j =>
    decide (i ≤ j + range ∧ j ≤ i + range) && word[j]? == some c && !m.taken.contains j
  match candidate with
  | none => m
  | some j => {
      taken := j :: m.taken
      matched := m.matched + 1
      outOfOrder := if j < m.last then m.outOfOrder + 1 else m.outOfOrder
      last := j }

/-- The Jaro similarity of two words. -/
def jaro (a b : List Char) : Fraction :=
  if a = b then ⟨1, 1⟩
  else if a.isEmpty ∨ b.isEmpty ∨ (a.length = 1 ∧ b.length = 1) then ⟨0, 1⟩
  else
    let range := max a.length b.length / 2 - 1
    let m := ((List.range a.length).zip a).foldl (Matching.add b range) ⟨[], 0, 0, 0⟩
    if m.matched = 0 then ⟨0, 1⟩
    else
      let k := m.matched
      ⟨k * k * b.length + k * k * a.length + (k - m.outOfOrder) * a.length * b.length,
        3 * a.length * b.length * k⟩

/-- The number of characters that two words have in common at their start. -/
def sharedStart : List Char → List Char → Nat
  | a :: as, b :: bs => if a = b then sharedStart as bs + 1 else 0
  | _, _ => 0

/-- The Jaro-Winkler similarity of two words. -/
def jaroWinkler (a b : List Char) : Fraction :=
  let x := jaro a b
  let bonus := sharedStart a b
  ⟨10 * x.numerator + bonus * (x.denominator - x.numerator), 10 * x.denominator⟩

/-! ## Command lines -/

/-- Why a command line was not accepted as a command to run. -/
inductive UsageError where
  | helpDisplayed
  /-- The version was asked for, of a subcommand or of the whole tool. -/
  | versionDisplayed (subcommand : Option String)
  | unknownArgument
  /-- A word that resembles the name of a subcommand. -/
  | invalidSubcommand
  /-- Help was asked for a subcommand that does not exist. -/
  | unrecognizedSubcommand
  | missingArgumentOrSubcommand
  | missingRequiredArgument
  | emptyValue
  | valueValidation
  | unexpectedMultipleUsage
  deriving DecidableEq, Repr

/-- An option of a subcommand. -/
structure OptionSpec where
  /-- The long name, without hyphens. -/
  name : String
  short : Char
  required : Bool
  default : Option String
  /-- Whether a value is acceptable. -/
  accepts : String → Bool

/-- A subcommand. -/
structure SubcommandSpec where
  name : String
  options : List OptionSpec

/-! ### Options in use -/

/-- An option that was used: how often, and with which values. -/
structure OptionUse where
  occurrences : Nat
  values : List String
  deriving DecidableEq, Repr

/-- The options that were used, by name. -/
abbrev OptionUses := List (String × OptionUse)

/-- How an option was used. -/
def OptionUses.find? (uses : OptionUses) (name : String) : Option OptionUse :=
  uses.lookup name

/-- Changes how an option was used. -/
def OptionUses.update (uses : OptionUses) (name : String) (f : OptionUse → OptionUse) : OptionUses :=
  if uses.any (·.1 == name) then uses.map fun (n, use) => (n, if n == name then f use else use)
  else uses ++ [(name, f ⟨0, []⟩)]

/-- Adds a value to an option. -/
def OptionUses.addValue (uses : OptionUses) (name value : String) : OptionUses :=
  uses.update name fun use => { use with values := use.values ++ [value] }

/-- Counts an occurrence of an option. -/
def OptionUses.addOccurrence (uses : OptionUses) (name : String) : OptionUses :=
  uses.update name fun use => { use with occurrences := use.occurrences + 1 }

/-- The first value of an option. -/
def OptionUses.value? (uses : OptionUses) (name : String) : Option String :=
  (uses.find? name).bind (·.values.head?)

/-! ### Reading arguments -/

/-- The kinds of arguments, told from their hyphens. -/
inductive ArgumentForm where
  /-- Two hyphens alone. -/
  | endOfOptions
  /-- A long option, with the text that starts at its equals sign, if there is one. -/
  | long (name : String) (attached : Option String)
  /-- A short option, with the text behind its letter. -/
  | short (letter : Char) (attached : String)
  | word (text : String)
  deriving DecidableEq, Repr

/-- Tells the form of an argument. -/
def ArgumentForm.of (argument : String) : ArgumentForm :=
  match argument.toList with
  | ['-', '-'] => .endOfOptions
  | '-' :: '-' :: rest =>
    let text := rest.dropWhile (· == '-')
    let name := text.takeWhile (· != '=')
    let attached := text.drop name.length
    .long (String.ofList name) (if attached.isEmpty then none else some (String.ofList attached))
  | '-' :: letter :: rest => .short letter (String.ofList rest)
  | _ => .word argument

/-- A value that is attached to its option, without the equals signs in front. -/
def attachedValue (attached : String) : String :=
  String.ofList (attached.toList.dropWhile (· == '='))

/-- The arguments of a subcommand that have been read. -/
structure ParseState where
  uses : OptionUses
  /-- The option that was read last, if it has no value yet. -/
  awaiting : Option String
  /-- Whether two hyphens have ended the options. -/
  optionsEnded : Bool
  deriving DecidableEq, Repr

/-- Uses an option with the value attached to it, or waits for its value. -/
def ParseState.useOption (state : ParseState) (option : OptionSpec) (attached : Option String) :
    ParseState :=
  match attached with
  | some text => {
      state with
      uses := (state.uses.addValue option.name (attachedValue text)).addOccurrence option.name
      awaiting := none }
  | none => {
      state with
      uses := state.uses.addOccurrence option.name
      awaiting := some option.name }

/-- Reads one argument of a subcommand. -/
def ParseState.read (subcommand : SubcommandSpec) (state : ParseState) (argument : String) :
    Except UsageError ParseState :=
  if state.optionsEnded then .error .unknownArgument
  else
    match ArgumentForm.of argument with
    | .endOfOptions => .ok { state with optionsEnded := true }
    | .long name attached =>
      match subcommand.options.find? (·.name == name) with
      | some option => .ok (state.useOption option attached)
      | none =>
        if name = "help" then .error .helpDisplayed
        else if name = "version" then .error (.versionDisplayed subcommand.name)
        else .error .unknownArgument
    | .short letter attached =>
      match subcommand.options.find? (·.short == letter) with
      | some option => .ok (state.useOption option (if attached.isEmpty then none else some attached))
      | none =>
        if letter = 'h' then .error .helpDisplayed
        else if letter = 'V' then .error (.versionDisplayed subcommand.name)
        else .error .unknownArgument
    | .word text =>
      match state.awaiting with
      | some name => .ok { state with uses := state.uses.addValue name text, awaiting := none }
      | none => .error .unknownArgument

/-! ### Checking options -/

/-- Gives an option without values its default. -/
def OptionUses.addDefault (uses : OptionUses) (option : OptionSpec) : OptionUses :=
  match option.default, uses.value? option.name with
  | some default, none => uses.addValue option.name default
  | _, _ => uses

/-- Checks how one option was used. -/
def OptionSpec.check (option : OptionSpec) (use : OptionUse) : Except UsageError Unit :=
  if use.values.isEmpty then .error .emptyValue
  else if ¬ use.values.all option.accepts then .error .valueValidation
  else if 1 < use.occurrences then .error .unexpectedMultipleUsage
  else .ok ()

/-- Checks the options of a subcommand: first that the required ones are there, then that the one which
awaits a value has one, then how each of them was used. -/
def checkOptions (options : List OptionSpec) (awaiting : Option String) (uses : OptionUses) :
    Except UsageError Unit :=
  if options.any fun option => option.required && (uses.find? option.name).isNone then
    .error .missingRequiredArgument
  else if awaiting.any fun name => (uses.value? name).isNone then .error .emptyValue
  else
    options.forM fun option =>
      match uses.find? option.name with
      | none => .ok ()
      | some use => option.check use

/-- Reads the arguments of a subcommand. -/
def SubcommandSpec.parse (subcommand : SubcommandSpec) (arguments : List String) :
    Except UsageError OptionUses := do
  let state ← arguments.foldlM (ParseState.read subcommand) ⟨[], none, false⟩
  let uses := subcommand.options.foldl OptionUses.addDefault state.uses
  checkOptions subcommand.options state.awaiting uses
  return uses

/-! ### Subcommands -/

/-- What `help` and the words after it come to: one subcommand may be named. -/
def parseHelp (names : List String) : List String → UsageError
  | [] => .helpDisplayed
  | [name] => if names.contains name then .helpDisplayed else .unrecognizedSubcommand
  | _ => .unrecognizedSubcommand

/-- What a word that names no subcommand comes to. -/
def unknownWord (names : List String) (word : String) : UsageError :=
  if names.any fun name => (jaroWinkler word.toList name.toList).exceedsFourFifths then
    .invalidSubcommand
  else .unknownArgument

/-- Reads a whole command line: the name of the subcommand and its options. -/
def parseArguments (subcommands : List SubcommandSpec) (arguments : List String) :
    Except UsageError (String × OptionUses) :=
  let names := subcommands.map (·.name) ++ ["help"]
  match arguments with
  | [] => .error .missingArgumentOrSubcommand
  | argument :: rest =>
    match ArgumentForm.of argument with
    | .endOfOptions =>
      match rest with
      | [] => .error .missingArgumentOrSubcommand
      | word :: _ => .error (unknownWord names word)
    | .long name _ =>
      if name = "help" then .error .helpDisplayed
      else if name = "version" then .error (.versionDisplayed none)
      else .error .unknownArgument
    | .short letter _ =>
      if letter = 'h' then .error .helpDisplayed
      else if letter = 'V' then .error (.versionDisplayed none)
      else .error .unknownArgument
    | .word word =>
      match subcommands.find? (·.name == word) with
      | some subcommand => (subcommand.parse rest).map fun uses => (word, uses)
      | none =>
        if word = "help" then .error (parseHelp names rest)
        else .error (unknownWord names word)

end DeviceTrust.Tool
