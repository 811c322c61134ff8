import DocSplice.Update.Config

/-!
# Command-line arguments

Arguments are read from left to right. A setting takes a value, either behind an equals sign or as the
next argument; a switch takes none; each may stand once. A value that came as the next argument is looked
at only when the next known option is met or when the arguments end, so that an unknown argument in
between is reported first. There are no other arguments.
-/
namespace DocSplice.CommandLine

/-- An option with a value. -/
inductive Setting where
  | readme
  | examples
  | policy
deriving DecidableEq, Repr

/-- An option without a value. -/
inductive Switch where
  | dryRun
  | check
  | json
  | verbose
deriving DecidableEq, Repr

/-- An option as it was given. -/
inductive Item where
  | set (s : Setting) (value : Text)
  | on (s : Switch)
deriving DecidableEq, Repr

/-- What is wrong with the arguments. -/
inductive UsageError where
  | unknownArgument
  | invalidValue
  | conflict
  | unexpectedValue
deriving DecidableEq, Repr

/-- Why the arguments do not lead to an update. -/
inductive Halt where
  | help
  | version
  | usage (e : UsageError)
deriving DecidableEq, Repr

/-- What an option stands for. -/
inductive Known where
  | setting (s : Setting)
  | switch (s : Switch)
  | halt (h : Halt)
deriving DecidableEq, Repr

namespace Setting

/-- The word of the option. -/
def word : Setting → Text
  | readme => "readme".toList
  | examples => "examples".toList
  | policy => "policy".toList

/-- Whether the value is one: a path is not empty, and a policy has its name. -/
def accepts : Setting → Text → Bool
  | policy, value => (Policy.ofName? value).isSome
  | _, value => value != []

end Setting

/-- The word of the option. -/
def Switch.word : Switch → Text
  | dryRun => "dry-run".toList
  | check => "check".toList
  | json => "json".toList
  | verbose => "verbose".toList

namespace Known

/-- All long options. -/
def longOptions : List (Text × Known) :=
  [Setting.readme, .examples, .policy].map (fun s => (s.word, setting s))
    ++ [Switch.dryRun, .check, .json, .verbose].map (fun s => (s.word, switch s))
    ++ [("help".toList, halt .help), ("version".toList, halt .version)]

/-- The option that a word stands for behind two dashes. -/
def ofWord? (word : Text) : Option Known := longOptions.lookup word

/-- The option that a letter stands for behind one dash. -/
def ofLetter? : Char → Option Known
  | 'v' => some (switch .verbose)
  | 'h' => some (halt .help)
  | 'V' => some (halt .version)
  | _ => none

end Known

/-- The form of an argument. -/
inductive Form where
  | terminator
  | long (word : Text) (value : Option Text)
  | letters (cs : List Char)
  | plain (t : Text)
deriving DecidableEq, Repr

/-- Tells the form of an argument. A lone dash is plain. -/
def Form.of : Text → Form
  | ['-', '-'] => terminator
  | '-' :: '-' :: rest =>
    long (rest.takeWhile (· != '='))
      (match rest.dropWhile (· != '=') with
        | [] => none
        | _ :: value => some value)
  | '-' :: c :: cs => letters (c :: cs)
  | t => plain t

/-- What has been read: the options that are settled, and a setting whose value, if it has come, has not
been looked at. -/
structure Progress where
  items : List Item
  pending : Option (Setting × Option Text)
deriving Repr

/-- A step of reading. -/
abbrev Reading (α : Type) := Except Halt α

namespace Progress

/-- Adds a setting; it must be new, and then its value must be one. -/
def addSetting (items : List Item) (s : Setting) (value : Text) : Reading (List Item) :=
  if items.any fun | .set s' _ => s' == s | .on _ => false then .error (.usage .conflict)
  else if s.accepts value then .ok (items ++ [.set s value])
  else .error (.usage .invalidValue)

/-- Adds a switch; it must be new. -/
def addSwitch (items : List Item) (s : Switch) : Reading (List Item) :=
  if Item.on s ∈ items then .error (.usage .conflict) else .ok (items ++ [.on s])

/-- The options read so far, with the pending setting looked at. -/
def settle (p : Progress) : Reading (List Item) :=
  match p.pending with
  | none => .ok p.items
  | some (_, none) => .error (.usage .invalidValue)
  | some (s, some value) => addSetting p.items s value

/-- Meets an option without a value behind an equals sign. -/
def meet (p : Progress) (k : Known) : Reading Progress :=
  match p.settle with
  | .error h => .error h
  | .ok items =>
    match k with
    | .setting s => .ok ⟨items, some (s, none)⟩
    | .switch s => (addSwitch items s).map (⟨·, none⟩)
    | .halt h => .error h

/-- Meets an option with a value behind an equals sign. -/
def meetWith (p : Progress) (k : Known) (value : Text) : Reading Progress :=
  match k with
  | .setting s =>
    match p.settle with
    | .error h => .error h
    | .ok items => (addSetting items s value).map (⟨·, none⟩)
  | _ => .error (.usage .unexpectedValue)

/-- Meets the letters of an argument one by one. -/
def meetLetters (p : Progress) : List Char → Reading Progress
  | [] => .ok p
  | c :: cs =>
    match Known.ofLetter? c with
    | none => .error (.usage .unknownArgument)
    | some k =>
      match p.meet k with
      | .error h => .error h
      | .ok p => meetLetters p cs

/-- Reads one argument that is not the terminator. -/
def read (p : Progress) : Form → Reading Progress
  | .terminator => .ok p
  | .long word value =>
    match Known.ofWord? word, value with
    | none, _ => .error (.usage .unknownArgument)
    | some k, none => p.meet k
    | some k, some value => p.meetWith k value
  | .letters cs => p.meetLetters cs
  | .plain t =>
    match p.pending with
    | some (s, none) => .ok { p with pending := some (s, some t) }
    | _ => .error (.usage .unknownArgument)

/-- Reads all arguments. Nothing may follow the terminator. -/
def readAll (p : Progress) : List Text → Reading (List Item)
  | [] => p.settle
  | a :: rest =>
    match Form.of a with
    | .terminator => if rest = [] then p.settle else .error (.usage .unknownArgument)
    | form =>
      match p.read form with
      | .error h => .error h
      | .ok p => readAll p rest

end Progress

/-- What the arguments ask for. -/
structure Arguments where
  readme : Text
  examples : Text
  policy : Policy
  dryRun : Bool
  check : Bool
  json : Bool
  verbose : Bool
deriving DecidableEq, Repr

namespace Arguments

/-- The value of a setting among the options. -/
def valueOf? (items : List Item) (s : Setting) : Option Text :=
  items.findSome? fun
    | .set s' value => if s' = s then some value else none
    | .on _ => none

/-- What the options ask for. -/
def ofItems (items : List Item) : Arguments :=
  { readme := (valueOf? items .readme).getD Config.standardReadme
    examples := (valueOf? items .examples).getD Config.standardExamples
    policy := ((valueOf? items .policy).bind Policy.ofName?).getD Policy.standard
    dryRun := Item.on .dryRun ∈ items
    check := Item.on .check ∈ items
    json := Item.on .json ∈ items
    verbose := Item.on .verbose ∈ items }

/-- Reads the arguments. That a trial run and a check exclude each other is looked at last. -/
def parse (args : List Text) : Reading Arguments :=
  match Progress.readAll ⟨[], none⟩ args with
  | .error h => .error h
  | .ok items =>
    if Item.on .dryRun ∈ items ∧ Item.on .check ∈ items then .error (.usage .conflict)
    else .ok (ofItems items)

/-- The configuration of the update that the arguments ask for. -/
def config (a : Arguments) : Config := ⟨.ofText a.readme, .ofText a.examples, a.policy⟩

end Arguments
end DocSplice.CommandLine
