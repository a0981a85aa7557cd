/-!
# Usage of a command line

A usage says which options a command has, and which operand or commands may follow them. Arguments
are read from left to right. An option may have its value attached or in the next argument; such a
value is checked only once something else is met, so that what is wrong with a later option is
reported first. After two hyphens every argument is an operand.

* `read_nil_group`: a group of commands without one is refused.
-/

namespace TestConversion.Command

/-- What an argument may be. -/
inductive Values where
  | any
  | nonEmpty
  | oneOf (texts : List String)

def Values.accept : Values → String → Bool
  | any, _ => true
  | nonEmpty, v => v ≠ ""
  | oneOf texts, v => texts.contains v

inductive Role where
  | help
  | version
  /-- Stands alone. -/
  | flag
  | value (values : Values)

structure Parameter where
  name : String
  short : Option Char := none
  role : Role

inductive Usage where
  /-- A command, with one operand or without any. -/
  | single (parameters : List Parameter) (operand : Option (String × Values))
  /-- A command that consists of others. -/
  | group (parameters : List Parameter) (commands : List (String × Usage))

/-- Why arguments are not carried out. -/
inductive Refusal where
  /-- Help is asked for. -/
  | help
  /-- The version is asked for. -/
  | version
  /-- Help is given in the place of a command that needs more arguments. -/
  | helpInstead
  | badValue
  | unknownArgument
  | unknownCommand
  | missingOperand
  | missingCommand
  | repeated
  | unneededValue
  deriving DecidableEq

/-- The status of a program that carries nothing out. -/
def Refusal.status : Refusal → Nat
  | help | version => 0
  | _ => 2

/-- What was given: the commands from the outermost on, and the values of options and operands. A
flag has an empty value. -/
structure Given where
  commands : List String
  values : List (String × String)

def Given.value? (g : Given) (name : String) : Option String := g.values.lookup name

def Given.has (g : Given) (name : String) : Bool := (g.value? name).isSome

namespace Usage

def parameters : Usage → List Parameter
  | single ps _ => ps
  | group ps _ => ps

def operand : Usage → Option (String × Values)
  | single _ o => o
  | group _ _ => none

/-- The command that explains the others. -/
def helpName : String := "help"

/-- The command of a name. -/
def command? : Usage → String → Option Usage
  | single _ _, _ => none
  | group _ commands, name =>
    if name == helpName then some (single [] none) else commands.lookup name

def long? (u : Usage) (name : String) : Option Parameter :=
  u.parameters.find? fun p => p.name == name

def short? (u : Usage) (c : Char) : Option Parameter :=
  u.parameters.find? fun p => p.short == some c

/-- What comes of asking for help with a command of a command. -/
def helpWith : Usage → List String → Refusal
  | _, [] => .help
  | u, name :: names =>
    match u.command? name with
    | some v => v.helpWith names
    | none => .unknownCommand

end Usage

/-! ## Reading -/

/-- A value that was not checked yet, or that is still to come. -/
structure Pending where
  name : String
  values : Values
  value : Option String

/-- How far the arguments of one command have been read. -/
structure Progress where
  values : List (String × String) := []
  pending : Option Pending := none
  operandSeen : Bool := false
  onlyOperands : Bool := false

namespace Progress

/-- Records a value; nothing is given twice. -/
def give (p : Progress) (name value : String) (values : Values) : Except Refusal Progress :=
  if (p.values.lookup name).isSome then .error .repeated
  else if values.accept value then .ok { p with values := p.values ++ [(name, value)] }
  else .error .badValue

/-- Checks the pending value. -/
def settle (p : Progress) : Except Refusal Progress :=
  match p.pending with
  | none => .ok p
  | some w =>
    match w.value with
    | none => .error .badValue
    | some v => { p with pending := none }.give w.name v w.values

/-- Whether the next argument is the value of an option. -/
def awaiting (p : Progress) : Option Pending := p.pending.filter fun w => w.value.isNone

/-- Reads an option, with a value if one is attached to it. -/
def option (p : Progress) (q : Parameter) (attached : Option String) : Except Refusal Progress :=
  match q.role, attached with
  | .value values, some v => do (← p.settle).give q.name v values
  | .value values, none => do
    return { ← p.settle with pending := some ⟨q.name, values, none⟩ }
  | _, some _ => .error .unneededValue
  | .help, none => do
    let _ ← p.settle
    .error .help
  | .version, none => do
    let _ ← p.settle
    .error .version
  | .flag, none => do (← p.settle).give q.name "" .any

/-- The value that is attached to a short option. -/
def attachedTo : List Char → Option String
  | [] => none
  | '=' :: cs => some (String.ofList cs)
  | cs => some (String.ofList cs)

/-- Reads short options that are written together. -/
def shortOptions (p : Progress) (u : Usage) : List Char → Except Refusal Progress
  | [] => .ok p
  | c :: cs =>
    match u.short? c with
    | none => .error .unknownArgument
    | some q =>
      match q.role with
      | .value _ => p.option q (attachedTo cs)
      | _ => do (← p.option q none).shortOptions u cs

/-- Reads a long option: its name and, after an equals sign, a value. -/
def longOption (p : Progress) (u : Usage) (cs : List Char) : Except Refusal Progress :=
  let name := String.ofList (cs.takeWhile (· ≠ '='))
  match u.long? name with
  | none => .error .unknownArgument
  | some q =>
    p.option q (match cs.dropWhile (· ≠ '=') with
      | [] => none
      | _ :: value => some (String.ofList value))

/-- Reads an operand. -/
def operand (p : Progress) (u : Usage) (argument : String) : Except Refusal Progress :=
  match u with
  | .group _ _ =>
    if p.onlyOperands && (u.command? argument).isSome then .error .unknownArgument
    else .error .unknownCommand
  | .single _ none => .error .unknownArgument
  | .single _ (some (name, values)) =>
    if p.operandSeen then .error .unknownArgument
    else do
      return { ← p.settle with pending := some ⟨name, values, some argument⟩, operandSeen := true }

/-- Reads an argument that is no command. -/
def argument (p : Progress) (u : Usage) (text : String) : Except Refusal Progress :=
  if p.onlyOperands then p.operand u text
  else
    match text.toList with
    | ['-', '-'] => .ok { p with onlyOperands := true }
    | '-' :: '-' :: cs => p.longOption u cs
    | '-' :: c :: cs => p.shortOptions u (c :: cs)
    | _ =>
      match p.awaiting with
      | some w => .ok { p with pending := some { w with value := some text } }
      | none => p.operand u text

/-- What was given when there are no more arguments. -/
def finish (p : Progress) (u : Usage) : Except Refusal Given := do
  let p ← p.settle
  match u with
  | .group _ _ => .error (if p.values.isEmpty then .helpInstead else .missingCommand)
  | .single _ (some _) => if p.operandSeen then return ⟨[], p.values⟩ else .error .missingOperand
  | .single _ none => return ⟨[], p.values⟩

end Progress

/-- Reads arguments. A command is recognised where no value is awaited; what is pending before it is
checked after the arguments of the command. -/
def readArguments : List String → Usage → Progress → Except Refusal Given
  | [], u, p => p.finish u
  | a :: as, u, p =>
    match if p.onlyOperands || p.awaiting.isSome then none else u.command? a with
    | none => do readArguments as u (← p.argument u a)
    | some v =>
      if a == Usage.helpName then .error (u.helpWith as)
      else do
        let inner ← readArguments as v {}
        let outer ← p.settle
        return ⟨a :: inner.commands, outer.values ++ inner.values⟩

/-- Reads the arguments of a program. -/
def Usage.read (u : Usage) (arguments : List String) : Except Refusal Given :=
  readArguments arguments u {}

/-! ## Laws -/

theorem Usage.read_nil_group (ps : List Parameter) (commands : List (String × Usage)) :
    (Usage.group ps commands).read [] = .error .helpInstead := rfl

end TestConversion.Command
