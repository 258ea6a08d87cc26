/-!
# The command line

Options may stand before or after the command. What follows a lone `--` is taken as
it is.
-/

namespace ChainLedger.Tool

/-- What the tool is asked to do. -/
inductive Command
  | decode (hex : String)
  | signingBytes (hex : String)
  | verify (hex : String)
  | apply (file : String) (dryRun : Bool)
  | keygen
  | params
deriving DecidableEq

/-- The command with the files it is to use. -/
structure Invocation where
  command : Command
  paramsFile : Option String
  database : Option String
deriving DecidableEq

/-- Arguments sorted into options and words. -/
structure Arguments where
  words : List String
  paramsFile : Option String
  database : Option String
  dryRun : Bool

namespace Arguments

def none : Arguments := ⟨[], .none, .none, false⟩

/-- Sorts arguments, if their options are known. -/
def sort? : List String → Option Arguments
  | [] => some none
  | "--" :: rest => some { none with words := rest }
  | "--dry-run" :: rest => (sort? rest).map fun a => { a with dryRun := true }
  | [word] => if word.startsWith "-" then .none else some { none with words := [word] }
  | word :: value :: rest =>
    match word with
    | "-p" | "--params" => (sort? rest).map fun a => { a with paramsFile := some value }
    | "-d" | "--db" => (sort? rest).map fun a => { a with database := some value }
    | "--log-format" | "--log-level" => sort? rest
    | _ =>
      if word.startsWith "-" then .none
      else (sort? (value :: rest)).map fun a => { a with words := word :: a.words }

/-- The command that words give. -/
def command? (a : Arguments) : Option Command :=
  match a.words with
  | ["decode", hex] => some (.decode hex)
  | ["signing-bytes", hex] => some (.signingBytes hex)
  | ["verify", hex] => some (.verify hex)
  | ["apply", file] => some (.apply file a.dryRun)
  | ["keygen"] => some .keygen
  | ["params"] => some .params
  | _ => .none

end Arguments

/-- The invocation that arguments give. -/
def Invocation.ofArguments? (arguments : List String) : Option Invocation := do
  let a ← Arguments.sort? arguments
  return ⟨← a.command?, a.paramsFile, a.database⟩

/-- How the tool is called. -/
def usage : String :=
  "usage: [-p PARAMS] COMMAND\n" ++
    "  decode HEX           show a transaction\n" ++
    "  signing-bytes HEX    print the bytes that its signature covers\n" ++
    "  verify HEX           check its signature\n" ++
    "  apply -d LEDGER FILE [--dry-run]\n" ++
    "                       apply the transactions of a file, one on each line\n" ++
    "  keygen               make a key pair\n" ++
    "  params               print the chain parameters\n"

end ChainLedger.Tool
