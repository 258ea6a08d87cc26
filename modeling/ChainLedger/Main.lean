import ChainLedger.Store.Snapshot
import ChainLedger.Tool.Batch
import ChainLedger.Tool.Command

/-!
# The program

Reads files and the environment, runs a command and prints its report. A ledger is
kept in a directory, as one file that is replaced when a batch is committed.
-/

namespace ChainLedger.Tool

/-- A file or an environment variable that names one. -/
def fileOr (file : Option String) (name : String) : IO (Option String) := do
  match file with
  | some file => return some file
  | none => IO.getEnv name

/-- The parameters in a file, or the main chain's. -/
def loadParams (file : Option String) : IO (Except Failure ChainParams) := do
  match file with
  | none => return .ok ChainParams.mainChain
  | some file =>
    let read ←
      try
        pure (ChainParams.ofText (← IO.FS.readFile file))
      catch error => pure (.error (.unreadable (toString error)))
    return read.mapError fun error =>
      error.toFailure.within ("failed to load chain params from " ++ file)

/-- The text of a batch. -/
def loadBatch (file : String) : IO (Except Failure String) := do
  try
    return .ok (← IO.FS.readFile file)
  catch error =>
    return .error ((Failure.plain (toString error)).within ("failed to read " ++ file))

/-- The file of a ledger in its directory. -/
def ledgerFile (directory : String) : String := directory ++ "/ledger"

/-- The ledger in a directory, empty if there is none. -/
def loadLedger (directory : String) : IO (Except Failure Ledger) := do
  let context := "failed to open ledger database at " ++ directory
  try
    IO.FS.createDirAll directory
    let stored ←
      try
        pure (some (← IO.FS.readBinFile (ledgerFile directory)).toList)
      catch _ => pure none
    match stored with
    | none => return .ok .empty
    | some snapshot =>
      match OrderedMap.ofSnapshot? snapshot with
      | some ledger => return .ok ledger
      | none => return .error ((Failure.plain "not a ledger").within context)
  catch error => return .error ((Failure.plain (toString error)).within context)

/-- Replaces the ledger in a directory, at once. -/
def saveLedger (directory : String) (ledger : Ledger) : IO Unit := do
  let next := ledgerFile directory ++ ".new"
  IO.FS.writeBinFile next ⟨(OrderedMap.form.write ledger).toArray⟩
  IO.FS.rename next (ledgerFile directory)

/-- Applies a file to the ledger in a directory. -/
def runBatch (params : ChainParams) (directory file : String) (dryRun : Bool) : IO Report := do
  match ← loadBatch file with
  | .error failure => return .error failure
  | .ok text =>
    match ← loadLedger directory with
    | .error failure => return .error failure
    | .ok ledger =>
      let applied := applyBatch params dryRun ledger text
      if applied.count.isOk && !dryRun then saveLedger directory applied.ledger
      return applied.report

/-- Makes a key pair and prints its public part. -/
def runKeygen : IO Report := do
  match FixedBytes.ofBytes? (← IO.getRandomBytes 32).toList with
  | none => return .error (.plain "no random bytes")
  | some seed =>
    let keypair : Ed25519.Keypair := ⟨seed⟩
    return .ok <| .text <|
      "public key: " ++ Hexadecimal.encode keypair.publicKey.bytes ++ "\naddress:    " ++
        keypair.address

/-- Runs a command. -/
def run (params : ChainParams) (invocation : Invocation) : IO Report := do
  match invocation.command with
  | .decode hex => return decode params hex
  | .signingBytes hex => return signingBytes params hex
  | .verify hex => return verify params hex
  | .params => return showParams params
  | .keygen => runKeygen
  | .apply file dryRun =>
    match ← fileOr invocation.database "LEDGER_DB" with
    | none => return .error (.plain "no ledger database given")
    | some directory => runBatch params directory file dryRun

end ChainLedger.Tool

open ChainLedger in
/-- Runs the command line and prints the report. -/
def main (arguments : List String) : IO UInt32 := do
  match Tool.Invocation.ofArguments? arguments with
  | none =>
    IO.eprint Tool.usage
    return 2
  | some invocation =>
    let report ← match ← Tool.loadParams (← Tool.fileOr invocation.paramsFile "LEDGER_PARAMS") with
      | .error failure => pure (.error failure)
      | .ok params => Tool.run params invocation
    match report with
    | .ok output => IO.print output.toText
    | .error failure => IO.eprint failure.toText
    return UInt32.ofNat (Report.exitCode report)
