import ChainLedger.Hexadecimal
import ChainLedger.Ledger.Row
import ChainLedger.Record.Stored
import ChainLedger.Store.Session

/-!
# Cells of the ledger

The rows of a ledger are cells of ten families, each with the type of what it
holds. The key of a cell is the name of its family and what tells the cell from the
others of it. Numbers in a key have a fixed width, most significant byte first, so
that keys are in numeric order; a text that a number or a public key follows is
closed by a zero byte.
-/

namespace ChainLedger

/-- A place of the ledger that holds one value or nothing. -/
inductive Cell
  | transaction (signature : Signature)
  | balance (account : Address) (asset : AssetId)
  | reference (account : Address)
  | asset (id : AssetId)
  | assetName (name : String)
  | deployedAt (address : Address)
  | atState (address : Address) (height : UInt32)
  | atHeight (height : UInt32) (address : Address)
  | poll (name : String)
  | vote (poll : String) (voter : PublicKey)
deriving DecidableEq

namespace Cell

/-! ## Keys -/

/-- The key of the given name and rest. -/
def keyOf (family : String) (rest : Bytes) : Bytes := Text.bytesOf family ++ rest

/-- A text that something follows in a key. -/
def closed (text : String) : Bytes := Text.bytesOf text ++ [0]

def assetKey (id : AssetId) : Bytes := bigEndian 8 id.toNat

def heightKey (height : UInt32) : Bytes := bigEndian 4 height.toNat

def key : Cell → Bytes
  | .transaction signature => keyOf "tx/" signature.bytes
  | .balance account assetId => keyOf "balance/" (closed account ++ assetKey assetId)
  | .reference account => keyOf "reference/" (Text.bytesOf account)
  | .asset id => keyOf "asset/" (assetKey id)
  | .assetName name => keyOf "asset-name/" (Text.bytesOf name)
  | .deployedAt address => keyOf "at/" (Text.bytesOf address)
  | .atState address height => keyOf "at-state/" (closed address ++ heightKey height)
  | .atHeight height address => keyOf "at-height/" (heightKey height ++ Text.bytesOf address)
  | .poll name => keyOf "poll/" (Text.bytesOf name)
  | .vote pollName voter => keyOf "vote/" (closed pollName ++ voter.bytes)

/-- What the keys of all assets begin with. -/
def assets : Bytes := keyOf "asset/" []

/-- What the keys of the states of an AT begin with. -/
def statesOf (address : Address) : Bytes := keyOf "at-state/" (closed address)

/-- What the keys of the index entries of a height begin with. -/
def atHeightEntries (height : UInt32) : Bytes := keyOf "at-height/" (heightKey height)

/-- What the keys of the votes in a poll begin with. -/
def votesIn (poll : String) : Bytes := keyOf "vote/" (closed poll)

/-! ## Values -/

/-- What a cell holds: an entry of the index of heights says something by being there. -/
@[reducible] def Value : Cell → Type
  | .transaction _ => Record
  | .balance _ _ => Amount
  | .reference _ => Signature
  | .asset _ => Asset
  | .assetName _ => AssetId
  | .deployedAt _ => DeployedAt
  | .atState _ _ => AtState
  | .atHeight _ _ => Unit
  | .poll _ => Poll
  | .vote _ _ => Vote

/-- The asset under a name is stored as it stands in keys. -/
def assetIdForm : Form AssetId :=
  (Form.fixed 8).iso (fun value => UInt64.ofNat (ofBigEndian value.bytes)) fun id =>
    ⟨assetKey id, length_bigEndian ..⟩

/-- No bytes. -/
def unitForm : Form Unit where
  write _ := []
  read bytes := .ok ((), bytes)

/-- How a cell's value is stored. -/
def form : (c : Cell) → Form c.Value
  | .transaction _ => Record.form
  | .balance _ _ => Form.amount
  | .reference _ => Form.signature
  | .asset _ => Asset.form
  | .assetName _ => assetIdForm
  | .deployedAt _ => DeployedAt.form
  | .atState _ _ => AtState.form
  | .atHeight _ _ => unitForm
  | .poll _ => Poll.form
  | .vote _ _ => Vote.form

end Cell

/-! ## Faults of the ledger -/

/-- What is wrong with a row. -/
inductive CorruptReason
  | form (fault : FormFault)
  | assetKeyLength
  | missingState
  | indexAddress
deriving DecidableEq

def CorruptReason.message : CorruptReason → String
  | .form fault => fault.message
  | .assetKeyLength => "asset key is not an 8-byte id"
  | .missingState => "height index points at a missing AT state"
  | .indexAddress => "invalid utf-8 sequence"

/-- Why the ledger cannot answer. -/
inductive DataError
  | corrupt (key : Bytes) (reason : CorruptReason)
  | unsigned (kind : Kind)
deriving DecidableEq

def DataError.message : DataError → String
  | .corrupt key reason =>
    "corrupt record under key " ++ Hexadecimal.encode key ++ ": " ++ reason.message
  | .unsigned kind => "cannot store an unsigned " ++ kind.name ++ " transaction"

/-- The value of a row; what follows it in the row does not matter. -/
def Form.ofRow {α : Type} (form : Form α) (key row : Bytes) : Except DataError α :=
  match form.read row with
  | .ok (value, _) => .ok value
  | .error fault => .error (.corrupt key (.form fault))

namespace Session

/-! ## Access to cells -/

/-- What a cell holds. -/
def read (s : Session) (c : Cell) : Except DataError (Option c.Value) :=
  match s.get? c.key with
  | none => .ok none
  | some row => (c.form.ofRow c.key row).map some

/-- Whether a cell holds anything. -/
def holds (s : Session) (c : Cell) : Bool := s.contains c.key

def write (s : Session) (c : Cell) (value : c.Value) : Session := s.put c.key (c.form.write value)

def clear (s : Session) (c : Cell) : Session := s.remove c.key

end Session

end ChainLedger
