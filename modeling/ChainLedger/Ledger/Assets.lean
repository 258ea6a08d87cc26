import ChainLedger.Ledger.Cell

/-!
# Assets

Assets are numbered from one in the order of their issue, and found by number and
by name.
-/

namespace ChainLedger.Session

def asset? (s : Session) (id : AssetId) : Except DataError (Option Asset) := s.read (.asset id)

def assetExists (s : Session) (id : AssetId) : Except DataError Bool :=
  (s.asset? id).map Option.isSome

def assetNameExists (s : Session) (name : String) : Bool := s.holds (.assetName name)

/-- The number of an asset, from its key. -/
def assetIdOf (key : Bytes) : Except DataError AssetId :=
  match FixedBytes.ofBytes? (n := 8) (key.drop Cell.assets.length) with
  | some id => .ok (UInt64.ofNat (ofBigEndian id.bytes))
  | none => .error (.corrupt key .assetKeyLength)

/-- The number that the next asset gets: one more than the highest in use. -/
def nextAssetId (s : Session) : Except DataError AssetId :=
  ((s.scan Cell.assets).mapM fun row => assetIdOf row.1).map fun ids =>
    ids.foldl max nativeAsset + 1

def saveAsset (s : Session) (asset : Asset) : Session :=
  (s.write (.assetName asset.name) asset.id).write (.asset asset.id) asset

/-- Removes an asset, and the name it has. -/
def deleteAsset (s : Session) (id : AssetId) : Except DataError Session :=
  (s.asset? id).map fun
    | some asset => (s.clear (.assetName asset.name)).clear (.asset id)
    | none => s.clear (.asset id)

end ChainLedger.Session
