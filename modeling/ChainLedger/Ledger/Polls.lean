import ChainLedger.Ledger.Cell

/-!
# Polls and votes

A voter has at most one vote in a poll. Removing a poll removes the votes in it.
-/

namespace ChainLedger.Session

def poll? (s : Session) (name : String) : Except DataError (Option Poll) := s.read (.poll name)

def pollExists (s : Session) (name : String) : Except DataError Bool :=
  (s.poll? name).map Option.isSome

def savePoll (s : Session) (poll : Poll) : Session := s.write (.poll poll.name) poll

/-- Removes a poll and the votes in it. -/
def deletePoll (s : Session) (name : String) : Session :=
  (s.removeAll ((s.scan (Cell.votesIn name)).map Prod.fst)).clear (.poll name)

def vote? (s : Session) (poll : String) (voter : PublicKey) : Except DataError (Option Vote) :=
  s.read (.vote poll voter)

def saveVote (s : Session) (vote : Vote) : Session := s.write (.vote vote.poll vote.voter) vote

def deleteVote (s : Session) (poll : String) (voter : PublicKey) : Session :=
  s.clear (.vote poll voter)

end ChainLedger.Session
