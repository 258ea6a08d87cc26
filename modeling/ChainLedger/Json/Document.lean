import ChainLedger.Json.Token

/-!
# JSON documents

A document is built from its tokens by a machine that keeps the lists and objects
around the current place on a stack, so that nesting has no limit.
-/

namespace ChainLedger.Json

/-- The name of a field, if it is well formed. -/
abbrev Key := Option String

/-- A document as it is written. -/
inductive Document
  | null
  | bool (b : Bool)
  | number (written : List Char)
  | text (value : Option String)
  | list (items : List Document)
  | object (fields : List (Key × Document))

/-- A list or an object that is not complete, its last part first. -/
inductive Frame
  | list (items : List Document)
  | object (fields : List (Key × Document)) (key : Key)

/-- What the machine waits for, inside the given frames. -/
inductive Waiting
  | start (outer : List Frame)
  | firstItem (outer : List Frame)
  | nextItem (items : List Document) (outer : List Frame)
  | firstKey (outer : List Frame)
  | nextKey (fields : List (Key × Document)) (outer : List Frame)
  | colon (fields : List (Key × Document)) (key : Key) (outer : List Frame)
  | nextField (fields : List (Key × Document)) (outer : List Frame)
  | nothing (document : Document)

namespace Waiting

/-- Puts a complete value into the innermost frame. -/
def place (d : Document) : List Frame → Waiting
  | [] => .nothing d
  | .list items :: outer => .nextItem (d :: items) outer
  | .object fields key :: outer => .nextField ((key, d) :: fields) outer

/-- The machine after the first token of a value. -/
def begin (outer : List Frame) : Token → Option Waiting
  | .openList => some (.firstItem outer)
  | .openObject => some (.firstKey outer)
  | .null => some (place .null outer)
  | .bool b => some (place (.bool b) outer)
  | .number written => some (place (.number written) outer)
  | .text value => some (place (.text value) outer)
  | .closeList | .closeObject | .comma | .colon => none

/-- The machine after one more token, if it fits. -/
def step (waiting : Waiting) (token : Token) : Option Waiting :=
  match waiting, token with
  | .start outer, token => begin outer token
  | .firstItem outer, .closeList => some (place (.list []) outer)
  | .firstItem outer, token => begin (.list [] :: outer) token
  | .nextItem items outer, .comma => some (.start (.list items :: outer))
  | .nextItem items outer, .closeList => some (place (.list items.reverse) outer)
  | .firstKey outer, .closeObject => some (place (.object []) outer)
  | .firstKey outer, .text key => some (.colon [] key outer)
  | .nextKey fields outer, .text key => some (.colon fields key outer)
  | .colon fields key outer, .colon => some (.start (.object fields key :: outer))
  | .nextField fields outer, .comma => some (.nextKey fields outer)
  | .nextField fields outer, .closeObject => some (place (.object fields.reverse) outer)
  | _, _ => none

end Waiting

/-- The document that a text is. -/
def Document.ofText? (text : String) : Option Document := do
  match ← (← tokens? text).foldlM Waiting.step (.start []) with
  | .nothing d => some d
  | _ => none

end ChainLedger.Json
