import Docstore.Decimal.Numeral
import Docstore.Failure
import Docstore.Json.Parser
import Docstore.Log.Event
import Docstore.Text.Blank
import Docstore.Text.Pieces

/-!
# Entries of the log

The log of a server is a text with one record per line.  A record has a position, a code for its
kind, the id of its transaction and data.  Positions and ids come as numbers or as strings; what
is neither is as good as absent.  Documents outside any transaction carry the id `0`.

An entry of a document becomes an event when its data has an id of the form `collection/key`.
-/

namespace Docstore

/-- The halves of a document id: what stands before the first slash and what stands after it, if
neither is empty. -/
def splitDocumentId? (id : String) : Option (String × String) := do
  let (collection, key) ← Text.cutAtFirst? '/' id
  if collection.isEmpty || key.isEmpty then none else some (collection, key)

/-- The position that a text spells, blanks around it allowed. -/
def readTick (s : String) : Except Failure Nat :=
  match Numeral.unsigned64? (Text.trim s) with
  | some n => .ok n
  | none => .error (.transport (some ("invalid tick \x60" ++ s ++ "\x60")))

/-- What an entry records. -/
inductive EntryKind where
  | transactionStart
  | transactionCommit
  | transactionAbort
  | documentUpsert
  | documentRemove
  | other (code : Nat)
  deriving DecidableEq, Repr

def EntryKind.ofCode (code : Nat) : EntryKind :=
  if code = 2200 then .transactionStart
  else if code = 2201 then .transactionCommit
  else if code = 2202 then .transactionAbort
  else if code = 2300 then .documentUpsert
  else if code = 2302 then .documentRemove
  else .other code

/-- The transaction id of what runs outside any transaction. -/
def standaloneId : String := "0"

/-- One record of the log. -/
structure LogEntry where
  tick : Option Nat := none
  code : Nat
  transaction : String := standaloneId
  data : Json := .null
  deriving DecidableEq, Repr

namespace LogEntry

def kind (e : LogEntry) : EntryKind := .ofCode e.code

def isStandalone (e : LogEntry) : Bool := e.transaction == standaloneId

/-- What the entry says of a document. -/
def change? (e : LogEntry) : Option ChangeKind :=
  match e.kind with
  | .documentUpsert => some .createOrUpdate
  | .documentRemove => some .delete
  | _ => none

/-- The event of a document entry whose data has a usable id. -/
def toEvent? (e : LogEntry) : Option ChangeEvent := do
  let kind ← e.change?
  let id ← (e.data.member? "_id").bind Json.string?
  let (collection, _) ← splitDocumentId? id
  some { collection, document := e.data, kind, tick := e.tick }

/-- A position: a number, or a string that spells one. -/
def tickOf : Json → Option Nat
  | .string s => Numeral.unsigned64? s
  | .number n => n.toNat64?
  | _ => none

/-- A transaction id: a string, or the text of a number. -/
def transactionOf : Json → String
  | .string s => s
  | .number n => n.text
  | _ => standaloneId

/-- A code, which must fit 32 bits. -/
def codeOf? (d : Draft) : Option Nat := do
  let n ← d.number?
  (n.toNat64?).filter (· < 4294967296)

def fieldNames : List String := ["tick", "type", "tid", "data"]

/-- The entry of a draft; only the code must be there.  `depth` bounds the nesting below the
record. -/
def ofDraft? (depth : Nat) (d : Draft) : Option LogEntry :=
  match d.record? fieldNames 2 with
  | some [tick, code, transaction, data] => do
      let tick ← (tick.getD .null).value? depth
      let code ← code.bind codeOf?
      let transaction ← (transaction.getD .null).value? depth
      let data ← (data.getD .null).value? depth
      some { tick := tickOf tick, code, transaction := transactionOf transaction, data }
  | _ => none

/-- The nesting that a text leaves below a record. -/
def innerDepth : Nat := Draft.depthLimit - 1

def ofJson (v : Json) : Except Failure LogEntry :=
  match ofDraft? innerDepth v.draft with
  | some e => .ok e
  | none => .error .malformedJson

def ofLine (line : String) : Except Failure LogEntry :=
  match (Draft.parse? line).bind (ofDraft? innerDepth) with
  | some e => .ok e
  | none => .error .malformedJson

end LogEntry

/-- The lines of a batch that hold a record: trimmed, and without the blank ones. -/
def batchLines (body : String) : List String :=
  ((Text.cutAtAll '\n' body).map Text.trim).filter fun line => !line.isEmpty

/-- The entries of a batch; one line that is no entry spoils it. -/
def readBatch (body : String) : Except Failure (List LogEntry) :=
  (batchLines body).mapM LogEntry.ofLine

end Docstore
