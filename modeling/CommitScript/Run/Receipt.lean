import CommitScript.Run.Error
import CommitScript.Script.Record

/-! # Receipts

What a prover hands to a verifier: one record for each commitment and each proof, in the
order of the script. A reader takes records from the front, and takes only those with the
number of fields that is asked for.
-/

namespace CommitScript

/-- The records of a run. -/
structure Receipt where
  records : List (List String)
  deriving Repr, DecidableEq

namespace Receipt

/-- The text of a receipt, one record on each line. -/
def write (receipt : Receipt) : String :=
  String.join (receipt.records.map fun fields => Record.write fields ++ "\n")

def read (text : String) : Except RunError Receipt :=
  match (RecordCursor.ofString text).readAll with
  | .ok records => .ok { records := records.map Record.fields }
  | .error fault => .error (.script fault)

end Receipt

/-- A place in a receipt. -/
structure ReceiptReader where
  /-- The records not taken yet. -/
  unread : List (List String)
  /-- How many records have been taken. -/
  taken : Nat := 0
  deriving Repr, DecidableEq

namespace ReceiptReader

/-- The start of a receipt. -/
def ofReceipt (receipt : Receipt) : ReceiptReader :=
  { unread := receipt.records }

/-- Takes the next record, which has to have a number of fields. A record of another shape
    stays where it is. -/
def next (reader : ReceiptReader) (opcode : Opcode) (count : Nat) :
    Except RunError (List String × ReceiptReader) :=
  match reader.unread with
  | [] => .error (.underrun (reader.taken + 1) opcode)
  | fields :: rest =>
      if fields.length = count then
        .ok (fields, { unread := rest, taken := reader.taken + 1 })
      else
        .error (.malformed (reader.taken + 1) opcode count fields.length)

/-- Checks that every record has been taken. -/
def finish (reader : ReceiptReader) : Except RunError Unit :=
  if reader.unread.isEmpty then .ok () else .error (.overrun reader.unread.length)

end ReceiptReader

end CommitScript
