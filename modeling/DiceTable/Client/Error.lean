import DiceTable.Dice.Error
import DiceTable.Duration
import DiceTable.Event.Frame
import DiceTable.Session.Credentials

/-!
# What may go wrong

The errors of a client, from the connection up to the roll.  Those that the user can mend by typing
something else are input errors.
-/

namespace DiceTable

/-- The errors of a connection. -/
inductive TransportError where
  | connectFailed (reason : String)
  | connectionClosed (reason : String)
  | sendFailed (reason : String)
  | receiveFailed (reason : String)
  deriving DecidableEq, Repr

/-- The wording of an error. -/
def TransportError.message : TransportError → String
  | .connectFailed reason => "connect failed: " ++ reason
  | .connectionClosed reason => "connection closed: " ++ reason
  | .sendFailed reason => "send failed: " ++ reason
  | .receiveFailed reason => "receive failed: " ++ reason

/-- The errors of a submission. -/
inductive IngestError where
  /-- The request was not completed: the server was not found or not reached, or took too long. -/
  | request (reason : String)
  /-- The server does not take the roll. -/
  | rejected (status : Nat) (message : String)
  /-- The server's answer cannot be read. -/
  | invalidReceipt (reason : String)
  deriving DecidableEq, Repr

/-- The wording of an error. -/
def IngestError.message : IngestError → String
  | .request reason => "submission failed: " ++ reason
  | .rejected status message => "submission failed: " ++ toString status ++ " " ++ message
  | .invalidReceipt reason => "submission failed: invalid receipt: " ++ reason

/-- The fields of a request that may not be blank. -/
inductive RequestField where
  | formula
  | character
  deriving DecidableEq, Repr

/-- The name of a field. -/
def RequestField.name : RequestField → String
  | .formula => "notation"
  | .character => "character"

/-- The errors of a client. -/
inductive ClientError where
  | transport (error : TransportError)
  | protocol (error : ProtocolError)
  | dice (error : DiceError)
  | session (error : SessionError)
  | ingest (error : IngestError)
  /-- The server refused the connection. -/
  | refused (reason : String)
  /-- The connection took too long. -/
  | connectionTimeout (timeout : Duration)
  /-- A field of a request is blank. -/
  | missingField (field : RequestField)
  /-- There is no table to roll at. -/
  | notConnected
  /-- The connection was given up on request. -/
  | cancelled
  /-- The client has stopped. -/
  | clientClosed
  deriving DecidableEq, Repr

namespace ClientError

/-- The wording of an error. -/
def message : ClientError → String
  | .transport e => e.message
  | .protocol e => e.message
  | .dice e => e.message
  | .session e => e.message
  | .ingest e => e.message
  | .refused reason => "connection refused: " ++ reason
  | .connectionTimeout timeout => "connection timed out after " ++ timeout.text
  | .missingField field => field.name ++ " is required"
  | .notConnected => "not connected to a table"
  | .cancelled => "connection attempt cancelled"
  | .clientClosed => "client is shut down"

/-- Whether the user can mend the error by other input. -/
def isInputError : ClientError → Bool
  | .dice _ => true
  | .missingField _ => true
  | .session (.missingCredentials _) => true
  | _ => false

end ClientError

end DiceTable
