import Sponge.TCPReceiver
import Sponge.TCPSender

namespace Sponge

/-!
# State summaries

The names `TCPState` gives to what a sender and a receiver are doing.  They are computed from
the streams and the counters alone, not from the sender's own `state` field.

A `TCPState` is the pair of the two names with the two flags of a connection.  The states the
TCP specification has names for are given by a table, `ofState`.
-/

/-- `TCPSenderStateSummary` -/
inductive TCPSenderStateSummary where
  | error
  | closed
  | synSent
  | synAcked
  | finSent
  | finAcked
  deriving DecidableEq, Repr

/-- `TCPReceiverStateSummary` -/
inductive TCPReceiverStateSummary where
  | error
  | listen
  | synRecv
  | finRecv
  deriving DecidableEq, Repr

/-- Summarize the state of a sender. -/
def TCPSender.stateSummary (sender : TCPSender) : TCPSenderStateSummary :=
  if sender.streamIn.error then .error
  else if sender.nextSeqnoAbsolute = 0 then .closed
  else if sender.nextSeqnoAbsolute = sender.bytesInFlight then .synSent
  else if !sender.streamIn.eof then .synAcked
  else if sender.nextSeqnoAbsolute < sender.streamIn.bytesWritten + 2 then .synAcked
  else if sender.bytesInFlight ≠ 0 then .finSent
  else .finAcked

/-- Summarize the state of a receiver. -/
def TCPReceiver.stateSummary (receiver : TCPReceiver) : TCPReceiverStateSummary :=
  if receiver.streamOut.error then .error
  else if receiver.ackno = none then .listen
  else if receiver.streamOut.inputEnded then .finRecv
  else .synRecv

/-- The summary of a connection's state; two summaries are compared field by field. -/
structure TCPState where
  sender : TCPSenderStateSummary
  receiver : TCPReceiverStateSummary
  active : Bool := true
  lingerAfterStreamsFinish : Bool := true
  deriving DecidableEq, Repr

namespace TCPState

/-- The official state names from the TCP specification. -/
inductive State where
  | listen
  | synRcvd
  | synSent
  | established
  | closeWait
  | lastAck
  | finWait1
  | finWait2
  | closing
  | timeWait
  | closed
  | reset
  deriving DecidableEq, Repr

/-- The summary that corresponds to one of the official states. -/
def ofState : State → TCPState
  | .listen => { receiver := .listen, sender := .closed }
  | .synRcvd => { receiver := .synRecv, sender := .synSent }
  | .synSent => { receiver := .listen, sender := .synSent }
  | .established => { receiver := .synRecv, sender := .synAcked }
  | .closeWait => { receiver := .finRecv, sender := .synAcked, lingerAfterStreamsFinish := false }
  | .lastAck => { receiver := .finRecv, sender := .finSent, lingerAfterStreamsFinish := false }
  | .closing => { receiver := .finRecv, sender := .finSent }
  | .finWait1 => { receiver := .synRecv, sender := .finSent }
  | .finWait2 => { receiver := .synRecv, sender := .finAcked }
  | .timeWait => { receiver := .finRecv, sender := .finAcked }
  | .reset =>
    { receiver := .error, sender := .error, lingerAfterStreamsFinish := false, active := false }
  | .closed =>
    { receiver := .finRecv, sender := .finAcked, lingerAfterStreamsFinish := false
      active := false }

/-- The summary of a sender, a receiver and the two flags; the linger flag of an inactive
    connection does not show. -/
def ofParts (sender : TCPSender) (receiver : TCPReceiver) (active linger : Bool) : TCPState where
  sender := sender.stateSummary
  receiver := receiver.stateSummary
  active := active
  lingerAfterStreamsFinish := if active then linger else false

end TCPState

/-- The text of a sender's summary. -/
def TCPSenderStateSummary.text : TCPSenderStateSummary → String
  | .error => "error (connection was reset)"
  | .closed => "waiting for stream to begin (no SYN sent)"
  | .synSent => "stream started but nothing acknowledged"
  | .synAcked => "stream ongoing"
  | .finSent => "stream finished (FIN sent) but not fully acknowledged"
  | .finAcked => "stream finished and fully acknowledged"

/-- The text of a receiver's summary. -/
def TCPReceiverStateSummary.text : TCPReceiverStateSummary → String
  | .error => "error (connection was reset)"
  | .listen => "waiting for SYN: ackno is empty"
  | .synRecv => "SYN received (ackno exists), and input to stream hasn't ended"
  | .finRecv => "input to stream has ended"

/-- Summarize the state in a string. -/
def TCPState.name (state : TCPState) : String :=
  let toString (flag : Bool) := if flag then "1" else "0"
  "sender=`" ++ state.sender.text ++ "`, receiver=`" ++ state.receiver.text ++ "`, active=" ++
    toString state.active ++ ", linger_after_streams_finish=" ++
    toString state.lingerAfterStreamsFinish

end Sponge
