import Sponge.ByteStream
import Sponge.TCPSegment
import Sponge.Lib.Loop

namespace Sponge

/-!
# The TCP sender

The sender reads the outgoing byte stream, cuts it into segments, keeps those that are not
acknowledged yet and sends the oldest of them again when the retransmission timer expires.

Absolute sequence numbers and byte counts are natural numbers (64 bits in the source).  The
unsigned subtractions of the source stand here as subtractions of natural numbers: in every
state a sender can reach they are exact.  The timer works in 32 bits and is reduced where the
source's `unsigned int` is.
-/

/-- `TCPConfig::MAX_PAYLOAD_SIZE` -/
def maxPayloadSize : Nat := 1000

/-- The states of a sender (the last one is declared in the source and never entered). -/
inductive SenderState where
  | closed
  | synSent
  | synAcked
  | finSent
  | finsAcked
  deriving DecidableEq, Repr

/-- The sender's state. -/
structure TCPSender where
  isn : WrappingInt32
  segmentsOut : List TCPSegment
  initialRetransmissionTimeout : Nat
  streamIn : ByteStream
  nextSeqnoAbsolute : Nat
  segmentsOutstanding : List (Nat × TCPSegment)
  remainingTime : Nat
  retransmissionTimeout : Nat
  alarmRun : Bool
  bytesInFlight : Nat
  state : SenderState
  windowSize : Nat
  retransmissionCount : Nat
  deriving DecidableEq, Repr

namespace TCPSender

/-- A fresh sender; `isn` is the fixed initial sequence number or a random one. -/
def new (capacity : Nat) (retxTimeout : UInt16) (isn : WrappingInt32) : TCPSender where
  isn := isn
  segmentsOut := []
  initialRetransmissionTimeout := retxTimeout.toNat
  streamIn := ByteStream.new capacity
  nextSeqnoAbsolute := 0
  segmentsOutstanding := []
  remainingTime := 0
  retransmissionTimeout := retxTimeout.toNat
  alarmRun := false
  bytesInFlight := 0
  state := .closed
  windowSize := 1
  retransmissionCount := 0

/-- The relative sequence number of the next byte to be sent. -/
def nextSeqno (s : TCPSender) : WrappingInt32 := wrap (.ofNat s.nextSeqnoAbsolute) s.isn

def consecutiveRetransmissions (s : TCPSender) : Nat := s.retransmissionCount % 2 ^ 32

/-- Send the SYN and start the timer. -/
def sendSynSegment (s : TCPSender) : TCPSender :=
  let segment : TCPSegment := { header := { seqno := s.nextSeqno, syn := true } }
  { s with
    state := .synSent
    nextSeqnoAbsolute := 1
    bytesInFlight := 1
    alarmRun := true
    segmentsOut := s.segmentsOut ++ [segment]
    segmentsOutstanding := s.segmentsOutstanding ++ [(0, segment)] }

/-- The window a sender fills: a window of size zero is taken for one of size one. -/
def fillSize (s : TCPSender) : Nat := if s.windowSize = 0 then 1 else s.windowSize

/-- The next segment of the loop of `fill_window`, read from the outgoing stream.  The FIN
    goes along when the stream is at its end and the window has room for it. -/
def nextSegment (windowSize : Nat) (s : TCPSender) : TCPSegment :=
  let readSize := min maxPayloadSize (windowSize - s.bytesInFlight)
  let payload := (s.streamIn.read readSize).1
  let fin := (s.streamIn.read readSize).2.eof && windowSize - s.bytesInFlight > payload.length
  { header := { seqno := s.nextSeqno, fin := fin }, payload := payload }

/-- The sender after the bytes of the next segment have been read. -/
def readNext (windowSize : Nat) (s : TCPSender) : TCPSender :=
  { s with
    streamIn := (s.streamIn.read (min maxPayloadSize (windowSize - s.bytesInFlight))).2
    state := if (s.nextSegment windowSize).header.fin then .finSent else s.state }

/-- Queue a segment and remember it until it is acknowledged. -/
def push (s : TCPSender) (segment : TCPSegment) : TCPSender :=
  { s with
    segmentsOut := s.segmentsOut ++ [segment]
    segmentsOutstanding := s.segmentsOutstanding ++ [(s.nextSeqnoAbsolute, segment)]
    bytesInFlight := s.bytesInFlight + segment.lengthInSequenceSpace
    nextSeqnoAbsolute := s.nextSeqnoAbsolute + segment.lengthInSequenceSpace }

/-- One iteration of the loop of `fill_window`. -/
def fillStep (windowSize : Nat) (s : TCPSender) : ForInStep TCPSender :=
  -- the loop condition reads the state, so it ends after the FIN
  if s.state = .synAcked ∧ windowSize > s.bytesInFlight then
    let segment := s.nextSegment windowSize
    let s := s.readNext windowSize
    -- nothing to send: the bytes have been read, but there were none
    if segment.lengthInSequenceSpace = 0 then .done s else .yield (s.push segment)
  else .done s

/-- Create and send segments to fill as much of the window as possible.  An iteration that
    goes on sends at least one number, so the room in the window bounds their number. -/
def fillWindow (s : TCPSender) : TCPSender :=
  if s.state = .closed then s.sendSynSegment
  else Loop.run (fillStep s.fillSize) (s.fillSize - s.bytesInFlight) s

/-- The absolute number an acknowledgment number stands for. -/
def receivedAckno (s : TCPSender) (ackno : WrappingInt32) : Nat :=
  (unwrap ackno s.isn (.ofNat s.streamIn.bytesRead)).toNat

/-- The acknowledgment is valid: neither beyond what was sent nor before what is
    outstanding. -/
def accepts (s : TCPSender) (ackno : WrappingInt32) : Bool :=
  !(s.receivedAckno ackno > s.nextSeqnoAbsolute ||
    s.receivedAckno ackno < s.nextSeqnoAbsolute - s.bytesInFlight)

/-- The loop of `ack_received`: drop the outstanding segments that are fully acknowledged. -/
def popAcked (receivedAckno : Nat) : List (Nat × TCPSegment) → TCPSender → TCPSender
  | [], s => s
  | e :: rest, s =>
    if e.1 + e.2.lengthInSequenceSpace > receivedAckno then s
    else
      popAcked receivedAckno rest
        { s with
          bytesInFlight := s.bytesInFlight - e.2.lengthInSequenceSpace
          segmentsOutstanding := rest
          remainingTime := 0
          retransmissionTimeout := s.initialRetransmissionTimeout }

/-- The part of `ack_received` for a valid acknowledgment, up to the filling of the window. -/
def acknowledge (s : TCPSender) (receivedAckno : Nat) (windowSize : UInt16) : TCPSender :=
  let s := { s with windowSize := windowSize.toNat, retransmissionCount := 0 }
  let s := popAcked receivedAckno s.segmentsOutstanding s
  -- something has been acknowledged, and the SYN goes first
  if s.state = .synSent ∧ s.bytesInFlight < s.nextSeqnoAbsolute then { s with state := .synAcked }
  else s

/-- A new acknowledgment was received. -/
def ackReceived (s : TCPSender) (ackno : WrappingInt32) (windowSize : UInt16) : TCPSender :=
  if s.accepts ackno then
    let s := s.acknowledge (s.receivedAckno ackno) windowSize
    if s.state = .synAcked then s.fillWindow else s
  else s

/-- Time passes. -/
def tick (s : TCPSender) (msSinceLastTick : Nat) : TCPSender :=
  if s.alarmRun = false then s
  else
    let s := { s with remainingTime := (s.remainingTime + msSinceLastTick) % 2 ^ 32 }
    match s.segmentsOutstanding with
    -- with nothing outstanding the timer stays at zero
    | [] => { s with remainingTime := 0 }
    | front :: _ =>
      if s.remainingTime ≥ s.retransmissionTimeout then
        { s with
          retransmissionTimeout :=
            -- no back-off while the window is zero
            if s.windowSize ≠ 0 then s.retransmissionTimeout * 2 % 2 ^ 32
            else s.retransmissionTimeout
          segmentsOut := s.segmentsOut ++ [front.2]
          retransmissionCount := s.retransmissionCount + 1
          remainingTime := 0 }
      else s

/-- Generate an empty segment. -/
def sendEmptySegment (s : TCPSender) : TCPSender :=
  { s with segmentsOut := s.segmentsOut ++ [{ header := { seqno := s.nextSeqno } }] }

end TCPSender

end Sponge
