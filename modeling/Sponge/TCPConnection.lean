import Sponge.TCPState

namespace Sponge

/-!
# The TCP connection

A connection is a receiver and a sender that share a queue of outbound segments.  It feeds
arriving segments to both, stamps what the sender wants sent with the receiver's
acknowledgment number and window, and decides when the connection is over.
-/

/-- The configuration of a connection. -/
structure TCPConfig where
  rtTimeout : UInt16 := 1000
  recvCapacity : Nat := 64000
  sendCapacity : Nat := 64000
  fixedIsn : Option WrappingInt32 := none
  deriving DecidableEq, Repr

/-- `TCPConfig::MAX_RETX_ATTEMPTS` -/
def maxRetxAttempts : Nat := 8

/-- The connection's state. -/
structure TCPConnection where
  cfg : TCPConfig
  receiver : TCPReceiver
  sender : TCPSender
  segmentsOut : List TCPSegment
  lingerAfterStreamsFinish : Bool
  actived : Bool
  timeSinceLastSegmentReceived : Int

namespace TCPConnection

/-- A fresh connection.  The two random numbers are the sender's initial sequence number when
    none is fixed, and the receiver's before a SYN has arrived. -/
def new (cfg : TCPConfig) (randSender randReceiver : WrappingInt32) : TCPConnection where
  cfg := cfg
  receiver := TCPReceiver.new cfg.recvCapacity randReceiver
  sender := TCPSender.new cfg.sendCapacity cfg.rtTimeout (cfg.fixedIsn.getD randSender)
  segmentsOut := []
  lingerAfterStreamsFinish := true
  actived := true
  timeSinceLastSegmentReceived := 0

def active (c : TCPConnection) : Bool := c.actived

def inboundStream (c : TCPConnection) : ByteStream := c.receiver.streamOut

/-- The summary of the connection's state. -/
def state (c : TCPConnection) : TCPState :=
  .ofParts c.sender c.receiver c.active c.lingerAfterStreamsFinish

/-- Put both streams into the error state and give the connection up. -/
def killConnection (c : TCPConnection) : TCPConnection :=
  { c with
    sender := { c.sender with streamIn := c.sender.streamIn.setError }
    receiver := c.receiver.setError
    actived := false
    lingerAfterStreamsFinish := false }

/-- End the connection once both streams have, after lingering where this side ended first. -/
def tryCleanShutdown (c : TCPConnection) : TCPConnection :=
  if c.inboundStream.inputEnded then
    -- the peer has ended first, so this side need not linger
    if c.sender.stateSummary = .synAcked then { c with lingerAfterStreamsFinish := false }
    else if c.sender.stateSummary = .finAcked then
      if !c.lingerAfterStreamsFinish ||
          c.timeSinceLastSegmentReceived ≥ 10 * (c.cfg.rtTimeout.toNat : Int) then
        { c with actived := false }
      else c
    else c
  else c

/-- Fill in the fields the receiver sets, with the given window. -/
def stamp (receiver : TCPReceiver) (win : UInt16) (segment : TCPSegment) : TCPSegment :=
  match receiver.ackno with
  | some ackno =>
    { segment with header := { segment.header with ack := true, ackno := ackno, win := win } }
  | none => segment

/-- The window for the peer, clamped to the 16 bits of its field. -/
def clampedWindow (receiver : TCPReceiver) : UInt16 := .ofNat (min 65535 receiver.windowSize)

/-- The window that is advertised is cut to 16 bits. -/
theorem clampedWindow_toNat (receiver : TCPReceiver) :
    (clampedWindow receiver).toNat = min 65535 receiver.windowSize := by
  rw [clampedWindow, UInt16.toNat_ofNat']
  exact Nat.mod_eq_of_lt (by omega)

/-- Move the sender's segments to the connection's own queue. -/
def fetchSegment (c : TCPConnection) : TCPConnection :=
  { c with
    segmentsOut := c.segmentsOut ++ c.sender.segmentsOut.map
      (stamp c.receiver (clampedWindow c.receiver))
    sender := { c.sender with segmentsOut := [] } }

/-- Fill the sender's window and fetch its segments. -/
def sendSegment (c : TCPConnection) : TCPConnection :=
  fetchSegment { c with sender := c.sender.fillWindow }

/-- Send a RST: the first segment of the sender's queue, an empty one if there is no other. -/
def sendRstSegment (c : TCPConnection) : TCPConnection :=
  let sender := c.sender.sendEmptySegment
  match sender.segmentsOut with
  | [] => c  -- not reached: the empty segment is in the queue
  | front :: rest =>
    let segment := { front with header := { front.header with rst := true } }
    { c with
      sender := { sender with segmentsOut := rest }
      segmentsOut := c.segmentsOut ++ [stamp c.receiver (.ofNat c.receiver.windowSize) segment]
      actived := false }

/-- The acknowledgment part of `segment_received`. -/
def receiveAck (c : TCPConnection) (seg : TCPSegment) : TCPConnection :=
  if seg.header.ack then
    { c with sender := c.sender.ackReceived seg.header.ackno seg.header.win }
  else c

/-- The answer to a segment: nothing if something is being sent anyway, an empty segment for a
    segment that occupies sequence space or asks whether the connection is alive. -/
def answer (c : TCPConnection) (seg : TCPSegment) : TCPConnection :=
  -- a segment already in the queue carries the acknowledgment
  if seg.lengthInSequenceSpace ≠ 0 then
    if c.sender.segmentsOut.isEmpty then { c with sender := c.sender.sendEmptySegment } else c
  else
    -- a keep-alive has the number before the one that is expected
    match c.receiver.ackno with
    | some ackno =>
      if seg.header.seqno = ackno.sub 1 then { c with sender := c.sender.sendEmptySegment } else c
    | none => c

/-- The part of `segment_received` after both sides have got the segment. -/
def respond (c : TCPConnection) (seg : TCPSegment) : TCPConnection :=
  if c.receiver.stateSummary = .listen then c
  else
    let c := c.tryCleanShutdown
    let c := { c with sender := c.sender.fillWindow }
    (c.answer seg).fetchSegment.tryCleanShutdown

/-- A segment has been received from the network. -/
def segmentReceived (c : TCPConnection) (seg : TCPSegment) : TCPConnection :=
  if !c.active then c
  else if seg.header.rst then c.killConnection
  else
    -- the sender gets its acknowledgment before the receiver sees the segment
    let c := { c with timeSinceLastSegmentReceived := 0 }
    let c := c.receiveAck seg
    respond { c with receiver := c.receiver.segmentReceived seg } seg

/-- Write to the outbound stream and send what the window allows; the number of bytes
    accepted is returned first. -/
def write (c : TCPConnection) (data : List UInt8) : Nat × TCPConnection :=
  ((c.sender.streamIn.write data).1,
    sendSegment
      { c with sender := { c.sender with streamIn := (c.sender.streamIn.write data).2 } })

/-- Time passes.  The clock is a 32-bit `int`. -/
def tick (c : TCPConnection) (msSinceLastTick : Nat) : TCPConnection :=
  if c.active = false then c
  else
    let c :=
      { c with
        timeSinceLastSegmentReceived :=
          (c.timeSinceLastSegmentReceived + msSinceLastTick).bmod (2 ^ 32)
        sender := c.sender.tick msSinceLastTick }
    if c.sender.consecutiveRetransmissions > maxRetxAttempts then
      -- the segment just queued again is dropped for the RST
      let c := { c with sender := { c.sender with segmentsOut := c.sender.segmentsOut.tail } }
      c.sendRstSegment.killConnection
    else c.fetchSegment.tryCleanShutdown

/-- Shut down the outbound stream. -/
def endInputStream (c : TCPConnection) : TCPConnection :=
  sendSegment { c with sender := { c.sender with streamIn := c.sender.streamIn.endInput } }

/-- Initiate the connection. -/
def connect (c : TCPConnection) : TCPConnection := c.sendSegment

/-- The destructor: a connection that is still open is reset. -/
def destroy (c : TCPConnection) : TCPConnection :=
  if c.active then c.sendRstSegment.killConnection else c

/-- Read from the inbound stream, as its reader does. -/
def read (c : TCPConnection) (len : Nat) : List UInt8 × TCPConnection :=
  ((c.receiver.read len).1, { c with receiver := (c.receiver.read len).2 })

/-- Pop from the inbound stream, as its reader does. -/
def popOutput (c : TCPConnection) (len : Nat) : TCPConnection :=
  { c with receiver := c.receiver.popOutput len }

end TCPConnection

end Sponge
