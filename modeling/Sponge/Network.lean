import Sponge.Endpoint

namespace Sponge

open TCPSender TCPConnection Slice

/-!
# Two connections over a network

Two endpoints `a` and `b`, and for each of them the list of all segments it has ever put on the
wire.  A delivery hands one of the peer's segments, named by its place in that list, to an
endpoint.  The list is never shortened and a delivery may name any of its members, so a segment
can be lost, delayed, reordered and duplicated, but not altered.

`System.run_linked` is the run lemma: in every run whose deliveries are `Within` what `unwrap`
can resolve, both directions keep the invariant of a flow.  `System.withinRun_of_short` gives a
condition that does not mention the deliveries: fewer than `2^31` bytes accepted on each side.
-/

/-- The two sides of the network. -/
inductive Side where
  | a
  | b
  deriving DecidableEq, Repr

/-- The other side. -/
def Side.peer : Side → Side
  | .a => .b
  | .b => .a

theorem Side.peer_peer (x : Side) : x.peer.peer = x := by
  cases x <;> rfl

/-- There are two sides. -/
theorem Side.eq_or_eq_peer (x y : Side) : y = x ∨ y = x.peer := by
  cases x <;> cases y <;> simp [Side.peer]

theorem Side.peer_ne (x : Side) : x.peer ≠ x := by
  cases x <;> simp [Side.peer]

/-- The endpoints, and what each of them has ever put on the wire. -/
structure System where
  endpoint : Side → Endpoint
  wire : Side → List Flight

/-- What can happen: a user or the clock acts on an endpoint, or the `i`-th segment of its peer
    is delivered to it. -/
inductive Move where
  | act (x : Side) (op : EndpointOp)
  | deliver (x : Side) (i : Nat)
  deriving DecidableEq, Repr

namespace System

/-- Two fresh connections, with their configurations and the random numbers drawn for their
    initial sequence numbers. -/
def start (cfg : Side → TCPConfig) (randSender randReceiver : Side → WrappingInt32) : System where
  endpoint := fun x => Endpoint.new (cfg x) (randSender x) (randReceiver x)
  wire := fun _ => []

/-- An endpoint has changed and put segments on the wire. -/
def put (sys : System) (x : Side) (res : Endpoint × List Flight) : System where
  endpoint := Function.update sys.endpoint x res.1
  wire := Function.update sys.wire x (sys.wire x ++ res.2)

/-- One move. -/
def step (sys : System) : Move → System
  | .act x op => sys.put x ((sys.endpoint x).act op)
  | .deliver x i =>
    match (sys.wire x.peer)[i]? with
    | some f => sys.put x ((sys.endpoint x).receive f.segment)
    | none => sys  -- nothing has been sent under that number yet

/-- A run of moves. -/
def run (sys : System) (moves : List Move) : System := moves.foldl step sys

/-- The numbers of a delivered segment are near the checkpoints they are unwrapped against. -/
def Within (sys : System) : Move → Prop
  | .act _ _ => True
  | .deliver x i => ∀ f, (sys.wire x.peer)[i]? = some f →
      (sys.endpoint x).Within (sys.endpoint x.peer) f

/-- Every delivery of the run is near its checkpoints. -/
def WithinRun : System → List Move → Prop
  | _, [] => True
  | sys, move :: moves => sys.Within move ∧ WithinRun (sys.step move) moves

/-! ### The invariant of a run -/

/-- Both endpoints are linked to each other. -/
def Linked (sys : System) : Prop :=
  ∀ x, Endpoint.Linked (sys.endpoint x) (sys.wire x) (sys.endpoint x.peer) (sys.wire x.peer)

variable {sys : System} {moves : List Move} {cfg : Side → TCPConfig}
  {randSender randReceiver : Side → WrappingInt32}

/-- Nothing is on the wires yet, so the sides are linked. -/
theorem start_linked (cfg : Side → TCPConfig) (randSender randReceiver : Side → WrappingInt32) :
    (start cfg randSender randReceiver).Linked :=
  fun x => ⟨Flow.start _ _ _ _ _, Flow.start _ _ _ _ _, Endpoint.new_local (cfg x) _ _⟩

/-- A change of one endpoint that keeps its flows keeps the peer's flows too: they are the same
    two. -/
theorem put_linked (h : sys.Linked) (x : Side) {res : Endpoint × List Flight}
    (hres : Endpoint.Linked res.1 (sys.wire x ++ res.2) (sys.endpoint x.peer)
      (sys.wire x.peer)) : (sys.put x res).Linked := by
  have hself : (sys.put x res).endpoint x = res.1 ∧
      (sys.put x res).wire x = sys.wire x ++ res.2 := by simp [put]
  have hpeer : (sys.put x res).endpoint x.peer = sys.endpoint x.peer ∧
      (sys.put x res).wire x.peer = sys.wire x.peer := by simp [put, x.peer_ne]
  intro y
  rcases x.eq_or_eq_peer y with rfl | rfl
  · rw [hself.1, hself.2, hpeer.1, hpeer.2]
    exact hres
  · rw [x.peer_peer, hself.1, hself.2, hpeer.1, hpeer.2]
    exact ⟨hres.incoming, hres.outgoing, (h x.peer).self⟩

/-- **Step lemma.** -/
theorem step_linked (h : sys.Linked) {move : Move} (hmove : sys.Within move) :
    (sys.step move).Linked := by
  cases move with
  | act x op => exact put_linked h x (Endpoint.act_linked (h x) op)
  | deliver x i =>
    rw [step]
    split
    · rename_i f hf
      exact put_linked h x (Endpoint.receive_linked (h x) (List.mem_of_getElem? hf) (hmove f hf))
    · exact h

/-- **Run lemma.** -/
theorem run_linked (h : sys.Linked) (hrun : sys.WithinRun moves) : (sys.run moves).Linked := by
  induction moves generalizing sys with
  | nil => exact h
  | cons move moves ih => exact ih (step_linked h hrun.1) hrun.2

/-! ### Short streams -/

/-- What a side has accepted is never taken back. -/
theorem accepted_le_step (sys : System) (move : Move) (x : Side) :
    (sys.endpoint x).accepted.length ≤ ((sys.step move).endpoint x).accepted.length := by
  have hput : ∀ (y : Side) (res : Endpoint × List Flight),
      (sys.endpoint y).accepted.length ≤ res.1.accepted.length →
        (sys.endpoint x).accepted.length ≤ ((sys.put y res).endpoint x).accepted.length := by
    intro y res hle
    -- a move of one side leaves the other alone
    by_cases hxy : x = y
    · subst hxy
      simpa [put] using hle
    · simp [put, hxy]
  cases move with
  | act y op => exact hput y _ (Endpoint.accepted_le_act _ op)
  | deliver y i =>
    rw [step]
    split
    · exact hput y _ (le_refl _)
    · exact le_refl _

/-- Nor is it in any number of steps. -/
theorem accepted_le_run (sys : System) (moves : List Move) (x : Side) :
    (sys.endpoint x).accepted.length ≤ ((sys.run moves).endpoint x).accepted.length := by
  induction moves generalizing sys with
  | nil => exact le_refl _
  | cons move moves ih => exact le_trans (accepted_le_step sys move x) (ih (sys.step move))

/-- **As long as both streams are short, every delivery is near its checkpoints.** -/
theorem withinRun_of_short (h : sys.Linked)
    (hshort : ∀ x, ((sys.run moves).endpoint x).accepted.length < 2 ^ 31) :
    sys.WithinRun moves := by
  induction moves generalizing sys with
  | nil => trivial
  | cons move moves ih =>
    -- the bytes accepted only grow, so the streams are short now if they are at the end
    have hnow : ∀ x, (sys.endpoint x).accepted.length < 2 ^ 31 := fun x =>
      lt_of_le_of_lt (accepted_le_run sys (move :: moves) x) (hshort x)
    have hmove : sys.Within move := by
      cases move with
      | act x op => trivial
      | deliver x i =>
        intro f hf
        exact Endpoint.within_of_short (h x) (List.mem_of_getElem? hf) (hnow x) (hnow x.peer)
    exact ⟨hmove, ih (step_linked h hmove) hshort⟩

end System

end Sponge
