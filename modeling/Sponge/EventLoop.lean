import Sponge.FileDescriptor

namespace Sponge

/-!
# The event loop

An `EventLoop` holds rules.  Each names a file descriptor and a direction, and has a callback for
when the descriptor is ready, a predicate that says whether it is of interest now, and a callback
for when the rule is cancelled.  `waitNextEvent` cancels the rules whose descriptor has come to its
end, asks the kernel about the others, and calls the callbacks of those that are ready.

The callbacks share a state `σ`; `ω` is what the kernel answers to the system calls of a callback.
Rules are known by their names `ι`, and `waitNextEvent` also returns the list of the calls it has
made.

* `run_discipline` — over any number of calls, a rule is cancelled once and then never heard of
  again;
* `Contract` — the invariant rule of the event loop: what is to be shown about single callbacks so
  that it holds after every call of `waitNextEvent` and no busy wait is detected
  (`Contract.waitNextEvent_keeps`).
-/

/-- Interest in reading or in writing a polled descriptor. -/
inductive Direction where
  | input
  | output
  deriving DecidableEq, Repr

/-- What `poll` reports of a descriptor. -/
structure Revents where
  pollIn : Bool := false
  pollOut : Bool := false
  pollErr : Bool := false
  pollHup : Bool := false
  pollNval : Bool := false
  deriving DecidableEq, Repr

namespace Revents

/-- The event that was asked for is among those reported. -/
def ready (revents : Revents) : Option Direction → Bool
  | none => false
  | some .input => revents.pollIn
  | some .output => revents.pollOut

/-- An event was asked for, and a hangup is all there is. -/
def hangup (revents : Revents) (events : Option Direction) : Bool :=
  revents.pollHup && events.isSome && !revents.ready events

/-- Only what was asked for can be ready. -/
theorem isSome_of_ready {revents : Revents} {events : Option Direction}
    (h : revents.ready events = true) : events.isSome = true := by
  cases events with
  | none => cases h
  | some d => rfl

end Revents

/-- A rule of an event loop.  In the source all three functions are arbitrary closures.  Here
    `interest` looks at the state and does not change it, and `cancel` does not throw; the rules of
    a socket are of that kind. -/
structure Rule (σ ω : Type) where
  fd : σ → FileDescriptor
  direction : Direction
  callback : ω → σ → Except Exception Unit × σ
  interest : σ → Bool := fun _ => true
  cancel : σ → σ := id

namespace Rule

variable {σ ω : Type}

/-- The number of times the descriptor has been read or written. -/
def serviceCount (r : Rule σ ω) (s : σ) : UInt32 :=
  if r.direction = .input then (r.fd s).readCount else (r.fd s).writeCount

/-- The descriptor will never be ready again. -/
def ended (r : Rule σ ω) (s : σ) : Bool :=
  (r.direction = .input && (r.fd s).eof) || (r.fd s).closed

end Rule

namespace EventLoop

variable {ι σ ω : Type}

/-- The result of a call of `wait_next_event`. -/
inductive Result where
  | success
  | timeout
  | exit
  deriving DecidableEq, Repr

/-- How `poll` returns: with the time over, interrupted by a signal, with another error, or with
    what there is to be said about each descriptor, and the answers its rule's callback will get. -/
inductive PollAnswer (ω : Type) where
  | timeout
  | interrupted
  | failed
  | events (answers : List (Revents × ω))

/-- A call of a callback. -/
inductive Act (ι ω : Type) where
  | cancel (i : ι)
  | callback (i : ι) (answer : ω)
  deriving DecidableEq, Repr

/-- The rule whose callback it is. -/
def Act.rule : Act ι ω → ι
  | .cancel i => i
  | .callback i _ => i

/-- The effect of a call. -/
def perform (rule : ι → Rule σ ω) (s : σ) : Act ι ω → σ
  | .cancel i => (rule i).cancel s
  | .callback i answer => ((rule i).callback answer s).2

/-- The first loop of `wait_next_event`: rules that have ended are cancelled, the others are kept
    with the event to be asked for.  Also returned are the calls made. -/
def setUp (rule : ι → Rule σ ω) : List ι → σ → List (ι × Option Direction) × List (Act ι ω) × σ
  | [], s => ([], [], s)
  | i :: rules, s =>
    if (rule i).ended s then
      let (polled, acts, s) := setUp rule rules ((rule i).cancel s)
      (polled, .cancel i :: acts, s)
    else
      -- a rule without interest is polled too, for errors
      let events := if (rule i).interest s then some (rule i).direction else none
      let (polled, acts, s) := setUp rule rules s
      ((i, events) :: polled, acts, s)

/-- What a loop over the rules leaves behind: whether it has thrown, the rules that are left, the
    calls made, and the state. -/
structure Outcome (ε ι σ ω : Type) where
  result : Except Exception ε
  rules : List ι
  acts : List (Act ι ω)
  state : σ

/-- The outcome of a loop that has first made the call `act`. -/
def Outcome.after {ε : Type} (act : Act ι ω) (o : Outcome ε ι σ ω) : Outcome ε ι σ ω :=
  { o with acts := act :: o.acts }

/-- The outcome of a loop that has left the rule `i` behind. -/
def Outcome.keeping {ε : Type} (i : ι) (o : Outcome ε ι σ ω) : Outcome ε ι σ ω :=
  { o with rules := i :: o.rules }

/-- The exception for an error on a descriptor. -/
def pollError : Exception := .runtimeError "EventLoop: error on polled file descriptor"

/-- The exception for a callback that leaves things as they are, and would be called again. -/
def busyWait : Exception := .runtimeError
  ("EventLoop: busy wait detected: " ++ "callback did not read/write fd and is still interested")

/-- The second loop of `wait_next_event`, over the rules and what `poll` has reported of each. -/
def service (rule : ι → Rule σ ω) : List (ι × Option Direction) → List (Revents × ω) → σ →
    Outcome Unit ι σ ω
  | [], _, s => ⟨.ok (), [], [], s⟩
  | polled, [], s => ⟨.ok (), polled.map Prod.fst, [], s⟩
  | (i, events) :: polled, (revents, answer) :: answers, s =>
    let rules := i :: polled.map Prod.fst
    if revents.pollErr || revents.pollNval then ⟨.error pollError, rules, [], s⟩
    else if revents.hangup events then
      (service rule polled answers ((rule i).cancel s)).after (.cancel i)
    else if revents.ready events then
      let countBefore := (rule i).serviceCount s
      let act := .callback i answer
      match (rule i).callback answer s with
      | (.error e, s) => ⟨.error e, rules, [act], s⟩
      | (.ok _, s) =>
        if countBefore = (rule i).serviceCount s ∧ (rule i).interest s then
          ⟨.error busyWait, rules, [act], s⟩
        else ((service rule polled answers s).keeping i).after act
    else (service rule polled answers s).keeping i

/-- Ask the kernel about the rules, and call the callbacks of those that are ready. -/
def waitNextEvent (rule : ι → Rule σ ω) (rules : List ι) (poll : PollAnswer ω) (s : σ) :
    Outcome Result ι σ ω :=
  let (polled, cancelled, s) := setUp rule rules s
  let rules := polled.map Prod.fst
  if ¬ polled.any (fun p => p.2.isSome) then ⟨.ok .exit, rules, cancelled, s⟩
  else
    match poll with
    | .timeout => ⟨.ok .timeout, rules, cancelled, s⟩
    | .interrupted => ⟨.ok .exit, rules, cancelled, s⟩
    -- any other error is caught and forgotten, and nothing has been reported
    | .failed => ⟨.ok .success, rules, cancelled, s⟩
    | .events answers =>
      let o := service rule polled answers s
      ⟨o.result.map fun _ => .success, o.rules, cancelled ++ o.acts, o.state⟩

/-- Wait for events until there is nothing left to wait for, as the programs that use an event loop
    do. -/
def run (rule : ι → Rule σ ω) : List ι → List (PollAnswer ω) → σ → Outcome Result ι σ ω
  | rules, [], s => ⟨.ok .success, rules, [], s⟩
  | rules, poll :: polls, s =>
    let o := waitNextEvent rule rules poll s
    match o.result with
    | .error _ => o
    | .ok .exit => o
    | .ok _ =>
      let rest := run rule o.rules polls o.state
      { rest with acts := o.acts ++ rest.acts }

/-! ### Which callbacks are called -/

/-- The rule that is cancelled by a call. -/
def Act.cancelled : Act ι ω → Option ι
  | .cancel i => some i
  | .callback _ _ => none

/-- The outcome of a loop that stops at the rule `i` with an exception. -/
def stopped (e : Exception) (i : ι) (polled : List (ι × Option Direction)) (acts : List (Act ι ω))
    (s : σ) : Outcome Unit ι σ ω :=
  ⟨.error e, i :: polled.map Prod.fst, acts, s⟩

/-- **What becomes of the first rule**: an error is reported, it is cancelled, its callback throws
    or is found to have done nothing, or the loop goes on. -/
theorem service_cons (rule : ι → Rule σ ω) (i : ι) (events : Option Direction)
    (polled : List (ι × Option Direction)) (revents : Revents) (answer : ω)
    (answers : List (Revents × ω)) (s : σ) :
    let o := service rule ((i, events) :: polled) ((revents, answer) :: answers) s
    o = stopped pollError i polled [] s ∨
      (revents.hangup events = true ∧
        o = (service rule polled answers ((rule i).cancel s)).after (.cancel i)) ∨
      (revents.ready events = true ∧ ∃ e s', (rule i).callback answer s = (.error e, s') ∧
        o = stopped e i polled [.callback i answer] s') ∨
      (revents.ready events = true ∧ ∃ s', (rule i).callback answer s = (.ok (), s') ∧
        (rule i).serviceCount s = (rule i).serviceCount s' ∧ (rule i).interest s' = true ∧
        o = stopped busyWait i polled [.callback i answer] s') ∨
      (revents.ready events = true ∧ ∃ s', (rule i).callback answer s = (.ok (), s') ∧
        o = ((service rule polled answers s').keeping i).after (.callback i answer)) ∨
      o = (service rule polled answers s).keeping i := by
  dsimp only
  rw [service]
  -- in the order of the source: an error, a hang-up, and only then whether the rule is ready
  by_cases herr : (revents.pollErr || revents.pollNval) = true
  · rw [if_pos herr]
    exact Or.inl rfl
  rw [if_neg herr]
  by_cases hhup : revents.hangup events = true
  · rw [if_pos hhup]
    exact Or.inr (Or.inl ⟨hhup, rfl⟩)
  rw [if_neg hhup]
  by_cases hready : revents.ready events = true
  swap
  · rw [if_neg hready]
    exact Or.inr (Or.inr (Or.inr (Or.inr (Or.inr rfl))))
  rw [if_pos hready]
  refine Or.inr (Or.inr ?_)
  cases hcallback : (rule i).callback answer s with
  | mk result s' =>
    cases result with
    | error e => exact Or.inl ⟨hready, e, s', rfl, rfl⟩
    | ok u =>
      dsimp only
      -- the check for a rule that would be called again and again for nothing
      by_cases hbusy : (rule i).serviceCount s = (rule i).serviceCount s' ∧ (rule i).interest s'
      · rw [if_pos hbusy]
        exact Or.inr (Or.inl ⟨hready, s', rfl, hbusy.1, hbusy.2, rfl⟩)
      · rw [if_neg hbusy]
        exact Or.inr (Or.inr (Or.inl ⟨hready, s', rfl, rfl⟩))

section

variable {rule : ι → Rule σ ω}

/-- What is to be known of the calls of a loop over `rules`: the state is the result of the calls,
    each rule is left or cancelled, and none is called twice. -/
structure Outcome.Once {ε : Type} (rule : ι → Rule σ ω) (rules : List ι) (s : σ)
    (o : Outcome ε ι σ ω) : Prop where
  replay : o.state = o.acts.foldl (perform rule) s
  left : o.rules.Sublist rules
  called : (o.acts.map Act.rule).Sublist rules
  accounted : (o.rules ++ o.acts.filterMap Act.cancelled).Perm rules

/-- A callback that throws ends the loop; the rules are all left, its own included. -/
theorem stopped_once {e : Exception} {i : ι} {polled : List (ι × Option Direction)} {answer : ω}
    {s s' : σ} (hs : ((rule i).callback answer s).2 = s') :
    (stopped e i polled [.callback i answer] s').Once rule (i :: polled.map Prod.fst) s where
  replay := hs.symm
  left := List.Sublist.refl _
  called := List.singleton_sublist.mpr List.mem_cons_self
  accounted := .of_eq (List.append_nil _)

/-- **The second loop.**  By induction on the rules that are polled; the cases are those of
    `service_cons`. -/
theorem service_once (rule : ι → Rule σ ω) (polled : List (ι × Option Direction))
    (answers : List (Revents × ω)) (s : σ) :
    (service rule polled answers s).Once rule (polled.map Prod.fst) s := by
  -- along the rules that were polled; one case for each end of a round of the loop
  induction polled generalizing answers s with
  | nil =>
    have hnil : service rule [] answers s = ⟨.ok (), [], [], s⟩ := by rw [service]
    rw [hnil]
    exact ⟨rfl, List.Sublist.refl _, List.Sublist.refl _, List.Perm.refl _⟩
  | cons p polled ih =>
    obtain ⟨i, events⟩ := p
    cases answers with
    | nil =>
      have hnil : service rule ((i, events) :: polled) [] s
          = ⟨.ok (), ((i, events) :: polled).map Prod.fst, [], s⟩ := by rw [service]; simp
      rw [hnil]
      exact ⟨rfl, List.Sublist.refl _, List.nil_sublist _, by simp⟩
    | cons a answers =>
      obtain ⟨revents, answer⟩ := a
      rw [List.map_cons]
      rcases service_cons rule i events polled revents answer answers s with
        heq | ⟨-, heq⟩ | ⟨-, e, s', hcallback, heq⟩ | ⟨-, s', hcallback, -, -, heq⟩ |
          ⟨-, s', hcallback, heq⟩ | heq <;> rw [heq]
      · exact ⟨rfl, List.Sublist.refl _, List.nil_sublist _, by simp [stopped]⟩
      · -- a rule that is cancelled leaves the list
        obtain ⟨hreplay, hleft, hcalled, hperm⟩ := ih answers ((rule i).cancel s)
        refine ⟨hreplay, hleft.cons i, hcalled.cons_cons i, ?_⟩
        exact (List.perm_middle).trans (hperm.cons i)
      · exact stopped_once (congrArg Prod.snd hcallback)
      · exact stopped_once (congrArg Prod.snd hcallback)
      · obtain ⟨hreplay, hleft, hcalled, hperm⟩ := ih answers s'
        refine ⟨?_, hleft.cons_cons i, hcalled.cons_cons i, hperm.cons i⟩
        simp only [Outcome.after, Outcome.keeping, List.foldl_cons, perform, hcallback]
        exact hreplay
      · obtain ⟨hreplay, hleft, hcalled, hperm⟩ := ih answers s
        exact ⟨hreplay, hleft.cons_cons i, hcalled.cons i, hperm.cons i⟩

/-- The first loop calls nothing but the cancellations of the rules it drops. -/
theorem setUp_once (rule : ι → Rule σ ω) (rules : List ι) (s : σ) :
    let (polled, acts, s') := setUp rule rules s
    (⟨.ok (), polled.map Prod.fst, acts, s'⟩ : Outcome Unit ι σ ω).Once rule rules s ∧
      acts.filterMap Act.cancelled = acts.map Act.rule := by
  induction rules generalizing s with
  | nil => exact ⟨⟨rfl, List.Sublist.refl _, List.Sublist.refl _, List.Perm.refl _⟩, rfl⟩
  | cons i rules ih =>
    by_cases hended : (rule i).ended s = true
    · obtain ⟨⟨hreplay, hleft, hcalled, hperm⟩, hall⟩ := ih ((rule i).cancel s)
      rw [setUp, if_pos hended]
      refine ⟨⟨hreplay, hleft.cons i, hcalled.cons_cons i, ?_⟩, ?_⟩
      · exact (List.perm_middle).trans (hperm.cons i)
      · exact congrArg (i :: ·) hall
    · obtain ⟨⟨hreplay, hleft, hcalled, hperm⟩, hall⟩ := ih s
      rw [setUp, if_neg hended]
      exact ⟨⟨hreplay, hleft.cons_cons i, hcalled.cons i, hperm.cons i⟩, hall⟩

/-- What is to be known of any number of calls, from `rules` on: the state is their result, each
    rule is left or has been cancelled once, and a rule that has been cancelled is not called any
    more. -/
structure Outcome.Disciplined {ε : Type} (rule : ι → Rule σ ω) (rules : List ι) (s : σ)
    (o : Outcome ε ι σ ω) : Prop where
  replay : o.state = o.acts.foldl (perform rule) s
  left : o.rules.Sublist rules
  accounted : (o.rules ++ o.acts.filterMap Act.cancelled).Perm rules
  known : ∀ a ∈ o.acts, a.rule ∈ rules
  final : o.acts.Pairwise fun a b => a.cancelled ≠ some b.rule

/-- A cancelled rule is the one whose cancel callback was called. -/
theorem Act.rule_of_cancelled {a : Act ι ω} {i : ι} (h : a.cancelled = some i) : a.rule = i := by
  cases a with
  | cancel j => exact Option.some.inj h
  | callback j answer => cases h

/-- Where no rule is called twice, none is called after it has been cancelled. -/
theorem Outcome.Once.disciplined {ε : Type} {rules : List ι} {s : σ} {o : Outcome ε ι σ ω}
    (h : o.Once rule rules s) (hnodup : rules.Nodup) : o.Disciplined rule rules s where
  replay := h.replay
  left := h.left
  accounted := h.accounted
  known := fun _ ha => h.called.subset (List.mem_map_of_mem ha)
  final := by
    have hcalls : o.acts.Pairwise fun a b => a.rule ≠ b.rule :=
      List.pairwise_map.mp (h.called.nodup hnodup)
    exact hcalls.imp fun hne hcancelled => hne (Act.rule_of_cancelled hcancelled)

/-- One loop after the other, the second over the rules that the first has left. -/
theorem Outcome.Disciplined.append {ε ε' : Type} {rules : List ι} {s : σ} {o : Outcome ε ι σ ω}
    {o' : Outcome ε' ι σ ω} (hnodup : rules.Nodup) (h : o.Disciplined rule rules s)
    (h' : o'.Disciplined rule o.rules o.state) :
    ({ o' with acts := o.acts ++ o'.acts } : Outcome ε' ι σ ω).Disciplined rule rules s where
  replay := by rw [h'.replay, h.replay, List.foldl_append]
  left := h'.left.trans h.left
  accounted := by
    rw [List.filterMap_append]
    refine List.Perm.trans ?_ h.accounted
    refine List.Perm.trans ?_ (h'.accounted.append_right _)
    rw [List.append_assoc]
    exact (List.perm_append_comm).append_left o'.rules
  known := List.forall_mem_append.mpr ⟨h.known, fun a ha => h.left.subset (h'.known a ha)⟩
  final := by
    refine List.pairwise_append.mpr ⟨h.final, h'.final, fun a ha b hb hcancelled => ?_⟩
    -- a rule that was cancelled in the first loop is not among those left for the second
    have hdisjoint := List.nodup_append'.mp (h.accounted.nodup_iff.mpr hnodup)
    exact hdisjoint.2.2 (h'.known b hb) (List.mem_filterMap.mpr ⟨a, ha, hcancelled⟩)

/-- **One call of `wait_next_event`**, both loops together. -/
theorem waitNextEvent_disciplined (rule : ι → Rule σ ω) {rules : List ι} (hnodup : rules.Nodup)
    (poll : PollAnswer ω) (s : σ) : (waitNextEvent rule rules poll s).Disciplined rule rules s := by
  have hsetUp := setUp_once rule rules s
  unfold waitNextEvent
  cases heq : setUp rule rules s with
  | mk polled rest =>
    obtain ⟨acts, s'⟩ := rest
    rw [heq] at hsetUp
    have hfirst := hsetUp.1.disciplined hnodup
    -- whatever the result, the rest of the outcome is that of the first loop
    have hsame : ∀ result : Except Exception Result, (⟨result, polled.map Prod.fst, acts, s'⟩ :
        Outcome Result ι σ ω).Disciplined rule rules s := fun _ =>
      ⟨hfirst.replay, hfirst.left, hfirst.accounted, hfirst.known, hfirst.final⟩
    dsimp only
    split
    · exact hsame _
    · cases poll with
      | timeout => exact hsame _
      | interrupted => exact hsame _
      | failed => exact hsame _
      | events answers =>
        have hsecond := (service_once rule polled answers s').disciplined
          (hfirst.left.nodup hnodup)
        have hboth := hfirst.append hnodup hsecond
        exact ⟨hboth.replay, hboth.left, hboth.accounted, hboth.known, hboth.final⟩

/-- **The discipline of an event loop.**  For any rules and whatever the kernel answers in any
    number of calls of `wait_next_event`: the state is the result of the calls of callbacks that
    were made; the rules that are left are in their order; each rule is either left or has been
    cancelled, and that once; and after it no callback of the rule is called any more. -/
theorem run_discipline (rule : ι → Rule σ ω) {rules : List ι} (hnodup : rules.Nodup)
    (polls : List (PollAnswer ω)) (s : σ) :
    let o := run rule rules polls s
    o.state = o.acts.foldl (perform rule) s ∧ o.rules.Sublist rules ∧
      (o.rules ++ o.acts.filterMap Act.cancelled).Perm rules ∧
      ∀ before i after, o.acts = before ++ .cancel i :: after → ∀ a ∈ after, a.rule ≠ i := by
  intro o
  have hdisciplined : o.Disciplined rule rules s := by
    -- each wait is disciplined on the rules that the waits before have left
    induction polls generalizing rules s with
    | nil => exact ⟨rfl, List.Sublist.refl _, .of_eq (List.append_nil _), by simp [o, run],
        List.Pairwise.nil⟩
    | cons poll polls ih =>
      have hfirst := waitNextEvent_disciplined rule hnodup poll s
      have hrest := ih (hfirst.left.nodup hnodup) (waitNextEvent rule rules poll s).state
      have hboth := hfirst.append hnodup hrest
      simp only [o, run]
      split
      · exact hfirst
      · exact hfirst
      · exact hboth
  refine ⟨hdisciplined.replay, hdisciplined.left, hdisciplined.accounted, ?_⟩
  intro before i after hacts a ha hsame
  have hfinal := hdisciplined.final
  rw [hacts, List.pairwise_append] at hfinal
  exact List.rel_of_pairwise_cons hfinal.2.1 ha (congrArg some hsame.symm)

/-- Two descriptors to be read, each up to its end, which its first read finds. -/
def sampleRule (i : Bool) : Rule (FileDescriptor × FileDescriptor) Unit where
  fd := fun s => if i then s.2 else s.1
  direction := .input
  callback := fun _ s =>
    (.ok (), if i then (s.1, { s.2.registerRead with eof := true })
      else ({ s.1.registerRead with eof := true }, s.2))

/-- The first descriptor is read to its end and its rule cancelled; the second is not ready. -/
theorem run_discipline_sample :
    let o := run sampleRule [false, true] [.events [({ pollIn := true }, ())], .timeout] ({}, {})
    o.acts = [.callback false (), .cancel false] ∧
      (o.rules ++ o.acts.filterMap Act.cancelled).Perm [false, true] :=
  ⟨rfl, (run_discipline sampleRule (by decide) _ _).2.2.1⟩

/-! ### When it is over -/

/-- **The invariant rule** of an event loop with the rules `rule`.  `A` is what is assumed of the
    answers of the kernel.  `Asked i` is what the interest of the rule `i` guarantees, and `Gone i`
    what is known when it is cancelled; no other rule may undo them, since the callbacks of several
    rules can come between the question and the answer.  The exceptions of the callbacks are
    `Thrown`, and a callback that returns has read or written its descriptor or has lost
    interest. -/
structure Contract (rule : ι → Rule σ ω) (A : ω → Prop) (I : σ → Prop) (Asked Gone : ι → σ → Prop)
    (Thrown : Exception → Prop) : Prop where
  asked : ∀ i s, I s → (rule i).interest s = true → Asked i s
  gone : ∀ i s, I s → (rule i).ended s = true → Gone i s
  cancel : ∀ i s, I s → Gone i s → I ((rule i).cancel s)
  cancel_others : ∀ i s, I s → Gone i s → ∀ j, j ≠ i →
    (Asked j s → Asked j ((rule i).cancel s)) ∧ (Gone j s → Gone j ((rule i).cancel s))
  callback : ∀ i answer s, A answer → I s → Asked i s → I ((rule i).callback answer s).2
  callback_others : ∀ i answer s, A answer → I s → Asked i s → ∀ j, j ≠ i →
    (Asked j s → Asked j ((rule i).callback answer s).2) ∧
      (Gone j s → Gone j ((rule i).callback answer s).2)
  throws : ∀ i answer s e, A answer → I s → Asked i s → ((rule i).callback answer s).1 = .error e →
    Thrown e
  serves : ∀ i answer s, A answer → I s → Asked i s → ((rule i).callback answer s).1 = .ok () →
    (rule i).serviceCount s ≠ (rule i).serviceCount ((rule i).callback answer s).2 ∨
      (rule i).interest ((rule i).callback answer s).2 = false

/-- What `poll` reports can be believed: the answers are as assumed, and where a hangup is all there
    is, the rule's descriptor is at its end. -/
def Honest (A : ω → Prop) (gone : ι → Prop) :
    List (ι × Option Direction) → List (Revents × ω) → Prop
  | (i, events) :: polled, (revents, answer) :: answers =>
    A answer ∧ (revents.hangup events = true → gone i) ∧ Honest A gone polled answers
  | _, _ => True

/-- What is known of the ends of the descriptors may be weakened. -/
theorem Honest.imp {A : ω → Prop} {gone gone' : ι → Prop} {polled : List (ι × Option Direction)}
    {answers : List (Revents × ω)} (h : Honest A gone polled answers)
    (himp : ∀ i ∈ polled.map Prod.fst, gone i → gone' i) : Honest A gone' polled answers := by
  induction polled generalizing answers with
  | nil => trivial
  | cons p polled ih =>
    cases answers with
    | nil => trivial
    | cons a answers =>
      obtain ⟨hanswer, hgone, hrest⟩ := h
      rw [List.map_cons, List.forall_mem_cons] at himp
      exact ⟨hanswer, fun hhup => himp.1 (hgone hhup), ih hrest himp.2⟩

/-- A kernel that reports no hangup at all can be believed. -/
theorem Honest.of_forall {A : ω → Prop} {gone : ι → Prop} (polled : List (ι × Option Direction))
    {answers : List (Revents × ω)} (h : ∀ a ∈ answers, A a.2 ∧ a.1.pollHup = false) :
    Honest A gone polled answers := by
  induction polled generalizing answers with
  | nil => trivial
  | cons p polled ih =>
    cases answers with
    | nil => trivial
    | cons a answers =>
      rw [List.forall_mem_cons] at h
      refine ⟨h.1.1, fun hhup => ?_, ih h.2⟩
      rw [Revents.hangup, h.1.2] at hhup
      cases hhup

/-- Each rule whose event is asked for is of interest. -/
def AllAsked (asked : ι → Prop) (polled : List (ι × Option Direction)) : Prop :=
  ∀ p ∈ polled, p.2.isSome = true → asked p.1

/-- And so may what is known of the interest. -/
theorem AllAsked.imp {asked asked' : ι → Prop} {polled : List (ι × Option Direction)}
    (h : AllAsked asked polled) (himp : ∀ i ∈ polled.map Prod.fst, asked i → asked' i) :
    AllAsked asked' polled :=
  fun p hp hsome => himp p.1 (List.mem_map_of_mem hp) (h p hp hsome)

namespace Contract

variable {A : ω → Prop} {I : σ → Prop} {Asked Gone : ι → σ → Prop} {Thrown : Exception → Prop}
  (h : Contract rule A I Asked Gone Thrown)
include h

/-- The first loop keeps the invariant, and leaves those rules asked for that are of interest. -/
theorem setUp_keeps {rules : List ι} (hnodup : rules.Nodup) {s : σ} (hs : I s) :
    I (setUp rule rules s).2.2 ∧
      AllAsked (fun i => Asked i (setUp rule rules s).2.2) (setUp rule rules s).1 ∧
      ∀ j, j ∉ rules → Asked j s → Asked j (setUp rule rules s).2.2 := by
  induction rules generalizing s with
  | nil => exact ⟨hs, fun p hp => absurd hp (by simp [setUp]), fun _ _ => id⟩
  | cons i rules ih =>
    obtain ⟨hi, hrules⟩ := List.nodup_cons.mp hnodup
    by_cases hended : (rule i).ended s = true
    · have hgone := h.gone i s hs hended
      obtain ⟨hI, hasked, hothers⟩ := ih hrules (h.cancel i s hs hgone)
      rw [setUp, if_pos hended]
      refine ⟨hI, hasked, fun j hj hbefore => ?_⟩
      rw [List.mem_cons, not_or] at hj
      exact hothers j hj.2 ((h.cancel_others i s hs hgone j hj.1).1 hbefore)
    · obtain ⟨hI, hasked, hothers⟩ := ih hrules hs
      rw [setUp, if_neg hended]
      refine ⟨hI, fun p hp hsome => ?_, fun j hj => hothers j (fun hmem => hj (by simp [hmem]))⟩
      rcases List.mem_cons.mp hp with rfl | hp
      · -- the rule was of interest when it was asked, and the later cancellations keep that
        have hinterest : (rule i).interest s = true := by
          by_contra hno
          rw [if_neg hno] at hsome
          cases hsome
        exact hothers i hi (h.asked i s hs hinterest)
      · exact hasked p hp hsome

/-- The second loop keeps the invariant, and throws nothing but the exceptions of the callbacks. -/
theorem service_keeps {polled : List (ι × Option Direction)} (hnodup : (polled.map Prod.fst).Nodup)
    {answers : List (Revents × ω)} {s : σ} (hs : I s)
    (hasked : AllAsked (fun i => Asked i s) polled)
    (hhonest : Honest A (fun i => Gone i s) polled answers) :
    I (service rule polled answers s).state ∧
      ∀ e, (service rule polled answers s).result = .error e → e = pollError ∨ Thrown e := by
  induction polled generalizing answers s with
  | nil =>
    rw [service]
    exact ⟨hs, fun e he => by cases he⟩
  | cons p polled ih =>
    obtain ⟨i, events⟩ := p
    cases answers with
    | nil =>
      rw [service]
      · exact ⟨hs, fun e he => by cases he⟩
      · simp
    | cons a answers =>
      obtain ⟨revents, answer⟩ := a
      obtain ⟨hanswer, hhup, hrest⟩ := hhonest
      rw [List.map_cons, List.nodup_cons] at hnodup
      -- a rule stands once in the list, so the rules still to come are others
      have hne : ∀ j ∈ polled.map Prod.fst, j ≠ i := fun j hj heq => hnodup.1 (heq ▸ hj)
      have hothers : AllAsked (fun i => Asked i s) polled := fun p hp => hasked p (by simp [hp])
      have hthis : revents.ready events = true → Asked i s := fun hready =>
        hasked (i, events) (by simp) (Revents.isSome_of_ready hready)
      rcases service_cons rule i events polled revents answer answers s with
        heq | ⟨hhangup, heq⟩ | ⟨hready, e, s', hcallback, heq⟩ | ⟨hready, s', hcallback, hcount,
          hinterest, heq⟩ | ⟨hready, s', hcallback, heq⟩ | heq <;> rw [heq]
      · exact ⟨hs, fun e he => Or.inl (Except.error.inj he).symm⟩
      · -- a hang-up cancels this rule, and the others keep what they were asked for
        have hgone := hhup hhangup
        have hkeep := fun j hj => h.cancel_others i s hs hgone j (hne j hj)
        exact ih hnodup.2 (h.cancel i s hs hgone) (hothers.imp fun j hj => (hkeep j hj).1)
          (hrest.imp fun j hj => (hkeep j hj).2)
      · have hkept := h.callback i answer s hanswer hs (hthis hready)
        have hthrown := h.throws i answer s e hanswer hs (hthis hready) (by rw [hcallback])
        rw [hcallback] at hkept
        exact ⟨hkept, fun e' he => Or.inr (Except.error.inj he ▸ hthrown)⟩
      · -- the callback has done its work, or is of no interest any more
        have hserves := h.serves i answer s hanswer hs (hthis hready) (by rw [hcallback])
        rcases hserves with hserved | hlost
        · rw [hcallback] at hserved
          exact absurd hcount hserved
        · rw [hcallback, hinterest] at hlost
          cases hlost
      · -- the callback has returned, and the loop goes on with the state it has left
        have hkept := h.callback i answer s hanswer hs (hthis hready)
        have hkeep := fun j hj =>
          h.callback_others i answer s hanswer hs (hthis hready) j (hne j hj)
        rw [hcallback] at hkept hkeep
        exact ih hnodup.2 hkept (hothers.imp fun j hj => (hkeep j hj).1)
          (hrest.imp fun j hj => (hkeep j hj).2)
      · exact ih hnodup.2 hs hothers hrest

omit h in
/-- An invariant is added to a contract: with better answers of the kernel, and with more to be
    known of a rule that is cancelled. -/
theorem strengthen {A' : ω → Prop} {J : σ → Prop} {Gone' : ι → σ → Prop}
    (h : Contract rule A I Asked Gone Thrown) (hA : ∀ answer, A' answer → A answer)
    (hGone : ∀ i s, Gone' i s → Gone i s)
    (gone : ∀ i s, J s → (rule i).ended s = true → Gone' i s)
    (cancel : ∀ i s, I s → J s → Gone' i s → J ((rule i).cancel s))
    (cancel_others : ∀ i s j, j ≠ i → Gone' j s → Gone' j ((rule i).cancel s))
    (callback : ∀ i answer s, A' answer → I s → J s → Asked i s →
      J ((rule i).callback answer s).2)
    (callback_others : ∀ i answer s j, j ≠ i → Gone' j s → Gone' j ((rule i).callback answer s).2) :
    Contract rule A' (fun s => I s ∧ J s) Asked Gone' Thrown where
  asked := fun i s hs => h.asked i s hs.1
  gone := fun i s hs => gone i s hs.2
  cancel := fun i s hs hgone => ⟨h.cancel i s hs.1 (hGone i s hgone), cancel i s hs.1 hs.2 hgone⟩
  cancel_others := fun i s hs hgone j hj =>
    ⟨(h.cancel_others i s hs.1 (hGone i s hgone) j hj).1, cancel_others i s j hj⟩
  callback := fun i answer s hanswer hs hasked =>
    ⟨h.callback i answer s (hA answer hanswer) hs.1 hasked,
      callback i answer s hanswer hs.1 hs.2 hasked⟩
  callback_others := fun i answer s hanswer hs hasked j hj =>
    ⟨(h.callback_others i answer s (hA answer hanswer) hs.1 hasked j hj).1,
      callback_others i answer s j hj⟩
  throws := fun i answer s e hanswer hs => h.throws i answer s e (hA answer hanswer) hs.1
  serves := fun i answer s hanswer hs => h.serves i answer s (hA answer hanswer) hs.1

end Contract

/-- The answer of `poll` can be believed. -/
def PollAnswer.Honest (rule : ι → Rule σ ω) (A : ω → Prop) (Gone : ι → σ → Prop) (rules : List ι)
    (s : σ) : PollAnswer ω → Prop
  | .events answers =>
    EventLoop.Honest A (fun i => Gone i (setUp rule rules s).2.2) (setUp rule rules s).1 answers
  | _ => True

/-- Nothing has to be believed where nothing is assumed. -/
theorem PollAnswer.honest_trivial (rules : List ι) (s : σ) (poll : PollAnswer ω) :
    poll.Honest rule (fun _ => True) (fun _ _ => True) rules s := by
  cases poll with
  | events answers =>
    show EventLoop.Honest _ _ (setUp rule rules s).1 answers
    generalize (setUp rule rules s).1 = polled
    induction polled generalizing answers with
    | nil => trivial
    | cons p polled ih =>
      cases answers with
      | nil => trivial
      | cons a answers => exact ⟨trivial, fun _ => trivial, ih answers⟩
  | timeout => trivial
  | interrupted => trivial
  | failed => trivial

/-- **What a call of `wait_next_event` keeps.**  With rules that keep the contract, the invariant
    holds afterwards, also when an exception is thrown; and none is thrown but those of the
    callbacks and the one for an error on a descriptor.  In particular no busy wait is detected. -/
theorem Contract.waitNextEvent_keeps {A : ω → Prop} {I : σ → Prop} {Asked Gone : ι → σ → Prop}
    {Thrown : Exception → Prop} (h : Contract rule A I Asked Gone Thrown) {rules : List ι}
    (hnodup : rules.Nodup) {poll : PollAnswer ω} {s : σ} (hs : I s)
    (hhonest : poll.Honest rule A Gone rules s) :
    I (waitNextEvent rule rules poll s).state ∧
      ∀ e, (waitNextEvent rule rules poll s).result = .error e → e = pollError ∨ Thrown e := by
  obtain ⟨hI, hasked, -⟩ := h.setUp_keeps hnodup hs
  have hleft := ((setUp_once rule rules s).1.left).nodup hnodup
  unfold waitNextEvent
  dsimp only
  split
  · exact ⟨hI, fun e he => by cases he⟩
  · cases poll with
    | timeout => exact ⟨hI, fun e he => by cases he⟩
    | interrupted => exact ⟨hI, fun e he => by cases he⟩
    | failed => exact ⟨hI, fun e he => by cases he⟩
    | events answers =>
      -- only the second loop can throw
      obtain ⟨hkept, hthrown⟩ := h.service_keeps hleft hI hasked hhonest
      refine ⟨hkept, fun e he => hthrown e ?_⟩
      dsimp only at he
      generalize service rule (setUp rule rules s).1 answers (setUp rule rules s).2.2 = o at he ⊢
      cases hresult : o.result with
      | error e' =>
        rw [hresult] at he
        exact congrArg Except.error (Except.error.inj he)
      | ok u =>
        rw [hresult] at he
        cases he

end

end EventLoop

end Sponge
